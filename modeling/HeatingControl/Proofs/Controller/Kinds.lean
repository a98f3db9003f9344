import HeatingControl.Proofs.Controller.Atomicity
import HeatingControl.Proofs.Controller.Forms

/-!
# Kinds of the stored values

A submitted value is checked by its text and stored as it is. So a text that spells a number can
be stored for a number, and a number for a text: values keep the kinds of their parameters as long
as those that are submitted have them, as those of a form do.
-/
namespace HeatingControl

def ParameterValue.kind : ParameterValue → ParameterKind
  | .integer _ => .number
  | .text _ => .string

theorem ParameterValue.kind_of_parse {id raw : String} {kind : ParameterKind}
    {value : ParameterValue} (h : parse id kind raw = .ok value) : value.kind = kind := by
  cases kind with
  | string =>
    cases h
    rfl
  | number =>
    simp only [parse] at h
    split at h
    · cases h
      rfl
    · cases h

theorem HardwareParameter.kept_iff {p : HardwareParameter} : p.Kept ↔ p.value.kind = p.kind := by
  constructor
  · exact ParameterValue.kind_of_parse
  · intro hkind
    rw [Kept, ← hkind]
    cases p.value with
    | integer i => exact ParameterValue.parse_integer p.id i
    | text s => rfl

/-- The values that come to be stored are of the kinds of their parameters. -/
def HardwareSettings.Suits (settings : HardwareSettings) (parameters : List HardwareParameter) :
    Prop :=
  ∀ p ∈ parameters, ∀ value, State.lastValue? settings.values p.id = some value →
    value.kind = p.kind

theorem HardwareSettings.suits_of_form {board : HardwareId} {fields : List (String × String)}
    {parameters : List HardwareParameter} {settings : HardwareSettings}
    (hn : (parameters.map (·.id)).Nodup) (hkinds : ∀ p ∈ parameters, p.value.kind = p.kind)
    (h : ofForm board fields parameters = .ok settings) : settings.Suits parameters := by
  obtain ⟨hfits, rfl⟩ := ofForm_ok_iff.mp h
  intro p hp value hvalue
  rw [State.lastValue?_map (fun p => (filled fields p).value) hn hp, Option.some.injEq] at hvalue
  subst hvalue
  have hkept := filled_kept (hfits p hp) (HardwareParameter.kept_iff.mpr (hkinds p hp))
  have hkind : (filled fields p).kind = p.kind := congrArg (·.2.2) (filled_schema fields p)
  rw [← hkind]
  exact HardwareParameter.kept_iff.mp hkept

namespace State

def KindsKept (s : State) : Prop := ∀ e ∈ s.parameters, ∀ p ∈ e.2, p.value.kind = p.kind

instance (s : State) : Decidable s.KindsKept :=
  inferInstanceAs (Decidable (∀ e ∈ s.parameters, ∀ p ∈ e.2, p.value.kind = p.kind))

theorem valuesKept_iff {s : State} : s.ValuesKept ↔ s.KindsKept := by
  constructor
  · intro h e he p hp
    exact HardwareParameter.kept_iff.mp (h e he p hp)
  · intro h e he p hp
    exact HardwareParameter.kept_iff.mpr (h e he p hp)

section Applying

variable {s : State} {settings : HardwareSettings}

theorem applyHardware_ok (h : (applyHardware settings s).1 = .ok ()) :
    ∃ parameters, Table.get? settings.hardware s.parameters = some parameters ∧
      checkValues parameters settings.values = .ok () ∧
      (applyHardware settings s).2 = { s with
        parameters := Table.adjust settings.hardware
          (fun ps => settings.values.foldl storeValue ps) s.parameters
        hardware := { s.hardware with current := some settings.hardware } } := by
  unfold applyHardware at h ⊢
  split at h
  · cases h
  · rename_i parameters hfound
    split at h
    · cases h
    · rename_i hchecked
      refine ⟨parameters, hfound, hchecked, ?_⟩
      rfl

/-- The check of the values lets a value of another kind through; what is stored then tells. -/
theorem applyHardware_kindsKept (hs : BoardsKept s) (hkinds : s.KindsKept)
    (h : (applyHardware settings s).1 = .ok ()) :
    ∃ parameters, Table.get? settings.hardware s.parameters = some parameters ∧
      ((applyHardware settings s).2.KindsKept ↔ settings.Suits parameters) := by
  obtain ⟨parameters, hfound, -, hstate⟩ := applyHardware_ok h
  have hmem := Table.mem_of_get? hfound
  have hids := hs.ids_distinct hmem
  rw [hstate]
  refine ⟨parameters, hfound, ?_⟩
  constructor
  · intro hafter p hp value hvalue
    have hstored : (settings.hardware, settings.values.foldl storeValue parameters) ∈
        Table.adjust settings.hardware (fun ps => settings.values.foldl storeValue ps)
          s.parameters := by
      apply Table.mem_of_get?
      rw [Table.get?_adjust, hfound]
      rfl
    rw [storeValues_eq _ hids] at hstored
    have hkind := hafter _ hstored _ (List.mem_map_of_mem hp)
    simpa only [hvalue, Option.getD_some] using hkind
  · intro hsuits e he
    rcases Table.mem_adjust (f := (settings.values.foldl storeValue ·)) he with he | ⟨ps, hps, rfl⟩
    · exact hkinds e he
    · have hsame := Table.get?_of_mem hs.keys_distinct hps
      rw [hfound, Option.some.injEq] at hsame
      subst hsame
      rw [storeValues_eq _ hids]
      intro q hq
      obtain ⟨p, hp, rfl⟩ := List.mem_map.mp hq
      cases hvalue : lastValue? settings.values p.id with
      | none => exact hkinds _ hmem p hp
      | some value => exact hsuits p hp value hvalue

end Applying

section Runs

variable {grace : Nat} {s : State}

/-- A run in which the values that are submitted for the parameters of a board are of their
kinds. -/
inductive SuitedRun (grace : Nat) : State → Prop where
  | seeded (now : Nat) : SuitedRun grace (.seeded now)
  | step {s : State} (t : Moment) (c : Call)
      (suited : ∀ settings, c = .operation (.applyHardware settings) →
        ∀ parameters, Table.get? settings.hardware s.parameters = some parameters →
          settings.Suits parameters)
      (h : SuitedRun grace s) : SuitedRun grace (step grace t c s).2

theorem SuitedRun.reachable (h : SuitedRun grace s) : Reachable grace s := by
  induction h with
  | seeded now => exact .seeded now
  | step t c _ _ ih => exact .step t c ih

theorem boot_kindsKept (now : Nat) : (s.boot now).KindsKept ↔ s.KindsKept := by
  rw [KindsKept, KindsKept, boot_parameters]

theorem step_parameters (t : Moment) {c : Call}
    (h : ∀ settings, c ≠ .operation (.applyHardware settings)) :
    (step grace t c s).2.parameters = s.parameters := by
  have hboot := boot_parameters t.now s
  by_cases honline : s.OnlineAt t.now
  · rw [step_of_online honline, ← hboot]
    cases c with
    | operation op =>
      apply perform_parameters
      rintro settings rfl
      exact h settings rfl
    | addPlanning name =>
      have hother : ∀ settings, Operation.createPlanning name ≠ .applyHardware settings := nofun
      exact perform_parameters _ grace t hother
    | addSlot planning slot =>
      have hother : ∀ settings, Operation.createSlot planning slot ≠ .applyHardware settings :=
        nofun
      exact perform_parameters _ grace t hother
  · rw [step_of_offline honline]
    exact hboot

/-- Whether the kinds are kept when settings are accepted depends on what is submitted last for
each parameter. -/
theorem step_kindsKept (h : Reachable grace s) (hkinds : s.KindsKept) (t : Moment)
    {settings : HardwareSettings}
    (hok : (step grace t (.operation (.applyHardware settings)) s).1 = .ok ()) :
    ∃ parameters, Table.get? settings.hardware s.parameters = some parameters ∧
      ((step grace t (.operation (.applyHardware settings)) s).2.KindsKept ↔
        settings.Suits parameters) := by
  have honline := onlineAt_of_ok hok
  rw [step_of_online honline] at hok ⊢
  have hboards := h.boards.boot t.now
  obtain ⟨parameters, hfound, hiff⟩ :=
    applyHardware_kindsKept hboards ((boot_kindsKept t.now).mpr hkinds) hok
  rw [boot_parameters] at hfound
  exact ⟨parameters, hfound, hiff⟩

theorem SuitedRun.kindsKept (h : SuitedRun grace s) : s.KindsKept := by
  induction h with
  | seeded now =>
    have hseed : ∀ e ∈ Seed.parameters, ∀ p ∈ e.2, p.value.kind = p.kind := by decide
    exact hseed
  | @step s t c suited hrun ih =>
    by_cases happlied : ∃ settings, c = .operation (.applyHardware settings)
    · obtain ⟨settings, rfl⟩ := happlied
      cases hr : (State.step grace t (.operation (.applyHardware settings)) s).1 with
      | ok =>
        obtain ⟨parameters, hfound, hiff⟩ := step_kindsKept hrun.reachable ih t hr
        exact hiff.mpr (suited settings rfl parameters hfound)
      | error e =>
        rw [step_error_state hrun.reachable.integrity hr]
        exact (boot_kindsKept t.now).mpr ih
    · rw [KindsKept, step_parameters t fun settings hc => happlied ⟨settings, hc⟩]
      exact ih

end Runs

/-- A text that spells a number is stored for a number. -/
theorem number_stored_as_text :
    let t : Moment := ⟨0, ⟨.monday, 8, 0⟩⟩
    let settings : HardwareSettings := ⟨⟨"OFP-10Z"⟩, [("dummy1", .text "12")]⟩
    let s := (step 10 t (.operation (.applyHardware settings)) (seeded 0)).2
    Reachable 10 s ∧ Table.get? ⟨"OFP-10Z"⟩ s.parameters =
      some [⟨"dummy1", "dummy number", .number, .text "12"⟩,
        ⟨"dummy2", "dummy string", .string, .text "blah"⟩] ∧ ¬ s.KindsKept := by
  intro t settings s
  have hstored : Table.get? ⟨"OFP-10Z"⟩ s.parameters =
      some [⟨"dummy1", "dummy number", .number, .text "12"⟩,
        ⟨"dummy2", "dummy string", .string, .text "blah"⟩] := by rfl
  refine ⟨.step t _ (.seeded 0), hstored, ?_⟩
  intro hkinds
  have hkind := hkinds _ (Table.mem_of_get? hstored) _ (List.mem_cons_self ..)
  cases hkind

/-- In every state of a run the parameters are those of the seeded state but for their values,
and the text of every value can be read for the kind of its parameter. No call but one that
applies settings touches them, and that one only if it is accepted. From values of the right kinds
it leaves such values just if those that are submitted last are. -/
theorem run_keeps_parameters {grace : Nat} {s : State} (h : Reachable grace s) :
    State.schemas s.parameters = State.schemas Seed.parameters ∧
    (∀ e ∈ s.parameters, ∀ p ∈ e.2, p.Readable) ∧
    ∀ t : Moment,
      (∀ c, (∀ settings, c ≠ .operation (.applyHardware settings)) →
        (step grace t c s).2.parameters = s.parameters) ∧
      ∀ settings, let r := step grace t (.operation (.applyHardware settings)) s
        (∀ e, r.1 = .error e → r.2.parameters = s.parameters) ∧
        (r.1 = .ok () → s.KindsKept →
          ∃ parameters, Table.get? settings.hardware s.parameters = some parameters ∧
            (r.2.KindsKept ↔ settings.Suits parameters)) := by
  have hboards := h.boards
  refine ⟨hboards.schemas, hboards.readable, ?_⟩
  intro t
  constructor
  · intro c hc
    exact step_parameters t hc
  · intro settings
    constructor
    · intro e he
      rw [step_error_state h.integrity he]
      exact boot_parameters t.now s
    · intro hok hkinds
      exact step_kindsKept h hkinds t hok

/-- A number and a text are submitted twice each, the first time with a value of the other kind:
what is stored is of the right kinds. -/
theorem last_values_of_their_kinds :
    let t : Moment := ⟨0, ⟨.monday, 8, 0⟩⟩
    let settings : HardwareSettings := ⟨⟨"OFP-10Z"⟩,
      [("dummy1", .text " 12 "), ("dummy2", .integer 5), ("dummy1", .integer 7),
        ("dummy2", .text "new")]⟩
    let s := (step 10 t (.operation (.applyHardware settings)) (seeded 0)).2
    Reachable 10 s ∧ s.KindsKept ∧ State.schemas s.parameters = State.schemas Seed.parameters ∧
      (step 10 t (.operation (.getHardwareParameters ⟨"OFP-10Z"⟩)) s).2.parameters =
        s.parameters := by
  intro t settings s
  have hstart : Reachable 10 (seeded 0) := .seeded 0
  have hrun : Reachable 10 s := .step t _ hstart
  have hseeded : (seeded 0).KindsKept := SuitedRun.kindsKept (.seeded 0 : SuitedRun 10 (seeded 0))
  obtain ⟨-, -, hsteps⟩ := run_keeps_parameters hstart
  have haccepted : (step 10 t (.operation (.applyHardware settings)) (seeded 0)).1 = .ok () := by
    decide +kernel
  obtain ⟨parameters, hfound, hiff⟩ := ((hsteps t).2 settings).2 haccepted hseeded
  have hboard : Table.get? ⟨"OFP-10Z"⟩ (seeded 0).parameters =
      some [⟨"dummy1", "dummy number", .number, .integer 69⟩,
        ⟨"dummy2", "dummy string", .string, .text "blah"⟩] := by decide +kernel
  obtain rfl : _ = parameters := Option.some.inj (hboard.symm.trans hfound)
  have hsuits : settings.Suits [⟨"dummy1", "dummy number", .number, .integer 69⟩,
      ⟨"dummy2", "dummy string", .string, .text "blah"⟩] := by
    intro p hp value hvalue
    simp only [List.mem_cons, List.not_mem_nil, or_false] at hp
    rcases hp with rfl | rfl
    · cases hvalue
      rfl
    · cases hvalue
      rfl
  obtain ⟨hschemas, -, hnext⟩ := run_keeps_parameters hrun
  exact ⟨hrun, hiff.mpr hsuits, hschemas, (hnext t).1 _ nofun⟩

end State
end HeatingControl
