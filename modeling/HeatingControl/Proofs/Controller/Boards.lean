import HeatingControl.Proofs.Controller.Integrity
import HeatingControl.Proofs.Text.Cut
import HeatingControl.Proofs.Text.Numeral

/-!
# Boards during a run

Runs change the values of parameters and nothing else about them, and every value that is kept
suits its parameter. A form that is accepted gives every parameter of a board its value at once.
-/
namespace HeatingControl

def HardwareParameter.schema (p : HardwareParameter) : String × String × ParameterKind :=
  (p.id, p.description, p.kind)

theorem HardwareParameter.set_value {p q : HardwareParameter} (h : q.schema = p.schema)
    (value : ParameterValue) : { q with value := value } = { p with value := value } := by
  cases p
  cases q
  simp only [schema, Prod.mk.injEq] at h
  obtain ⟨rfl, rfl, rfl⟩ := h
  rfl

def HardwareParameter.Readable (p : HardwareParameter) : Prop :=
  ∃ value, ParameterValue.parse p.id p.kind p.value.display = .ok value

theorem ParameterValue.parse_integer (id : String) (i : Int64) :
    parse id .number (display (.integer i)) = .ok (.integer i) := by
  have hkeep : Text.trim (Text.intText i.toInt) = Text.intText i.toInt := by
    refine Text.trim_of_no_blank ?_
    rw [Text.intText, String.toList_ofList]
    exact Text.intDigits_no_blank _
  simp only [parse, display, hkeep]
  rw [Text.intText, String.toList_ofList, Text.readInt64_intDigits]

theorem ParameterValue.parse_display {id raw : String} {kind : ParameterKind}
    {value : ParameterValue} (h : parse id kind raw = .ok value) (id' : String) :
    parse id' kind value.display = .ok value := by
  cases kind with
  | string =>
    cases h
    rfl
  | number =>
    simp only [parse] at h
    split at h
    · cases h
      exact parse_integer id' _
    · cases h

namespace HardwareSettings

variable {fields : List (String × String)} {p : HardwareParameter}

def filled (fields : List (String × String)) (p : HardwareParameter) : HardwareParameter :=
  match valueFor fields p with
  | .ok v => { p with value := v.2 }
  | .error _ => p

def Fits (fields : List (String × String)) (p : HardwareParameter) : Prop :=
  ∀ raw, field? fields p.id = some raw → ∃ value, ParameterValue.parse p.id p.kind raw = .ok value

theorem Fits.congr {q : HardwareParameter} (h : Fits fields p) (hq : q.schema = p.schema) :
    Fits fields q := by
  have hid : q.id = p.id := congrArg (·.1) hq
  have hkind : q.kind = p.kind := congrArg (·.2.2) hq
  intro raw hraw
  rw [hid] at hraw
  rw [hid, hkind]
  exact h raw hraw

theorem valueFor_of_fits (h : Fits fields p) :
    valueFor fields p = .ok (p.id, (filled fields p).value) := by
  unfold filled valueFor
  cases hfield : field? fields p.id with
  | none => rfl
  | some raw =>
    obtain ⟨value, hvalue⟩ := h raw hfield
    simp [hvalue, Except.map]

theorem fits_of_valueFor {v : String × ParameterValue} (h : valueFor fields p = .ok v) :
    Fits fields p := by
  intro raw hraw
  simp only [valueFor, hraw] at h
  cases hparse : ParameterValue.parse p.id p.kind raw with
  | ok value => exact ⟨value, rfl⟩
  | error e => simp [hparse, Except.map] at h

@[simp] theorem filled_schema (fields : List (String × String)) (p : HardwareParameter) :
    (filled fields p).schema = p.schema := by
  unfold filled
  split <;> rfl

theorem filled_of_submitted {raw : String} {value : ParameterValue}
    (hraw : field? fields p.id = some raw)
    (hvalue : ParameterValue.parse p.id p.kind raw = .ok value) :
    filled fields p = { p with value := value } := by
  simp [filled, valueFor, hraw, hvalue, Except.map]

theorem filled_of_absent (h : field? fields p.id = none) : filled fields p = p := by
  simp [filled, valueFor, h]

theorem filled_eq (fields : List (String × String)) (p : HardwareParameter) :
    { p with value := (filled fields p).value } = filled fields p := by
  unfold filled
  split <;> rfl

theorem filled_readable (h : Fits fields p) (hp : p.Readable) : (filled fields p).Readable := by
  unfold filled valueFor
  cases hfield : field? fields p.id with
  | none => exact hp
  | some raw =>
    obtain ⟨value, hvalue⟩ := h raw hfield
    simp only [hvalue, Except.map]
    exact ⟨value, ParameterValue.parse_display hvalue _⟩

private theorem mapM_valueFor {parameters : List HardwareParameter}
    {values : List (String × ParameterValue)} :
    parameters.mapM (valueFor fields) = .ok values ↔
      (∀ p ∈ parameters, Fits fields p) ∧
        values = parameters.map fun p => (p.id, (filled fields p).value) := by
  induction parameters generalizing values with
  | nil => simp [pure, Except.pure, eq_comm]
  | cons p parameters ih =>
    rw [List.mapM_cons]
    cases hvalue : valueFor fields p with
    | error e =>
      have hunfit : ¬ Fits fields p := fun h => by simp [valueFor_of_fits h] at hvalue
      simp [bind, Except.bind, hunfit]
    | ok v =>
      have hfits := fits_of_valueFor hvalue
      obtain rfl : (p.id, (filled fields p).value) = v :=
        Except.ok.inj ((valueFor_of_fits hfits).symm.trans hvalue)
      cases hrest : parameters.mapM (valueFor fields) with
      | error e =>
        have hunfit : ¬ ∀ p ∈ parameters, Fits fields p := fun h => by
          have := ih.mpr ⟨h, rfl⟩
          rw [hrest] at this
          cases this
        simp [bind, Except.bind, hfits, hunfit]
      | ok vs =>
        obtain ⟨hall, rfl⟩ := ih.mp hrest
        rw [and_iff_right (List.forall_mem_cons.mpr ⟨hfits, hall⟩)]
        simp [bind, Except.bind, pure, Except.pure, eq_comm]

/-- A form is accepted if all that it submits fits, and then gives every parameter a value. -/
theorem ofForm_ok_iff {board : HardwareId} {parameters : List HardwareParameter}
    {settings : HardwareSettings} :
    ofForm board fields parameters = .ok settings ↔
      (∀ p ∈ parameters, Fits fields p) ∧
        settings = ⟨board, parameters.map fun p => (p.id, (filled fields p).value)⟩ := by
  unfold ofForm
  cases hmap : parameters.mapM (valueFor fields) with
  | error e =>
    have hunfit : ¬ ∀ p ∈ parameters, Fits fields p := fun h => by
      rw [mapM_valueFor.mpr ⟨h, rfl⟩] at hmap
      cases hmap
    simp [Except.map, hunfit]
  | ok values =>
    obtain ⟨hall, rfl⟩ := mapM_valueFor.mp hmap
    rw [and_iff_right hall]
    simp [Except.map, eq_comm]

end HardwareSettings

namespace State

section Storing

variable {parameters : List HardwareParameter}

theorem storeValue_schema (parameters : List HardwareParameter) (v : String × ParameterValue) :
    (storeValue parameters v).map (·.schema) = parameters.map (·.schema) :=
  Table.map_updateFirst (f := fun p : HardwareParameter => { p with value := v.2 })
    (fun _ _ => rfl) parameters

theorem storeValues_schema (values : List (String × ParameterValue)) :
    ∀ parameters : List HardwareParameter,
      (values.foldl storeValue parameters).map (·.schema) = parameters.map (·.schema) := by
  induction values with
  | nil => exact fun _ => rfl
  | cons v values ih =>
    intro parameters
    rw [List.foldl_cons, ih, storeValue_schema]

private theorem ids_of_schema {ps qs : List HardwareParameter}
    (h : ps.map (·.schema) = qs.map (·.schema)) : ps.map (·.id) = qs.map (·.id) := by
  have := congrArg (List.map (·.1)) h
  rwa [List.map_map, List.map_map] at this

/-- The check of a value looks at the id and the kind of the parameter alone. -/
theorem checkValue_congr {ps qs : List HardwareParameter}
    (h : ps.map (·.schema) = qs.map (·.schema)) (v : String × ParameterValue) :
    checkValue ps v = checkValue qs v := by
  induction ps generalizing qs with
  | nil =>
    cases qs with
    | nil => rfl
    | cons q qs => simp at h
  | cons p ps ih =>
    cases qs with
    | nil => simp at h
    | cons q qs =>
      simp only [List.map_cons, List.cons.injEq] at h
      obtain ⟨hhead, hrest⟩ := h
      have hid : p.id = q.id := congrArg (·.1) hhead
      have hkind : p.kind = q.kind := congrArg (·.2.2) hhead
      by_cases hv : q.id = v.1
      · simp [checkValue, hid, hv, hkind]
      · simpa [checkValue, hid, hv] using ih hrest

theorem checkValues_ok_iff {values : List (String × ParameterValue)} :
    checkValues parameters values = .ok () ↔ ∀ v ∈ values, checkValue parameters v = .ok () := by
  induction values with
  | nil => simp [checkValues]
  | cons v values ih =>
    cases hv : checkValue parameters v with
    | error e => simp [checkValues, hv]
    | ok => simp [checkValues, hv, ih]

theorem checkValue_ok {p : HardwareParameter} {value : ParameterValue}
    (hn : (parameters.map (·.id)).Nodup) (hp : p ∈ parameters)
    (h : ∃ stored, ParameterValue.parse p.id p.kind value.display = .ok stored) :
    checkValue parameters (p.id, value) = .ok () := by
  obtain ⟨stored, hstored⟩ := h
  simp [checkValue, Table.find?_of_mem hn hp, hstored, Except.map]

theorem storeValue_readable {v : String × ParameterValue} (hn : (parameters.map (·.id)).Nodup)
    (h : ∀ p ∈ parameters, p.Readable) (hv : checkValue parameters v = .ok ()) :
    ∀ p ∈ storeValue parameters v, p.Readable := by
  intro p hp
  rcases Table.mem_updateFirst hp with hp | ⟨q, hq, hfits, rfl⟩
  · exact h p hp
  · have hid : q.id = v.1 := by simpa using hfits
    simp only [checkValue, ← hid, Table.find?_of_mem hn hq] at hv
    cases hparse : ParameterValue.parse q.id q.kind v.2.display with
    | ok stored => exact ⟨stored, hparse⟩
    | error e => simp [hparse, Except.map] at hv

theorem storeValues_readable {values : List (String × ParameterValue)}
    (hn : (parameters.map (·.id)).Nodup) (h : ∀ p ∈ parameters, p.Readable)
    (hv : ∀ v ∈ values, checkValue parameters v = .ok ()) :
    ∀ p ∈ values.foldl storeValue parameters, p.Readable := by
  induction values generalizing parameters with
  | nil => exact h
  | cons v values ih =>
    have hschema := storeValue_schema parameters v
    refine ih (ids_of_schema hschema ▸ hn)
      (storeValue_readable hn h (hv v (List.mem_cons_self ..))) fun w hw => ?_
    rw [checkValue_congr hschema]
    exact hv w (List.mem_cons_of_mem _ hw)

/-- The last one of the values for a parameter. -/
def lastValue? (values : List (String × ParameterValue)) (id : String) : Option ParameterValue :=
  (values.reverse.find? fun v => v.1 = id).map (·.2)

theorem lastValue?_cons (v : String × ParameterValue) (values : List (String × ParameterValue))
    (id : String) : lastValue? (v :: values) id =
      (lastValue? values id).or (if v.1 = id then some v.2 else none) := by
  rw [lastValue?, lastValue?, List.reverse_cons, List.find?_append, Option.map_or]
  by_cases hv : v.1 = id
  · simp [hv]
  · simp [hv]

theorem lastValue?_map (value : HardwareParameter → ParameterValue)
    (hn : (parameters.map (·.id)).Nodup) {p : HardwareParameter} (hp : p ∈ parameters) :
    lastValue? (parameters.map fun p => (p.id, value p)) p.id = some (value p) := by
  have hreverse : (parameters.reverse.map (·.id)).Nodup := by
    rw [List.map_reverse, List.Nodup, List.pairwise_reverse]
    exact hn.imp Ne.symm
  have hfound := Table.find?_of_mem hreverse (List.mem_reverse.mpr hp)
  rw [lastValue?, ← List.map_reverse, List.find?_map]
  simp only [Function.comp_def, hfound, Option.map_some]

/-- Each parameter gets the last one of its values, or keeps the one it has. -/
theorem storeValues_eq (values : List (String × ParameterValue))
    (hn : (parameters.map (·.id)).Nodup) :
    values.foldl storeValue parameters =
      parameters.map fun p => { p with value := (lastValue? values p.id).getD p.value } := by
  induction values generalizing parameters with
  | nil => simp [lastValue?]
  | cons v values ih =>
    rw [List.foldl_cons, ih, storeValue, Table.updateFirst_eq_map _ hn, List.map_map]
    · apply List.map_congr_left
      intro p _
      rw [lastValue?_cons]
      by_cases hv : p.id = v.1
      · cases lastValue? values v.1 with
        | none => simp [hv]
        | some w => simp [hv]
      · simp [hv, Ne.symm hv]
    · rw [storeValue, Table.map_updateFirst]
      · exact hn
      · intro p _
        rfl

theorem storeValues_all {f : HardwareParameter → HardwareParameter}
    {value : HardwareParameter → ParameterValue} (hf : ∀ p, (f p).schema = p.schema)
    (hn : (parameters.map (·.id)).Nodup) :
    (parameters.map fun p => (p.id, value p)).foldl storeValue (parameters.map f) =
      parameters.map fun p => { p with value := value p } := by
  have hid : ∀ p, (f p).id = p.id := fun p => congrArg (·.1) (hf p)
  have hids : ((parameters.map f).map (·.id)).Nodup := by
    rw [List.map_map]
    simpa only [Function.comp_def, hid] using hn
  rw [storeValues_eq _ hids, List.map_map]
  apply List.map_congr_left
  intro p hp
  rw [← HardwareParameter.set_value (hf p)]
  simp only [Function.comp_apply, hid, lastValue?_map value hn hp, Option.getD_some]

end Storing

def schemas (parameters : List (HardwareId × List HardwareParameter)) :
    List (HardwareId × List (String × String × ParameterKind)) :=
  parameters.map fun e => (e.1, e.2.map (·.schema))

structure BoardsKept (s : State) : Prop where
  schemas : schemas s.parameters = State.schemas Seed.parameters
  readable : ∀ e ∈ s.parameters, ∀ p ∈ e.2, p.Readable

theorem BoardsKept.keys_distinct {s : State} (hs : BoardsKept s) :
    (Table.keys s.parameters).Nodup := by
  have hkeys : Table.keys s.parameters = Table.keys Seed.parameters := by
    have := congrArg (List.map (·.1)) hs.schemas
    simpa [State.schemas, Table.keys, Function.comp_def] using this
  rw [hkeys]
  decide

theorem BoardsKept.ids_distinct {s : State} (hs : BoardsKept s) {board : HardwareId}
    {parameters : List HardwareParameter} (h : (board, parameters) ∈ s.parameters) :
    (parameters.map (·.id)).Nodup := by
  have hseed : ∀ e ∈ State.schemas Seed.parameters, (e.2.map (·.1)).Nodup := by decide
  have hmem : (board, parameters.map (·.schema)) ∈ State.schemas s.parameters :=
    List.mem_map_of_mem (f := fun e => (e.1, e.2.map (·.schema))) h
  rw [hs.schemas] at hmem
  have := hseed _ hmem
  rwa [List.map_map] at this

theorem BoardsKept.boot {s : State} (hs : BoardsKept s) (now : Nat) : BoardsKept (s.boot now) := by
  have hparameters := boot_parameters now s
  constructor
  · rw [hparameters]
    exact hs.schemas
  · rw [hparameters]
    exact hs.readable

theorem schemas_adjust {board : HardwareId} {f : List HardwareParameter → List HardwareParameter}
    (h : ∀ ps, (f ps).map (·.schema) = ps.map (·.schema))
    (parameters : List (HardwareId × List HardwareParameter)) :
    schemas (Table.adjust board f parameters) = schemas parameters := by
  rw [schemas, schemas, Table.adjust, List.map_map]
  refine List.map_congr_left fun e _ => ?_
  by_cases he : e.1 = board <;> simp [he, h]

theorem Transition.preserves_boards {s u : State} (h : Transition s u) (hs : BoardsKept s) :
    BoardsKept u := by
  cases h with
  | hardwareApplied settings parameters found checked =>
    refine ⟨(schemas_adjust (storeValues_schema settings.values) _).trans hs.schemas, ?_⟩
    intro e he
    rcases Table.mem_adjust (f := (settings.values.foldl storeValue ·)) he with he | ⟨ps, hps, rfl⟩
    · exact hs.readable e he
    · have hfound := Table.get?_of_mem hs.keys_distinct hps
      rw [found, Option.some.injEq] at hfound
      subst hfound
      exact storeValues_readable (hs.ids_distinct hps) (hs.readable _ hps)
        (checkValues_ok_iff.mp checked)
  | _ => exact ⟨hs.schemas, hs.readable⟩

theorem Reachable.boards {grace : Nat} {s : State} (h : Reachable grace s) : BoardsKept s := by
  refine (h.invariant (P := BoardsKept) (fun now => ⟨rfl, ?_⟩) (fun s now hs => ?_)
    fun _ _ _ hu hs => hu.preserves_boards hs).2
  · change ∀ e ∈ Seed.parameters, ∀ p ∈ e.2, p.Readable
    intro e he p hp
    simp only [Seed.parameters, List.mem_cons, List.not_mem_nil, or_false] at he
    rcases he with rfl | rfl | rfl
    · simp at hp
    · obtain rfl := List.mem_singleton.mp hp
      exact ⟨_, ParameterValue.parse_integer _ _⟩
    · simp only [List.mem_cons, List.not_mem_nil, or_false] at hp
      rcases hp with rfl | rfl
      · exact ⟨_, ParameterValue.parse_integer _ _⟩
      · exact ⟨_, rfl⟩
  · exact hs.boot now

/-- The supported boards are those of the seeded state, each with its parameters, and one of them
is in use. -/
structure BoardListed (s : State) : Prop where
  supported : s.hardware.supported = Seed.hardware.supported
  keys : Table.keys s.parameters = Seed.hardware.supported.map (·.id)
  current : ∃ id ∈ Seed.hardware.supported.map (·.id), s.hardware.current = some id

theorem Transition.preserves_boardListed {s u : State} (h : Transition s u) (hs : BoardListed s) :
    BoardListed u := by
  cases h with
  | hardwareApplied settings parameters found checked =>
    have hlisted : settings.hardware ∈ Table.keys s.parameters := by
      rw [← Table.get?_isSome_iff, found]
      rfl
    rw [hs.keys] at hlisted
    refine ⟨hs.supported, ?_, settings.hardware, hlisted, rfl⟩
    rw [Table.keys_adjust]
    exact hs.keys
  | _ => exact ⟨hs.supported, hs.keys, hs.current⟩

theorem Reachable.boardListed {grace : Nat} {s : State} (h : Reachable grace s) :
    BoardListed s := by
  refine (h.invariant (P := BoardListed) (fun now => ⟨rfl, rfl, ?_⟩) (fun s now hs => ?_)
    fun _ _ _ hu hs => hu.preserves_boardListed hs).2
  · exact ⟨⟨"M1E1"⟩, by decide, rfl⟩
  · obtain ⟨_, _, _, _, _, hrecords⟩ := boot_records now s
    rw [hrecords]
    exact ⟨hs.supported, hs.keys, hs.current⟩

theorem BoardListed.current_supported {s : State} (hs : BoardListed s) :
    ∃ board ∈ s.hardware.supported, s.hardware.current = some board.id := by
  obtain ⟨id, hid, hcurrent⟩ := hs.current
  obtain ⟨board, hboard, rfl⟩ := List.mem_map.mp hid
  rw [hs.supported]
  exact ⟨board, hboard, hcurrent⟩

theorem BoardListed.parameters_found {s : State} (hs : BoardListed s) {board : HardwareType}
    (h : board ∈ s.hardware.supported) :
    ∃ parameters, Table.get? board.id s.parameters = some parameters := by
  rw [hs.supported] at h
  apply Option.isSome_iff_exists.mp
  rw [Table.get?_isSome_iff, hs.keys]
  exact List.mem_map_of_mem h

def withBoard (board : HardwareId) (parameters : List HardwareParameter) (s : State) : State :=
  { s with
    parameters := Table.adjust board (fun _ => parameters) s.parameters
    hardware := { s.hardware with current := some board } }

theorem withBoard_withBoard (board : HardwareId) (ps qs : List HardwareParameter) (s : State) :
    (s.withBoard board ps).withBoard board qs = s.withBoard board qs := by
  simp only [withBoard, Table.adjust_adjust]

theorem get?_withBoard {board : HardwareId} {ps : List HardwareParameter} {s : State}
    (h : Table.get? board s.parameters = some ps) (qs : List HardwareParameter) :
    Table.get? board (s.withBoard board qs).parameters = some qs := by
  simp [withBoard, Table.get?_adjust, h]

theorem BoardsKept.withBoard {s : State} (hs : BoardsKept s) {board : HardwareId}
    {ps qs : List HardwareParameter} (found : Table.get? board s.parameters = some ps)
    (hschema : qs.map (·.schema) = ps.map (·.schema)) (hread : ∀ q ∈ qs, q.Readable) :
    BoardsKept (s.withBoard board qs) := by
  refine ⟨Eq.trans ?_ hs.schemas, fun e he => ?_⟩
  · simp only [State.schemas, State.withBoard, Table.adjust, List.map_map]
    refine List.map_congr_left fun e he => ?_
    by_cases hk : e.1 = board
    · have hentry : (board, e.2) ∈ s.parameters := hk ▸ he
      have hfound := Table.get?_of_mem hs.keys_distinct hentry
      rw [found, Option.some.injEq] at hfound
      simp [hk, hschema, hfound]
    · simp [hk]
  · rcases Table.mem_adjust (f := fun _ => qs) he with he | ⟨_, _, rfl⟩
    · exact hs.readable e he
    · exact hread

theorem BoardsKept.schema_eq {s u : State} (hs : BoardsKept s) (hu : BoardsKept u)
    {board : HardwareId} {ps qs : List HardwareParameter}
    (hps : Table.get? board s.parameters = some ps)
    (hqs : Table.get? board u.parameters = some qs) : qs.map (·.schema) = ps.map (·.schema) := by
  have hlisted : ∀ {v : State} {rs : List HardwareParameter}, BoardsKept v →
      Table.get? board v.parameters = some rs →
      (board, rs.map (·.schema)) ∈ State.schemas Seed.parameters := by
    intro v rs hv hrs
    rw [← hv.schemas]
    exact List.mem_map_of_mem (f := fun e => (e.1, e.2.map (·.schema))) (Table.mem_of_get? hrs)
  have hn : (Table.keys (State.schemas Seed.parameters)).Nodup := by decide
  have hsame := Table.get?_of_mem hn (hlisted hu hqs)
  rw [Table.get?_of_mem hn (hlisted hs hps), Option.some.injEq] at hsame
  exact hsame.symm

/-- What a form gives the parameters passes the check, whatever values the parameters have by
then. -/
theorem checkValues_filled {fields : List (String × String)} {ps qs : List HardwareParameter}
    (hn : (ps.map (·.id)).Nodup) (hschema : qs.map (·.schema) = ps.map (·.schema))
    (hfits : ∀ p ∈ ps, HardwareSettings.Fits fields p) (hread : ∀ p ∈ ps, p.Readable) :
    checkValues qs (ps.map fun p => (p.id, (HardwareSettings.filled fields p).value)) =
      .ok () := by
  refine checkValues_ok_iff.mpr fun v hv => ?_
  obtain ⟨p, hp, rfl⟩ := List.mem_map.mp hv
  rw [checkValue_congr hschema]
  refine checkValue_ok hn hp ?_
  have hreadable := HardwareSettings.filled_readable (hfits p hp) (hread p hp)
  rwa [HardwareParameter.Readable, ← HardwareSettings.filled_eq] at hreadable

/-- The settings of a form set all parameters of the board, also if they were completed with
values that are no longer there. -/
theorem applyHardware_filled {s : State} (hs : BoardsKept s) {board : HardwareId}
    {fields : List (String × String)} {parameters : List HardwareParameter}
    {f : HardwareParameter → HardwareParameter} (hf : ∀ p, (f p).schema = p.schema)
    (found : Table.get? board s.parameters = some (parameters.map f))
    (hfits : ∀ p ∈ parameters, HardwareSettings.Fits fields p)
    (hread : ∀ p ∈ parameters, p.Readable) :
    applyHardware
        ⟨board, parameters.map fun p => (p.id, (HardwareSettings.filled fields p).value)⟩ s =
      (.ok (), s.withBoard board (parameters.map (HardwareSettings.filled fields))) := by
  have hschema : (parameters.map f).map (·.schema) = parameters.map (·.schema) := by
    rw [List.map_map]
    exact List.map_congr_left fun p _ => hf p
  have hn : (parameters.map (·.id)).Nodup :=
    ids_of_schema hschema ▸ hs.ids_distinct (Table.mem_of_get? found)
  have hchecked := checkValues_filled hn hschema hfits hread
  have hstored : ∀ qs, (board, qs) ∈ s.parameters →
      (parameters.map fun p => (p.id, (HardwareSettings.filled fields p).value)).foldl
        storeValue qs = parameters.map (HardwareSettings.filled fields) := by
    intro qs hqs
    have hfound := Table.get?_of_mem hs.keys_distinct hqs
    rw [found, Option.some.injEq] at hfound
    rw [← hfound, storeValues_all hf hn]
    exact List.map_congr_left fun p _ => HardwareSettings.filled_eq fields p
  simp only [applyHardware, found, hchecked, withBoard, Table.adjust_congr hstored]

end State
end HeatingControl
