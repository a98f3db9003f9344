import HeatingControl.Proofs.Rest.Overlap
import Mathlib

/-!
# Serial orders of requests

Requests that make one call can be interleaved at will. The two that make two calls come to a
serial order as long as what they have read still stands; otherwise a submitted form can be lost
and a planning can be shown with the slots of one state and the name of another.
-/
namespace HeatingControl.Rest

variable {n : Nat} {grace : Nat}

def TwoCalls (r : Request) : Prop :=
  (∃ id, demand r = .ok (.planning id)) ∨ ∃ fields, demand r = .ok (.hardwareForm fields)

theorem respond_within {r : Request} (h : ¬ TwoCalls r) : (respond r).Within 1 := by
  rw [respond_eq]
  refine Program.Within.bind (m := 0) ?_ fun response => trivial
  cases hdemand : demand r with
  | error refusal => trivial
  | ok d =>
    refine Program.Within.bind (m := 0) ?_ fun result => trivial
    cases d with
    | planning id => exact absurd (Or.inl ⟨id, hdemand⟩) h
    | hardwareForm fields => exact absurd (Or.inr ⟨fields, hdemand⟩) h
    | health => trivial
    | operation op =>
      rw [load_operation]
      exact fun r => trivial
    | zone id =>
      rw [load_zone]
      exact fun r => trivial
    | addPlanning name =>
      rw [load_addPlanning]
      exact fun r => trivial
    | addSlot planning slot =>
      rw [load_addSlot]
      exact fun r => trivial

theorem interleave_within {p : Task Response} (hp : p.Within 1) {i : Fin n} {x : Scene n}
    (h : x.tasks i = p ∨ (x.tasks i).result?.isSome = true) (turns : List (Turn n)) :
    (x.interleave grace turns).tasks i = p ∨
      ((x.interleave grace turns).tasks i).result?.isSome = true := by
  induction turns generalizing x with
  | nil => exact h
  | cons turn turns ih =>
    rw [Scene.interleave, List.foldl_cons]
    refine ih ?_
    by_cases hi : i = turn.task
    · subst hi
      refine Or.inr ?_
      simp only [Scene.take, Function.update_self]
      rcases h with h | h
      · obtain ⟨a, ha⟩ := Program.result?_of_within
          (hp.advance (State.step grace turn.moment) x.state)
        rw [h, oneCall, ha]
        rfl
      · obtain ⟨a, ha⟩ := Option.isSome_iff_exists.mp h
        rw [Program.result?_eq_some ha]
        rfl
    · simpa only [Scene.take, Function.update_of_ne hi] using h

theorem upToDate_of_twoCalls {requests : Fin n → Request} {s : State} {turns : List (Turn n)}
    (h : ∀ before turn after, turns = before ++ turn :: after → TwoCalls (requests turn.task) →
      Fresh grace (Scene.start requests s).tasks
        ((Scene.start requests s).interleave grace before) turn) :
    UpToDate grace (Scene.start requests s).tasks (Scene.start requests s) turns := by
  intro before turn after hsplit
  by_cases htwo : TwoCalls (requests turn.task)
  · exact h before turn after hsplit htwo
  · rcases interleave_within (respond_within htwo) (x := Scene.start requests s) (Or.inl rfl)
      before with hidle | hdone
    · exact Or.inl hidle
    · exact Or.inr (Or.inl hdone)

theorem fresh_at_once {start : Fin n → Task Response} {x : Scene n} {turn : Turn n}
    (hx : x.tasks turn.task = start turn.task) (hshort : Short (start turn.task)) :
    Fresh grace start (x.take (oneCall grace) turn) turn := by
  have htask : (x.take (oneCall grace) turn).tasks turn.task =
      (oneCall grace turn.moment (start turn.task) x.state).1 := by
    rw [← hx]
    exact Function.update_self ..
  have hstate : (x.take (oneCall grace) turn).state =
      (oneCall grace turn.moment (start turn.task) x.state).2 := by
    rw [← hx]
    rfl
  rw [Fresh, htask, hstate]
  refine Or.inr ?_
  rcases hshort with hone | ⟨c, next, hask, hquiet, -⟩
  · obtain ⟨a, ha⟩ := Program.result?_of_within
      (hone.advance (State.step grace turn.moment) x.state)
    exact Or.inl (by rw [oneCall, ha]; rfl)
  · have hagain : State.step grace turn.moment c (State.step grace turn.moment c x.state).2 =
        State.step grace turn.moment c x.state := by rw [hquiet, State.step_boot]
    refine Or.inr ?_
    simp only [hask, oneCall, Program.advance, hagain]

def Stored (s : State) (board : HardwareId) (fields : List (String × String))
    (p : HardwareParameter) : Prop :=
  ∀ raw, HardwareSettings.field? fields p.id = some raw →
    ∃ parameters, Table.get? board s.parameters = some parameters ∧
      ∃ q ∈ parameters, q.id = p.id ∧ ParameterValue.parse p.id p.kind raw = .ok q.value

section TwoForms

variable {requests : Fin n → Request} {s : State} {board : HardwareId}
  {parameters : List HardwareParameter} {i j : Fin n} {fi fj : List (String × String)}
  {t₁ t₂ t₃ t₄ : Moment}

private theorem stored_of_map {u : State} {f : HardwareParameter → HardwareParameter}
    {fields : List (String × String)} {p : HardwareParameter} (hp : p ∈ parameters)
    (found : Table.get? board u.parameters = some (parameters.map f))
    (hset : ∀ raw, HardwareSettings.field? fields p.id = some raw →
      ∃ value, ParameterValue.parse p.id p.kind raw = .ok value ∧
        f p = { p with value := value }) : Stored u board fields p := by
  intro raw hraw
  obtain ⟨value, hvalue, hf⟩ := hset raw hraw
  refine ⟨_, found, f p, List.mem_map_of_mem hp, ?_, ?_⟩
  · rw [hf]
  · rw [hf]
    exact hvalue

theorem TwoForms.both_stored (h : TwoForms requests s board parameters i j fi fj)
    (hs : State.BoardsKept s) (honline : s.OnlineAt t₁.now) {p : HardwareParameter}
    (hp : p ∈ parameters) :
    let u := ((Scene.start requests s).interleave grace
      [⟨j, t₁⟩, ⟨j, t₂⟩, ⟨i, t₃⟩, ⟨i, t₄⟩]).state
    Stored u board fi p ∧ (HardwareSettings.field? fi p.id = none → Stored u board fj p) := by
  intro u
  have hu : u = (s.boot t₁.now).withBoard board (parameters.map fun p =>
      HardwareSettings.filled fi (HardwareSettings.filled fj p)) := h.in_turn hs honline
  obtain ⟨_, _, _, _, _, hrecords⟩ := State.boot_records t₁.now s
  have hbefore : Table.get? board (s.boot t₁.now).parameters = some parameters := by
    rw [hrecords]
    exact h.found
  have found : Table.get? board u.parameters = some (parameters.map fun p =>
      HardwareSettings.filled fi (HardwareSettings.filled fj p)) := by
    rw [hu]
    exact State.get?_withBoard hbefore _
  refine ⟨stored_of_map hp found fun raw hraw => ?_,
    fun habsent => stored_of_map hp found fun raw hraw => ?_⟩
  · obtain ⟨value, hvalue⟩ := h.fits_i p hp raw hraw
    refine ⟨value, hvalue, ?_⟩
    have hschema := HardwareSettings.filled_schema fj p
    have hid : (HardwareSettings.filled fj p).id = p.id := congrArg (·.1) hschema
    have hkind : (HardwareSettings.filled fj p).kind = p.kind := congrArg (·.2.2) hschema
    rw [HardwareSettings.filled_of_submitted (by rwa [hid]) (by rwa [hid, hkind]),
      HardwareParameter.set_value hschema]
  · obtain ⟨value, hvalue⟩ := h.fits_j p hp raw hraw
    refine ⟨value, hvalue, ?_⟩
    rw [HardwareSettings.filled_of_submitted hraw hvalue]
    exact HardwareSettings.filled_of_absent habsent

theorem TwoForms.last_alone (h : TwoForms requests s board parameters i j fi fj)
    (hs : State.BoardsKept s) (honline : s.OnlineAt t₁.now) (hle : t₁.now ≤ t₄.now)
    {turns : List (Turn n)} (hturns : turns = [⟨j, t₁⟩, ⟨i, t₂⟩, ⟨j, t₃⟩, ⟨i, t₄⟩] ∨
      turns = [⟨i, t₁⟩, ⟨j, t₂⟩, ⟨j, t₃⟩, ⟨i, t₄⟩]) :
    ((Scene.start requests s).interleave grace turns).state =
      ((Scene.start requests s).serve grace [⟨i, t₄⟩]).state := by
  have hboot : s.boot t₄.now = s.boot t₁.now := by
    rw [← State.boot_boot hle, State.boot_of_idle honline]
  have honline' : s.OnlineAt t₄.now := by
    rw [State.OnlineAt, hboot]
    exact honline
  obtain ⟨hfirst, hsecond⟩ := h.overlapped grace t₂ t₃ t₄ hs honline
  rw [h.alone hs honline', hboot]
  rcases hturns with rfl | rfl
  · exact hfirst
  · exact hsecond

end TwoForms

/-- In every state of a run, interleaved requests come to a serial order if every request for a
planning and every form that comes back would read again what it has read. Two forms for one
board are both stored when one follows the other; when they overlap, the one that is written last
leaves what it leaves alone. A planning is shown with the slots of the first call and the name of
the second, which is the answer of every state that has both. -/
theorem interleaved_requests {grace : Nat} {s : State} (h : State.Reachable grace s) {n : Nat}
    (requests : Fin n → Request) :
    let x := Scene.start requests s
    (∀ turns, Chronological turns → (x.interleave grace turns).Complete →
      (∀ before turn after, turns = before ++ turn :: after → TwoCalls (requests turn.task) →
        Fresh grace x.tasks (x.interleave grace before) turn) →
      Serializable grace x turns) ∧
    (∀ board parameters i j fi fj, TwoForms requests s board parameters i j fi fj →
      ∀ t₁ t₂ t₃ t₄ : Moment, s.OnlineAt t₁.now → t₁.now ≤ t₄.now →
      (∀ p ∈ parameters,
        let u := (x.interleave grace [⟨j, t₁⟩, ⟨j, t₂⟩, ⟨i, t₃⟩, ⟨i, t₄⟩]).state
        Stored u board fi p ∧
          (HardwareSettings.field? fi p.id = none → Stored u board fj p)) ∧
      ∀ turns, turns = [⟨j, t₁⟩, ⟨i, t₂⟩, ⟨j, t₃⟩, ⟨i, t₄⟩] ∨
          turns = [⟨i, t₁⟩, ⟨j, t₂⟩, ⟨j, t₃⟩, ⟨i, t₄⟩] →
        (x.interleave grace turns).state = (x.serve grace [⟨i, t₄⟩]).state) ∧
    ∀ i id, Shows (requests i) id → ∀ before mid : List (Turn n),
      (∀ turn ∈ before ++ mid, turn.task ≠ i) → ∀ t₁ t₂ slots,
      let first := (x.interleave grace before).state
      let second := (x.interleave grace (before ++ ⟨i, t₁⟩ :: mid)).state
      let answer := planningView id (nameIn id second.plannings) slots
      first.OnlineAt t₁.now → second.OnlineAt t₂.now → Table.get? id first.slots = some slots →
      (x.interleave grace (before ++ ⟨i, t₁⟩ :: mid ++ [⟨i, t₂⟩])).tasks i = .done answer ∧
      ∀ (u : State) (t : Moment), u.OnlineAt t.now → Table.get? id u.slots = some slots →
        nameIn id u.plannings = nameIn id second.plannings →
        ((respond (requests i)).run (State.step grace t) u).1 = answer := by
  intro x
  have hs := h.boards
  refine ⟨fun turns hchron hcomplete hfresh => ?_,
    fun board parameters i j fi fj hforms t₁ t₂ t₃ t₄ honline hle => ⟨fun p hp => ?_, ?_⟩, ?_⟩
  · exact serializable_of_upToDate (fun i => respond_short (requests i)) hchron hcomplete
      (upToDate_of_twoCalls hfresh)
  · exact hforms.both_stored hs honline hp
  · exact fun turns hturns => hforms.last_alone hs honline hle hturns
  · intro i id hshows before mid hother t₁ t₂ slots first second answer hfirst hsecond found
    refine ⟨?_, fun u t honline hslots hname => ?_⟩
    · exact shown_by_halves hshows (fun turn hturn => hother turn (List.mem_append_left _ hturn))
        (fun turn hturn => hother turn (List.mem_append_right _ hturn)) hfirst found hsecond
    · rw [shown_at_once hshows honline hslots, hname]

section LostUpdate

variable {requests : Fin 2 → Request} {s : State} {board : HardwareId}
  {parameters : List HardwareParameter} {f₀ f₁ : List (String × String)} {t : Moment}

private theorem order_of_two {order : List (Turn 2)}
    (h : (order.map (·.task)).Perm (List.finRange 2)) :
    ∃ a b, order = [⟨0, a⟩, ⟨1, b⟩] ∨ order = [⟨1, a⟩, ⟨0, b⟩] := by
  have hlength : order.length = 2 := by
    have := h.length_eq
    rwa [List.length_map, List.length_finRange] at this
  obtain ⟨⟨i, a⟩, ⟨j, b⟩, rfl⟩ := List.length_eq_two.mp hlength
  have hne : i ≠ j := by
    have := (h.nodup_iff).mpr (List.nodup_finRange 2)
    simpa using this
  refine ⟨a, b, ?_⟩
  rcases Fin.exists_fin_two.mp ⟨i, rfl⟩ with rfl | rfl <;>
    rcases Fin.exists_fin_two.mp ⟨j, rfl⟩ with rfl | rfl <;> simp_all

/-- If the first form submits a value that the second does not, no serial order loses it. -/
theorem no_serial_order (h : TwoForms requests s board parameters 1 0 f₁ f₀)
    (h' : TwoForms requests s board parameters 0 1 f₀ f₁) (hs : State.BoardsKept s)
    (hidle : s.rebootingUntil = none)
    (hlost : parameters.map (fun p => HardwareSettings.filled f₁ (HardwareSettings.filled f₀ p)) ≠
      parameters.map (HardwareSettings.filled f₁))
    (hlost' : parameters.map (fun p => HardwareSettings.filled f₀ (HardwareSettings.filled f₁ p)) ≠
      parameters.map (HardwareSettings.filled f₁)) :
    ¬ Serializable grace (Scene.start requests s) [⟨0, t⟩, ⟨1, t⟩, ⟨0, t⟩, ⟨1, t⟩] := by
  rintro ⟨order, hperm, -, hsame⟩
  have honline : ∀ now, s.OnlineAt now := fun now => State.onlineAt_of_idle now hidle
  have hfound : ∀ (now : Nat) ps,
      Table.get? board ((s.boot now).withBoard board ps).parameters = some ps := by
    intro now ps
    rw [State.boot_of_idle hidle]
    exact State.get?_withBoard h.found ps
  have hstate := congrArg (fun x => Table.get? board x.state.parameters) hsame
  simp only [(h.overlapped grace t t t hs (honline t.now)).1, hfound] at hstate
  obtain ⟨a, b, rfl | rfl⟩ := order_of_two hperm
  · simp only [h.served hs (honline a.now), hfound] at hstate
    exact hlost (Option.some.inj hstate)
  · simp only [h'.served hs (honline a.now), hfound] at hstate
    exact hlost' (Option.some.inj hstate)

end LostUpdate

def tenZones (values : String) : Request :=
  ⟨"POST", "/ofp-api/v1/hardware", some MediaType.form, Utf8.encode ("hardware=OFP-10Z&" ++ values)⟩

def tenZonesForms : Fin 2 → Request := fun i =>
  if i = 0 then tenZones "dummy1=12" else tenZones "dummy2=new"

private def numberForm : List (String × String) := [("hardware", "OFP-10Z"), ("dummy1", "12")]

private def textForm : List (String × String) := [("hardware", "OFP-10Z"), ("dummy2", "new")]

private def tenZonesParameters : List HardwareParameter :=
  [⟨"dummy1", "dummy number", .number, .integer 69⟩,
    ⟨"dummy2", "dummy string", .string, .text "blah"⟩]

private theorem tenZones_forms (now : Nat) :
    TwoForms tenZonesForms (.seeded now) ⟨"OFP-10Z"⟩ tenZonesParameters 1 0 textForm numberForm ∧
      TwoForms tenZonesForms (.seeded now) ⟨"OFP-10Z"⟩ tenZonesParameters 0 1 numberForm
        textForm := by
  have hfound : Table.get? ⟨"OFP-10Z"⟩ (State.seeded now).parameters = some tenZonesParameters := rfl
  have hnumber : Posts (tenZonesForms 0) ⟨"OFP-10Z"⟩ numberForm := ⟨rfl, by cbv, by cbv⟩
  have htext : Posts (tenZonesForms 1) ⟨"OFP-10Z"⟩ textForm := ⟨rfl, by cbv, by cbv⟩
  have hnumberFits : HardwareSettings.ofForm ⟨"OFP-10Z"⟩ numberForm tenZonesParameters =
    .ok ⟨⟨"OFP-10Z"⟩, [("dummy1", .integer 12), ("dummy2", .text "blah")]⟩ := by cbv
  have htextFits : HardwareSettings.ofForm ⟨"OFP-10Z"⟩ textForm tenZonesParameters =
    .ok ⟨⟨"OFP-10Z"⟩, [("dummy1", .integer 69), ("dummy2", .text "new")]⟩ := by cbv
  have hf := (HardwareSettings.ofForm_ok_iff.mp hnumberFits).1
  have hg := (HardwareSettings.ofForm_ok_iff.mp htextFits).1
  exact ⟨⟨by decide, hfound, htext, hnumber, hg, hf⟩, ⟨by decide, hfound, hnumber, htext, hf, hg⟩⟩

/-- Two forms are completed before one of them is written. The number that the first has set is
lost, and no serial order of the two loses it. -/
theorem overlapping_forms_lose_number :
    let t : Moment := ⟨0, ⟨.monday, 8, 0⟩⟩
    let x := Scene.start tenZonesForms (.seeded 0)
    let turns : List (Turn 2) := [⟨0, t⟩, ⟨1, t⟩, ⟨0, t⟩, ⟨1, t⟩]
    State.Reachable 10 x.state ∧ Chronological turns ∧ (x.interleave 10 turns).Complete ∧
      Table.get? ⟨"OFP-10Z"⟩ (x.interleave 10 turns).state.parameters =
        some [⟨"dummy1", "dummy number", .number, .integer 69⟩,
          ⟨"dummy2", "dummy string", .string, .text "new"⟩] ∧
      ¬ Serializable 10 x turns := by
  intro t x turns
  have hrun : State.Reachable 10 x.state := .seeded 0
  obtain ⟨h, h'⟩ := tenZones_forms 0
  have honline : (State.seeded 0).OnlineAt t.now := State.onlineAt_of_idle t.now rfl
  have hstate := (h.overlapped 10 t t t hrun.boards honline).1
  refine ⟨hrun, ?_, ?_, ?_, ?_⟩
  · simp [turns, Chronological]
  · change ∀ i : Fin 2, ((x.interleave 10 turns).tasks i).result?.isSome = true
    decide +kernel
  · rw [hstate]
    decide +kernel
  · exact no_serial_order h h' hrun.boards rfl (by decide +kernel) (by decide +kernel)

/-- The same forms in turn come to a serial order and are both stored; when they overlap, the text
is what it would be without the number. A planning that nobody changes is shown as it is. -/
theorem tenZones_forms_in_turn :
    let t : Moment := ⟨0, ⟨.monday, 8, 0⟩⟩
    let x := Scene.start tenZonesForms (.seeded 0)
    let inTurn : List (Turn 2) := [⟨0, t⟩, ⟨0, t⟩, ⟨1, t⟩, ⟨1, t⟩]
    let planning : Request := ⟨"GET", "/ofp-api/v1/plannings/1", none, []⟩
    let slots := Seed.weekly [(0, "economy"), (17, "cozy")]
    Serializable 10 x inTurn ∧
      Stored (x.interleave 10 inTurn).state ⟨"OFP-10Z"⟩ [("hardware", "OFP-10Z"), ("dummy1", "12")]
        ⟨"dummy1", "dummy number", .number, .integer 69⟩ ∧
      (x.interleave 10 [⟨0, t⟩, ⟨1, t⟩, ⟨0, t⟩, ⟨1, t⟩]).state = (x.serve 10 [⟨1, t⟩]).state ∧
      ((Scene.start (fun _ : Fin 1 => planning) (.seeded 0)).interleave 10
        [⟨0, t⟩, ⟨0, t⟩]).tasks 0 = .done (planningView ⟨1⟩ "Bureaux" slots) := by
  intro t x inTurn planning slots
  have hrun : State.Reachable 10 (.seeded 0) := .seeded 0
  obtain ⟨hserial, hforms, -⟩ := interleaved_requests hrun tenZonesForms
  have honline : (State.seeded 0).OnlineAt t.now := State.onlineAt_of_idle t.now rfl
  have hboth := hforms _ _ _ _ _ _ (tenZones_forms 0).1 t t t t honline (Nat.le_refl _)
  have hshows : Shows planning ⟨1⟩ := ⟨rfl, by cbv⟩
  have hshown := (interleaved_requests hrun fun _ : Fin 1 => planning).2.2 0 ⟨1⟩ hshows [] []
    (by simp) t t slots honline (by decide +kernel) (by decide +kernel)
  refine ⟨hserial inTurn ?_ ?_ ?_, (hboth.1 _ (by simp [tenZonesParameters])).2 (by decide),
    hboth.2 _ (Or.inl rfl), hshown.1.trans ?_⟩
  · simp [inTurn, Chronological]
  · change ∀ i : Fin 2, ((x.interleave 10 inTurn).tasks i).result?.isSome = true
    decide +kernel
  · -- Each form comes back at once, so that it reads what it has read.
    have hshort : ∀ i, Short (x.tasks i) := fun i => respond_short (tenZonesForms i)
    intro before turn after hsplit _
    rcases before with _ | ⟨b₀, _ | ⟨b₁, _ | ⟨b₂, _ | ⟨b₃, before⟩⟩⟩⟩
    · simp only [inTurn, List.nil_append, List.cons.injEq] at hsplit
      obtain ⟨rfl, -⟩ := hsplit
      exact Or.inl rfl
    · simp only [inTurn, List.cons_append, List.nil_append, List.cons.injEq] at hsplit
      obtain ⟨rfl, rfl, -⟩ := hsplit
      exact fresh_at_once rfl (hshort 0)
    · simp only [inTurn, List.cons_append, List.nil_append, List.cons.injEq] at hsplit
      obtain ⟨rfl, rfl, rfl, -⟩ := hsplit
      exact Or.inl (interleave_other (i := 1) (by simp))
    · simp only [inTurn, List.cons_append, List.nil_append, List.cons.injEq] at hsplit
      obtain ⟨rfl, rfl, rfl, rfl, -⟩ := hsplit
      have hwaits : (x.interleave 10 [⟨0, t⟩, ⟨0, t⟩]).tasks 1 = x.tasks 1 :=
        interleave_other (by simp)
      exact fresh_at_once hwaits (hshort 1)
    · simp [inTurn] at hsplit
  · exact congrArg (fun name => Program.done (planningView ⟨1⟩ name slots)) (by decide +kernel)

end HeatingControl.Rest
