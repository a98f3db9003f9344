import HeatingControl.Proofs.Controller.Boards
import HeatingControl.Proofs.Rest.Interleaving

/-!
# Requests that overlap

A form is completed with the parameters of its board before they are written, and a planning is
read in two parts. What an overlapping request does in between is lost in the first case, and
may be seen by halves in the second.
-/
namespace HeatingControl.Rest

variable {n : Nat} {grace : Nat}

/-- A request that submits a form for a board. -/
structure Posts (r : Request) (board : HardwareId) (fields : List (String × String)) : Prop where
  method : r.method = "POST"
  demand : demand r = .ok (.hardwareForm fields)
  board : boardOf fields = .ok board

/-- A request for a planning with its slots. -/
structure Shows (r : Request) (id : PlanningId) : Prop where
  method : r.method = "GET"
  demand : demand r = .ok (.planning id)

def pendingForm (board : HardwareId) (fields : List (String × String))
    (parameters : List HardwareParameter) : Task Response :=
  (applyForm board fields parameters).bind fun result => .done (answered result)

def pendingView (id : PlanningId) (slots : List Slot) : Task Response :=
  .ask (.operation .getPlannings) fun r =>
    .done (answered (r.map fun plannings => planningView id (nameIn id plannings) slots))

section Calls

variable {s : State} {t : Moment} {r : Request} {board : HardwareId}
  {fields : List (String × String)} {parameters : List HardwareParameter}

theorem Posts.first_call (grace : Nat) (hr : Posts r board fields) (honline : s.OnlineAt t.now)
    (found : Table.get? board s.parameters = some parameters) :
    oneCall grace t (respond r) s = (pendingForm board fields parameters, s.boot t.now) := by
  obtain ⟨_, _, _, _, _, hrecords⟩ := State.boot_records t.now s
  have hfound : Table.get? board (s.boot t.now).parameters = some parameters := by
    rw [hrecords]
    exact found
  have hmethod : r.method ≠ "HEAD" := by
    rw [hr.method]
    decide
  rw [respond_of_demand hr.demand hmethod, load_hardwareForm, hr.board]
  simp only [oneCall, Program.bind, Program.advance, State.step_of_online honline]
  simp only [State.performCall, State.perform, State.hardwareParameters, hfound]
  rfl

theorem Posts.second_call (grace : Nat) (hs : State.BoardsKept s) (honline : s.OnlineAt t.now)
    {f : HardwareParameter → HardwareParameter} (hf : ∀ p, (f p).schema = p.schema)
    (found : Table.get? board s.parameters = some (parameters.map f))
    (hfits : ∀ p ∈ parameters, HardwareSettings.Fits fields p)
    (hread : ∀ p ∈ parameters, p.Readable) :
    oneCall grace t (pendingForm board fields parameters) s = (.done (.empty 204),
      (s.boot t.now).withBoard board (parameters.map (HardwareSettings.filled fields))) := by
  obtain ⟨_, _, _, _, _, hrecords⟩ := State.boot_records t.now s
  have hboards : State.BoardsKept (s.boot t.now) := by
    rw [hrecords]
    exact ⟨hs.schemas, hs.readable⟩
  have hfound : Table.get? board (s.boot t.now).parameters = some (parameters.map f) := by
    rw [hrecords]
    exact found
  have hform : HardwareSettings.ofForm board fields parameters = .ok ⟨board, _⟩ :=
    HardwareSettings.ofForm_ok_iff.mpr ⟨hfits, rfl⟩
  simp only [oneCall, pendingForm, applyForm, hform, Program.bind, Program.advance,
    State.step_of_online honline, State.performCall, State.perform]
  rw [State.applyHardware_filled hboards hf hfound hfits hread]
  rfl

theorem Shows.first_call {id : PlanningId} {slots : List Slot} (grace : Nat) (hr : Shows r id)
    (honline : s.OnlineAt t.now) (found : Table.get? id s.slots = some slots) :
    oneCall grace t (respond r) s = (pendingView id slots, s.boot t.now) := by
  obtain ⟨_, _, _, _, _, hrecords⟩ := State.boot_records t.now s
  have hfound : Table.get? id (s.boot t.now).slots = some slots := by
    rw [hrecords]
    exact found
  have hmethod : r.method ≠ "HEAD" := by
    rw [hr.method]
    decide
  rw [respond_of_demand hr.demand hmethod, load_planning]
  simp only [oneCall, Program.bind, Program.advance, State.step_of_online honline,
    State.performCall, State.perform, State.planningSlots, hfound]
  rfl

theorem pendingView_call (grace : Nat) (id : PlanningId) (slots : List Slot)
    (honline : s.OnlineAt t.now) :
    oneCall grace t (pendingView id slots) s =
      (.done (planningView id (nameIn id s.plannings) slots), s.boot t.now) := by
  obtain ⟨_, _, _, _, _, hrecords⟩ := State.boot_records t.now s
  simp only [oneCall, pendingView, Program.advance, State.step_of_online honline,
    State.performCall, State.perform, State.read]
  simp only [hrecords]
  rfl

end Calls

section Scenes

theorem take_eq {act : Act} {tasks : Fin n → Task Response} {i : Fin n} {t : Moment}
    {p q : Task Response} {u v : State} (htask : tasks i = p) (hact : act t p u = (q, v)) :
    Scene.take act ⟨tasks, u⟩ ⟨i, t⟩ = ⟨Function.update tasks i q, v⟩ := by
  rw [Scene.take]
  simp only [htask, hact]

theorem interleave_cons {tasks : Fin n → Task Response} {i : Fin n} {t : Moment}
    {p q : Task Response} {u v : State} (htask : tasks i = p)
    (hcall : oneCall grace t p u = (q, v)) (rest : List (Turn n)) :
    Scene.interleave grace ⟨tasks, u⟩ (⟨i, t⟩ :: rest) =
      Scene.interleave grace ⟨Function.update tasks i q, v⟩ rest := by
  rw [Scene.interleave, List.foldl_cons, take_eq htask hcall]
  rfl

variable {requests : Fin n → Request} {s : State} {board : HardwareId}
  {parameters : List HardwareParameter} {i j : Fin n} {fi fj : List (String × String)}
  {t t₁ t₂ t₃ t₄ : Moment}

/-- Two requests that submit forms for one board, both of them fit for its parameters. -/
structure TwoForms (requests : Fin n → Request) (s : State) (board : HardwareId)
    (parameters : List HardwareParameter) (i j : Fin n) (fi fj : List (String × String)) :
    Prop where
  distinct : i ≠ j
  found : Table.get? board s.parameters = some parameters
  posts_i : Posts (requests i) board fi
  posts_j : Posts (requests j) board fj
  fits_i : ∀ p ∈ parameters, HardwareSettings.Fits fi p
  fits_j : ∀ p ∈ parameters, HardwareSettings.Fits fj p

private theorem form_written (grace : Nat) (t : Moment) {u : State} (hs : State.BoardsKept u)
    (hidle : u.rebootingUntil = none)
    (found : Table.get? board u.parameters = some parameters)
    (hfits : ∀ p ∈ parameters, HardwareSettings.Fits fi p) :
    let v := u.withBoard board (parameters.map (HardwareSettings.filled fi))
    oneCall grace t (pendingForm board fi parameters) u = (.done (.empty 204), v) ∧
      State.BoardsKept v ∧ v.rebootingUntil = none ∧
      Table.get? board v.parameters = some (parameters.map (HardwareSettings.filled fi)) := by
  intro v
  have hread := hs.readable _ (Table.mem_of_get? found)
  have hcall := Posts.second_call grace hs (State.onlineAt_of_idle t.now hidle)
    (f := id) (fun _ => rfl) (by rw [List.map_id]; exact found) hfits hread
  rw [State.boot_of_idle hidle] at hcall
  refine ⟨hcall, hs.withBoard found ?_ ?_, hidle, State.get?_withBoard found _⟩
  · rw [List.map_map]
    exact List.map_congr_left fun p _ => HardwareSettings.filled_schema fi p
  · intro q hq
    obtain ⟨p, hp, rfl⟩ := List.mem_map.mp hq
    exact HardwareSettings.filled_readable (hfits p hp) (hread p hp)

private theorem form_read (grace : Nat) (t : Moment) {r : Request} {u : State}
    (hr : Posts r board fi) (hidle : u.rebootingUntil = none)
    (found : Table.get? board u.parameters = some parameters) :
    oneCall grace t (respond r) u = (pendingForm board fi parameters, u) := by
  have hcall := hr.first_call grace (State.onlineAt_of_idle t.now hidle) found
  rwa [State.boot_of_idle hidle] at hcall

private theorem followed (grace : Nat) (t₂ t₃ t₄ : Moment)
    (h : TwoForms requests s board parameters i j fi fj)
    (hs : State.BoardsKept s) (honline : s.OnlineAt t₁.now) :
    let u := s.boot t₁.now
    let stored := parameters.map (HardwareSettings.filled fj)
    let v := u.withBoard board stored
    oneCall grace t₂ (pendingForm board fj parameters) u = (.done (.empty 204), v) ∧
      oneCall grace t₃ (respond (requests i)) v = (pendingForm board fi stored, v) ∧
      oneCall grace t₄ (pendingForm board fi stored) v = (.done (.empty 204), u.withBoard board
        (parameters.map fun p => HardwareSettings.filled fi (HardwareSettings.filled fj p))) := by
  intro u stored v
  have hu := hs.boot t₁.now
  have hparameters := State.boot_parameters t₁.now s
  have hfound : Table.get? board u.parameters = some parameters := hparameters ▸ h.found
  obtain ⟨hwrite, hv, hidle, hstored⟩ :=
    form_written grace t₂ hu honline hfound h.fits_j
  have hfits : ∀ p ∈ stored, HardwareSettings.Fits fi p := by
    intro q hq
    obtain ⟨p, hp, rfl⟩ := List.mem_map.mp hq
    exact (h.fits_i p hp).congr (HardwareSettings.filled_schema fj p)
  obtain ⟨hlast, -⟩ := form_written grace t₄ hv hidle hstored hfits
  rw [State.withBoard_withBoard, List.map_map] at hlast
  exact ⟨hwrite, form_read grace t₃ h.posts_i hidle hstored, hlast⟩

/-- One form after the other: the second keeps what the first has stored. -/
theorem TwoForms.in_turn (h : TwoForms requests s board parameters i j fi fj)
    (hs : State.BoardsKept s) (honline : s.OnlineAt t₁.now) :
    ((Scene.start requests s).interleave grace [⟨j, t₁⟩, ⟨j, t₂⟩, ⟨i, t₃⟩, ⟨i, t₄⟩]).state =
      (s.boot t₁.now).withBoard board
        (parameters.map fun p => HardwareSettings.filled fi (HardwareSettings.filled fj p)) := by
  obtain ⟨hwrite, hread, hlast⟩ :=
    followed grace t₂ t₃ t₄ h hs honline
  have hother : ∀ p q : Task Response,
      Function.update (Function.update (fun k => respond (requests k)) j p) j q i =
        respond (requests i) := by
    intro p q
    rw [Function.update_of_ne h.distinct, Function.update_of_ne h.distinct]
  rw [Scene.start, interleave_cons rfl (h.posts_j.first_call grace honline h.found),
    interleave_cons (Function.update_self ..) hwrite, interleave_cons (hother _ _) hread,
    interleave_cons (Function.update_self ..) hlast]
  rfl

private theorem overwritten (grace : Nat) (t₃ t₄ : Moment)
    (h : TwoForms requests s board parameters i j fi fj)
    (hs : State.BoardsKept s) (honline : s.OnlineAt t₁.now) :
    let u := s.boot t₁.now
    let v := u.withBoard board (parameters.map (HardwareSettings.filled fj))
    oneCall grace t₃ (pendingForm board fj parameters) u = (.done (.empty 204), v) ∧
      oneCall grace t₄ (pendingForm board fi parameters) v =
        (.done (.empty 204), u.withBoard board (parameters.map (HardwareSettings.filled fi))) := by
  intro u v
  have hu := hs.boot t₁.now
  have hparameters := State.boot_parameters t₁.now s
  have hfound : Table.get? board u.parameters = some parameters := hparameters ▸ h.found
  obtain ⟨hwrite, hv, hidle, hstored⟩ :=
    form_written grace t₃ hu honline hfound h.fits_j
  have hlast := Posts.second_call grace hv
    (State.onlineAt_of_idle t₄.now hidle) (HardwareSettings.filled_schema fj) hstored
    h.fits_i (hu.readable _ (Table.mem_of_get? hfound))
  rw [State.boot_of_idle hidle, State.withBoard_withBoard] at hlast
  exact ⟨hwrite, hlast⟩

/-- Both forms are completed before one is written: nothing is left of the one that is written
first. -/
theorem TwoForms.overlapped (grace : Nat) (t₂ t₃ t₄ : Moment)
    (h : TwoForms requests s board parameters i j fi fj)
    (hs : State.BoardsKept s) (honline : s.OnlineAt t₁.now) :
    let stored := (s.boot t₁.now).withBoard board (parameters.map (HardwareSettings.filled fi))
    ((Scene.start requests s).interleave grace
        [⟨j, t₁⟩, ⟨i, t₂⟩, ⟨j, t₃⟩, ⟨i, t₄⟩]).state = stored ∧
      ((Scene.start requests s).interleave grace
        [⟨i, t₁⟩, ⟨j, t₂⟩, ⟨j, t₃⟩, ⟨i, t₄⟩]).state = stored := by
  intro stored
  have hparameters := State.boot_parameters t₁.now s
  have hfound : Table.get? board (s.boot t₁.now).parameters = some parameters :=
    hparameters ▸ h.found
  obtain ⟨hwrite, hlast⟩ := overwritten grace t₃ t₄ h hs honline
  have hreadi := form_read grace t₂ h.posts_i honline hfound
  have hreadj := form_read grace t₂ h.posts_j honline hfound
  constructor
  · rw [Scene.start, interleave_cons rfl (h.posts_j.first_call grace honline h.found),
      interleave_cons (Function.update_of_ne h.distinct ..) hreadi,
      interleave_cons ((Function.update_of_ne h.distinct.symm ..).trans
        (Function.update_self ..)) hwrite,
      interleave_cons ((Function.update_of_ne h.distinct ..).trans
        (Function.update_self ..)) hlast]
    rfl
  · rw [Scene.start, interleave_cons rfl (h.posts_i.first_call grace honline h.found),
      interleave_cons (Function.update_of_ne h.distinct.symm ..) hreadj,
      interleave_cons (Function.update_self ..) hwrite,
      interleave_cons ((Function.update_of_ne h.distinct ..).trans
        ((Function.update_of_ne h.distinct ..).trans (Function.update_self ..))) hlast]
    rfl

theorem run_of_calls {p q : Task Response} {a : Response} {t : Moment} {u v : State}
    (hfirst : oneCall grace t p s = (q, u)) (hsecond : oneCall grace t q u = (.done a, v)) :
    p.run (State.step grace t) s = (a, v) := by
  rw [oneCall] at hfirst hsecond
  rw [← Program.run_advance, hfirst, ← Program.run_advance, hsecond]
  rfl

theorem TwoForms.alone (h : TwoForms requests s board parameters i j fi fj)
    (hs : State.BoardsKept s) (honline : s.OnlineAt t₁.now) :
    ((Scene.start requests s).serve grace [⟨i, t₁⟩]).state =
      (s.boot t₁.now).withBoard board (parameters.map (HardwareSettings.filled fi)) := by
  have hu := hs.boot t₁.now
  have hparameters := State.boot_parameters t₁.now s
  have hfound : Table.get? board (s.boot t₁.now).parameters = some parameters :=
    hparameters ▸ h.found
  obtain ⟨hwrite, -⟩ := form_written grace t₁ hu honline hfound h.fits_i
  have hrun := run_of_calls (h.posts_i.first_call grace honline h.found) hwrite
  simp only [Scene.serve, List.foldl_cons, List.foldl_nil, Scene.take, Scene.start, allCalls, hrun]

theorem TwoForms.served (h : TwoForms requests s board parameters i j fi fj)
    (hs : State.BoardsKept s) (honline : s.OnlineAt t₁.now) :
    ((Scene.start requests s).serve grace [⟨j, t₁⟩, ⟨i, t₂⟩]).state =
      (s.boot t₁.now).withBoard board
        (parameters.map fun p => HardwareSettings.filled fi (HardwareSettings.filled fj p)) := by
  obtain ⟨hwrite, hread, hlast⟩ :=
    followed grace t₁ t₂ t₂ h hs honline
  have hj := run_of_calls (h.posts_j.first_call grace honline h.found) hwrite
  have hi := run_of_calls hread hlast
  have htask : ∀ p, Function.update (fun k => respond (requests k)) j p i = respond (requests i) :=
    fun p => Function.update_of_ne h.distinct ..
  simp only [Scene.serve, List.foldl_cons, List.foldl_nil, Scene.take, Scene.start, allCalls, hj,
    htask, hi]

theorem interleave_other {x : Scene n} {turns : List (Turn n)}
    (h : ∀ turn ∈ turns, turn.task ≠ i) : (x.interleave grace turns).tasks i = x.tasks i := by
  induction turns generalizing x with
  | nil => rfl
  | cons turn turns ih =>
    obtain ⟨hturn, hturns⟩ := List.forall_mem_cons.mp h
    rw [Scene.interleave, List.foldl_cons]
    exact (ih hturns).trans (Function.update_of_ne hturn.symm ..)

/-- The slots are those of the first call and the name is that of the second, whatever other
requests do before and between. -/
theorem shown_by_halves {before mid : List (Turn n)} {id : PlanningId} {slots : List Slot}
    (hr : Shows (requests i) id) (hbefore : ∀ turn ∈ before, turn.task ≠ i)
    (hmid : ∀ turn ∈ mid, turn.task ≠ i)
    (honline : ((Scene.start requests s).interleave grace before).state.OnlineAt t₁.now)
    (found : Table.get? id ((Scene.start requests s).interleave grace before).state.slots =
      some slots) :
    let second := ((Scene.start requests s).interleave grace (before ++ ⟨i, t₁⟩ :: mid)).state
    second.OnlineAt t₂.now →
      ((Scene.start requests s).interleave grace (before ++ ⟨i, t₁⟩ :: mid ++ [⟨i, t₂⟩])).tasks i =
        .done (planningView id (nameIn id second.plannings) slots) := by
  intro second hsecond
  have htask : ((Scene.start requests s).interleave grace before).tasks i =
      respond (requests i) := interleave_other hbefore
  have hsplit : (Scene.start requests s).interleave grace (before ++ ⟨i, t₁⟩ :: mid) =
      (((Scene.start requests s).interleave grace before).take (oneCall grace) ⟨i, t₁⟩).interleave
        grace mid := by
    simp only [Scene.interleave, List.foldl_append, List.foldl_cons]
  have hpending : ((Scene.start requests s).interleave grace (before ++ ⟨i, t₁⟩ :: mid)).tasks i =
      pendingView id slots := by
    have hfirst := take_eq htask (hr.first_call grace honline found)
    rw [hsplit, interleave_other hmid]
    exact (congrArg (fun x => Scene.tasks x i) hfirst).trans (Function.update_self ..)
  have hlast := take_eq hpending (pendingView_call grace id slots hsecond)
  rw [Scene.interleave, List.foldl_append]
  exact (congrArg (fun x => Scene.tasks x i) hlast).trans (Function.update_self ..)

/-- An answer whose halves belong to one state is the answer of that state. -/
theorem shown_at_once {r : Request} {id : PlanningId} {slots : List Slot} (hr : Shows r id)
    (honline : s.OnlineAt t₁.now) (found : Table.get? id s.slots = some slots) :
    ((respond r).run (State.step grace t₁) s).1 =
      planningView id (nameIn id s.plannings) slots := by
  obtain ⟨_, _, _, _, _, hrecords⟩ := State.boot_records t₁.now s
  have hsecond := pendingView_call grace (t := t₁) (s := s.boot t₁.now) id slots
    (State.onlineAt_of_idle t₁.now honline)
  rw [run_of_calls (hr.first_call grace honline found) hsecond]
  simp only [hrecords]

end Scenes

end HeatingControl.Rest
