import HeatingControl.Proofs.Dashboard.Tasks

/-!
# What a task asks

The questions of a task in their order, with what each came to. A section of the page asks one
question after the other until one fails; its view is made of the answers to all of them.
-/
namespace HeatingControl.Dashboard

variable {σ α β : Type}

structure Asked where
  op : Operation
  result : op.Result

namespace Asked

def failure? (x : Asked) : Option Error :=
  match x.result with
  | .ok _ => none
  | .error e => some e

def Succeeded (x : Asked) : Prop := x.failure? = none

theorem failure?_eq_some {x : Asked} {e : Error} : x.failure? = some e ↔ x.result = .error e := by
  unfold failure?
  cases x.result with
  | ok v => simp
  | error e' => simp

def messages (xs : List Asked) : List String := (xs.filterMap failure?).map Error.message

theorem messages_of_succeeded {xs : List Asked} (h : ∀ x ∈ xs, x.Succeeded) : messages xs = [] :=
  List.map_eq_nil_iff.mpr (List.filterMap_eq_nil_iff.mpr h)

theorem messages_append (xs ys : List Asked) :
    messages (xs ++ ys) = messages xs ++ messages ys := by
  rw [messages, List.filterMap_append, List.map_append]
  rfl

end Asked

/-- The questions of a list that are asked by someone who stops at the first failure. -/
def upToFailure : List Asked → List Asked
  | [] => []
  | x :: rest =>
    match x.failure? with
    | none => x :: upToFailure rest
    | some _ => [x]

theorem mem_of_mem_upToFailure {xs : List Asked} {x : Asked} (h : x ∈ upToFailure xs) :
    x ∈ xs := by
  induction xs with
  | nil => exact h
  | cons y rest ih =>
    simp only [upToFailure] at h
    split at h
    · rcases List.mem_cons.mp h with rfl | h
      · exact List.mem_cons_self
      · exact List.mem_cons_of_mem _ (ih h)
    · rw [List.mem_singleton.mp h]
      exact List.mem_cons_self

namespace Task

def asked (api : Behaviour σ) : Task α → σ × Memory → List Asked
  | .done _, _ => []
  | .ask (.ask op) next, w =>
    let r := (Effect.ask op).answer api w
    ⟨op, r.1⟩ :: asked api (next r.1) r.2
  | .ask e next, w => asked api (next (e.answer api w).1) (e.answer api w).2

/-- From the one world the task asks these questions and comes to a value in the other. -/
structure Runs (api : Behaviour σ) (t : Task α) (w : σ × Memory) (xs : List Asked) (a : α)
    (w' : σ × Memory) : Prop where
  asked : asked api t w = xs
  run : t.runWith api w = (a, w')

variable {api : Behaviour σ}

theorem asked_bind (t : Task α) (f : α → Task β) (w : σ × Memory) :
    asked api (t >>= f) w =
      asked api t w ++ asked api (f (t.runWith api w).1) (t.runWith api w).2 := by
  change asked api (Program.bind t f) w = _
  induction t generalizing w with
  | done a => rfl
  | ask e next ih =>
    cases e with
    | ask op => exact congrArg (List.cons _) (ih _ _)
    | note | drain | latest | publish | claim | release => exact ih _ _

theorem Runs.bind {t : Task α} {f : α → Task β} {w w' w'' : σ × Memory} {xs ys : List Asked}
    {a : α} {b : β} (ht : Runs api t w xs a w') (hf : Runs api (f a) w' ys b w'') :
    Runs api (t >>= f) w (xs ++ ys) b w'' := by
  constructor
  · rw [asked_bind, ht.asked, ht.run, hf.asked]
  · have hrun : (t >>= f).runWith api w = (f (t.runWith api w).1).runWith api (t.runWith api w).2 :=
      Program.run_bind _ t f w
    rw [hrun, ht.run, hf.run]

theorem Runs.bind_quiet {t : Task α} {f : α → Task β} {w w' w'' : σ × Memory} {ys : List Asked}
    {a : α} {b : β} (ht : Runs api t w [] a w') (hf : Runs api (f a) w' ys b w'') :
    Runs api (t >>= f) w ys b w'' :=
  ht.bind hf

theorem runs_pure (a : α) (w : σ × Memory) : Runs api (pure a) w [] a w := ⟨rfl, rfl⟩

theorem runs_ask {op : Operation} {next : op.Result → Task α} {s : σ} {m : Memory} {r : op.Result}
    {xs : List Asked} {a : α} {w : σ × Memory} (hr : (api op s).1 = r)
    (h : Runs api (next r) ((api op s).2, m) xs a w) :
    Runs api (.ask (.ask op) next) (s, m) (⟨op, r⟩ :: xs) a w := by
  subst hr
  exact ⟨congrArg (List.cons _) h.asked, h.run⟩

/-- What every question keeps of the controller holds whenever one is asked. -/
theorem asked_of_kept (kept : σ → Prop) (hkept : ∀ op s, kept s → kept (api op s).2) {t : Task α}
    {w : σ × Memory} (hw : kept w.1) :
    ∀ x ∈ asked api t w, ∃ s, kept s ∧ x.result = (api x.op s).1 := by
  induction t generalizing w with
  | done a =>
    intro x hx
    cases hx
  | ask e next ih =>
    cases e with
    | ask op =>
      intro x hx
      rcases List.mem_cons.mp hx with rfl | hx
      · exact ⟨w.1, hw, rfl⟩
      · exact ih _ (hkept op _ hw) x hx
    | note | drain | latest | publish | claim | release => exact ih _ hw

theorem asked_of_only {admitted : Effect → Prop} {t : Task α} (ht : Program.Only admitted t)
    (w : σ × Memory) : ∀ x ∈ asked api t w, admitted (.ask x.op) := by
  induction t generalizing w with
  | done a =>
    intro x hx
    cases hx
  | ask e next ih =>
    obtain ⟨he, hnext⟩ := ht
    cases e with
    | ask op =>
      intro x hx
      rcases List.mem_cons.mp hx with rfl | hx
      · exact he
      · exact ih _ (hnext _) _ x hx
    | note | drain | latest | publish | claim | release => exact ih _ (hnext _) _

end Task

/-- What has been asked for a section, and the view of it. -/
structure Reading (α : Type) where
  asked : List Asked
  view : Except Error α

namespace Reading

/-- The section is there exactly when nothing has failed that was asked for it. -/
def Settled (r : Reading α) : Prop := (∀ x ∈ r.asked, x.Succeeded) ↔ ∃ v, r.view = .ok v

def status (status : Except Error Status) : Reading StatusView :=
  ⟨[⟨.getStatus, status⟩], do return StatusView.render (← status)⟩

def override (current : Except Error Override) (orders : Except Error (List Order)) :
    Reading OverrideView :=
  ⟨upToFailure [⟨.getOverride, current⟩, ⟨.getOrders, orders⟩],
    do return OverrideView.render (← current) (← orders)⟩

def zones (orders : Except Error (List Order)) (zones : Except Error (List Zone))
    (plannings : Except Error (List Planning)) : Reading ZonesView :=
  ⟨upToFailure [⟨.getOrders, orders⟩, ⟨.getZones, zones⟩, ⟨.getPlannings, plannings⟩],
    do return ZonesView.render (← orders) (← zones) (← plannings)⟩

def plannings (requested : Option PlanningId) (plannings : Except Error (List Planning)) :
    Reading PlanningsView :=
  ⟨[⟨.getPlannings, plannings⟩], do return PlanningsView.render (← plannings) requested⟩

def slots (planning : PlanningId) (slots : Except Error (List Slot))
    (orders : Except Error (List Order)) : Reading SlotsView :=
  ⟨upToFailure [⟨.getPlanningSlots planning, slots⟩, ⟨.getOrders, orders⟩],
    do return SlotsView.render planning (← slots) (← orders)⟩

def accounts (accounts : Except Error (List Account)) : Reading AccountsView :=
  ⟨[⟨.getAccounts, accounts⟩], do return AccountsView.render (← accounts)⟩

def hardware (requested : Option HardwareId) (list : Except Error HardwareList)
    (parameters : Except Error (List HardwareParameter)) : Reading HardwareView :=
  match list with
  | .error e => ⟨[⟨.getHardware, .error e⟩], .error e⟩
  | .ok l =>
    match HardwareView.selection l requested with
    | none => ⟨[⟨.getHardware, .ok l⟩], .ok (HardwareView.render l none [])⟩
    | some id =>
      ⟨[⟨.getHardware, .ok l⟩, ⟨.getHardwareParameters id, parameters⟩],
        do return HardwareView.render l (some id) (← parameters)⟩

variable {x : Asked} {orders : Except Error (List Order)}

theorem op_of_override {current : Except Error Override}
    (h : x ∈ (override current orders).asked) : x.op = .getOverride ∨ x.op = .getOrders := by
  simpa using List.mem_map_of_mem (f := Asked.op) (mem_of_mem_upToFailure h)

theorem op_of_zones {zones : Except Error (List Zone)} {plannings : Except Error (List Planning)}
    (h : x ∈ (Reading.zones orders zones plannings).asked) :
    x.op = .getOrders ∨ x.op = .getZones ∨ x.op = .getPlannings := by
  simpa using List.mem_map_of_mem (f := Asked.op) (mem_of_mem_upToFailure h)

theorem op_of_slots {planning : PlanningId} {slots : Except Error (List Slot)}
    (h : x ∈ (Reading.slots planning slots orders).asked) :
    x.op = .getPlanningSlots planning ∨ x.op = .getOrders := by
  simpa using List.mem_map_of_mem (f := Asked.op) (mem_of_mem_upToFailure h)

theorem op_of_hardware {requested : Option HardwareId} {list : Except Error HardwareList}
    {parameters : Except Error (List HardwareParameter)}
    (h : x ∈ (hardware requested list parameters).asked) :
    x.op = .getHardware ∨ ∃ board, x.op = .getHardwareParameters board := by
  unfold hardware at h
  split at h
  · exact Or.inl (congrArg Asked.op (List.mem_singleton.mp h))
  · split at h
    · exact Or.inl (congrArg Asked.op (List.mem_singleton.mp h))
    · rcases List.mem_cons.mp h with h | h
      · exact Or.inl (congrArg Asked.op h)
      · exact Or.inr ⟨_, congrArg Asked.op (List.mem_singleton.mp h)⟩

end Reading

/-- The load is a reading of the kind, whose section is there exactly when nothing has failed; it
leaves the memory alone. -/
def Reads (api : Behaviour σ) (x : Load α) (read : Reading α → Prop) : Prop :=
  ∀ s m, ∃ r s', read r ∧ r.Settled ∧ Task.Runs api x.run (s, m) r.asked r.view (s', m)

section Rules

variable {api : Behaviour σ}

theorem reads_pure {read : Reading α → Prop} {a : α} (h : read ⟨[], .ok a⟩) :
    Reads api (pure a) read := by
  intro s m
  refine ⟨⟨[], .ok a⟩, s, h, ?_, Task.runs_pure _ _⟩
  simp [Reading.Settled]

theorem reads_call_bind {op : Operation} {f : op.Answer → Load α} {read : Reading α → Prop}
    (hfailed : ∀ e, read ⟨[⟨op, .error e⟩], .error e⟩)
    (hf : ∀ v, Reads api (f v) fun r => read ⟨⟨op, .ok v⟩ :: r.asked, r.view⟩) :
    Reads api (call op >>= f) read := by
  intro s m
  cases hanswer : (api op s).1 with
  | error e =>
    refine ⟨_, (api op s).2, hfailed e, ?_, Task.runs_ask hanswer (Task.runs_pure _ _)⟩
    simp [Reading.Settled, Asked.Succeeded, Asked.failure?]
  | ok v =>
    obtain ⟨r, s', hread, hsettled, hruns⟩ := hf v (api op s).2 m
    refine ⟨_, s', hread, ?_, Task.runs_ask hanswer hruns⟩
    have hfirst : Asked.Succeeded ⟨op, .ok v⟩ := rfl
    simpa [Reading.Settled, hfirst] using hsettled

end Rules

section Sections

variable (api : Behaviour σ)

theorem loadStatus_reads :
    Reads api loadStatus fun r => ∃ status, r = Reading.status status :=
  reads_call_bind (fun e => ⟨.error e, rfl⟩) fun status => reads_pure ⟨.ok status, rfl⟩

theorem loadOverride_reads :
    Reads api loadOverride fun r => ∃ current orders, r = Reading.override current orders := by
  refine reads_call_bind (fun e => ⟨.error e, .error e, rfl⟩) fun current => ?_
  refine reads_call_bind (fun e => ⟨.ok current, .error e, rfl⟩) fun orders => ?_
  exact reads_pure ⟨.ok current, .ok orders, rfl⟩

theorem loadZones_reads :
    Reads api loadZones fun r => ∃ orders zones plannings,
      r = Reading.zones orders zones plannings := by
  refine reads_call_bind (fun e => ⟨.error e, .error e, .error e, rfl⟩) fun orders => ?_
  refine reads_call_bind (fun e => ⟨.ok orders, .error e, .error e, rfl⟩) fun zones => ?_
  refine reads_call_bind (fun e => ⟨.ok orders, .ok zones, .error e, rfl⟩) fun plannings => ?_
  exact reads_pure ⟨.ok orders, .ok zones, .ok plannings, rfl⟩

theorem loadPlannings_reads (requested : Option PlanningId) :
    Reads api (loadPlannings requested) fun r => ∃ plannings,
      r = Reading.plannings requested plannings :=
  reads_call_bind (fun e => ⟨.error e, rfl⟩) fun plannings => reads_pure ⟨.ok plannings, rfl⟩

theorem loadSlots_reads (planning : PlanningId) :
    Reads api (loadSlots planning) fun r => ∃ slots orders,
      r = Reading.slots planning slots orders := by
  refine reads_call_bind (fun e => ⟨.error e, .error e, rfl⟩) fun slots => ?_
  refine reads_call_bind (fun e => ⟨.ok slots, .error e, rfl⟩) fun orders => ?_
  exact reads_pure ⟨.ok slots, .ok orders, rfl⟩

theorem loadAccounts_reads :
    Reads api loadAccounts fun r => ∃ accounts, r = Reading.accounts accounts :=
  reads_call_bind (fun e => ⟨.error e, rfl⟩) fun accounts => reads_pure ⟨.ok accounts, rfl⟩

theorem loadHardware_reads (requested : Option HardwareId) :
    Reads api (loadHardware requested) fun r => ∃ list parameters,
      r = Reading.hardware requested list parameters := by
  refine reads_call_bind (fun e => ⟨.error e, .error e, rfl⟩) fun list => ?_
  cases hselection : HardwareView.selection list requested with
  | none =>
    refine reads_pure ⟨.ok list, .ok [], ?_⟩
    simp only [Reading.hardware, hselection]
  | some id =>
    refine reads_call_bind (fun e => ⟨.ok list, .error e, ?_⟩) fun parameters => ?_
    · simp only [Reading.hardware, hselection]
      rfl
    · refine reads_pure ⟨.ok list, .ok parameters, ?_⟩
      simp only [Reading.hardware, hselection]
      rfl

end Sections
end HeatingControl.Dashboard
