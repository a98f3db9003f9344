import HeatingControl.Proofs.Controller.Run
import HeatingControl.Proofs.Dashboard.Tasks

/-!
# Tasks on a controller of one's own

Nobody else calls the controller, and its clock shows the same moment of the week throughout; the
instants of the calls are as they come. A controller at rest, no reboot being under way, answers
every question; what is only read leaves it at rest.
-/
namespace HeatingControl.Dashboard

variable {α β : Type} {grace : Nat} {week : WeekTime}

/-- A controller, and the instants at which it is going to be called. -/
structure Site where
  state : State
  instants : Nat → Nat

def Site.behaviour (grace : Nat) (week : WeekTime) : Behaviour Site := fun op w =>
  let r := State.step grace ⟨w.instants 0, week⟩ (.operation op) w.state
  (r.1, ⟨r.2, fun n => w.instants (n + 1)⟩)

def Task.Asks : Task α → Prop
  | .ask (.ask _) _ => True
  | _ => False

theorem Task.Asks.runWith_boot {t : Task α} (h : t.Asks) (s : State) (instants : Nat → Nat)
    (m : Memory) :
    t.runWith (Site.behaviour grace week) (⟨s, instants⟩, m) =
      t.runWith (Site.behaviour grace week) (⟨s.boot (instants 0), instants⟩, m) := by
  cases t with
  | done a => exact h.elim
  | ask e next =>
    cases e with
    | ask op =>
      have hstep : State.step grace ⟨instants 0, week⟩ (.operation op) (s.boot (instants 0)) =
          State.step grace ⟨instants 0, week⟩ (.operation op) s :=
        State.step_boot _
      simp only [runWith, Program.run, Effect.answer, Site.behaviour, hstep]
    | _ => exact h.elim

section AtRest

variable {b : State} {m : Memory}

def AtRest (b : State) (m : Memory) (w : Site × Memory) : Prop := w.1.state = b ∧ w.2 = m

/-- The load succeeds with something of the kind and leaves all as it is. -/
def Loads (grace : Nat) (week : WeekTime) (b : State) (m : Memory) (x : Load α)
    (shown : α → Prop) : Prop :=
  Task.Ensures (Site.behaviour grace week) (AtRest b m) x.run fun r w =>
    (∃ a, r = .ok a ∧ shown a) ∧ AtRest b m w

theorem loads_pure {shown : α → Prop} {a : α} (h : shown a) :
    Loads grace week b m (pure a) shown :=
  fun _ hw => ⟨⟨a, rfl, h⟩, hw⟩

theorem Loads.bind {x : Load α} {f : α → Load β} {between : α → Prop} {shown : β → Prop}
    (hx : Loads grace week b m x between)
    (hf : ∀ a, between a → Loads grace week b m (f a) shown) :
    Loads grace week b m (x >>= f) shown := by
  have hgo : Task.Ensures (Site.behaviour grace week) (AtRest b m) x.run
      (Task.Either (fun a w => between a ∧ AtRest b m w) fun _ _ => False) := by
    intro w hw
    obtain ⟨⟨a, ha, hbetween⟩, hrest⟩ := hx w hw
    rw [ha]
    exact ⟨hbetween, hrest⟩
  refine Task.ensures_load_bind hgo ?_ ?_
  · intro a
    exact Task.ensures_of_fact (hf a)
  · intro e w hfalse
    exact hfalse.elim

theorem loads_call {op : Operation} {shown : op.Answer → Prop} (hidle : b.rebootingUntil = none)
    (h : ∀ now, ∃ a, b.perform grace ⟨now, week⟩ op = (.ok a, b) ∧ shown a) :
    Loads grace week b m (call op) shown := by
  rintro ⟨⟨s, instants⟩, n⟩ ⟨rfl, rfl⟩
  obtain ⟨a, hperform, ha⟩ := h (instants 0)
  have hstep : State.step grace ⟨instants 0, week⟩ (.operation op) s = (.ok a, s) := by
    rw [State.step_of_online (State.onlineAt_of_idle _ hidle), State.boot_of_idle hidle]
    exact hperform
  have hanswer : Site.behaviour grace week op ⟨s, instants⟩ =
      (.ok a, ⟨s, fun n => instants (n + 1)⟩) := by
    simp only [Site.behaviour, hstep]
  refine ⟨⟨a, ?_, ha⟩, ?_, rfl⟩
  · exact congrArg Prod.fst hanswer
  · exact congrArg (fun r => r.2.state) hanswer

theorem loads_read (op : Operation) (v : op.Answer) (hidle : b.rebootingUntil = none)
    (h : ∀ now, b.perform grace ⟨now, week⟩ op = (.ok v, b)) :
    Loads grace week b m (call op) (· = v) :=
  loads_call hidle fun now => ⟨v, h now, rfl⟩

theorem loads_zones (hidle : b.rebootingUntil = none) :
    Loads grace week b m loadZones
      (· = ZonesView.render b.orders (b.currentZones week) b.plannings) := by
  refine (loads_read .getOrders b.orders hidle fun _ => rfl).bind ?_
  rintro _ rfl
  refine (loads_read .getZones (b.currentZones week) hidle fun _ => rfl).bind ?_
  rintro _ rfl
  refine (loads_read .getPlannings b.plannings hidle fun _ => rfl).bind ?_
  rintro _ rfl
  exact loads_pure rfl

theorem refreshNow_atRest (hidle : b.rebootingUntil = none) :
    Task.Ensures (Site.behaviour grace week) (AtRest b m) refreshNow fun _ w =>
      w.1.state = b ∧
        w.2.snapshot = some (ZonesView.render b.orders (b.currentZones week) b.plannings) := by
  refine Task.Ensures.bind (loads_zones hidle) fun r => ?_
  rintro w ⟨⟨view, rfl, rfl⟩, hstate, -⟩
  exact ⟨hstate, rfl⟩

end AtRest
end HeatingControl.Dashboard
