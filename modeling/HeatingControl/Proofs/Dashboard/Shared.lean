import HeatingControl.Proofs.Dashboard.Input

/-!
# Actions on a controller that others call too

Between two questions of an action others may call the controller, and start reboots. Whatever
they do, the controller finds nothing wrong with the form of what an action sends.
-/
namespace HeatingControl.Dashboard

open HeatingControl.Dashboard.Task

variable {α : Type} {grace : Nat}

/-- A controller, and for each question to come the calls that others make before it and the
moment at which it is asked. -/
structure Shared where
  state : State
  others : Nat → List (Moment × Call)
  moments : Nat → Moment

namespace Shared

def met (grace : Nat) (w : Shared) : State :=
  (w.others 0).foldl (fun s c => (State.step grace c.1 c.2 s).2) w.state

def behaviour (grace : Nat) : Behaviour Shared := fun op w =>
  let r := State.step grace (w.moments 0) (.operation op) (w.met grace)
  (r.1, ⟨r.2, fun n => w.others (n + 1), fun n => w.moments (n + 1)⟩)

variable {w : Shared}

theorem met_reachable (h : State.Reachable grace w.state) :
    State.Reachable grace (w.met grace) := by
  have hcalls : ∀ (calls : List (Moment × Call)) (s : State), State.Reachable grace s →
      State.Reachable grace (calls.foldl (fun s c => (State.step grace c.1 c.2 s).2) s) := by
    intro calls
    induction calls with
    | nil => exact fun s hs => hs
    | cons c calls ih => exact fun s hs => ih _ (.step c.1 c.2 hs)
  exact hcalls _ _ h

theorem asked_reachable (h : State.Reachable grace w.state) (m : Memory) (t : Task α) :
    ∀ x ∈ asked (behaviour grace) t (w, m), ∃ u t', State.Reachable grace u ∧
      x.result = (State.step grace t' (.operation x.op) u).1 := by
  intro x hx
  obtain ⟨v, hv, hresult⟩ := asked_of_kept (fun w => State.Reachable grace w.state)
    (fun op w hw => .step (w.moments 0) (.operation op) (met_reachable hw)) h x hx
  exact ⟨v.met grace, v.moments 0, met_reachable hv, hresult⟩

end Shared

/-- The question has failed in a foreseen way, or while a reboot was under way. -/
def Asked.Foreseen (grace : Nat) (x : Asked) : Prop :=
  ∀ e, x.failure? = some e → e.foreseen = true ∨
    ∃ u t, State.Reachable grace u ∧ ¬ u.OnlineAt t.now ∧
      x.result = (State.step grace t (.operation x.op) u).1 ∧
      e = State.unavailable (.operation x.op)

theorem Asked.foreseen_of_wellFormed {x : Asked} (h : x.op.WellFormed) {u : State} {t : Moment}
    (hu : State.Reachable grace u) (hx : x.result = (State.step grace t (.operation x.op) u).1) :
    x.Foreseen grace := by
  intro e he
  have hresult : (State.step grace t (.operation x.op) u).1 = .error e := by
    rw [← hx]
    exact failure?_eq_some.mp he
  rcases State.step_foreseen hu h hresult with hforeseen | ⟨hoffline, he⟩
  · exact Or.inl hforeseen
  · exact Or.inr ⟨u, t, hu, hoffline, hx, he⟩

/-- Settings that come from a form suit the board in every state, not only in the one in which
its parameters were read. -/
theorem settings_wellFormed {u : State} (hu : State.Reachable grace u) {t : Moment}
    {board : HardwareId} {fields : List (String × String)} {parameters : List HardwareParameter}
    {settings : HardwareSettings}
    (hread : (State.step grace t (.operation (.getHardwareParameters board)) u).1 = .ok parameters)
    (hform : HardwareSettings.ofForm board fields parameters = .ok settings) :
    (Operation.applyHardware settings).WellFormed := by
  have hfound : Table.get? board u.parameters = some parameters := by
    rw [State.step_of_online (State.onlineAt_of_ok hread)] at hread
    change (State.hardwareParameters board (u.boot t.now)).1 = .ok parameters at hread
    unfold State.hardwareParameters at hread
    rw [State.boot_parameters] at hread
    split at hread
    · cases hread
      assumption
    · cases hread
  obtain ⟨hfits, rfl⟩ := HardwareSettings.ofForm_ok_iff.mp hform
  intro v hv parameters' hfound'
  have hmem := Table.mem_of_get? hfound
  exact State.checkValues_filled (hu.boards.ids_distinct hmem)
    (hu.boards.schema_eq hv hfound hfound') hfits (hu.boards.readable _ hmem)

def Effect.WellFormed : Effect → Prop
  | .ask op => op.WellFormed
  | _ => True

theorem refreshNow_wellFormed : Program.Only Effect.WellFormed refreshNow := by
  have hzones : Program.Only Effect.WellFormed loadZones.run :=
    only_load_bind (only_call trivial) fun _ => only_load_bind (only_call trivial) fun _ =>
      only_load_bind (only_call trivial) fun _ => trivial
  refine only_bind hzones fun r => ?_
  cases r with
  | ok view => exact only_perform trivial
  | error e => exact only_perform trivial

theorem finish_wellFormed (a : Action) (r : Except Error Outcome) :
    Program.Only Effect.WellFormed (a.finish r) := by
  cases r with
  | error e => exact only_bind (only_perform trivial) fun _ => trivial
  | ok outcome =>
    cases outcome with
    | applied =>
      unfold Action.finish
      cases a.touchesZones with
      | true => exact only_bind refreshNow_wellFormed fun _ => trivial
      | false => trivial
    | skipped | reboot | failed => trivial

theorem reboot_wellFormed : Program.Only Effect.WellFormed reboot := by
  refine only_bind (only_call trivial) fun r => ?_
  cases r with
  | ok page => trivial
  | error e => exact only_bind (only_perform trivial) fun _ => trivial

section Sent

variable {w : Shared} (h : State.Reachable grace w.state)

include h

theorem asked_wellFormed (m : Memory) (a : Action) :
    ∀ x ∈ asked (Shared.behaviour grace) a.run (w, m), x.op.WellFormed := by
  have hreachable := Shared.asked_reachable h m a.run
  obtain ⟨r, s', hattempted, hattempt⟩ :=
    a.attempt_runs (Shared.behaviour grace) w m
  have hrun := hattempt.bind (f := a.finish) ⟨rfl, rfl⟩
  rw [a.run_eq, hrun.asked] at hreachable ⊢
  intro x hx
  rcases List.mem_append.mp hx with hfirst | hrest
  · cases hattempted with
    | senseless | boardless => cases hfirst
    | asked hrequest r =>
      rw [List.mem_singleton.mp hfirst]
      exact hrequest.wellFormed
    | unread | unfit =>
      rw [List.mem_singleton.mp hfirst]
      trivial
    | @filled _ _ _ board parameters settings _ hform r =>
      obtain ⟨u, t, hu, hread⟩ :=
        hreachable ⟨.getHardwareParameters board, .ok parameters⟩ (by simp)
      rcases List.mem_cons.mp hfirst with rfl | hlast
      · trivial
      · rw [List.mem_singleton.mp hlast]
        exact settings_wellFormed hu hread.symm (toOption_eq_some.mp hform)
  · exact asked_of_only (finish_wellFormed a r.view) _ x hrest

theorem asked_foreseen (m : Memory) {t : Task α}
    (ht : ∀ x ∈ asked (Shared.behaviour grace) t (w, m), x.op.WellFormed) :
    ∀ x ∈ asked (Shared.behaviour grace) t (w, m), x.Foreseen grace := by
  intro x hx
  obtain ⟨u, t', hu, hresult⟩ := Shared.asked_reachable h m t x hx
  exact Asked.foreseen_of_wellFormed (ht x hx) hu hresult

/-- In every state of a run, online or rebooting, whatever others ask of the controller between
two questions, and for every action with whatever input: what fails does so in a foreseen way or
because of a reboot, and an action that fails says what has failed. Input that makes no sense is
skipped with nothing asked, a form that does not fit its board with nothing but the parameters
read. -/
theorem actions_well_formed (m : Memory) (a : Action) :
    let api := Shared.behaviour grace
    let r := a.run.runWith api (w, m)
    let xs := asked api a.run (w, m)
    (∀ x ∈ xs, x.Foreseen grace) ∧ (∀ x ∈ asked api reboot (w, m), x.Foreseen grace) ∧
      (r.1 = .failed → ∃ x ∈ xs, ∃ e, x.failure? = some e ∧
        r.2.2 = { m with panel := m.panel.push e.message }) ∧
      (¬ a.Sensible → r = (.skipped, (w, m)) ∧ xs = []) ∧
      ∀ hardware fields confirmed board parameters rest,
        a = .applyHardware hardware fields confirmed →
        xs = ⟨.getHardwareParameters board, .ok parameters⟩ :: rest →
        (∃ p ∈ parameters, ¬ HardwareSettings.Fits fields p) →
        r.1 = .skipped ∧ rest = [] ∧ r.2.2 = m := by
  intro api r xs
  refine ⟨asked_foreseen h m (asked_wellFormed h m a), ?_, ?_, ?_, ?_⟩
  · exact asked_foreseen h m (asked_of_only reboot_wellFormed _)
  · intro hfailed
    obtain ⟨ys, o, s', m', hrun, htells⟩ := a.run_runs api w m
    have hr : r = (o, (s', m')) := hrun.run
    rw [hr] at hfailed
    subst hfailed
    obtain ⟨⟨front, last, e, hfront, -, he, hm⟩, -⟩ := htells
    rw [hr, show xs = ys from hrun.asked, hfront]
    exact ⟨last, by simp, e, he, hm⟩
  · intro hsenseless
    have hrun : a.run = pure .skipped := Action.run_senseless hsenseless
    constructor
    · simp only [r, hrun]
      rfl
    · simp only [xs, hrun]
      rfl
  · rintro hardware fields confirmed board parameters rest rfl hxs hunfit
    exact Action.run_unfit hxs hunfit

end Sent

/-- A planning is deleted just before a zone is to follow it. -/
theorem mode_of_planning_deleted_meanwhile :
    let t : Moment := ⟨0, ⟨.monday, 8, 0⟩⟩
    let w : Shared := ⟨.seeded 0, fun _ => [(t, .operation (.deletePlanning ⟨1⟩))], fun _ => t⟩
    let a : Action := .changeZoneMode "1" ":planning:1"
    let m := Memory.new 4
    let r := a.run.runWith (Shared.behaviour 5) (w, m)
    State.Reachable 5 w.state ∧ r.1 = .failed ∧
      r.2.2.panel.messages = ["unknown planning 1"] ∧
      ∀ x ∈ asked (Shared.behaviour 5) a.run (w, m), x.Foreseen 5 := by
  intro t w a m r
  have hrun : State.Reachable 5 w.state := .seeded 0
  obtain ⟨hfailed, hmessages⟩ :
      r.1 = .failed ∧ r.2.2.panel.messages = ["unknown planning 1"] := by
    decide +kernel
  exact ⟨hrun, hfailed, hmessages, (actions_well_formed hrun m a).1⟩

end HeatingControl.Dashboard
