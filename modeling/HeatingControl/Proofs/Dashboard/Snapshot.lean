import HeatingControl.Proofs.Controller.Atomicity
import HeatingControl.Proofs.Controller.Frame
import HeatingControl.Proofs.Dashboard.Site

/-!
# The latest zone section

Whoever is alone on a controller never sees an old zone section: what may change a row is followed
by a refresh, and a refresh that fails does so because nothing has changed.
-/
namespace HeatingControl

def Operation.touchesZones : Operation → Bool
  | .putOverride _ | .patchZone _ _ | .createPlanning _ | .renamePlanning _ _
  | .deletePlanning _ | .createSlot _ _ | .patchSlot _ _ _ | .deleteSlot _ _ => true
  | _ => false

/-- What a zone section is made of. -/
structure ZoneSource where
  orders : List Order
  zones : List Zone
  plannings : List Planning

def ZoneSource.view (z : ZoneSource) : ZonesView := ZonesView.render z.orders z.zones z.plannings

namespace State

variable {grace : Nat} {week : WeekTime} {t : Moment} {s : State} {op : Operation}

def zoneSource (week : WeekTime) (s : State) : ZoneSource :=
  ⟨s.orders, s.currentZones week, s.plannings⟩

theorem boot_zoneSource (now : Nat) (s : State) :
    (s.boot now).zoneSource week = s.zoneSource week := by
  obtain ⟨_, _, _, _, _, hrecords⟩ := boot_records now s
  rw [hrecords]
  rfl

theorem perform_zoneSource (h : op.touchesZones = false) (s : State) :
    (perform grace t op s).2.zoneSource week = s.zoneSource week := by
  obtain ⟨u, hframe⟩ := perform_frame grace t op s
  rw [hframe]
  cases op with
  | putOverride | patchZone | createPlanning | renamePlanning | deletePlanning | createSlot
  | patchSlot | deleteSlot => cases h
  | _ => rfl

theorem perform_rebootingUntil (h : op.touchesZones = true) (s : State) :
    (perform grace t op s).2.rebootingUntil = s.rebootingUntil := by
  obtain ⟨u, hframe⟩ := perform_frame grace t op s
  rw [hframe]
  cases op with
  | putOverride | patchZone | createPlanning | renamePlanning | deletePlanning | createSlot
  | patchSlot | deleteSlot => rfl
  | _ => cases h

theorem step_zoneSource (hs : Integrity s)
    (h : op.touchesZones = false ∨ ∃ e, (step grace t (.operation op) s).1 = .error e) :
    (step grace t (.operation op) s).2.zoneSource week = s.zoneSource week := by
  rcases h with h | ⟨e, he⟩
  · by_cases honline : s.OnlineAt t.now
    · rw [step_of_online honline]
      exact (perform_zoneSource h _).trans (boot_zoneSource t.now s)
    · rw [step_of_offline honline]
      exact boot_zoneSource t.now s
  · rw [step_error_state hs he]
    exact boot_zoneSource t.now s

theorem step_idle (h : op.touchesZones = true) {v : op.Answer}
    (hok : (step grace t (.operation op) s).1 = .ok v) :
    (step grace t (.operation op) s).2.rebootingUntil = none := by
  have honline : s.OnlineAt t.now := onlineAt_of_ok hok
  rw [step_of_online honline]
  exact (perform_rebootingUntil h _).trans honline

end State

namespace Dashboard

variable {grace : Nat} {week : WeekTime}

theorem Action.touchesZones_of_request? {a : Action} {op : Operation}
    (h : a.request? = some op) : op.touchesZones = a.touchesZones := by
  cases requests_of_request? h <;> rfl

/-- A state of a run whose zone section is made of this, and a snapshot that shows no other. -/
structure Current (grace : Nat) (week : WeekTime) (z : ZoneSource) (w : Site × Memory) : Prop where
  reachable : State.Reachable grace w.1.state
  source : w.1.state.zoneSource week = z
  snapshot : w.2.snapshot = none ∨ w.2.snapshot = some z.view

/-- Neither touches the zones nor replaces the snapshot. -/
def Effect.Calm : Effect → Prop
  | .ask op => op.touchesZones = false
  | .publish _ => False
  | _ => True

section Calm

variable {z : ZoneSource} {w : Site × Memory}

theorem Current.ask (h : Current grace week z w) {op : Operation}
    (hop : op.touchesZones = false ∨ ∃ e, (Site.behaviour grace week op w.1).1 = .error e) :
    Current grace week z ((Effect.ask op).answer (Site.behaviour grace week) w).2 := by
  constructor
  · exact .step _ _ h.reachable
  · exact (State.step_zoneSource h.reachable.integrity hop).trans h.source
  · exact h.snapshot

theorem Current.publish (h : Current grace week z w) :
    Current grace week z ((Effect.publish z.view).answer (Site.behaviour grace week) w).2 :=
  ⟨h.reachable, h.source, Or.inr rfl⟩

theorem Effect.Calm.keeps {e : Effect} (he : e.Calm) (w : Site × Memory)
    (h : Current grace week z w) :
    Current grace week z (e.answer (Site.behaviour grace week) w).2 := by
  cases e with
  | ask op => exact h.ask (Or.inl he)
  | publish view => exact he.elim
  | note | drain | latest | claim | release => exact ⟨h.reachable, h.source, h.snapshot⟩

theorem Effect.Aside.calm {e : Effect} (h : e.Aside) : e.Calm := by
  cases e with
  | ask op =>
    cases op with
    | putOverride | patchZone | createPlanning | renamePlanning | deletePlanning | createSlot
    | patchSlot | deleteSlot => cases h.1
    | _ => rfl
  | publish view => exact h.elim
  | note | drain | latest | claim | release => trivial

theorem ensures_calm {α : Type} {t : Task α} (ht : Program.Only Effect.Calm t) :
    Task.Ensures (Site.behaviour grace week) (Current grace week z) t
      fun _ => Current grace week z :=
  Task.ensures_of_only ht fun _ he w => he.keeps w

theorem ensures_aside {α : Type} {t : Task α} (ht : Program.Only Effect.Aside t) :
    Task.Ensures (Site.behaviour grace week) (Current grace week z) t
      fun _ => Current grace week z :=
  ensures_calm (Task.only_mono ht fun _ => Effect.Aside.calm)

end Calm

section Published

open HeatingControl.Dashboard.Task

variable {z : ZoneSource}

def Fetched {α : Type} (grace : Nat) (week : WeekTime) (z : ZoneSource) (shown : α → Prop) :
    Except Error α → Site × Memory → Prop :=
  Either (fun a w => shown a ∧ Current grace week z w) fun _ => Current grace week z

theorem Fetched.fact {α : Type} {shown : α → Prop} {r : Except Error α} {w : Site × Memory}
    (h : Fetched grace week z shown r w) :
    (∀ a, r = .ok a → shown a) ∧ Current grace week z w := by
  cases r with
  | ok a =>
    refine ⟨?_, h.2⟩
    rintro _ ⟨⟩
    exact h.1
  | error e =>
    refine ⟨?_, h⟩
    rintro _ ⟨⟩

theorem ensures_fetched_bind {α β : Type} {between : α → Prop} {shown : β → Prop} {x : Load α}
    {f : α → Load β}
    (hx : Ensures (Site.behaviour grace week) (Current grace week z) x.run
      (Fetched grace week z between))
    (hf : ∀ a, between a → Ensures (Site.behaviour grace week) (Current grace week z) (f a).run
      (Fetched grace week z shown)) :
    Ensures (Site.behaviour grace week) (Current grace week z) (x >>= f).run
      (Fetched grace week z shown) := by
  refine ensures_load_bind hx ?_ ?_
  · intro a
    exact ensures_of_fact (hf a)
  · intro e w hw
    exact hw

/-- What is read is what the section is made of, or the controller is not online. -/
theorem read_current {op : Operation} (v : op.Answer) (hop : op.touchesZones = false)
    (hread : ∀ (t : Moment) (s : State), t.week = week → s.zoneSource week = z →
      (s.perform grace t op).1 = .ok v) :
    Ensures (Site.behaviour grace week) (Current grace week z) (call op).run
      (Fetched grace week z (· = v)) := by
  rintro ⟨⟨s, instants⟩, m⟩ hw
  have hkept : Current grace week z
      ((Effect.ask op).answer (Site.behaviour grace week) (⟨s, instants⟩, m)).2 :=
    hw.ask (Or.inl hop)
  have hrun : runWith (call op).run (Site.behaviour grace week) (⟨s, instants⟩, m) =
      (Effect.ask op).answer (Site.behaviour grace week) (⟨s, instants⟩, m) := rfl
  rw [hrun]
  generalize hr : (Effect.ask op).answer (Site.behaviour grace week) (⟨s, instants⟩, m) = r
  rw [hr] at hkept
  by_cases honline : s.OnlineAt (instants 0)
  · have hsource : (s.boot (instants 0)).zoneSource week = z :=
      (State.boot_zoneSource _ s).trans hw.source
    have hanswer : r.1 = .ok v := by
      rw [← hr]
      exact (congrArg Prod.fst (State.step_of_online honline _)).trans (hread _ _ rfl hsource)
    rw [hanswer]
    exact ⟨rfl, hkept⟩
  · have hanswer : r.1 = .error (State.unavailable (.operation op)) := by
      rw [← hr]
      exact congrArg Prod.fst (State.step_of_offline honline _)
    rw [hanswer]
    exact hkept

/-- The three answers belong together, as none of the questions changes anything. -/
theorem loadZones_current :
    Ensures (Site.behaviour grace week) (Current grace week z) loadZones.run
      (Fetched grace week z (· = z.view)) := by
  have horders : Ensures (Site.behaviour grace week) (Current grace week z) (call .getOrders).run
      (Fetched grace week z (· = z.orders)) := by
    refine read_current _ rfl ?_
    rintro t s - rfl
    rfl
  have hzones : Ensures (Site.behaviour grace week) (Current grace week z) (call .getZones).run
      (Fetched grace week z (· = z.zones)) := by
    refine read_current _ rfl ?_
    rintro t s rfl rfl
    rfl
  have hplannings : Ensures (Site.behaviour grace week) (Current grace week z)
      (call .getPlannings).run (Fetched grace week z (· = z.plannings)) := by
    refine read_current _ rfl ?_
    rintro t s - rfl
    rfl
  refine ensures_fetched_bind horders ?_
  rintro _ rfl
  refine ensures_fetched_bind hzones ?_
  rintro _ rfl
  refine ensures_fetched_bind hplannings ?_
  rintro _ rfl w hw
  exact ⟨rfl, hw⟩

theorem refreshNow_current :
    Ensures (Site.behaviour grace week) (Current grace week z) refreshNow
      fun _ => Current grace week z := by
  refine loadZones_current.bind fun r => ?_
  cases r with
  | ok view =>
    refine ensures_of_fact ?_
    rintro rfl w hw
    exact hw.publish
  | error e => exact ensures_calm (only_perform trivial)

theorem tick_current :
    Ensures (Site.behaviour grace week) (Current grace week z) tick
      fun _ => Current grace week z := by
  have hclaim : Program.Only Effect.Calm (perform .claim) := only_perform trivial
  refine (ensures_calm hclaim).bind fun free => ?_
  cases free with
  | true =>
    refine refreshNow_current.bind fun _ => ?_
    exact ensures_calm (only_bind (only_perform trivial) fun _ => trivial)
  | false => exact ensures_calm trivial

theorem zonePage_current :
    Ensures (Site.behaviour grace week) (Current grace week z) zonePage
      fun _ => Current grace week z := by
  have hlatest : Program.Only Effect.Calm (perform .latest) := only_perform trivial
  refine (ensures_calm hlatest).bind fun latest => ?_
  have hrest : Program.Only Effect.Calm (do
      let zones ← perform .latest
      let errors ← perform .drain
      return (⟨zones, errors⟩ : ZonePage)) :=
    only_bind (only_perform trivial) fun _ => only_bind (only_perform trivial) fun _ => trivial
  cases latest with
  | none => exact refreshNow_current.bind fun _ => ensures_calm hrest
  | some view => exact ensures_calm hrest

theorem publishSome_current {latest : Option ZonesView} (h : ∀ v, latest = some v → v = z.view) :
    Ensures (Site.behaviour grace week) (Current grace week z) (publishSome latest)
      fun _ => Current grace week z := by
  cases latest with
  | none => exact ensures_calm trivial
  | some v =>
    obtain rfl := h v rfl
    intro w hw
    exact hw.publish

theorem settle_current {r : Except Error ZonesView} (h : ∀ v, r = .ok v → v = z.view) :
    Ensures (Site.behaviour grace week) (Current grace week z) (settle r) fun latest w =>
      (∀ v, latest = some v → v = z.view) ∧ Current grace week z w := by
  intro w hw
  refine ⟨?_, ensures_aside (settle_aside r) w hw⟩
  cases r with
  | ok v =>
    rintro _ ⟨⟩
    exact h v rfl
  | error e => rintro _ ⟨⟩

theorem bootstrap_current (selection : Selection) :
    Ensures (Site.behaviour grace week) (Current grace week z) (bootstrap selection)
      fun _ => Current grace week z := by
  unfold bootstrap
  refine (ensures_aside loadStatus_aside).bind fun status => ?_
  refine (ensures_aside loadOverride_aside).bind fun override => ?_
  refine (loadZones_current.mono fun r w => Fetched.fact).bind fun zones => ensures_of_fact ?_
  intro hzones
  refine (ensures_aside (loadPlannings_aside _)).bind fun plannings => ?_
  refine (ensures_aside (loadSelectedSlots_aside _)).bind fun slots => ?_
  refine (ensures_aside loadAccounts_aside).bind fun accounts => ?_
  refine (ensures_aside (loadHardware_aside _)).bind fun hardware => ?_
  refine (settle_current hzones).bind fun latest => ensures_of_fact ?_
  intro hlatest
  refine (publishSome_current hlatest).bind fun _ => ensures_aside ?_
  refine only_bind (settle_aside _) fun _ => ?_
  refine only_bind (settle_aside _) fun _ => ?_
  refine only_bind (settle_aside _) fun _ => ?_
  refine only_bind (settle_aside _) fun _ => ?_
  refine only_bind (settleSome_aside _) fun _ => ?_
  refine only_bind (settle_aside _) fun _ => ?_
  exact only_bind (only_perform trivial) fun _ => trivial

end Published

section Actions

open HeatingControl.Dashboard.Task

variable {z : ZoneSource} {a : Action}

/-- A state of a run in which every question is answered. -/
structure Ready (grace : Nat) (w : Site × Memory) : Prop where
  reachable : State.Reachable grace w.1.state
  idle : w.1.state.rebootingUntil = none

theorem Action.plan_eq (h : a.touchesZones = true) : a.plan = pure a.request? := by
  rcases a.plan_cases with hplan | ⟨hardware, fields, confirmed, rfl⟩
  · exact hplan
  · cases h

theorem Action.success_eq (h : a.touchesZones = true) : a.success = .applied := by
  cases a with
  | uploadFirmware | uploadCertificate | applyHardware => cases h
  | _ => rfl

theorem attempt_only {admitted : Effect → Prop} (h : a.plan = pure a.request?)
    (hop : ∀ op, a.request? = some op → admitted (.ask op)) :
    Program.Only admitted a.attempt.run := by
  rw [Action.attempt_eq h]
  cases hrequest : a.request? with
  | none => trivial
  | some op => exact ⟨hop op hrequest, fun _ => trivial⟩

theorem attempt_calm (h : a.touchesZones = false) : Program.Only Effect.Calm a.attempt.run := by
  rcases a.plan_cases with hplan | ⟨hardware, fields, confirmed, rfl⟩
  · apply attempt_only hplan
    intro op hop
    exact (Action.touchesZones_of_request? hop).trans h
  · rw [Action.attempt_applyHardware]
    cases Action.board? hardware confirmed with
    | none => trivial
    | some board =>
      refine ⟨rfl, fun r => ?_⟩
      cases r with
      | error e => trivial
      | ok parameters =>
        dsimp only
        cases (HardwareSettings.ofForm board fields parameters).toOption with
        | none => trivial
        | some settings => exact ⟨rfl, fun _ => trivial⟩

theorem run_calm (h : a.touchesZones = false) : Program.Only Effect.Calm a.run := by
  refine only_bind (attempt_calm h) fun r => ?_
  cases r with
  | error e => exact only_mono (note_aside _ _) fun _ => Effect.Aside.calm
  | ok outcome =>
    cases outcome with
    | applied =>
      simp only [h]
      trivial
    | skipped | reboot | failed => trivial

/-- Either the zones are touched and the controller is at rest, or nothing has changed. -/
theorem attempt_current (h : a.touchesZones = true) :
    Ensures (Site.behaviour grace week) (Current grace week z) a.attempt.run fun r w =>
      (r = .ok .applied ∧ Ready grace w) ∨ (r ≠ .ok .applied ∧ Current grace week z w) := by
  rw [Action.attempt_eq (Action.plan_eq h), Action.success_eq h]
  cases hrequest : a.request? with
  | none => exact fun w hw => Or.inr ⟨by rintro ⟨⟩, hw⟩
  | some op =>
    have hop : op.touchesZones = true := by
      rw [Action.touchesZones_of_request? hrequest]
      exact h
    rintro ⟨⟨s, instants⟩, m⟩ hw
    have hrun := State.Reachable.step ⟨instants 0, week⟩ (.operation op) hw.reachable
    cases hanswer : (State.step grace ⟨instants 0, week⟩ (.operation op) s).1 with
    | ok v =>
      refine Or.inl ⟨?_, hrun, State.step_idle hop hanswer⟩
      exact congrArg (Except.map fun _ => Outcome.applied) hanswer
    | error e =>
      refine Or.inr ⟨?_, hw.ask (Or.inr ⟨e, hanswer⟩)⟩
      have hfailed := congrArg (Except.map fun _ => Outcome.applied) hanswer
      intro happlied
      cases happlied.symm.trans hfailed

theorem refreshNow_ready :
    Ensures (Site.behaviour grace week) (Ready grace) refreshNow
      fun _ w => ∃ z, Current grace week z w := by
  rintro ⟨⟨s, instants⟩, m⟩ ⟨hrun, hidle⟩
  obtain ⟨hstate, hsnapshot⟩ := refreshNow_atRest hidle (⟨s, instants⟩, m) ⟨rfl, rfl⟩
  refine ⟨s.zoneSource week, ?_, ?_, Or.inr hsnapshot⟩
  · rw [hstate]
    exact hrun
  · rw [hstate]

theorem run_of_ok {op : Operation} {v : op.Answer} {s : State} {instants : Nat → Nat} {m : Memory}
    (h : a.touchesZones = true) (hrequest : a.request? = some op)
    (hok : (State.step grace ⟨instants 0, week⟩ (.operation op) s).1 = .ok v) :
    let r := a.run.runWith (Site.behaviour grace week) (⟨s, instants⟩, m)
    r.1 = .applied ∧ r.2.1.state = (State.step grace ⟨instants 0, week⟩ (.operation op) s).2 := by
  generalize hu : (State.step grace ⟨instants 0, week⟩ (.operation op) s).2 = u
  have hidle : u.rebootingUntil = none := by
    rw [← hu]
    refine State.step_idle ?_ hok
    rw [Action.touchesZones_of_request? hrequest]
    exact h
  have hattempt : Ensures (Site.behaviour grace week) (· = (⟨s, instants⟩, m)) a.attempt.run
      fun r w => r = .ok .applied ∧ AtRest u m w := by
    rw [Action.attempt_eq (Action.plan_eq h), Action.success_eq h, hrequest]
    rintro w rfl
    exact ⟨congrArg (Except.map fun _ => Outcome.applied) hok, hu, rfl⟩
  have hrun : Ensures (Site.behaviour grace week) (· = (⟨s, instants⟩, m)) a.run
      fun r w => r = .applied ∧ w.1.state = u := by
    refine hattempt.bind fun r => ensures_of_fact ?_
    rintro rfl
    simp only [h, if_true]
    refine (refreshNow_atRest hidle).bind fun _ => ?_
    rintro w ⟨hstate, -⟩
    exact ⟨rfl, hstate⟩
  exact hrun _ rfl

theorem run_of_error {op : Operation} {e : Error} {s : State} {instants : Nat → Nat} {m : Memory}
    (h : a.touchesZones = true) (hrequest : a.request? = some op)
    (herror : (State.step grace ⟨instants 0, week⟩ (.operation op) s).1 = .error e) :
    let r := a.run.runWith (Site.behaviour grace week) (⟨s, instants⟩, m)
    r.1 = .failed ∧ r.2.1.state = (State.step grace ⟨instants 0, week⟩ (.operation op) s).2 := by
  generalize hu : (State.step grace ⟨instants 0, week⟩ (.operation op) s).2 = u
  have hattempt : Ensures (Site.behaviour grace week) (· = (⟨s, instants⟩, m)) a.attempt.run
      fun r w => r = .error e ∧ w.1.state = u := by
    rw [Action.attempt_eq (Action.plan_eq h), Action.success_eq h, hrequest]
    rintro w rfl
    exact ⟨congrArg (Except.map fun _ => Outcome.applied) herror, hu⟩
  have hrun : Ensures (Site.behaviour grace week) (· = (⟨s, instants⟩, m)) a.run
      fun r w => r = .failed ∧ w.1.state = u := by
    refine hattempt.bind fun r => ensures_of_fact ?_
    rintro rfl w hstate
    exact ⟨rfl, hstate⟩
  exact hrun _ rfl

theorem run_current (a : Action) :
    Ensures (Site.behaviour grace week) (Current grace week z) a.run
      fun _ w => ∃ z, Current grace week z w := by
  cases h : a.touchesZones with
  | false => exact (ensures_calm (run_calm h)).mono fun _ w hw => ⟨z, hw⟩
  | true =>
    refine (attempt_current h).bind fun r => ?_
    rintro w (⟨rfl, hw⟩ | ⟨hne, hw⟩)
    · have hrefresh : Ensures (Site.behaviour grace week) (Ready grace)
          (refreshNow >>= fun _ => pure Outcome.applied)
          fun _ w => ∃ z, Current grace week z w :=
        refreshNow_ready.bind fun _ _ hw => hw
      simp only [h, if_true]
      exact hrefresh w hw
    · refine ⟨z, ?_⟩
      cases r with
      | error e => exact ensures_aside (note_aside e.message Outcome.failed) w hw
      | ok outcome =>
        cases outcome with
        | applied => exact absurd rfl hne
        | skipped | reboot | failed => exact hw

theorem reboot_current :
    Ensures (Site.behaviour grace week) (Current grace week z) reboot
      fun _ => Current grace week z := by
  refine ensures_calm (only_bind (only_call rfl) fun r => ?_)
  cases r with
  | ok page => trivial
  | error e => exact only_mono (note_aside _ _) fun _ => Effect.Aside.calm

end Actions

inductive Job where
  | bootstrap (selection : Selection)
  | zonePage
  | tick
  | act (a : Action)
  | reboot

def Job.after {σ : Type} (api : Behaviour σ) (w : σ × Memory) : Job → σ × Memory
  | .bootstrap selection => ((Dashboard.bootstrap selection).runWith api w).2
  | .zonePage => (Dashboard.zonePage.runWith api w).2
  | .tick => (Dashboard.tick.runWith api w).2
  | .act a => (a.run.runWith api w).2
  | .reboot => (Dashboard.reboot.runWith api w).2

theorem Job.after_current {z : ZoneSource} {w : Site × Memory} (h : Current grace week z w)
    (j : Job) : ∃ z, Current grace week z (j.after (Site.behaviour grace week) w) := by
  cases j with
  | bootstrap selection => exact ⟨z, bootstrap_current selection w h⟩
  | zonePage => exact ⟨z, zonePage_current w h⟩
  | tick => exact ⟨z, tick_current w h⟩
  | act a => exact run_current a w h
  | reboot => exact ⟨z, reboot_current w h⟩

theorem jobs_current {z : ZoneSource} {w : Site × Memory} (h : Current grace week z w)
    (jobs : List Job) :
    ∃ z, Current grace week z (jobs.foldl (Job.after (Site.behaviour grace week)) w) := by
  induction jobs generalizing z w with
  | nil => exact ⟨z, h⟩
  | cons j jobs ih =>
    obtain ⟨z, hj⟩ := Job.after_current h j
    exact ih hj

/-- On a controller that nobody else calls and that starts in any state of a run, whatever is
asked of the dashboard and whether it succeeds, is skipped or fails: the latest zone section is
not there yet, or it shows the orders, the zones and the plannings as they are. -/
theorem snapshot_never_stale {s : State} (h : State.Reachable grace s) (week : WeekTime)
    (instants : Nat → Nat) (capacity : Nat) (jobs : List Job) :
    let w := jobs.foldl (Job.after (Site.behaviour grace week))
      (⟨s, instants⟩, Memory.new capacity)
    let u := w.1.state
    w.2.snapshot = none ∨
      w.2.snapshot = some (ZonesView.render u.orders (u.currentZones week) u.plannings) := by
  intro w u
  have hstart : Current grace week (s.zoneSource week) (⟨s, instants⟩, Memory.new capacity) :=
    ⟨h, rfl, Or.inl rfl⟩
  obtain ⟨z, hz⟩ := jobs_current hstart jobs
  have hview : z.view = ZonesView.render u.orders (u.currentZones week) u.plannings := by
    rw [← hz.source]
    rfl
  rw [← hview]
  exact hz.snapshot

/-- One change is made, one has nothing to change, one has no input and one comes while the
controller is rebooting. -/
theorem snapshot_of_refused_changes :
    let jobs : List Job := [.zonePage, .act (.changeOverride "cozy"), .act (.deletePlanning ⟨9⟩),
      .act (.renamePlanning ⟨0⟩ " "), .reboot, .act (.changeOverride "economy")]
    let w := jobs.foldl (Job.after (Site.behaviour 10 ⟨.monday, 8, 0⟩))
      (⟨.seeded 0, fun n => 1000 + n⟩, Memory.new 2)
    let u := w.1.state
    u.override = .order ⟨"cozy"⟩ ∧ u.rebootingUntil.isSome ∧
      w.2.snapshot =
        some (ZonesView.render u.orders (u.currentZones ⟨.monday, 8, 0⟩) u.plannings) := by
  intro jobs w u
  obtain ⟨hchanged, hrebooting, hsome⟩ :
      u.override = .order ⟨"cozy"⟩ ∧ u.rebootingUntil.isSome ∧ w.2.snapshot.isSome := by
    decide +kernel
  refine ⟨hchanged, hrebooting, ?_⟩
  rcases snapshot_never_stale (.seeded 0) ⟨.monday, 8, 0⟩ (fun n => 1000 + n) 2 jobs with h | h
  · rw [h] at hsome
    cases hsome
  · exact h

end Dashboard
end HeatingControl
