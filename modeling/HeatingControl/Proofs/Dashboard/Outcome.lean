import HeatingControl.Proofs.Dashboard.Asked
import HeatingControl.Proofs.Dashboard.Panel

/-!
# What an outcome tells

The outcome of an action, the questions it has asked, the error panel and the latest zone section
agree: nothing has been changed behind a skipped action, a failed one has said why, and what is
said to be done has been done once.
-/
namespace HeatingControl

/-- Whether an operation is one that the zone section is fetched with. -/
def Operation.fetchesZones : Operation → Bool
  | .getOrders | .getZones | .getPlannings => true
  | _ => false

namespace Dashboard

inductive Subject where
  | override
  | zone
  | planning
  | slot
  | account
  | firmware
  | certificate
  | hardware
  deriving DecidableEq, Repr

def Memory.refreshed (m : Memory) : Except Error ZonesView → Memory
  | .ok view => { m with snapshot := some view }
  | .error e => { m with panel := m.panel.push e.message }

namespace Action

def subject : Action → Subject
  | .changeOverride _ => .override
  | .renameZone _ _ | .changeZoneMode _ _ => .zone
  | .createPlanning _ | .renamePlanning _ _ | .deletePlanning _ => .planning
  | .addSlot _ _ | .editSlot _ _ _ _ | .deleteSlot _ _ => .slot
  | .createAccount _ _ | .deleteAccount _ | .resetPassword _ _ => .account
  | .uploadFirmware _ => .firmware
  | .uploadCertificate _ => .certificate
  | .applyHardware _ _ _ => .hardware

/-- What the attempt of an action may have asked, and what it comes to. -/
inductive Attempted : Action → Reading Outcome → Prop
  /-- The input makes no sense. -/
  | senseless {a : Action} (hplan : a.plan = pure a.request?) (h : a.request? = none) :
    Attempted a ⟨[], .ok .skipped⟩
  | asked {a : Action} {op : Operation} (h : a.Requests op) (r : op.Result) :
    Attempted a ⟨[⟨op, r⟩], r.map fun _ => a.success⟩
  | boardless {hardware : String} {fields : List (String × String)} {confirmed : Bool}
    (h : board? hardware confirmed = none) :
    Attempted (.applyHardware hardware fields confirmed) ⟨[], .ok .skipped⟩
  | unread {hardware : String} {fields : List (String × String)} {confirmed : Bool}
    {board : HardwareId} (h : board? hardware confirmed = some board) (e : Error) :
    Attempted (.applyHardware hardware fields confirmed)
      ⟨[⟨.getHardwareParameters board, .error e⟩], .error e⟩
  /-- A field does not fit its parameter. -/
  | unfit {hardware : String} {fields : List (String × String)} {confirmed : Bool}
    {board : HardwareId} {parameters : List HardwareParameter}
    (h : board? hardware confirmed = some board)
    (hform : (HardwareSettings.ofForm board fields parameters).toOption = none) :
    Attempted (.applyHardware hardware fields confirmed)
      ⟨[⟨.getHardwareParameters board, .ok parameters⟩], .ok .skipped⟩
  | filled {hardware : String} {fields : List (String × String)} {confirmed : Bool}
    {board : HardwareId} {parameters : List HardwareParameter} {settings : HardwareSettings}
    (h : board? hardware confirmed = some board)
    (hform : (HardwareSettings.ofForm board fields parameters).toOption = some settings)
    (r : (Operation.applyHardware settings).Result) :
    Attempted (.applyHardware hardware fields confirmed)
      ⟨[⟨.getHardwareParameters board, .ok parameters⟩, ⟨.applyHardware settings, r⟩],
        r.map fun _ => .reboot⟩

theorem Requests.unfetched {a : Action} {op : Operation} (h : a.Requests op) :
    op.fetchesZones = false := by
  cases h <;> rfl

theorem Requests.changes {a : Action} {op : Operation} (h : a.Requests op) :
    op.changes = true := by
  cases h <;> rfl

theorem success_of_subject (a : Action) : a.success =
    match a.subject with
    | .firmware | .certificate | .hardware => .reboot
    | _ => .applied := by
  cases a <;> rfl

theorem touchesZones_of_subject (a : Action) : a.touchesZones =
    match a.subject with
    | .override | .zone | .planning | .slot => true
    | _ => false := by
  cases a <;> rfl

/-- Nothing has been changed, and nothing is noted. -/
structure Skips (a : Action) (asked : List Asked) (m m' : Memory) : Prop where
  changes : asked.filter (·.op.changes) = []
  asked : asked = [] ∨ a.subject = .hardware ∧
    ∃ board parameters, asked = [⟨.getHardwareParameters board, .ok parameters⟩]
  memory : m' = m

/-- The last question has failed and no other one, and its message is noted. -/
structure Fails (asked : List Asked) (m m' : Memory) : Prop where
  last : ∃ front last e, asked = front ++ [last] ∧ (∀ x ∈ front, x.Succeeded) ∧
    last.failure? = some e ∧ m' = { m with panel := m.panel.push e.message }
  unfetched : ∀ x ∈ asked, x.op.fetchesZones = false

/-- There was one change, and it succeeded. -/
structure ChangesOnce (x : Asked) (asked : List Asked) : Prop where
  changes : asked.filter (·.op.changes) = [x]
  succeeded : x.Succeeded

/-- A change that the zone section may show, and the fetch of that section, or a change of the
accounts and nothing more. -/
def Applies (a : Action) (asked : List Asked) (m m' : Memory) : Prop :=
  ∃ x rest, asked = x :: rest ∧ ChangesOnce x asked ∧
    match a.subject with
    | .override | .zone | .planning | .slot => ∃ orders zones plannings,
      let fetched := Reading.zones orders zones plannings
      rest = fetched.asked ∧ fetched.Settled ∧ m' = m.refreshed fetched.view
    | .account => rest = [] ∧ m' = m
    | .firmware | .certificate | .hardware => False

/-- A change that takes effect after a reboot; it is the last question, and none has failed. -/
structure Awaits (a : Action) (asked : List Asked) (m m' : Memory) : Prop where
  last : ∃ front x, asked = front ++ [x] ∧ ChangesOnce x asked
  succeeded : ∀ x ∈ asked, x.Succeeded
  subject : a.subject = .firmware ∨ a.subject = .certificate ∨ a.subject = .hardware
  memory : m' = m

/-- What the outcome tells of the questions asked, and of the memory before and after. -/
def Tells (a : Action) (asked : List Asked) (m m' : Memory) : Outcome → Prop
  | .skipped => a.Skips asked m m'
  | .failed => Fails asked m m'
  | .applied => a.Applies asked m m'
  | .reboot => a.Awaits asked m m'

def finish (a : Action) : Except Error Outcome → Task Outcome
  | .error e => do
    perform (.note e.message)
    return .failed
  | .ok .applied => do
    if a.touchesZones then refreshNow
    return .applied
  | .ok outcome => return outcome

theorem run_eq (a : Action) : a.run = a.attempt.run >>= a.finish := rfl

end Action

variable {σ : Type} (api : Behaviour σ)

open HeatingControl.Dashboard.Task

theorem refreshNow_runs (s : σ) (m : Memory) : ∃ orders zones plannings s',
    let fetched := Reading.zones orders zones plannings
    fetched.Settled ∧
      Runs api refreshNow (s, m) fetched.asked () (s', m.refreshed fetched.view) := by
  obtain ⟨fetched, s', ⟨orders, zones, plannings, rfl⟩, hsettled, hruns⟩ := loadZones_reads api s m
  refine ⟨orders, zones, plannings, s', hsettled, ?_⟩
  rw [← List.append_nil (Reading.zones orders zones plannings).asked]
  refine hruns.bind ?_
  cases (Reading.zones orders zones plannings).view with
  | ok view => exact ⟨rfl, rfl⟩
  | error e => exact ⟨rfl, rfl⟩

theorem zones_unchanging (orders : Except Error (List Order)) (zones : Except Error (List Zone))
    (plannings : Except Error (List Planning)) :
    (Reading.zones orders zones plannings).asked.filter (·.op.changes) = [] := by
  apply List.filter_eq_nil_iff.mpr
  intro x hx
  rcases Reading.op_of_zones hx with hop | hop | hop
  all_goals
    rw [hop]
    exact Bool.false_ne_true

namespace Action

theorem attempt_runs (a : Action) (s : σ) (m : Memory) :
    ∃ r s', a.Attempted r ∧ Runs api a.attempt.run (s, m) r.asked r.view (s', m) := by
  rcases a.plan_cases with hplan | ⟨hardware, fields, confirmed, rfl⟩
  · rw [attempt_eq hplan]
    cases hrequest : a.request? with
    | none => exact ⟨_, s, .senseless hplan hrequest, rfl, rfl⟩
    | some op =>
      have hasked := Attempted.asked (requests_of_request? hrequest) (api op s).1
      exact ⟨_, (api op s).2, hasked, rfl, rfl⟩
  · rw [attempt_applyHardware]
    cases hboard : board? hardware confirmed with
    | none => exact ⟨_, s, .boardless hboard, rfl, rfl⟩
    | some board =>
      cases hread : (api (.getHardwareParameters board) s).1 with
      | error e => exact ⟨_, _, .unread hboard e, runs_ask hread (runs_pure _ _)⟩
      | ok parameters =>
        generalize hu : (api (.getHardwareParameters board) s).2 = u
        cases hform : (HardwareSettings.ofForm board fields parameters).toOption with
        | none =>
          refine ⟨_, u, .unfit hboard hform, runs_ask hread ?_⟩
          simp only [hform, hu]
          exact runs_pure _ _
        | some settings =>
          refine ⟨_, (api (.applyHardware settings) u).2,
            .filled hboard hform (api (.applyHardware settings) u).1, runs_ask hread ?_⟩
          simp only [hform, hu]
          exact runs_ask rfl (runs_pure _ _)

theorem finish_error (a : Action) (s : σ) (m : Memory) (front : List Asked) {op : Operation}
    (e : Error) (hfront : ∀ x ∈ front, x.Succeeded ∧ x.op.fetchesZones = false)
    (hop : op.fetchesZones = false) :
    ∃ ys o s' m', Runs api (a.finish (.error e)) (s, m) ys o (s', m') ∧
      a.Tells (front ++ [⟨op, .error e⟩] ++ ys) m m' o := by
  refine ⟨[], .failed, s, { m with panel := m.panel.push e.message }, ⟨rfl, rfl⟩, ?_⟩
  rw [List.append_nil]
  refine ⟨⟨front, ⟨op, .error e⟩, e, rfl, fun x hx => (hfront x hx).1, rfl, rfl⟩, ?_⟩
  intro x hx
  rcases List.mem_append.mp hx with hx | hx
  · exact (hfront x hx).2
  · rw [List.mem_singleton.mp hx]
    exact hop

theorem finish_success {a : Action} (s : σ) (m : Memory) {op : Operation} (h : a.Requests op)
    (v : op.Answer) :
    ∃ ys o s' m', Runs api (a.finish (.ok a.success)) (s, m) ys o (s', m') ∧
      a.Tells (⟨op, .ok v⟩ :: ys) m m' o := by
  have hsuccess := a.success_of_subject
  have htouches := a.touchesZones_of_subject
  have honce : ∀ ys : List Asked, ys.filter (·.op.changes) = [] →
      ChangesOnce ⟨op, .ok v⟩ (⟨op, .ok v⟩ :: ys) := by
    intro ys hys
    refine ⟨?_, rfl⟩
    simp [h.changes, hys]
  cases hsubject : a.subject with
  | override | zone | planning | slot =>
    simp only [hsubject] at hsuccess htouches
    obtain ⟨orders, zones, plannings, s', hsettled, hruns⟩ := refreshNow_runs api s m
    rw [hsuccess, finish, htouches]
    refine ⟨_, .applied, s', _, hruns.bind (runs_pure _ _), _, _, rfl, ?_, ?_⟩
    · rw [List.append_nil]
      exact honce _ (zones_unchanging _ _ _)
    · rw [hsubject]
      exact ⟨orders, zones, plannings, List.append_nil _, hsettled, rfl⟩
  | account =>
    simp only [hsubject] at hsuccess htouches
    rw [hsuccess, finish, htouches]
    refine ⟨[], .applied, s, m, ⟨rfl, rfl⟩, _, _, rfl, honce _ rfl, ?_⟩
    rw [hsubject]
    exact ⟨rfl, rfl⟩
  | firmware | certificate | hardware =>
    simp only [hsubject] at hsuccess
    rw [hsuccess]
    refine ⟨[], .reboot, s, m, ⟨rfl, rfl⟩, ⟨[], _, rfl, honce _ rfl⟩, ?_, ?_, rfl⟩
    · intro x hx
      rw [List.mem_singleton.mp hx]
      rfl
    · simp [hsubject]

theorem Attempted.finish {a : Action} {r : Reading Outcome} (h : a.Attempted r) (s : σ)
    (m : Memory) : ∃ ys o s' m', Runs api (a.finish r.view) (s, m) ys o (s', m') ∧
      a.Tells (r.asked ++ ys) m m' o := by
  cases h with
  | senseless | boardless => exact ⟨[], .skipped, s, m, ⟨rfl, rfl⟩, rfl, Or.inl rfl, rfl⟩
  | asked h r =>
    cases r with
    | error e => exact a.finish_error api s m [] e (fun _ hx => by cases hx) h.unfetched
    | ok v => exact finish_success api s m h v
  | unread h e => exact finish_error api _ s m [] e (fun _ hx => by cases hx) rfl
  | unfit h hform =>
    exact ⟨[], .skipped, s, m, ⟨rfl, rfl⟩, rfl, Or.inr ⟨rfl, _, _, rfl⟩, rfl⟩
  | filled h hform r =>
    cases r with
    | error e =>
      refine finish_error api _ s m [_] e (fun x hx => ?_) rfl
      rw [List.mem_singleton.mp hx]
      exact ⟨rfl, rfl⟩
    | ok v =>
      refine ⟨[], .reboot, s, m, ⟨rfl, rfl⟩, ⟨[_], _, rfl, rfl, rfl⟩, ?_, Or.inr (Or.inr rfl), rfl⟩
      intro x hx
      rcases List.mem_cons.mp hx with rfl | hx
      · rfl
      · rw [List.mem_singleton.mp hx]
        rfl

theorem run_runs (a : Action) (s : σ) (m : Memory) : ∃ xs o s' m',
    Runs api a.run (s, m) xs o (s', m') ∧ a.Tells xs m m' o := by
  obtain ⟨r, s', hattempted, hattempt⟩ := attempt_runs api a s m
  obtain ⟨ys, o, s'', m', hfinish, htells⟩ := hattempted.finish api s' m
  exact ⟨r.asked ++ ys, o, s'', m', hattempt.bind hfinish, htells⟩

theorem refreshed_panel (m : Memory) (orders : Except Error (List Order))
    (zones : Except Error (List Zone)) (plannings : Except Error (List Planning)) :
    let fetched := Reading.zones orders zones plannings
    (m.refreshed fetched.view).panel = m.panel.pushAll (Asked.messages fetched.asked) := by
  cases orders with
  | error e => rfl
  | ok orders =>
    cases zones with
    | error e => rfl
    | ok zones => cases plannings <;> rfl

/-- Whatever the outcome, what is noted are the messages of the questions that have failed. -/
theorem Tells.panel {a : Action} {asked : List Asked} {m m' : Memory} {o : Outcome}
    (h : a.Tells asked m m' o) : m'.panel = m.panel.pushAll (Asked.messages asked) := by
  cases o with
  | skipped =>
    obtain ⟨-, hasked, rfl⟩ := h
    rcases hasked with rfl | ⟨-, board, parameters, rfl⟩
    · rfl
    · rfl
  | failed =>
    obtain ⟨⟨front, last, e, rfl, hfront, hlast, rfl⟩, -⟩ := h
    have hmessage : Asked.messages [last] = [e.message] := by
      simp [Asked.messages, hlast]
    rw [Asked.messages_append, Asked.messages_of_succeeded hfront, hmessage]
    rfl
  | applied =>
    obtain ⟨x, rest, rfl, ⟨-, hsucceeded⟩, hrest⟩ := h
    have hmessages : Asked.messages (x :: rest) = Asked.messages rest := by
      rw [Asked.messages, List.filterMap_cons_none hsucceeded]
      rfl
    rw [hmessages]
    cases hsubject : a.subject with
    | override | zone | planning | slot =>
      rw [hsubject] at hrest
      obtain ⟨orders, zones, plannings, rfl, -, rfl⟩ := hrest
      exact refreshed_panel m orders zones plannings
    | account =>
      rw [hsubject] at hrest
      obtain ⟨rfl, rfl⟩ := hrest
      rfl
    | firmware | certificate | hardware =>
      rw [hsubject] at hrest
      exact hrest.elim
  | reboot =>
    obtain ⟨-, hsucceeded, -, rfl⟩ := h
    rw [Asked.messages_of_succeeded hsucceeded]
    rfl

/-- For every behaviour of the controller and every action with whatever input: what has been
asked, the error panel and the latest zone section are as the outcome tells. The panel holds what
it has room for of its messages and those of the questions that have failed. -/
theorem run_tells (a : Action) (s : σ) (m : Memory) :
    let r := a.run.runWith api (s, m)
    let asked := Task.asked api a.run (s, m)
    a.Tells asked m r.2.2 r.1 ∧
      (m.panel.Sound → r.2.2.panel.messages =
        (m.panel.messages ++ Asked.messages asked).rtake m.panel.capacity) := by
  obtain ⟨xs, o, s', m', hrun, htells⟩ := run_runs api a s m
  intro r asked
  have hr : r = (o, s', m') := hrun.run
  have hasked : asked = xs := hrun.asked
  rw [hr, hasked]
  refine ⟨htells, fun hsound => ?_⟩
  change m'.panel.messages = _
  rw [htells.panel, hsound.pushAll_messages]

/-- A slot is deleted, but then nobody can get at the orders: the oldest message makes room. -/
example :
    let api : Behaviour Unit
      | .deleteSlot _ _, s => (.ok (), s)
      | op, s => (.error (.http op.verb "/ofp-api/v1/orders" 500), s)
    let m : Memory := ⟨⟨2, ["first", "second"]⟩, none, false⟩
    let action : Action := .deleteSlot ⟨4⟩ ⟨7⟩
    let r := action.run.runWith api ((), m)
    r.1 = .applied ∧
      (Task.asked api action.run ((), m)).map (·.op) = [.deleteSlot ⟨4⟩ ⟨7⟩, .getOrders] ∧
      r.2.2 = { m with panel :=
        ⟨2, ["second", "Erreur lors de la récupération /ofp-api/v1/orders : 500"]⟩ } := by
  decide +kernel

end Action
end Dashboard
end HeatingControl
