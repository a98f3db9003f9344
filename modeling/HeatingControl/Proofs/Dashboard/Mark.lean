import HeatingControl.Proofs.Dashboard.Asked
import HeatingControl.Proofs.Dashboard.Interleaving
import HeatingControl.Proofs.Path

/-!
# The mark of a periodic refresh

A periodic refresh begins with the mark. If it is given, one load follows and the mark is taken away
at the very end, whatever has failed; if it is refused, nothing follows. No other task of the
dashboard touches the mark.
-/
namespace HeatingControl.Dashboard

open HeatingControl.Program (Path)
open HeatingControl.Dashboard.Task (only_bind only_call only_load_bind only_mono only_perform)

variable {σ α β : Type}

abbrev Step := (e : Effect) × e.Answer

def Effect.Unmarking : Effect → Prop
  | .claim | .release => False
  | _ => True

theorem Effect.Unmarking.refreshing {e : Effect} (h : e.Unmarking) (api : Behaviour σ)
    (w : σ × Memory) : (e.answer api w).2.2.refreshing = w.2.refreshing := by
  cases e with
  | claim | release => exact h.elim
  | _ => rfl

theorem claim_of_held {w : σ × Memory} (h : w.2.refreshing = true) (api : Behaviour σ) :
    Effect.answer api .claim w = (false, w) := by
  obtain ⟨s, panel, snapshot, refreshing⟩ := w
  cases h
  rfl

theorem claim_of_free {w : σ × Memory} (h : w.2.refreshing = false) (api : Behaviour σ) :
    (Effect.answer api .claim w).1 = true := by
  simp [Effect.answer, h]

theorem Effect.Aside.unmarking {e : Effect} (h : e.Aside) : e.Unmarking := by
  cases e with
  | claim | release => exact h.elim
  | _ => trivial

section Loads

variable {steps : List Step}

def Asked.step (x : Asked) : Step := ⟨.ask x.op, x.result⟩

def resultStep : Except Error ZonesView → Step
  | .ok view => ⟨.publish view, ()⟩
  | .error e => ⟨.note e.message, ()⟩

def Reading.refresh (r : Reading ZonesView) : List Step :=
  r.asked.map Asked.step ++ [resultStep r.view]

theorem path_call_bind {op : Operation} {f : op.Answer → Load α} {r : Except Error α}
    (h : Path (call op >>= f).run steps (.done r)) :
    (∃ e, steps = [⟨.ask op, .error e⟩] ∧ r = .error e) ∨
      ∃ v rest, steps = ⟨.ask op, .ok v⟩ :: rest ∧ Path (f v).run rest (.done r) := by
  cases h with
  | @ask _ _ answer rest _ h =>
    cases answer with
    | error e =>
      obtain ⟨rfl, hr⟩ := h.of_done
      exact Or.inl ⟨e, rfl, (Program.done.inj hr)⟩
    | ok v => exact Or.inr ⟨v, rest, rfl, h⟩

theorem path_loadZones {r : Except Error ZonesView} (h : Path loadZones.run steps (.done r)) :
    ∃ orders zones plannings, steps = (Reading.zones orders zones plannings).asked.map Asked.step ∧
      r = (Reading.zones orders zones plannings).view := by
  rcases path_call_bind h with ⟨e, rfl, rfl⟩ | ⟨orders, _, rfl, hzones⟩
  · exact ⟨.error e, .error e, .error e, rfl, rfl⟩
  rcases path_call_bind hzones with ⟨e, rfl, rfl⟩ | ⟨zones, _, rfl, hplannings⟩
  · exact ⟨.ok orders, .error e, .error e, rfl, rfl⟩
  rcases path_call_bind hplannings with ⟨e, rfl, rfl⟩ | ⟨plannings, _, rfl, hend⟩
  · exact ⟨.ok orders, .ok zones, .error e, rfl, rfl⟩
  obtain ⟨rfl, hr⟩ := hend.of_done
  exact ⟨.ok orders, .ok zones, .ok plannings, rfl, (Program.done.inj hr)⟩

/-- Whatever fails, the zones are loaded once. -/
theorem path_refreshNow {u : Unit} (h : Path refreshNow steps (.done u)) :
    ∃ orders zones plannings, steps = (Reading.zones orders zones plannings).refresh := by
  obtain ⟨r, front, back, rfl, hload, hresult⟩ := Path.of_bind h
  obtain ⟨orders, zones, plannings, rfl, rfl⟩ := path_loadZones hload
  refine ⟨orders, zones, plannings, congrArg (_ ++ ·) ?_⟩
  cases hview : (Reading.zones orders zones plannings).view with
  | ok view | error e =>
    rw [hview] at hresult
    cases hresult with
    | ask hend =>
      obtain ⟨rfl, -⟩ := hend.of_done
      rfl

theorem loadZones_within : Program.Within 3 loadZones.run := by
  intro orders
  cases orders with
  | error e => trivial
  | ok orders =>
    intro zones
    cases zones with
    | error e => trivial
    | ok zones =>
      intro plannings
      cases plannings <;> trivial

theorem refreshNow_within : Program.Within 4 refreshNow := by
  refine Program.Within.bind (m := 1) loadZones_within fun r => ?_
  cases r <;> exact fun _ => trivial

end Loads

section Unmarking

theorem unmarking_of_aside {t : Task α} (h : Program.Only Effect.Aside t) :
    Program.Only Effect.Unmarking t :=
  only_mono h fun _ => Effect.Aside.unmarking

theorem loadZones_unmarking : Program.Only Effect.Unmarking loadZones.run := by
  refine only_load_bind (only_call trivial) fun _ => ?_
  refine only_load_bind (only_call trivial) fun _ => ?_
  exact only_load_bind (only_call trivial) fun _ => trivial

theorem refreshNow_unmarking : Program.Only Effect.Unmarking refreshNow := by
  refine only_bind loadZones_unmarking fun r => ?_
  cases r <;> exact only_perform trivial

theorem plan_unmarking (a : Action) : Program.Only Effect.Unmarking a.plan.run := by
  rcases a.plan_cases with hplan | ⟨hardware, fields, confirmed, rfl⟩
  · rw [hplan]
    trivial
  · unfold Action.plan
    dsimp only
    cases Action.board? hardware confirmed with
    | none => trivial
    | some board => exact only_load_bind (only_call trivial) fun _ => trivial

theorem run_unmarking (a : Action) : Program.Only Effect.Unmarking a.run := by
  have hattempt : Program.Only Effect.Unmarking a.attempt.run := by
    refine only_load_bind (plan_unmarking a) fun change => ?_
    cases change with
    | none => trivial
    | some op => exact only_load_bind (only_call trivial) fun _ => trivial
  refine only_bind hattempt fun r => ?_
  cases r with
  | error e => exact unmarking_of_aside (note_aside _ _)
  | ok outcome =>
    cases outcome with
    | applied =>
      dsimp only
      split
      · exact only_bind refreshNow_unmarking fun _ => trivial
      · trivial
    | skipped | reboot | failed => trivial

theorem zonePage_unmarking : Program.Only Effect.Unmarking zonePage := by
  have hrest : Program.Only Effect.Unmarking (do
      let zones ← perform .latest
      let errors ← perform .drain
      return (⟨zones, errors⟩ : ZonePage)) :=
    only_bind (only_perform trivial) fun _ => only_bind (only_perform trivial) fun _ => trivial
  refine only_bind (only_perform trivial) fun latest => ?_
  cases latest with
  | none => exact only_bind refreshNow_unmarking fun _ => hrest
  | some view => exact hrest

theorem bootstrap_unmarking (selection : Selection) :
    Program.Only Effect.Unmarking (bootstrap selection) := by
  unfold bootstrap
  refine only_bind (unmarking_of_aside loadStatus_aside) fun _ => ?_
  refine only_bind (unmarking_of_aside loadOverride_aside) fun _ => ?_
  refine only_bind loadZones_unmarking fun _ => ?_
  refine only_bind (unmarking_of_aside (loadPlannings_aside _)) fun _ => ?_
  refine only_bind (unmarking_of_aside (loadSelectedSlots_aside _)) fun _ => ?_
  refine only_bind (unmarking_of_aside loadAccounts_aside) fun _ => ?_
  refine only_bind (unmarking_of_aside (loadHardware_aside _)) fun _ => ?_
  refine only_bind (unmarking_of_aside (settle_aside _)) fun zones => ?_
  have hpublish : Program.Only Effect.Unmarking (publishSome zones) := by
    cases zones with
    | none => trivial
    | some view => exact only_perform trivial
  refine only_bind hpublish fun _ => unmarking_of_aside ?_
  refine only_bind (settle_aside _) fun _ => ?_
  refine only_bind (settle_aside _) fun _ => ?_
  refine only_bind (settle_aside _) fun _ => ?_
  refine only_bind (settle_aside _) fun _ => ?_
  refine only_bind (settleSome_aside _) fun _ => ?_
  refine only_bind (settle_aside _) fun _ => ?_
  exact only_bind (only_perform trivial) fun _ => trivial

theorem reboot_unmarking : Program.Only Effect.Unmarking reboot := by
  refine only_bind (t := (call .reboot).run) (only_call trivial) fun r => ?_
  cases r with
  | ok page => trivial
  | error e => exact unmarking_of_aside (note_aside _ _)

theorem Errand.task_unmarking {e : Errand} (h : e ≠ .tick) :
    Program.Only Effect.Unmarking e.task := by
  cases e with
  | tick => exact absurd rfl h
  | refresh => exact refreshNow_unmarking
  | act a => exact only_bind (run_unmarking a) fun _ => trivial
  | bootstrap selection => exact only_bind (bootstrap_unmarking selection) fun _ => trivial
  | zonePage => exact only_bind zonePage_unmarking fun _ => trivial
  | reboot => exact only_bind reboot_unmarking fun _ => trivial

end Unmarking

def Errand.report : Errand → Task (Option Bool)
  | .tick => do return some (← Dashboard.tick)
  | e => do
    e.task
    return none

theorem Errand.report_unmarking {e : Errand} (h : e ≠ .tick) :
    Program.Only Effect.Unmarking e.report := by
  have htask := task_unmarking h
  cases e with
  | tick => exact absurd rfl h
  | _ => exact only_bind htask fun _ => trivial

def tickRest : Bool → Task (Option Bool)
  | true => refreshNow.bind fun _ => .ask .release fun _ => .done (some true)
  | false => .done (some false)

theorem report_tick : Errand.tick.report = .ask .claim tickRest := by
  refine congrArg (Program.ask Effect.claim) (funext fun free => ?_)
  cases free with
  | false => rfl
  | true =>
    exact Program.bind_assoc refreshNow (fun _ => .ask .release fun _ => .done true)
      fun answer => .done (some answer)

theorem report_tick_within : Program.Within 6 Errand.tick.report := by
  rw [report_tick]
  intro free
  cases free with
  | false => trivial
  | true => exact Program.Within.bind (m := 1) refreshNow_within fun _ _ => trivial

/-- The task has the mark, and takes it away in its last step. -/
def Task.Holding : Task α → Prop
  | .done _ => False
  | .ask e next =>
    (e = .release ∧ ∀ r, ∃ a, next r = .done a) ∨ (e.Unmarking ∧ ∀ r, Holding (next r))

section Holding

variable {t q : Task α} {steps : List Step}

theorem holding_bind (ht : Program.Only Effect.Unmarking t) {f : α → Task β}
    (hf : ∀ a, (f a).Holding) : Task.Holding (t.bind f) := by
  induction t with
  | done a => exact hf a
  | ask e next ih => exact Or.inr ⟨ht.1, fun r => ih r (ht.2 r)⟩

theorem Task.Holding.result? (h : t.Holding) : t.result? = none := by
  cases t with
  | done a => exact h.elim
  | ask e next => rfl

theorem Task.Holding.path (h : t.Holding) (hpath : Path t steps q) :
    q.Holding ∨ ∃ a, q = .done a := by
  induction hpath with
  | refl p => exact Or.inl h
  | ask hpath ih =>
    rcases h with ⟨-, hend⟩ | ⟨-, hnext⟩
    · obtain ⟨a, ha⟩ := hend _
      rw [ha] at hpath
      exact Or.inr ⟨a, hpath.of_done.2⟩
    · exact ih (hnext _)

end Holding

section Tick

variable {steps : List Step} {t : Task (Option Bool)}

theorem tickRest_holding : (tickRest true).Holding :=
  holding_bind refreshNow_unmarking fun _ => Or.inl ⟨rfl, fun _ => ⟨_, rfl⟩⟩

theorem holding_or_done (h : Path Errand.tick.report steps t) (hsteps : steps ≠ []) :
    t.Holding ∨ ∃ a, t = .done a := by
  rw [report_tick] at h
  cases h with
  | refl => exact absurd rfl hsteps
  | @ask _ _ free _ _ h =>
    cases free with
    | false => exact Or.inr ⟨_, h.of_done.2⟩
    | true => exact tickRest_holding.path h

/-- A periodic refresh that was given the mark comes to its end by one load and the release. -/
theorem tick_refreshed {a : Option Bool}
    (h : Path Errand.tick.report (⟨.claim, true⟩ :: steps) (.done a)) :
    a = some true ∧ ∃ orders zones plannings,
      steps = (Reading.zones orders zones plannings).refresh ++ [⟨.release, ()⟩] := by
  rw [report_tick] at h
  cases h with
  | ask h =>
    obtain ⟨_, front, back, rfl, hload, hend⟩ := Path.of_bind h
    obtain ⟨orders, zones, plannings, rfl⟩ := path_refreshNow hload
    cases hend with
    | ask hend =>
      obtain ⟨rfl, ha⟩ := hend.of_done
      exact ⟨Program.done.inj ha, orders, zones, plannings, rfl⟩

end Tick
end HeatingControl.Dashboard
