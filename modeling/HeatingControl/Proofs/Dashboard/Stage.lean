import HeatingControl.Proofs.Dashboard.Interleaving

/-!
# How far a task has come

A task publishes no zones but those it has fetched itself, and each of them once at most; it fetches
them anew after every change that it makes. A periodic refresh fetches and publishes while it holds
the mark that keeps others of its kind away.
-/
namespace HeatingControl.Dashboard

variable {α β : Type}

def Errand.timed : Errand → Bool
  | .tick => true
  | _ => false

/-- The zones that a task has fetched and still has to publish, and whether it holds the mark of a
periodic refresh. -/
structure Stage where
  held : Option (List Zone)
  marked : Bool

namespace Stage

def initial : Stage := ⟨none, false⟩

def after (s : Stage) : (e : Effect) → e.Answer → Stage
  | .ask .getZones, r => { s with held := r.toOption }
  | .ask op, _ => if op.changes then { s with held := none } else s
  | .publish _, _ => { s with held := none }
  | .claim, free => { s with marked := free }
  | .release, _ => initial
  | _, _ => s

end Stage

def ShowsZones (view : ZonesView) (zones : List Zone) : Prop :=
  ∃ orders plannings, view = ZonesView.render orders zones plannings

/-- What a task may do next. A timed one fetches nothing without the mark. -/
def Stage.Allows (timed : Bool) (s : Stage) : Effect → Prop
  | .ask .getZones => timed = true → s.marked = true
  | .publish view => ∃ zones, s.held = some zones ∧ ShowsZones view zones
  | .claim => s = .initial
  | .release => s.marked = true
  | _ => True

namespace Task

/-- From this stage the task does what it may, whatever the answers, and ends at a stage of the
kind. -/
def Leads (timed : Bool) : Task α → Stage → (α → Stage → Prop) → Prop
  | .done a, s, final => final a s
  | .ask e next, s, final =>
    s.Allows timed e ∧ ∀ r, Leads timed (next r) (s.after e r) final

/-- The task may come to publish zones before it asks for them again. -/
def InFlight : Task α → Prop
  | .done _ => False
  | .ask e next =>
    (∃ view, e = .publish view) ∨ (e ≠ .ask .getZones ∧ ∃ r, InFlight (next r))

section Rules

variable {timed : Bool} {s : Stage}

theorem Leads.mono {t : Task α} {final weaker : α → Stage → Prop} (h : t.Leads timed s final)
    (hweaker : ∀ a u, final a u → weaker a u) : t.Leads timed s weaker := by
  induction t generalizing s with
  | done a => exact hweaker a s h
  | ask e next ih => exact ⟨h.1, fun r => ih r (h.2 r)⟩

theorem Leads.bind {t : Task α} {f : α → Task β} {between : α → Stage → Prop}
    {final : β → Stage → Prop} (ht : t.Leads timed s between)
    (hf : ∀ a u, between a u → (f a).Leads timed u final) : (t >>= f).Leads timed s final := by
  induction t generalizing s with
  | done a => exact hf a s ht
  | ask e next ih => exact ⟨ht.1, fun r => ih r (ht.2 r)⟩

theorem after_aside {e : Effect} (he : e.Aside) (s : Stage) (r : e.Answer) : s.after e r = s := by
  cases e with
  | ask op =>
    obtain ⟨hreads, hother⟩ := he
    cases op with
    | getZones => exact absurd rfl hother
    | _ => first | rfl | cases hreads
  | publish | claim | release => exact he.elim
  | note | drain | latest => rfl

theorem allows_aside {e : Effect} (he : e.Aside) : s.Allows timed e := by
  cases e with
  | ask op =>
    cases op with
    | getZones => exact absurd rfl he.2
    | _ => trivial
  | publish | claim | release => exact he.elim
  | note | drain | latest => trivial

theorem leads_aside {t : Task α} (ht : Program.Only Effect.Aside t) :
    t.Leads timed s fun _ u => u = s := by
  induction t with
  | done a => rfl
  | ask e next ih =>
    obtain ⟨he, hnext⟩ := ht
    refine ⟨allows_aside he, fun r => ?_⟩
    rw [after_aside he]
    exact ih r (hnext r)

end Rules
end Task

section Errands

open HeatingControl.Dashboard.Task

variable {timed : Bool} {s : Stage}

def Stage.SameMark (s u : Stage) : Prop := u.marked = s.marked

theorem leads_aside_mark {t : Task α} (ht : Program.Only Effect.Aside t) :
    t.Leads timed s fun _ u => s.SameMark u := by
  refine (leads_aside ht).mono ?_
  rintro a u rfl
  rfl

theorem leads_aside_after {u : Stage} (hu : s.SameMark u) {t : Task α}
    (ht : Program.Only Effect.Aside t) : t.Leads timed u fun _ v => s.SameMark v :=
  (leads_aside_mark ht).mono fun _ _ hv => hv.trans hu

theorem loadZones_leads (hmark : timed = true → s.marked = true) :
    Leads timed loadZones.run s fun r u => s.SameMark u ∧
      ∀ view, r = .ok view → ∃ zones, u.held = some zones ∧ ShowsZones view zones := by
  refine ⟨trivial, fun orders => ?_⟩
  cases orders with
  | error e => exact ⟨rfl, by rintro view ⟨⟩⟩
  | ok orders =>
    refine ⟨hmark, fun zones => ?_⟩
    cases zones with
    | error e => exact ⟨rfl, by rintro view ⟨⟩⟩
    | ok zones =>
      refine ⟨trivial, fun plannings => ?_⟩
      cases plannings with
      | error e => exact ⟨rfl, by rintro view ⟨⟩⟩
      | ok plannings =>
        refine ⟨rfl, ?_⟩
        rintro view ⟨⟩
        exact ⟨zones, rfl, orders, plannings, rfl⟩

theorem refreshNow_leads (hmark : timed = true → s.marked = true) :
    Leads timed refreshNow s fun _ u => s.SameMark u := by
  refine (loadZones_leads hmark).bind fun r u => ?_
  rintro ⟨hsame, hview⟩
  cases r with
  | ok view => exact ⟨hview view rfl, fun _ => hsame⟩
  | error e => exact ⟨trivial, fun _ => hsame⟩

theorem tick_leads : Leads true tick .initial fun _ u => u.marked = false := by
  have hclaim : Leads true (perform .claim) .initial fun free u => u = ⟨none, free⟩ :=
    ⟨rfl, fun _ => rfl⟩
  refine hclaim.bind fun free u => ?_
  rintro rfl
  cases free with
  | false => rfl
  | true =>
    refine (refreshNow_leads fun _ => rfl).bind fun _ u hsame => ?_
    exact ⟨hsame, fun _ => rfl⟩

theorem after_ask_mark (op : Operation) (r : op.Result) (s : Stage) :
    s.SameMark (s.after (.ask op) r) := by
  cases op with
  | _ => rfl

theorem attempt_leads (a : Action) :
    Leads false a.attempt.run s fun _ u => s.SameMark u := by
  have hallows : ∀ (op : Operation) (u : Stage), u.Allows false (.ask op) := by
    intro op u
    cases op with
    | getZones => rintro ⟨⟩
    | _ => trivial
  rcases a.plan_cases with hplan | ⟨hardware, fields, confirmed, rfl⟩
  · rw [Action.attempt_eq hplan]
    cases a.request? with
    | none => rfl
    | some op => exact ⟨hallows op s, fun r => after_ask_mark op r s⟩
  · rw [Action.attempt_applyHardware]
    cases Action.board? hardware confirmed with
    | none => rfl
    | some board =>
      refine ⟨trivial, fun r => ?_⟩
      cases r with
      | error e => rfl
      | ok parameters =>
        dsimp only
        cases (HardwareSettings.ofForm board fields parameters).toOption with
        | none => rfl
        | some settings => exact ⟨trivial, fun _ => rfl⟩

theorem run_leads (a : Action) : Leads false a.run s fun _ u => s.SameMark u := by
  refine (attempt_leads a).bind fun r u hsame => ?_
  cases r with
  | error e => exact leads_aside_after hsame (note_aside _ _)
  | ok outcome =>
    cases outcome with
    | applied =>
      dsimp only
      split
      · refine (refreshNow_leads (by rintro ⟨⟩)).bind fun _ v hv => ?_
        exact hv.trans hsame
      · exact hsame
    | skipped | reboot | failed => exact hsame

theorem zonePage_leads : Leads false zonePage s fun _ u => s.SameMark u := by
  have hlatest : Leads false (perform .latest) s fun _ u => s.SameMark u :=
    leads_aside_mark (only_perform trivial)
  have hrest : Program.Only Effect.Aside (do
      let zones ← perform .latest
      let errors ← perform .drain
      return (⟨zones, errors⟩ : ZonePage)) :=
    only_bind (only_perform trivial) fun _ => only_bind (only_perform trivial) fun _ => trivial
  refine hlatest.bind fun latest u hu => ?_
  cases latest with
  | none =>
    refine (refreshNow_leads (by rintro ⟨⟩)).bind fun _ v hv => ?_
    exact leads_aside_after (hv.trans hu) hrest
  | some view => exact leads_aside_after hu hrest

theorem publishSome_leads {zones : Option ZonesView}
    (h : ∀ view, zones = some view → ∃ held, s.held = some held ∧ ShowsZones view held) :
    Leads false (publishSome zones) s fun _ u => s.SameMark u := by
  cases zones with
  | none => rfl
  | some view => exact ⟨h view rfl, fun _ => rfl⟩

theorem bootstrap_leads (selection : Selection) :
    Leads false (bootstrap selection) s fun _ u => s.SameMark u := by
  unfold bootstrap
  refine (leads_aside loadStatus_aside).bind fun status _ => ?_
  rintro rfl
  refine (leads_aside loadOverride_aside).bind fun override _ => ?_
  rintro rfl
  refine (loadZones_leads (by rintro ⟨⟩)).bind fun zones u => ?_
  rintro ⟨hsame, hzones⟩
  refine (leads_aside (loadPlannings_aside _)).bind fun plannings u => ?_
  rintro rfl
  refine (leads_aside (loadSelectedSlots_aside _)).bind fun slots u => ?_
  rintro rfl
  refine (leads_aside loadAccounts_aside).bind fun accounts u => ?_
  rintro rfl
  refine (leads_aside (loadHardware_aside _)).bind fun hardware u => ?_
  rintro rfl
  have hsettled : Leads false (settle zones) u fun latest v => v = u ∧
      ∀ view, latest = some view → ∃ held, u.held = some held ∧ ShowsZones view held := by
    cases zones with
    | ok view =>
      refine ⟨rfl, ?_⟩
      rintro _ ⟨⟩
      exact hzones view rfl
    | error e => exact ⟨trivial, fun _ => ⟨rfl, by rintro view ⟨⟩⟩⟩
  refine hsettled.bind fun latest _ => ?_
  rintro ⟨rfl, hlatest⟩
  refine (publishSome_leads hlatest).bind fun _ v hv => leads_aside_after (hv.trans hsame) ?_
  refine only_bind (settle_aside _) fun _ => ?_
  refine only_bind (settle_aside _) fun _ => ?_
  refine only_bind (settle_aside _) fun _ => ?_
  refine only_bind (settle_aside _) fun _ => ?_
  refine only_bind (settleSome_aside _) fun _ => ?_
  refine only_bind (settle_aside _) fun _ => ?_
  exact only_bind (only_perform trivial) fun _ => trivial

theorem reboot_leads : Leads false reboot s fun _ u => s.SameMark u := by
  have hcall : Leads false (call .reboot).run s fun _ u => s.SameMark u :=
    ⟨trivial, fun _ => rfl⟩
  refine hcall.bind fun r u hu => ?_
  cases r with
  | ok page => exact hu
  | error e => exact leads_aside_after hu (note_aside _ _)

theorem Errand.leads (e : Errand) :
    e.task.Leads e.timed .initial fun _ u => u.marked = false := by
  cases e with
  | tick =>
    refine tick_leads.bind ?_
    exact fun _ _ hu => hu
  | refresh => exact refreshNow_leads (by rintro ⟨⟩)
  | act a =>
    refine (run_leads a).bind ?_
    exact fun _ _ hu => hu
  | bootstrap selection =>
    refine (bootstrap_leads selection).bind ?_
    exact fun _ _ hu => hu
  | zonePage =>
    refine zonePage_leads.bind ?_
    exact fun _ _ hu => hu
  | reboot =>
    refine reboot_leads.bind ?_
    exact fun _ _ hu => hu

end Errands
end HeatingControl.Dashboard
