import HeatingControl.Dashboard.Action
import HeatingControl.Dashboard.Page

/-!
# Reasoning about tasks

What a task comes to is told step by step: one rule for two tasks in a row, one for two sections
of a load, and one for a task that asks only questions of a kind. The rules hold for every
behaviour of the controller.
-/
namespace HeatingControl

def Operation.changes : Operation → Bool
  | .getStatus | .getOrders | .getOverride | .getZones | .getPlannings | .getPlanningSlots _
  | .getAccounts | .getHardware | .getHardwareParameters _ => false
  | _ => true

namespace Dashboard

variable {σ α β : Type}

/-- From every world of the first kind the task comes to an answer and a world of the second. -/
def Task.Ensures (api : Behaviour σ) (before : σ × Memory → Prop) (t : Task α)
    (after : α → σ × Memory → Prop) : Prop :=
  ∀ w, before w → after (t.runWith api w).1 (t.runWith api w).2

namespace Task

section Rules

variable {api : Behaviour σ} {before : σ × Memory → Prop}

/-- What the world tells beside being of the kind may be taken out. -/
theorem ensures_of_fact {fact : Prop} {t : Task α} {after : α → σ × Memory → Prop}
    (h : fact → Ensures api before t after) :
    Ensures api (fun w => fact ∧ before w) t after := by
  rintro w ⟨hfact, hw⟩
  exact h hfact w hw

theorem Ensures.mono {t : Task α} {after weaker : α → σ × Memory → Prop}
    (h : Ensures api before t after) (hweaker : ∀ a w, after a w → weaker a w) :
    Ensures api before t weaker := by
  intro w hw
  exact hweaker _ _ (h w hw)

theorem Ensures.bind {between : α → σ × Memory → Prop} {after : β → σ × Memory → Prop}
    {t : Task α} {f : α → Task β} (ht : Ensures api before t between)
    (hf : ∀ a, Ensures api (between a) (f a) after) : Ensures api before (t >>= f) after := by
  intro w hw
  have hrun : (t >>= f).runWith api w = (f (t.runWith api w).1).runWith api (t.runWith api w).2 :=
    Program.run_bind _ t f w
  rw [hrun]
  exact hf _ _ (ht w hw)

/-- Worlds after a load: of the one kind where it succeeds, of the other where it fails. -/
def Either (ok : α → σ × Memory → Prop) (failed : Error → σ × Memory → Prop) :
    Except Error α → σ × Memory → Prop
  | .ok a => ok a
  | .error e => failed e

theorem ensures_load_bind {between : α → σ × Memory → Prop}
    {failed : Error → σ × Memory → Prop} {after : Except Error β → σ × Memory → Prop}
    {x : Load α} {f : α → Load β} (hx : Ensures api before x.run (Either between failed))
    (hf : ∀ a, Ensures api (between a) (f a).run after)
    (hfailed : ∀ e w, failed e w → after (.error e) w) :
    Ensures api before (x >>= f).run after := by
  refine Ensures.bind (t := x.run) hx fun r => ?_
  cases r with
  | ok a => exact hf a
  | error e => exact hfailed e

end Rules

section Questions

variable {admitted : Effect → Prop}

theorem only_bind {t : Task α} {f : α → Task β} (ht : Program.Only admitted t)
    (hf : ∀ a, Program.Only admitted (f a)) : Program.Only admitted (t >>= f) :=
  Program.Only.bind ht hf

theorem only_perform {e : Effect} (h : admitted e) : Program.Only admitted (perform e) :=
  ⟨h, fun _ => trivial⟩

theorem only_call {op : Operation} (h : admitted (.ask op)) :
    Program.Only admitted (call op).run :=
  ⟨h, fun _ => trivial⟩

theorem only_load_bind {x : Load α} {f : α → Load β} (hx : Program.Only admitted x.run)
    (hf : ∀ a, Program.Only admitted (f a).run) : Program.Only admitted (x >>= f).run := by
  refine only_bind (t := x.run) hx fun r => ?_
  cases r with
  | ok a => exact hf a
  | error e => trivial

theorem only_mono {t : Task α} (ht : Program.Only admitted t) {wider : Effect → Prop}
    (h : ∀ e, admitted e → wider e) : Program.Only wider t := by
  induction t with
  | done a => trivial
  | ask e next ih => exact ⟨h e ht.1, fun r => ih r (ht.2 r)⟩

theorem ensures_of_only {api : Behaviour σ} {kept : σ × Memory → Prop} {t : Task α}
    (ht : Program.Only admitted t)
    (hkept : ∀ e, admitted e → ∀ w, kept w → kept (e.answer api w).2) :
    Ensures api kept t fun _ => kept := by
  intro w hw
  exact ht.run_keeps hkept hw

end Questions
end Task

/-- The changes that actions ask for, and what their input has passed. -/
inductive Action.Requests : Action → Operation → Prop
  | putOverride {value : String} (h : Text.allBlank value = false) :
    Requests (.changeOverride value) (.putOverride (Override.parse value))
  | describeZone {zone description : String} {patch : ZonePatch}
    (h : ZonePatch.ofDescription description = .ok patch) :
    Requests (.renameZone zone description) (.patchZone ⟨zone⟩ patch)
  | switchZone {zone text : String} {mode : ZoneMode} (h : ZoneMode.parse text = .ok mode) :
    Requests (.changeZoneMode zone text) (.patchZone ⟨zone⟩ (ZonePatch.ofMode mode))
  | createPlanning {text : String} {name : PlanningName} (h : PlanningName.make text = .ok name) :
    Requests (.createPlanning text) (.createPlanning name)
  | renamePlanning {text : String} {name : PlanningName} (id : PlanningId)
    (h : PlanningName.make text = .ok name) :
    Requests (.renamePlanning id text) (.renamePlanning id name)
  | deletePlanning (id : PlanningId) : Requests (.deletePlanning id) (.deletePlanning id)
  | createSlot {input : SlotInput} {slot : NewSlot} (planning : PlanningId)
    (h : input.parse? = some slot) :
    Requests (.addSlot planning input) (.createSlot planning slot)
  | patchSlot {shown edited : SlotInput} {old new : NewSlot} (planning : PlanningId)
    (slot : SlotId) (hshown : shown.parse? = some old) (hedited : edited.parse? = some new)
    (h : (SlotPatch.diff old new).isEmpty = false) :
    Requests (.editSlot planning slot shown edited)
      (.patchSlot planning slot (SlotPatch.diff old new))
  | deleteSlot (planning : PlanningId) (slot : SlotId) :
    Requests (.deleteSlot planning slot) (.deleteSlot planning slot)
  | createAccount {id password : String} {account : NewAccount}
    (h : NewAccount.make id password = .ok account) :
    Requests (.createAccount id password) (.createAccount account)
  | deleteAccount {id : String} (h : Text.trim id ≠ "") :
    Requests (.deleteAccount id) (.deleteAccount ⟨Text.trim id⟩)
  | resetPassword {id password : String} {reset : PasswordReset} (hid : Text.trim id ≠ "")
    (h : PasswordReset.make password = .ok reset) :
    Requests (.resetPassword id password) (.resetPassword ⟨Text.trim id⟩ reset)
  | uploadFirmware {upload : Upload} {image : Bytes} (h : upload.payload? = some image) :
    Requests (.uploadFirmware upload) (.uploadFirmware image)
  | uploadCertificate {upload : Upload} {bundle : Bytes} (h : upload.payload? = some bundle) :
    Requests (.uploadCertificate upload) (.uploadCertificate bundle)

theorem toOption_eq_some {ε : Type} {r : Except ε α} {v : α} :
    r.toOption = some v ↔ r = .ok v := by
  cases r with
  | ok w => simp [Except.toOption]
  | error e => simp [Except.toOption]

theorem Action.requests_of_request? {a : Action} {op : Operation} (h : a.request? = some op) :
    a.Requests op := by
  cases a with
  | applyHardware => cases h
  | deletePlanning id =>
    cases h
    exact .deletePlanning id
  | deleteSlot planning slot =>
    cases h
    exact .deleteSlot planning slot
  | changeOverride value =>
    simp only [request?] at h
    split at h
    · cases h
    · cases h
      exact .putOverride (Bool.eq_false_iff.mpr ‹_›)
  | deleteAccount id =>
    simp only [request?] at h
    split at h
    · cases h
    · cases h
      exact .deleteAccount ‹_›
  | resetPassword id password =>
    simp only [request?] at h
    split at h
    · cases h
    · obtain ⟨reset, hreset, rfl⟩ := Option.map_eq_some_iff.mp h
      exact .resetPassword ‹_› (toOption_eq_some.mp hreset)
  | editSlot planning slot shown edited =>
    simp only [request?, slotEdit?, Option.bind_eq_bind, Option.bind_eq_some_iff] at h
    obtain ⟨old, hshown, new, hedited, h⟩ := h
    split at h
    · cases h
    · cases h
      exact .patchSlot planning slot hshown hedited (Bool.eq_false_iff.mpr ‹_›)
  | addSlot planning input =>
    obtain ⟨slot, hslot, rfl⟩ := Option.map_eq_some_iff.mp h
    exact .createSlot planning hslot
  | uploadFirmware upload =>
    obtain ⟨image, himage, rfl⟩ := Option.map_eq_some_iff.mp h
    exact .uploadFirmware himage
  | uploadCertificate upload =>
    obtain ⟨bundle, hbundle, rfl⟩ := Option.map_eq_some_iff.mp h
    exact .uploadCertificate hbundle
  | renameZone zone description =>
    obtain ⟨patch, hpatch, rfl⟩ := Option.map_eq_some_iff.mp h
    exact .describeZone (toOption_eq_some.mp hpatch)
  | changeZoneMode zone text =>
    obtain ⟨mode, hmode, rfl⟩ := Option.map_eq_some_iff.mp h
    exact .switchZone (toOption_eq_some.mp hmode)
  | createPlanning text =>
    obtain ⟨name, hname, rfl⟩ := Option.map_eq_some_iff.mp h
    exact .createPlanning (toOption_eq_some.mp hname)
  | renamePlanning id text =>
    obtain ⟨name, hname, rfl⟩ := Option.map_eq_some_iff.mp h
    exact .renamePlanning id (toOption_eq_some.mp hname)
  | createAccount id password =>
    obtain ⟨account, haccount, rfl⟩ := Option.map_eq_some_iff.mp h
    exact .createAccount (toOption_eq_some.mp haccount)

theorem Action.plan_cases (a : Action) : a.plan = pure a.request? ∨
    ∃ hardware fields confirmed, a = .applyHardware hardware fields confirmed := by
  cases a with
  | applyHardware hardware fields confirmed => exact Or.inr ⟨hardware, fields, confirmed, rfl⟩
  | _ => exact Or.inl rfl

theorem Action.attempt_eq {a : Action} (h : a.plan = pure a.request?) : a.attempt.run =
    match a.request? with
    | none => .done (.ok .skipped)
    | some op => .ask (.ask op) fun r => .done (r.map fun _ => a.success) := by
  unfold attempt
  rw [h]
  cases a.request? with
  | none => rfl
  | some op =>
    refine congrArg (Program.ask _) (funext fun r => ?_)
    cases r <;> rfl

theorem Action.attempt_applyHardware (hardware : String) (fields : List (String × String))
    (confirmed : Bool) : (Action.applyHardware hardware fields confirmed).attempt.run =
    match board? hardware confirmed with
    | none => .done (.ok .skipped)
    | some board => .ask (.ask (.getHardwareParameters board)) fun
      | .error e => .done (.error e)
      | .ok parameters =>
        match (HardwareSettings.ofForm board fields parameters).toOption with
        | none => .done (.ok .skipped)
        | some settings =>
          .ask (.ask (.applyHardware settings)) fun r => .done (r.map fun _ => .reboot) := by
  unfold attempt plan
  dsimp only
  cases board? hardware confirmed with
  | none => rfl
  | some board =>
    refine congrArg (Program.ask _) (funext fun r => ?_)
    cases r with
    | error e => rfl
    | ok parameters =>
      dsimp only
      cases hform : (HardwareSettings.ofForm board fields parameters).toOption with
      | none =>
        simp only [Program.bind, ExceptT.bindCont, hform]
        rfl
      | some settings =>
        simp only [Program.bind, ExceptT.bindCont, hform]
        refine congrArg (Program.ask _) (funext fun r => ?_)
        cases r <;> rfl

/-- Reads anything but the zones, or is about the errors or the latest zone section alone. -/
def Effect.Aside : Effect → Prop
  | .ask op => op.changes = false ∧ op ≠ .getZones
  | .note _ | .drain | .latest => True
  | .publish _ | .claim | .release => False

section Sections

open HeatingControl.Dashboard.Task

theorem loadStatus_aside : Program.Only Effect.Aside loadStatus.run :=
  only_load_bind (only_call ⟨rfl, nofun⟩) fun _ => trivial

theorem loadOverride_aside : Program.Only Effect.Aside loadOverride.run :=
  only_load_bind (only_call ⟨rfl, nofun⟩) fun _ =>
    only_load_bind (only_call ⟨rfl, nofun⟩) fun _ => trivial

theorem loadPlannings_aside (requested : Option PlanningId) :
    Program.Only Effect.Aside (loadPlannings requested).run :=
  only_load_bind (only_call ⟨rfl, nofun⟩) fun _ => trivial

theorem loadSelectedSlots_aside (list : Except Error PlanningsView) :
    Program.Only Effect.Aside (loadSelectedSlots list) := by
  unfold loadSelectedSlots
  cases list.toOption.bind (·.selected) with
  | none => trivial
  | some id =>
    refine only_bind ?_ fun _ => trivial
    refine only_load_bind (only_call ⟨rfl, nofun⟩) fun _ => ?_
    exact only_load_bind (only_call ⟨rfl, nofun⟩) fun _ => trivial

theorem loadAccounts_aside : Program.Only Effect.Aside loadAccounts.run :=
  only_load_bind (only_call ⟨rfl, nofun⟩) fun _ => trivial

theorem loadHardware_aside (requested : Option HardwareId) :
    Program.Only Effect.Aside (loadHardware requested).run := by
  refine only_load_bind (only_call ⟨rfl, nofun⟩) fun list => ?_
  cases HardwareView.selection list requested with
  | none => trivial
  | some id => exact only_load_bind (only_call ⟨rfl, nofun⟩) fun _ => trivial

theorem note_aside {α : Type} (message : String) (v : α) :
    Program.Only Effect.Aside (perform (.note message) >>= fun _ => pure v) :=
  only_bind (only_perform trivial) fun _ => trivial

theorem settle_aside {α : Type} (r : Except Error α) : Program.Only Effect.Aside (settle r) := by
  cases r with
  | ok v => trivial
  | error e => exact note_aside _ _

theorem settleSome_aside {α : Type} (r : Option (Except Error α)) :
    Program.Only Effect.Aside (settleSome r) := by
  cases r with
  | none => trivial
  | some r => exact settle_aside r

end Sections

end Dashboard
end HeatingControl
