import HeatingControl.Proofs.Controller.Boards
import HeatingControl.Proofs.Controller.Merge

/-!
# What well-formed operations fail with

The controller checks all that it is given once more. An operation that is well-formed in itself
passes every check of its form in every state of a run: it fails because of the records that are
there or are not there, or because a file is not what it should be.
-/
namespace HeatingControl

/-- Failures that do not come from the form of what was sent. -/
def ValidationError.foreseen : ValidationError → Bool
  | .unknownOrder _ | .unknownPlanning _ | .accountExists _ | .limitReached _ _
  | .undeletableAdmin | .invalidFirmware _ | .invalidCertificate _ => true
  | .emptyName | .emptyPassword | .invalidAccountId _ | .invalidZoneMode _ | .invalidDayOfWeek _
  | .invalidHour _ | .invalidMinute _ | .invalidParameterValue _ _ => false

def Error.foreseen : Error → Bool
  | .validation e => e.foreseen
  | .notFound _ _ => true
  | .http _ _ _ | .network _ _ _ | .decode _ _ => false

def Expected {α : Type} (r : Except ValidationError α) : Prop :=
  ∀ e, r = .error e → e.foreseen = true

theorem expected_ok {α : Type} (a : α) : Expected (.ok a) := by
  rintro e ⟨⟩

theorem expected_error {α : Type} {e : ValidationError} (h : e.foreseen = true) :
    Expected (.error e : Except ValidationError α) := by
  rintro _ ⟨⟩
  exact h

theorem FirmwareImage.inspect_expected (image : Bytes) : Expected (inspect image) := by
  unfold inspect
  split
  · exact expected_error rfl
  · split
    · exact expected_error rfl
    · split
      · exact expected_ok _
      · unfold readDescriptor
        split
        · exact expected_error rfl
        · exact expected_ok _

namespace CertificateBundle

theorem close_expected (p : Progress) (label : List Char) : Expected (p.close label) := by
  unfold Progress.close
  split
  · exact expected_ok _
  · split
    · exact expected_ok _
    · split
      · exact expected_error rfl
      · exact expected_ok _

theorem next_expected (p : Progress) (m : Marker) : Expected (p.next m) := by
  cases m with
  | opening label =>
    simp only [Progress.next]
    split
    · exact expected_error rfl
    · exact expected_ok _
  | closing label =>
    simp only [Progress.next]
    split
    · exact expected_error rfl
    · exact close_expected p label

theorem walk_expected (p : Progress) (ms : List Marker) : Expected (walk p ms) := by
  induction ms generalizing p with
  | nil => exact expected_ok _
  | cons m ms ih =>
    unfold walk
    cases hnext : p.next m with
    | ok q => exact ih q
    | error e => exact expected_error (next_expected p m e hnext)

theorem parse_expected (text : String) : Expected (parse text) := by
  unfold parse
  cases hwalk : walk ⟨none, 0, 0⟩ (markers text) with
  | error e => exact expected_error (walk_expected _ _ e hwalk)
  | ok p =>
    dsimp only
    unfold Progress.finish
    split
    · exact expected_error rfl
    · split
      · exact expected_error rfl
      · split
        · exact expected_error rfl
        · exact expected_ok _

end CertificateBundle

/-- What is sent is well-formed, whatever the controller holds: names and passwords are not blank,
times are in range, and the values for a board suit its parameters whatever they are set to. -/
def Operation.WellFormed : Operation → Prop
  | .patchZone _ patch => ∀ d, patch.description = some d → Text.allBlank d = false
  | .createPlanning name | .renamePlanning _ name => ∃ kept, PlanningName.make name.name = .ok kept
  | .createSlot _ slot => slot.InRange
  | .patchSlot _ _ patch =>
    (∀ hour, patch.hour = some hour → hour < 24) ∧
      ∀ minute, patch.minute = some minute → minute < 60
  | .createAccount account => account.validate = .ok ()
  | .resetPassword _ reset => Text.allBlank reset.password = false
  | .applyHardware settings => ∀ s : State, s.BoardsKept → ∀ parameters,
    Table.get? settings.hardware s.parameters = some parameters →
      State.checkValues parameters settings.values = .ok ()
  | _ => True

namespace State

variable {α : Type} {s : State}

def Foreseen (r : Except Error α × State) : Prop := ∀ e, r.1 = .error e → e.foreseen = true

theorem foreseen_ok (a : α) (u : State) : Foreseen (.ok a, u) := by
  rintro e ⟨⟩

theorem foreseen_refuse {e : ValidationError} (h : e.foreseen = true) :
    Foreseen (s.refuse e : Except Error α × State) := by
  rintro _ ⟨⟩
  exact h

theorem foreseen_missing (entity id : String) :
    Foreseen (s.missing entity id : Except Error α × State) := by
  rintro _ ⟨⟩
  rfl

theorem Foreseen.drop {c : Change α} (h : Foreseen (c s)) : Foreseen (State.drop c s) := by
  intro e he
  change (c s).1.map (fun _ => ()) = .error e at he
  cases hc : (c s).1 with
  | ok a =>
    rw [hc] at he
    cases he
  | error e' =>
    rw [hc] at he
    cases he
    exact h e hc

theorem checkOrder_expected (id : OrderId) : Expected (s.checkOrder id) := by
  unfold checkOrder
  split
  · exact expected_ok _
  · exact expected_error rfl

theorem checkMode_expected (mode : ZoneMode) : Expected (s.checkMode mode) := by
  cases mode with
  | fixed order => exact checkOrder_expected order
  | planning id =>
    simp only [checkMode]
    split
    · exact expected_ok _
    · exact expected_error rfl

theorem checkSome_expected {check : α → Except ValidationError Unit}
    (h : ∀ a, Expected (check a)) (o : Option α) : Expected (checkSome check o) := by
  cases o with
  | none => exact expected_ok _
  | some a => exact h a

theorem putOverride_foreseen (value : Override) : Foreseen (putOverride value s) := by
  unfold putOverride
  cases hcheck : checkSome s.checkOrder value.order? with
  | error e => exact foreseen_refuse (checkSome_expected checkOrder_expected _ e hcheck)
  | ok => exact foreseen_ok _ _

theorem patchZone_foreseen (id : ZoneId) {patch : ZonePatch}
    (h : (Operation.patchZone id patch).WellFormed) : Foreseen (patchZone id patch s) := by
  unfold patchZone
  cases hmode : checkSome s.checkMode patch.mode with
  | error e => exact foreseen_refuse (checkSome_expected checkMode_expected _ e hmode)
  | ok =>
    have hdescription : ∃ description, checkDescription patch.description = .ok description := by
      cases hpatch : patch.description with
      | none => exact ⟨none, rfl⟩
      | some d => exact ⟨some (Text.trim d), by simp [checkDescription, h d hpatch]⟩
    obtain ⟨description, hdescription⟩ := hdescription
    dsimp only
    rw [hdescription]
    dsimp only
    split
    · exact foreseen_ok _ _
    · exact foreseen_missing _ _

theorem createPlanning_foreseen {name : PlanningName}
    (h : (Operation.createPlanning name).WellFormed) : Foreseen (createPlanning name s) := by
  obtain ⟨kept, hkept⟩ := h
  unfold createPlanning
  rw [hkept]
  dsimp only
  split
  · exact foreseen_refuse rfl
  · exact foreseen_ok _ _

theorem renamePlanning_foreseen (id : PlanningId) {name : PlanningName}
    (h : (Operation.renamePlanning id name).WellFormed) :
    Foreseen (renamePlanning id name s) := by
  obtain ⟨kept, hkept⟩ := h
  unfold renamePlanning
  rw [hkept]
  dsimp only
  split
  · exact foreseen_ok _ _
  · exact foreseen_missing _ _

theorem createSlot_foreseen (planning : PlanningId) {slot : NewSlot} (h : slot.InRange) :
    Foreseen (createSlot planning slot s) := by
  have hvalid : slot.validate = .ok () := checkTime_ok_iff.mpr h
  unfold createSlot
  rw [hvalid]
  dsimp only
  cases horder : s.checkOrder slot.order with
  | error e => exact foreseen_refuse (checkOrder_expected _ e horder)
  | ok =>
    dsimp only
    split
    · exact foreseen_missing _ _
    · split
      · exact foreseen_refuse rfl
      · exact foreseen_ok _ _

/-- The time of the slot is in range where the patch leaves it alone. -/
theorem patchSlot_foreseen (hs : Integrity s) (planning : PlanningId) (slot : SlotId)
    {patch : SlotPatch} (h : (Operation.patchSlot planning slot patch).WellFormed) :
    Foreseen (patchSlot planning slot patch s) := by
  obtain ⟨hhour, hminute⟩ := h
  unfold patchSlot
  cases horder : checkSome s.checkOrder patch.order with
  | error e => exact foreseen_refuse (checkSome_expected checkOrder_expected _ e horder)
  | ok =>
    dsimp only
    cases hfound : Table.get? planning s.slots with
    | none => exact foreseen_missing _ _
    | some slots =>
      dsimp only
      cases hslot : slots.find? fun x => x.id = slot with
      | none => exact foreseen_missing _ _
      | some target =>
        have hvalid := hs.slots_valid _ (Table.mem_of_get? hfound) target
          (List.mem_of_find?_eq_some hslot)
        have htime : checkTime (patch.hour.getD target.hour) (patch.minute.getD target.minute) =
            .ok () := by
          apply checkTime_ok_iff.mpr
          constructor
          · cases hpatch : patch.hour with
            | none => exact hvalid.2.1
            | some hour => exact hhour hour hpatch
          · cases hpatch : patch.minute with
            | none => exact hvalid.2.2
            | some minute => exact hminute minute hpatch
        dsimp only [SlotPatch.apply]
        rw [htime]
        exact foreseen_ok _ _

theorem createAccount_foreseen {account : NewAccount} (h : account.validate = .ok ()) :
    Foreseen (createAccount account s) := by
  unfold createAccount
  rw [h]
  dsimp only
  split
  · exact foreseen_refuse rfl
  · split
    · exact foreseen_refuse rfl
    · exact foreseen_ok _ _

theorem resetPassword_foreseen (id : AccountId) {reset : PasswordReset}
    (h : Text.allBlank reset.password = false) : Foreseen (resetPassword id reset s) := by
  have hkept : PasswordReset.make reset.password = .ok reset := by
    simp [PasswordReset.make, h]
  unfold resetPassword
  rw [hkept]
  dsimp only
  split
  · exact foreseen_ok _ _
  · exact foreseen_missing _ _

theorem uploadFirmware_foreseen (image : Bytes) : Foreseen (uploadFirmware image s) := by
  unfold uploadFirmware
  cases himage : FirmwareImage.inspect image with
  | error e => exact foreseen_refuse (FirmwareImage.inspect_expected image e himage)
  | ok image => exact foreseen_ok _ _

theorem uploadCertificate_foreseen (bundle : Bytes) : Foreseen (uploadCertificate bundle s) := by
  unfold uploadCertificate
  split
  · exact foreseen_refuse rfl
  · cases hbundle : CertificateBundle.parse _ with
    | error e => exact foreseen_refuse (CertificateBundle.parse_expected _ e hbundle)
    | ok bundle => exact foreseen_ok _ _

theorem applyHardware_foreseen (hs : BoardsKept s) {settings : HardwareSettings}
    (h : (Operation.applyHardware settings).WellFormed) :
    Foreseen (applyHardware settings s) := by
  unfold applyHardware
  cases hfound : Table.get? settings.hardware s.parameters with
  | none => exact foreseen_missing _ _
  | some parameters =>
    dsimp only
    rw [h s hs parameters hfound]
    exact foreseen_ok _ _

theorem perform_foreseen (hs : Integrity s) (hboards : BoardsKept s) (grace : Nat) (t : Moment)
    {op : Operation} (h : op.WellFormed) : Foreseen (perform grace t op s) := by
  cases op with
  | putOverride value => exact putOverride_foreseen value
  | patchZone id patch => exact patchZone_foreseen id h
  | createPlanning name => exact (createPlanning_foreseen h).drop
  | renamePlanning id name => exact renamePlanning_foreseen id h
  | createSlot planning slot => exact (createSlot_foreseen planning h).drop
  | patchSlot planning slot patch => exact patchSlot_foreseen hs planning slot h
  | createAccount account => exact createAccount_foreseen h
  | resetPassword id reset => exact resetPassword_foreseen id h
  | uploadFirmware image => exact uploadFirmware_foreseen image
  | uploadCertificate bundle => exact uploadCertificate_foreseen bundle
  | applyHardware settings => exact applyHardware_foreseen hboards h
  | deletePlanning id =>
    dsimp only [perform, deletePlanning]
    split
    · exact foreseen_missing _ _
    · exact foreseen_ok _ _
  | getPlanningSlots id =>
    dsimp only [perform, planningSlots]
    split
    · exact foreseen_ok _ _
    · exact foreseen_missing _ _
  | deleteSlot planning slot =>
    dsimp only [perform, deleteSlot]
    split
    · exact foreseen_missing _ _
    · split
      · exact foreseen_missing _ _
      · exact foreseen_ok _ _
  | deleteAccount id =>
    dsimp only [perform, deleteAccount]
    split
    · exact foreseen_missing _ _
    · split
      · exact foreseen_ok _ _
      · exact foreseen_refuse rfl
  | getHardwareParameters id =>
    dsimp only [perform, hardwareParameters]
    split
    · exact foreseen_ok _ _
    · exact foreseen_missing _ _
  | getStatus | getOrders | getOverride | getZones | getPlannings | getAccounts | reboot
  | getHardware => exact foreseen_ok _ _

theorem step_foreseen {grace : Nat} (hs : Reachable grace s) {t : Moment} {op : Operation}
    (h : op.WellFormed) {e : Error} (he : (step grace t (.operation op) s).1 = .error e) :
    e.foreseen = true ∨ ¬ s.OnlineAt t.now ∧ e = unavailable (.operation op) := by
  by_cases honline : s.OnlineAt t.now
  · rw [step_of_online honline] at he
    have hboot := hs.boot t.now
    exact Or.inl (perform_foreseen hboot.integrity hboot.boards grace t h e he)
  · rw [step_of_offline honline] at he
    cases he
    exact Or.inr ⟨honline, rfl⟩

end State
end HeatingControl
