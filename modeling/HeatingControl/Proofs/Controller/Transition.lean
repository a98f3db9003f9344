import HeatingControl.Controller.Step
import HeatingControl.Proofs.Text.Cut

/-!
# Transitions of the controller

Every call of a controller that is online either fails and leaves the state as it was, or makes
one of finitely many transitions. A transition carries what was checked before it was made, so
that invariants are proved from transitions alone and no change has to be opened again.
-/
namespace HeatingControl.State

/-- What an accepted call does to the state. -/
inductive Transition (s : State) : State → Prop where
  | read : Transition s s
  | overridden (value : Override) (known : ∀ id, value.order? = some id → s.hasOrder id = true) :
      Transition s { s with override := value }
  | zonePatched (id : ZoneId) (description : Option String) (mode : Option ZoneMode)
      (known : ∀ m, mode = some m → s.checkMode m = .ok ())
      (entered : ∀ d, description = some d → Text.trim d = d ∧ d ≠ "") :
      Transition s { s with
        zones := Table.updateFirst (fun z => z.id = id)
          (fun z => { z with
            description := description.getD z.description
            mode := mode.getD z.mode }) s.zones }
  | planningCreated (name : String) (room : s.plannings.length < Limits.plannings)
      (number : UInt32) (next : number = nextNumber (s.plannings.map fun p => p.id.number)) :
      Transition s { s with
        plannings := s.plannings ++ [⟨⟨number⟩, name⟩]
        slots := Table.insert ⟨number⟩ [] s.slots }
  | planningRenamed (id : PlanningId) (name : String) :
      Transition s { s with
        plannings := Table.updateFirst (fun p => p.id = id) (fun p => { p with name := name })
          s.plannings }
  | planningDeleted (id : PlanningId) (listed : s.hasPlanning id = true) :
      Transition s { s with
        plannings := s.plannings.filter fun p => p.id ≠ id
        slots := Table.erase id s.slots
        zones := s.zones.map fun z => { z with mode := modeWithout id z.mode } }
  | slotCreated (planning : PlanningId) (slot : NewSlot) (slots : List Slot)
      (valid : slot.validate = .ok ()) (known : s.hasOrder slot.order = true)
      (found : Table.get? planning s.slots = some slots)
      (room : slots.length < Limits.slotsPerPlanning) (number : UInt32)
      (next : number = nextNumber (slots.map fun x => x.id.number)) :
      Transition s { s with
        slots := Table.adjust planning (· ++ [slot.toSlot ⟨number⟩]) s.slots }
  | slotPatched (planning : PlanningId) (patch : SlotPatch) (slots : List Slot)
      (target patched : Slot) (known : ∀ id, patch.order = some id → s.hasOrder id = true)
      (found : Table.get? planning s.slots = some slots) (member : target ∈ slots)
      (applied : patch.apply target = .ok patched) :
      Transition s { s with
        slots := Table.adjust planning
          (Table.updateFirst (fun x => x.id = target.id) fun _ => patched) s.slots }
  | slotDeleted (planning : PlanningId) (slot : SlotId) (slots : List Slot)
      (found : Table.get? planning s.slots = some slots) (member : ∃ x ∈ slots, x.id = slot) :
      Transition s { s with
        slots := Table.adjust planning (fun _ => slots.filter fun x => x.id ≠ slot) s.slots }
  | accountCreated (account : NewAccount) (valid : account.validate = .ok ())
      (fresh : s.account? account.id = none) (room : s.accounts.length < Limits.accounts) :
      Transition s { s with accounts := s.accounts ++ [⟨⟨account.id, .user⟩, account.password⟩] }
  | accountDeleted (id : AccountId) (a : StoredAccount) (found : s.account? id = some a)
      (deletable : a.account.isDeletable = true) :
      Transition s { s with accounts := s.accounts.filter fun a => a.account.id ≠ id }
  | passwordReset (id : AccountId) (password : String)
      (valid : Text.allBlank password = false) (found : (s.account? id).isSome = true) :
      Transition s { s with
        accounts := Table.updateFirst (fun a => a.account.id = id)
          (fun a => { a with password := password }) s.accounts }
  | firmwareStaged (image : FirmwareImage) : Transition s { s with staged := image.descriptor }
  | certificatesStored (bundle : CertificateBundle) :
      Transition s { s with certificates := some bundle }
  | rebooted (ending : Nat) : Transition s { s with rebootingUntil := some ending }
  | hardwareApplied (settings : HardwareSettings) (parameters : List HardwareParameter)
      (found : Table.get? settings.hardware s.parameters = some parameters)
      (checked : checkValues parameters settings.values = .ok ()) :
      Transition s { s with
        parameters := Table.adjust settings.hardware
          (fun ps => settings.values.foldl storeValue ps) s.parameters
        hardware := { s.hardware with current := some settings.hardware } }

/-- A call is refused or misses a record and leaves the state alone, or it is accepted with a
transition. -/
inductive Settles {α : Type} (s : State) : Except Error α × State → Prop where
  | refused (e : ValidationError) : Settles s (s.refuse e)
  | missed (entity id : String) : Settles s (s.missing entity id)
  | accepted (a : α) {u : State} (h : Transition s u) : Settles s (.ok a, u)

section Checks

variable {s : State}

theorem checkSome_ok {α : Type} {check : α → Except ValidationError Unit} {o : Option α}
    (h : checkSome check o = .ok ()) : ∀ a, o = some a → check a = .ok () := by
  rintro a rfl
  exact h

theorem checkOrder_ok_iff {id : OrderId} :
    s.checkOrder id = .ok () ↔ s.hasOrder id = true := by
  unfold checkOrder
  split <;> simp_all

theorem known_of_checkSome {o : Option OrderId} (h : checkSome s.checkOrder o = .ok ()) :
    ∀ id, o = some id → s.hasOrder id = true :=
  fun id hid => checkOrder_ok_iff.mp (checkSome_ok h id hid)

private theorem filter_unchanged {α : Type} {p : α → Bool} {l : List α}
    (h : (l.filter p).length = l.length) : l.filter p = l :=
  List.filter_eq_self.mpr (List.length_filter_eq_length_iff.mp h)

end Checks

variable (s : State)

theorem read_settles {α : Type} (f : State → α) : Settles s (read f s) :=
  .accepted _ .read

theorem refuse_settles {α : Type} (e : ValidationError) :
    Settles s (s.refuse e : Except Error α × State) :=
  .refused e

theorem missing_settles {α : Type} (entity id : String) :
    Settles s (s.missing entity id : Except Error α × State) :=
  .missed entity id

theorem Settles.drop {s : State} {α : Type} {c : Change α} (h : Settles s (c s)) :
    Settles s (State.drop c s) := by
  unfold State.drop
  generalize c s = r at h
  cases h with
  | refused e => exact .refused e
  | missed entity id => exact .missed entity id
  | accepted a h => exact .accepted () h

theorem putOverride_settles (value : Override) : Settles s (putOverride value s) := by
  unfold putOverride
  split
  · exact refuse_settles ..
  · rename_i h
    exact .accepted _ (.overridden value (known_of_checkSome h))

theorem putOverride_of_known {s : State} {value : Override}
    (h : ∀ id, value = .order id → s.hasOrder id = true) :
    putOverride value s = (.ok (), { s with override := value }) := by
  have hchecked : checkSome s.checkOrder value.order? = .ok () := by
    cases value with
    | none => rfl
    | order id => exact checkOrder_ok_iff.mpr (h id rfl)
  simp only [putOverride, hchecked]

theorem checkDescription_entered {given checked : Option String}
    (h : checkDescription given = .ok checked) :
    ∀ d, checked = some d → Text.trim d = d ∧ d ≠ "" := by
  rintro d rfl
  cases given with
  | none => cases h
  | some text =>
    simp only [checkDescription] at h
    split at h
    · cases h
    · rename_i hfilled
      cases h
      exact ⟨Text.trim_trim text, fun hblank => hfilled (Text.trim_eq_empty.mp hblank)⟩

theorem patchZone_settles (id : ZoneId) (patch : ZonePatch) :
    Settles s (patchZone id patch s) := by
  unfold patchZone
  split
  · exact refuse_settles ..
  · rename_i hmode
    split
    · exact refuse_settles ..
    · rename_i description hdescription
      dsimp only
      split
      · exact .accepted _ (.zonePatched id description patch.mode (checkSome_ok hmode)
          (checkDescription_entered hdescription))
      · exact missing_settles ..

theorem createPlanning_settles (name : PlanningName) : Settles s (createPlanning name s) := by
  unfold createPlanning
  split
  · exact refuse_settles ..
  · split
    · exact refuse_settles ..
    · rename_i hroom
      exact .accepted _ (.planningCreated _ (by omega) _ rfl)

theorem renamePlanning_settles (id : PlanningId) (name : PlanningName) :
    Settles s (renamePlanning id name s) := by
  unfold renamePlanning
  split
  · exact refuse_settles ..
  · dsimp only
    split
    · exact .accepted _ (.planningRenamed id _)
    · exact missing_settles ..

theorem deletePlanning_of_unlisted {s : State} {id : PlanningId} (h : s.hasPlanning id = false) :
    deletePlanning id s = s.missing "Planning" id.display := by
  have hkept : (s.plannings.filter fun p => p.id ≠ id) = s.plannings :=
    List.filter_eq_self.mpr (by simpa [hasPlanning] using h)
  simp only [deletePlanning, hkept, if_true]

theorem deletePlanning_of_listed {s : State} {id : PlanningId} (h : s.hasPlanning id = true) :
    deletePlanning id s = (.ok (), { s with
      plannings := s.plannings.filter fun p => p.id ≠ id
      slots := Table.erase id s.slots
      zones := s.zones.map fun z => { z with mode := modeWithout id z.mode } }) := by
  have hcut : ¬ (s.plannings.filter fun p => p.id ≠ id).length = s.plannings.length := by
    rw [List.length_filter_eq_length_iff]
    simpa [hasPlanning] using h
  simp only [deletePlanning, if_neg hcut]

theorem deletePlanning_settles (id : PlanningId) : Settles s (deletePlanning id s) := by
  cases hlisted : s.hasPlanning id with
  | false =>
    rw [deletePlanning_of_unlisted hlisted]
    exact missing_settles ..
  | true =>
    rw [deletePlanning_of_listed hlisted]
    exact .accepted _ (.planningDeleted id hlisted)

theorem planningSlots_settles (id : PlanningId) : Settles s (planningSlots id s) := by
  unfold planningSlots
  split
  · exact .accepted _ .read
  · exact missing_settles ..

theorem createSlot_settles (planning : PlanningId) (slot : NewSlot) :
    Settles s (createSlot planning slot s) := by
  unfold createSlot
  split
  · exact refuse_settles ..
  · rename_i hvalid
    split
    · exact refuse_settles ..
    · rename_i hknown
      split
      · exact missing_settles ..
      · rename_i hfound
        split
        · exact refuse_settles ..
        · exact .accepted _ (.slotCreated planning slot _ hvalid (checkOrder_ok_iff.mp hknown)
            hfound (by omega) _ rfl)

theorem patchSlot_settles (planning : PlanningId) (slot : SlotId) (patch : SlotPatch) :
    Settles s (patchSlot planning slot patch s) := by
  unfold patchSlot
  split
  · exact refuse_settles ..
  · rename_i hknown
    split
    · exact missing_settles ..
    · rename_i hfound
      split
      · exact missing_settles ..
      · rename_i target htarget
        split
        · exact refuse_settles ..
        · rename_i happlied
          have hid : target.id = slot := by simpa using List.find?_some htarget
          subst hid
          exact .accepted _ (.slotPatched planning patch _ target _ (known_of_checkSome hknown)
            hfound (List.mem_of_find?_eq_some htarget) happlied)

/-- The slots are cut before it is known whether the slot was there; with one entry for each
planning, cutting nothing leaves the table as it was. -/
theorem deleteSlot_settles (hn : (Table.keys s.slots).Nodup) (planning : PlanningId)
    (slot : SlotId) : Settles s (deleteSlot planning slot s) := by
  unfold deleteSlot
  split
  · exact missing_settles ..
  · rename_i slots hfound
    dsimp only
    split
    · rename_i hlen
      rw [filter_unchanged hlen, Table.adjust_const_of_get? hn hfound]
      exact missing_settles ..
    · rename_i hlen
      have hmember : ∃ x ∈ slots, x.id = slot := by
        rw [List.length_filter_eq_length_iff] at hlen
        simpa using hlen
      exact .accepted _ (.slotDeleted planning slot slots hfound hmember)

theorem createAccount_settles (account : NewAccount) : Settles s (createAccount account s) := by
  unfold createAccount
  split
  · exact refuse_settles ..
  · rename_i hvalid
    split
    · exact refuse_settles ..
    · rename_i hfresh
      split
      · exact refuse_settles ..
      · exact .accepted _ (.accountCreated account hvalid (by simpa using hfresh) (by omega))

theorem deleteAccount_settles (id : AccountId) : Settles s (deleteAccount id s) := by
  unfold deleteAccount
  split
  · exact missing_settles ..
  · rename_i a hfound
    split
    · rename_i hdeletable
      exact .accepted _ (.accountDeleted id a hfound hdeletable)
    · exact refuse_settles ..

theorem resetPassword_settles (id : AccountId) (reset : PasswordReset) :
    Settles s (resetPassword id reset s) := by
  unfold resetPassword
  split
  · exact refuse_settles ..
  · rename_i hmade
    dsimp only
    split
    · rename_i hfound
      obtain ⟨rfl, hvalid⟩ := PasswordReset.make_ok hmade
      exact .accepted _ (.passwordReset id reset.password hvalid hfound)
    · exact missing_settles ..

theorem uploadFirmware_settles (image : Bytes) : Settles s (uploadFirmware image s) := by
  unfold uploadFirmware
  split
  · exact refuse_settles ..
  · exact .accepted _ (.firmwareStaged _)

theorem uploadCertificate_settles (bundle : Bytes) : Settles s (uploadCertificate bundle s) := by
  unfold uploadCertificate
  split
  · exact refuse_settles ..
  · split
    · exact refuse_settles ..
    · exact .accepted _ (.certificatesStored _)

theorem hardwareParameters_settles (id : HardwareId) : Settles s (hardwareParameters id s) := by
  unfold hardwareParameters
  split
  · exact .accepted _ .read
  · exact missing_settles ..

theorem applyHardware_settles (settings : HardwareSettings) :
    Settles s (applyHardware settings s) := by
  unfold applyHardware
  split
  · exact missing_settles ..
  · rename_i hfound
    split
    · exact refuse_settles ..
    · rename_i hchecked
      exact .accepted _ (.hardwareApplied settings _ hfound hchecked)

theorem perform_settles (hn : (Table.keys s.slots).Nodup) (grace : Nat) (t : Moment)
    (op : Operation) : Settles s (perform grace t op s) := by
  cases op with
  | putOverride value => exact putOverride_settles s value
  | patchZone id patch => exact patchZone_settles s id patch
  | createPlanning name => exact (createPlanning_settles s name).drop
  | renamePlanning id name => exact renamePlanning_settles s id name
  | deletePlanning id => exact deletePlanning_settles s id
  | getPlanningSlots id => exact planningSlots_settles s id
  | createSlot planning slot => exact (createSlot_settles s planning slot).drop
  | patchSlot planning slot patch => exact patchSlot_settles s planning slot patch
  | deleteSlot planning slot => exact deleteSlot_settles s hn planning slot
  | createAccount account => exact createAccount_settles s account
  | deleteAccount id => exact deleteAccount_settles s id
  | resetPassword id reset => exact resetPassword_settles s id reset
  | uploadFirmware image => exact uploadFirmware_settles s image
  | uploadCertificate bundle => exact uploadCertificate_settles s bundle
  | reboot => exact .accepted _ (.rebooted _)
  | getHardwareParameters id => exact hardwareParameters_settles s id
  | applyHardware settings => exact applyHardware_settles s settings
  | getStatus => exact read_settles ..
  | getOrders => exact read_settles ..
  | getOverride => exact read_settles ..
  | getZones => exact read_settles s fun s => s.currentZones t.week
  | getPlannings => exact read_settles ..
  | getAccounts => exact read_settles s fun s => s.accounts.map (·.account)
  | getHardware => exact read_settles ..

theorem performCall_settles (hn : (Table.keys s.slots).Nodup) (grace : Nat) (t : Moment)
    (c : Call) : Settles s (performCall grace t c s) := by
  cases c with
  | operation op => exact perform_settles s hn grace t op
  | addPlanning name => exact createPlanning_settles s name
  | addSlot planning slot => exact createSlot_settles s planning slot

end HeatingControl.State
