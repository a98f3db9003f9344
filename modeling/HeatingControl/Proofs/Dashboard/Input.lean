import HeatingControl.Proofs.Controller.Accounts
import HeatingControl.Proofs.Controller.Revalidation
import HeatingControl.Proofs.Dashboard.Outcome
import HeatingControl.Proofs.Dashboard.SlotEdit
import HeatingControl.Proofs.Http.Percent

/-!
# What is made of raw input

Input that makes no sense is not sent. What is sent passes the checks of the controller, whatever
others do to it meanwhile.
-/
namespace HeatingControl

/-- The fields stand for a time of the week and an order. -/
structure SlotInput.Sensible (i : SlotInput) : Prop where
  day : ∃ n, number? i.day = some n ∧ n.toNat < 7
  hour : ∃ n, number? i.hour = some n ∧ n < 24
  minute : ∃ n, number? i.minute = some n ∧ n < 60
  order : Text.allBlank i.order = false

theorem DayOfWeek.ofIndex?_isSome {n : Nat} : (∃ d, ofIndex? n = some d) ↔ n < 7 := by
  have hlength : all.length = 7 := rfl
  rw [← hlength, ← Option.isSome_iff_exists, ofIndex?, Option.isSome_iff_ne_none, Ne,
    List.getElem?_eq_none_iff, Nat.not_le]

theorem NewSlot.make_isOk (day : DayOfWeek) {hour minute : UInt8} (order : OrderId) :
    (∃ slot, make day hour minute order = .ok slot) ↔ hour < 24 ∧ minute < 60 := by
  rw [← checkTime_ok_iff]
  unfold make
  cases checkTime hour minute with
  | ok => simp
  | error e => simp

theorem trim_ne_empty {s : String} : Text.trim s ≠ "" ↔ Text.allBlank s = false := by
  rw [Ne, Text.trim_eq_empty, Bool.not_eq_true]

theorem SlotInput.parse?_isSome (i : SlotInput) : (∃ slot, i.parse? = some slot) ↔ i.Sensible := by
  constructor
  · rintro ⟨slot, hslot⟩
    have hrange := parse?_inRange hslot
    simp only [parse?, Option.bind_eq_bind, Option.bind_eq_some_iff] at hslot
    obtain ⟨index, hindex, day, hday, hour, hhour, minute, hminute, hslot⟩ := hslot
    split at hslot
    · cases hslot
    · rename_i horder
      obtain ⟨hh, hm⟩ : hour < 24 ∧ minute < 60 := by
        apply (NewSlot.make_isOk day ⟨Text.trim i.order⟩).mp
        cases hmake : NewSlot.make day hour minute ⟨Text.trim i.order⟩ with
        | ok slot => exact ⟨slot, rfl⟩
        | error e => simp [hmake] at hslot
      exact ⟨⟨index, hindex, DayOfWeek.ofIndex?_isSome.mp ⟨day, hday⟩⟩, ⟨hour, hhour, hh⟩,
        ⟨minute, hminute, hm⟩, trim_ne_empty.mp horder⟩
  · rintro ⟨⟨index, hindex, hlt⟩, ⟨hour, hhour, hh⟩, ⟨minute, hminute, hm⟩, horder⟩
    obtain ⟨day, hday⟩ := DayOfWeek.ofIndex?_isSome.mpr hlt
    obtain ⟨slot, hslot⟩ := (NewSlot.make_isOk day ⟨Text.trim i.order⟩).mpr ⟨hh, hm⟩
    refine ⟨slot, ?_⟩
    simp only [parse?, hindex, hday, hhour, hminute, Option.bind_eq_bind, Option.bind_some,
      if_neg (trim_ne_empty.mpr horder), hslot]

theorem PlanningName.make_isOk {s : String} :
    (∃ name, make s = .ok name) ↔ Text.allBlank s = false := by
  rw [← trim_ne_empty]
  unfold make
  by_cases h : Text.trim s = "" <;> simp [h]

theorem PlanningName.make_again {s : String} {name : PlanningName} (h : make s = .ok name) :
    make name.name = .ok name := by
  simp only [make] at h
  split at h
  · cases h
  · rename_i hne
    cases h
    simp only [make, Text.trim_trim, if_neg hne]

theorem ZonePatch.ofDescription_isOk {s : String} :
    (∃ patch, ofDescription s = .ok patch) ↔ Text.allBlank s = false := by
  rw [← trim_ne_empty]
  unfold ofDescription
  by_cases h : Text.trim s = "" <;> simp [h]

theorem ZonePatch.description_visible {s d : String} {patch : ZonePatch}
    (h : ofDescription s = .ok patch) (hd : patch.description = some d) :
    Text.allBlank d = false := by
  simp only [ofDescription] at h
  split at h
  · cases h
  · rename_i hne
    cases h
    cases hd
    rw [← trim_ne_empty, Text.trim_trim]
    exact hne

theorem PasswordReset.make_isOk {s : String} :
    (∃ reset, make s = .ok reset) ↔ Text.allBlank s = false := by
  unfold make
  cases Text.allBlank s <;> simp

theorem SlotPatch.eq_of_change {α : Type} [DecidableEq α] {old new value : α}
    (h : change old new = some value) : new = value := by
  unfold change at h
  split at h
  · cases h
  · exact Option.some.inj h

theorem NewAccount.validate_of_make {id password : String} {account : NewAccount}
    (h : make id password = .ok account) : account.validate = .ok () := by
  simp only [make] at h
  split at h
  · rename_i hvalid
    cases h
    exact hvalid
  · cases h

theorem validateAccountId_ok_iff {id : String} :
    validateAccountId id = .ok () ↔ IsAccountName id := by
  refine ⟨isAccountName_of_validate, ?_⟩
  rintro ⟨hnonempty, hshort, hword⟩
  have hsize := Utf8.length_of_ascii fun c hc => Percent.toNat_lt_of_isWordChar (hword c hc)
  have hne : id ≠ "" := by
    rintro rfl
    exact absurd hnonempty (by decide)
  have hgood : ¬ (id.utf8ByteSize > Limits.accountIdLength ∨ ¬ id.toList.all Text.isWordChar) := by
    rw [hsize, not_or, Nat.not_lt, not_not, List.all_eq_true]
    exact ⟨hshort, hword⟩
  rw [validateAccountId, if_neg hne, if_neg hgood]

theorem NewAccount.make_isOk {id password : String} :
    (∃ account, make id password = .ok account) ↔
      IsAccountName (Text.trim id) ∧ Text.allBlank password = false := by
  constructor
  · rintro ⟨account, haccount⟩
    simp only [make] at haccount
    split at haccount
    · rename_i hvalid
      exact validate_ok hvalid
    · cases haccount
  · rintro ⟨hname, hpassword⟩
    have hvalid : validate ⟨⟨Text.trim id⟩, password⟩ = .ok () := by
      simp [validate, validateAccountId_ok_iff.mpr hname, hpassword]
    exact ⟨⟨⟨Text.trim id⟩, password⟩, by simp only [make, hvalid]⟩

namespace Dashboard

def Upload.Sensible (u : Upload) : Prop :=
  u.confirmed = true ∧ ∃ file, u.file = some file ∧ file ≠ []

theorem Upload.payload?_isSome (u : Upload) : u.payload?.isSome = true ↔ u.Sensible := by
  unfold payload? Sensible
  cases u.confirmed with
  | false => simp
  | true =>
    cases u.file with
    | none => simp
    | some file => cases file <;> simp

namespace Action

/-- Input of which a request can be made, as far as it can be told without the controller. -/
def Sensible : Action → Prop
  | .changeOverride value => Text.allBlank value = false
  | .renameZone _ description => Text.allBlank description = false
  | .changeZoneMode _ mode => ∃ m, ZoneMode.parse mode = .ok m
  | .createPlanning name | .renamePlanning _ name => Text.allBlank name = false
  | .deletePlanning _ | .deleteSlot _ _ => True
  | .addSlot _ input => input.Sensible
  | .editSlot _ _ shown edited => shown.Sensible ∧ edited.Sensible ∧ shown.parse? ≠ edited.parse?
  | .createAccount id password => IsAccountName (Text.trim id) ∧ Text.allBlank password = false
  | .deleteAccount id => Text.allBlank id = false
  | .resetPassword id password => Text.allBlank id = false ∧ Text.allBlank password = false
  | .uploadFirmware upload | .uploadCertificate upload => upload.Sensible
  | .applyHardware hardware _ confirmed => confirmed = true ∧ Text.allBlank hardware = false

theorem board?_isSome {hardware : String} {confirmed : Bool} :
    (board? hardware confirmed).isSome = true ↔
      confirmed = true ∧ Text.allBlank hardware = false := by
  rw [← trim_ne_empty]
  unfold board?
  cases confirmed <;> by_cases h : Text.trim hardware = "" <;> simp [h]

theorem isSome_map_toOption {ε α β : Type} {r : Except ε α} {f : α → β} :
    (r.toOption.map f).isSome = true ↔ ∃ v, r = .ok v := by
  rw [Option.isSome_map, Option.isSome_iff_exists]
  simp only [toOption_eq_some]

theorem slotEdit?_isSome {planning : PlanningId} {slot : SlotId} {shown edited : SlotInput} :
    (slotEdit? planning slot shown edited).isSome = true ↔
      shown.Sensible ∧ edited.Sensible ∧ shown.parse? ≠ edited.parse? := by
  rw [← SlotInput.parse?_isSome, ← SlotInput.parse?_isSome]
  unfold slotEdit?
  cases shown.parse? with
  | none => simp
  | some old =>
    cases edited.parse? with
    | none => simp
    | some new => simp [SlotPatch.diff_isEmpty]

theorem request?_isSome {a : Action} (h : a.plan = pure a.request?) :
    a.request?.isSome = true ↔ a.Sensible := by
  cases a with
  | applyHardware hardware fields confirmed =>
    rw [Sensible, ← board?_isSome]
    unfold plan at h
    dsimp only at h
    cases hboard : board? hardware confirmed with
    | none => simp [request?]
    | some board =>
      rw [hboard] at h
      cases h
  | changeOverride value =>
    simp only [request?, Sensible]
    cases Text.allBlank value <;> simp
  | renameZone zone description => exact isSome_map_toOption.trans ZonePatch.ofDescription_isOk
  | changeZoneMode zone mode => exact isSome_map_toOption
  | createPlanning name | renamePlanning id name =>
    exact isSome_map_toOption.trans PlanningName.make_isOk
  | deletePlanning id | deleteSlot planning slot => simp [request?, Sensible]
  | addSlot planning input =>
    rw [request?, Option.isSome_map, Option.isSome_iff_exists]
    exact input.parse?_isSome
  | editSlot planning slot shown edited => exact slotEdit?_isSome
  | createAccount id password => exact isSome_map_toOption.trans NewAccount.make_isOk
  | deleteAccount id =>
    simp only [request?, Sensible, ← trim_ne_empty]
    by_cases h : Text.trim id = "" <;> simp [h]
  | resetPassword id password =>
    simp only [request?, Sensible, ← trim_ne_empty (s := id)]
    by_cases h : Text.trim id = ""
    · simp [h]
    · rw [if_neg h, isSome_map_toOption, PasswordReset.make_isOk]
      simp [h]
  | uploadFirmware upload | uploadCertificate upload =>
    rw [request?, Option.isSome_map]
    exact upload.payload?_isSome

theorem attempt_senseless {a : Action} (h : ¬ a.Sensible) :
    a.attempt.run = .done (.ok .skipped) := by
  rcases a.plan_cases with hplan | ⟨hardware, fields, confirmed, rfl⟩
  · have hnone : a.request? = none := by
      rw [← Option.not_isSome_iff_eq_none, request?_isSome hplan]
      exact h
    rw [attempt_eq hplan, hnone]
  · have hnone : board? hardware confirmed = none := by
      rw [← Option.not_isSome_iff_eq_none, board?_isSome]
      exact h
    rw [attempt_applyHardware, hnone]

theorem run_senseless {a : Action} (h : ¬ a.Sensible) : a.run = pure .skipped := by
  rw [run_eq, attempt_senseless h]
  rfl

theorem run_unfit {σ : Type} {api : Behaviour σ} {s : σ} {m : Memory} {hardware : String}
    {fields : List (String × String)} {confirmed : Bool} {board : HardwareId}
    {parameters : List HardwareParameter} {rest : List Asked}
    (hasked : Task.asked api (applyHardware hardware fields confirmed).run (s, m) =
      ⟨.getHardwareParameters board, .ok parameters⟩ :: rest)
    (hunfit : ∃ p ∈ parameters, ¬ HardwareSettings.Fits fields p) :
    let r := (applyHardware hardware fields confirmed).run.runWith api (s, m)
    r.1 = .skipped ∧ rest = [] ∧ r.2.2 = m := by
  obtain ⟨r, s', hattempted, hattempt⟩ :=
    attempt_runs api (.applyHardware hardware fields confirmed) s m
  have hrun := hattempt.bind (f := finish (.applyHardware hardware fields confirmed)) ⟨rfl, rfl⟩
  rw [run_eq, hrun.asked] at hasked
  rw [run_eq, hrun.run]
  cases hattempted with
  | senseless | boardless => cases hasked
  | asked h => cases h
  | unread h e => cases hasked
  | unfit h hform =>
    cases hasked
    exact ⟨rfl, rfl, rfl⟩
  | filled h hform r =>
    cases hasked
    obtain ⟨p, hp, hunfit⟩ := hunfit
    exact absurd ((HardwareSettings.ofForm_ok_iff.mp (toOption_eq_some.mp hform)).1 p hp) hunfit

theorem Requests.wellFormed {a : Action} {op : Operation} (h : a.Requests op) : op.WellFormed := by
  cases h with
  | describeZone h => exact fun d hd => ZonePatch.description_visible h hd
  | switchZone h => exact fun d hd => by cases hd
  | createPlanning h => exact ⟨_, PlanningName.make_again h⟩
  | renamePlanning id h => exact ⟨_, PlanningName.make_again h⟩
  | createSlot planning h => exact SlotInput.parse?_inRange h
  | patchSlot planning slot hshown hedited h =>
    obtain ⟨hhour, hminute⟩ := SlotInput.parse?_inRange hedited
    constructor
    · intro hour hchange
      rwa [← SlotPatch.eq_of_change hchange]
    · intro minute hchange
      rwa [← SlotPatch.eq_of_change hchange]
  | createAccount h => exact NewAccount.validate_of_make h
  | resetPassword hid h =>
    obtain ⟨rfl, hvisible⟩ := PasswordReset.make_ok h
    exact hvisible
  | putOverride | deletePlanning | deleteSlot | deleteAccount | uploadFirmware
  | uploadCertificate => trivial

end Action
end Dashboard
end HeatingControl
