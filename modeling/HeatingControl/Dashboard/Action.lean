import HeatingControl.Dashboard.Section

/-!
# Actions of the user

An action with raw input becomes at most one change of the controller. Input that makes no sense
is skipped; a failure is noted on the error panel; an action that the zone section may show is
followed by a refresh of that section.
-/
namespace HeatingControl.Dashboard

inductive Outcome where
  | applied
  | skipped
  /-- Stored; it takes effect after a reboot. -/
  | reboot
  | failed
  deriving DecidableEq, Repr

/-- A file that was picked in a form, if any, and whether its upload was confirmed. -/
structure Upload where
  file : Option Bytes
  confirmed : Bool
  deriving DecidableEq, Repr

/-- What is to be uploaded: a file that is not empty, once confirmed. -/
def Upload.payload? (u : Upload) : Option Bytes :=
  if u.confirmed then u.file.filter fun bs => !bs.isEmpty else none

inductive Action where
  | changeOverride (value : String)
  | renameZone (zone description : String)
  | changeZoneMode (zone mode : String)
  | createPlanning (name : String)
  | renamePlanning (id : PlanningId) (name : String)
  | deletePlanning (id : PlanningId)
  | addSlot (planning : PlanningId) (input : SlotInput)
  | editSlot (planning : PlanningId) (slot : SlotId) (shown edited : SlotInput)
  | deleteSlot (planning : PlanningId) (slot : SlotId)
  | createAccount (id password : String)
  | deleteAccount (id : String)
  | resetPassword (id password : String)
  | uploadFirmware (upload : Upload)
  | uploadCertificate (upload : Upload)
  | applyHardware (hardware : String) (fields : List (String × String)) (confirmed : Bool)
  deriving DecidableEq, Repr

namespace Action

def slotEdit? (planning : PlanningId) (slot : SlotId) (shown edited : SlotInput) :
    Option Operation := do
  let shown ← shown.parse?
  let edited ← edited.parse?
  let patch := SlotPatch.diff shown edited
  if patch.isEmpty then none else some (.patchSlot planning slot patch)

/-- The change that an action asks for, where the input alone tells it. -/
def request? : Action → Option Operation
  | .changeOverride value =>
    if Text.allBlank value then none else some (.putOverride (Override.parse value))
  | .renameZone zone description =>
    (ZonePatch.ofDescription description).toOption.map (.patchZone ⟨zone⟩)
  | .changeZoneMode zone mode =>
    (ZoneMode.parse mode).toOption.map fun m => .patchZone ⟨zone⟩ (ZonePatch.ofMode m)
  | .createPlanning name => (PlanningName.make name).toOption.map .createPlanning
  | .renamePlanning id name => (PlanningName.make name).toOption.map (.renamePlanning id)
  | .deletePlanning id => some (.deletePlanning id)
  | .addSlot planning input => input.parse?.map (.createSlot planning)
  | .editSlot planning slot shown edited => slotEdit? planning slot shown edited
  | .deleteSlot planning slot => some (.deleteSlot planning slot)
  | .createAccount id password => (NewAccount.make id password).toOption.map .createAccount
  | .deleteAccount id =>
    let id := Text.trim id
    if id = "" then none else some (.deleteAccount ⟨id⟩)
  | .resetPassword id password =>
    let id := Text.trim id
    if id = "" then none
    else (PasswordReset.make password).toOption.map (.resetPassword ⟨id⟩)
  | .uploadFirmware upload => upload.payload?.map .uploadFirmware
  | .uploadCertificate upload => upload.payload?.map .uploadCertificate
  | .applyHardware _ _ _ => none

def board? (hardware : String) (confirmed : Bool) : Option HardwareId :=
  let hardware := Text.trim hardware
  if confirmed && hardware ≠ "" then some ⟨hardware⟩ else none

/-- The change that an action asks for. A hardware form is read with the parameters that the
board has. -/
def plan : Action → Load (Option Operation)
  | .applyHardware hardware fields confirmed =>
    match board? hardware confirmed with
    | none => return none
    | some board => do
      let parameters ← call (.getHardwareParameters board)
      return (HardwareSettings.ofForm board fields parameters).toOption.map .applyHardware
  | a => return a.request?

def success : Action → Outcome
  | .uploadFirmware _ | .uploadCertificate _ | .applyHardware _ _ _ => .reboot
  | _ => .applied

def touchesZones : Action → Bool
  | .createAccount _ _ | .deleteAccount _ | .resetPassword _ _ => false
  | .uploadFirmware _ | .uploadCertificate _ | .applyHardware _ _ _ => false
  | _ => true

def attempt (a : Action) : Load Outcome := do
  match ← a.plan with
  | none => return .skipped
  | some op =>
    let _ ← call op
    return a.success

def run (a : Action) : Task Outcome := do
  match ← a.attempt.run with
  | .error e =>
    perform (.note e.message)
    return .failed
  | .ok .applied =>
    if a.touchesZones then refreshNow
    return .applied
  | .ok outcome => return outcome

end Action

def reboot : Task (Option String) := do
  match ← (call .reboot).run with
  | .ok page => return some page
  | .error e =>
    perform (.note e.message)
    return none

end HeatingControl.Dashboard
