import HeatingControl.Program
import HeatingControl.Rest.Resource

/-!
# Answers of the controller's interface

Every demand becomes calls of the controller, and what they come to becomes a response: records
as JSON, changes without a body, a failure with its status and its message.
-/
namespace HeatingControl.Rest

abbrev Task (α : Type) := Program Call Call.Result α

abbrev Load (α : Type) := ExceptT Error (Program Call Call.Result) α

def call (c : Call) : Load c.Answer := ExceptT.mk (Program.question c)

def failureStatus : Error → Nat
  | .validation _ => 400
  | .notFound _ _ => 404
  | .http _ _ status => if 100 ≤ status ∧ status ≤ 999 then status else 500
  | .network _ _ _ | .decode _ _ => 500

def failure (e : Error) : Response :=
  .json (failureStatus e) (.object [("error", .text e.message)])

def named {α : Type} [Wire α] (name : String) (l : List α) : Response :=
  .json 200 (Wire.encode (Wire.Listing.mk l : Wire.Listing name α))

def success : (op : Operation) → op.Answer → Response
  | .getStatus, v => .json 200 (Wire.encode v)
  | .getOrders, v => named "orders" v
  | .getOverride, v => .json 200 (Wire.encode (Wire.OverrideBody.mk v))
  | .getZones, v => named "zones" v
  | .getPlannings, v => named "plannings" v
  | .getPlanningSlots _, v => named "slots" v
  | .getAccounts, v => named "accounts" v
  | .getHardware, v => .json 200 (Wire.encode v)
  | .getHardwareParameters _, v => named "parameters" v
  | .reboot, v => .html v
  | .createAccount _, _ | .createPlanning _, _ | .createSlot _ _, _ => .empty 201
  | .uploadFirmware _, _ | .uploadCertificate _, _ => .empty 200
  | .putOverride _, _ | .patchZone _ _, _ | .renamePlanning _ _, _ | .deletePlanning _, _
  | .patchSlot _ _ _, _ | .deleteSlot _ _, _ | .deleteAccount _, _ | .resetPassword _ _, _
  | .applyHardware _, _ => .empty 204

/-- The board that a form names; its first mention counts. -/
def boardOf (fields : List (String × String)) : Except Error HardwareId :=
  match fields.find? fun f => f.1 = HardwareSettings.boardField with
  | some f => .ok ⟨Text.trim f.2⟩
  | none => .error (.validation (.invalidParameterValue HardwareSettings.boardField ""))

def Demand.load : Demand → Load Response
  | .health => return .healthy
  | .operation op => do return success op (← call (.operation op))
  | .zone id => do
    let zones ← call (.operation .getZones)
    match zones.find? fun z => z.id = id with
    | some z => return .json 200 (Wire.encode z)
    | none => throw (.notFound "Zone" id.text)
  | .planning id => do
    let slots ← call (.operation (.getPlanningSlots id))
    let plannings ← call (.operation .getPlannings)
    let name := (plannings.find? fun p => p.id = id).map (·.name)
    return .json 200 (.object [("id", Wire.encode id), ("name", .text (name.getD "")),
      ("slots", Wire.encode slots)])
  | .addPlanning name => do
    let created ← call (.addPlanning name)
    return .json 201 (Wire.encode created)
  | .addSlot id slot => do
    let created ← call (.addSlot id slot)
    return .json 201 (Wire.encode created)
  | .hardwareForm fields => do
    let board ← ExceptT.mk (Program.done (boardOf fields))
    let parameters ← call (.operation (.getHardwareParameters board))
    match HardwareSettings.ofForm board fields parameters with
    | .error e => throw (.validation e)
    | .ok settings =>
      let _ ← call (.operation (.applyHardware settings))
      return .empty 204

def Demand.respond (d : Demand) : Task Response := do
  match ← d.load.run with
  | .ok response => return response
  | .error e => return failure e

def respond (r : Request) : Task Response := do
  let response ← match demand r with
    | .error refusal => pure refusal.response
    | .ok d => d.respond
  return if r.method = "HEAD" then response.bodiless else response

end HeatingControl.Rest
