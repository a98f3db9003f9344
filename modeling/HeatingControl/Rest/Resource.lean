import HeatingControl.Controller.Step
import HeatingControl.Http.Message
import HeatingControl.Wire.Records

/-!
# Resources of the controller's interface

A path names a resource, a method and the body tell what is asked of it. The path is looked at
first, then the method, then the ids in the path, and the body last.
-/
namespace HeatingControl.Rest

/-- What a path names; ids are segments as they are written. -/
inductive Resource where
  | health
  | status
  | orders
  | override
  | zones
  | zone (id : String)
  | plannings
  | planning (id : String)
  | slots (planning : String)
  | slot (planning slot : String)
  | accounts
  | account (id : String)
  | upgrade
  | certificate
  | reboot
  | hardware
  | parameters (hardware : String)
  deriving DecidableEq, Repr

/-- What a path below the root of the interface names. Only an id at its end must not be empty. -/
def below : List String → Option Resource
  | ["status"] => some .status
  | ["orders"] => some .orders
  | ["override"] => some .override
  | ["zones"] => some .zones
  | ["zones", id] => if id = "" then none else some (.zone id)
  | ["plannings"] => some .plannings
  | ["plannings", id] => if id = "" then none else some (.planning id)
  | ["plannings", id, "slots"] => some (.slots id)
  | ["plannings", id, "slots", slot] => if slot = "" then none else some (.slot id slot)
  | ["accounts"] => some .accounts
  | ["accounts", id] => if id = "" then none else some (.account id)
  | ["upgrade"] => some .upgrade
  | ["certificate"] => some .certificate
  | ["reboot"] => some .reboot
  | ["hardware"] => some .hardware
  | ["hardware", id, "parameters"] => some (.parameters id)
  | _ => none

def resource? : List String → Option Resource
  | ["health"] => some .health
  | "ofp-api" :: "v1" :: rest => below rest
  | _ => none

inductive Demand where
  | health
  /-- An operation, answered by what it comes to. -/
  | operation (op : Operation)
  | zone (id : ZoneId)
  | planning (id : PlanningId)
  | addPlanning (name : PlanningName)
  | addSlot (planning : PlanningId) (slot : NewSlot)
  /-- A board and its parameters, as a form gives them. -/
  | hardwareForm (fields : List (String × String))
  deriving DecidableEq, Repr

def ask (op : Operation) : Except Refusal Demand := .ok (.operation op)

def Resource.demand (r : Request) (verb : Verb) : Resource → Except Refusal Demand
  | .health => match verb with
    | .get => .ok .health
    | _ => .error .methodNotAllowed
  | .status => match verb with
    | .get => ask .getStatus
    | _ => .error .methodNotAllowed
  | .orders => match verb with
    | .get => ask .getOrders
    | _ => .error .methodNotAllowed
  | .override => match verb with
    | .get => ask .getOverride
    | .put => do
      let body : Wire.OverrideBody ← r.jsonBody
      ask (.putOverride body.value)
    | _ => .error .methodNotAllowed
  | .zones => match verb with
    | .get => ask .getZones
    | _ => .error .methodNotAllowed
  | .zone id => match verb with
    | .get => return .zone ⟨← Request.textSegment id⟩
    | .patch => do
      let id ← Request.textSegment id
      ask (.patchZone ⟨id⟩ (← r.jsonBody))
    | _ => .error .methodNotAllowed
  | .plannings => match verb with
    | .get => ask .getPlannings
    | .post => return .addPlanning (← r.jsonBody)
    | _ => .error .methodNotAllowed
  | .planning id => match verb with
    | .get => return .planning ⟨← Request.numberSegment id⟩
    | .patch => do
      let id ← Request.numberSegment id
      ask (.renamePlanning ⟨id⟩ (← r.jsonBody))
    | .delete => do ask (.deletePlanning ⟨← Request.numberSegment id⟩)
    | _ => .error .methodNotAllowed
  | .slots id => match verb with
    | .get => do ask (.getPlanningSlots ⟨← Request.numberSegment id⟩)
    | .post => do
      let id ← Request.numberSegment id
      return .addSlot ⟨id⟩ (← r.jsonBody)
    | _ => .error .methodNotAllowed
  | .slot owner id => match verb with
    | .patch | .put => do
      let owner ← Request.numberSegment owner
      let id ← Request.numberSegment id
      ask (.patchSlot ⟨owner⟩ ⟨id⟩ (← r.jsonBody))
    | .delete => do
      let owner ← Request.numberSegment owner
      ask (.deleteSlot ⟨owner⟩ ⟨← Request.numberSegment id⟩)
    | _ => .error .methodNotAllowed
  | .accounts => match verb with
    | .get => ask .getAccounts
    | .post => do ask (.createAccount (← r.jsonBody))
    | _ => .error .methodNotAllowed
  | .account id => match verb with
    | .patch => do
      let id ← Request.textSegment id
      ask (.resetPassword ⟨id⟩ (← r.jsonBody))
    | .delete => do ask (.deleteAccount ⟨← Request.textSegment id⟩)
    | _ => .error .methodNotAllowed
  | .upgrade => match verb with
    | .post => do ask (.uploadFirmware (← r.wholeBody))
    | _ => .error .methodNotAllowed
  | .certificate => match verb with
    | .post => do ask (.uploadCertificate (← r.wholeBody))
    | _ => .error .methodNotAllowed
  | .reboot => match verb with
    | .get => ask .reboot
    | _ => .error .methodNotAllowed
  | .hardware => match verb with
    | .get => ask .getHardware
    | .post => return .hardwareForm (← r.formBody)
    | _ => .error .methodNotAllowed
  | .parameters id => match verb with
    | .get => do ask (.getHardwareParameters ⟨← Request.textSegment id⟩)
    | _ => .error .methodNotAllowed

def demand (r : Request) : Except Refusal Demand :=
  match resource? r.segments with
  | none => .error .notFound
  | some resource =>
    match r.verb? with
    | none => .error .methodNotAllowed
    | some verb => resource.demand r verb

end HeatingControl.Rest
