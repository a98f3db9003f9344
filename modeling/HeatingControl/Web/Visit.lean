import HeatingControl.Dashboard.Action
import HeatingControl.Dashboard.Page
import HeatingControl.Http.Message

/-!
# Visits of the browser

A path names a place of the dashboard; what is visited there is a page, or an action with its
form. The path is looked at first, then the method, then the ids in the path, and the form last.
-/
namespace HeatingControl.Web

open Dashboard (Action Selection Upload)

inductive Place where
  | health
  | home
  | zones
  | override
  | zoneDescription (zone : String)
  | zoneMode (zone : String)
  | plannings
  | planningName (planning : String)
  | planningRemoval (planning : String)
  | slots (planning : String)
  | slot (planning slot : String)
  | slotRemoval (planning slot : String)
  | accounts
  | accountPassword (account : String)
  | accountRemoval (account : String)
  | firmware
  | certificate
  | hardware
  | reboot
  deriving DecidableEq, Repr

/-- What the segments of a path name. Only an id at the end must not be empty. -/
def place? : List String → Option Place
  | ["health"] => some .health
  | [""] => some .home
  | ["zones"] => some .zones
  | ["override"] => some .override
  | ["zones", id, "description"] => some (.zoneDescription id)
  | ["zones", id, "mode"] => some (.zoneMode id)
  | ["plannings"] => some .plannings
  | ["plannings", id, "rename"] => some (.planningName id)
  | ["plannings", id, "delete"] => some (.planningRemoval id)
  | ["plannings", id, "slots"] => some (.slots id)
  | ["plannings", id, "slots", slot] => if slot = "" then none else some (.slot id slot)
  | ["plannings", id, "slots", slot, "delete"] => some (.slotRemoval id slot)
  | ["accounts"] => some .accounts
  | ["accounts", id, "password"] => some (.accountPassword id)
  | ["accounts", id, "delete"] => some (.accountRemoval id)
  | ["firmware"] => some .firmware
  | ["certificate"] => some .certificate
  | ["hardware"] => some .hardware
  | ["reboot"] => some .reboot
  | _ => none

inductive Visit where
  | health
  | home (selection : Selection)
  | zones
  | reboot
  /-- An action, and the page to go back to after it. -/
  | act (action : Action) (back : String)
  deriving DecidableEq, Repr

def homeOf (id : PlanningId) : String := "/?planning=" ++ id.display

/-- What a query selects; a value that makes no sense is ignored. -/
def selectionOf (query : List (String × String)) : Selection :=
  let planning := (query.find? fun f => f.1 = "planning").map (·.2)
  let hardware := (query.find? fun f => f.1 = "hardware").map fun f => Text.trim f.2
  { planning := planning.bind fun raw => (PlanningId.parse raw).toOption
    hardware := (hardware.filter fun raw => raw ≠ "").map HardwareId.mk }

def homeVisit (r : Request) : Except Refusal Visit :=
  if Form.unrepeated ["planning", "hardware"] r.query then .ok (.home (selectionOf r.query))
  else .error .badRequest

/-- An action that takes the fields of a form. -/
def onForm (r : Request) (names : List String) (back : String)
    (action : (String → String) → Action) : Except Refusal Visit :=
  match r.recordBody names with
  | .error e => .error e
  | .ok fields => .ok (.act (action fun name => Form.value name fields) back)

def slotFields : List String := ["dow", "hour", "minute", "order"]

def shownFields : List String :=
  ["original_dow", "original_hour", "original_minute", "original_order"]

def slotInput (field : String → String) : SlotInput :=
  ⟨field "dow", field "hour", field "minute", field "order"⟩

def shownInput (field : String → String) : SlotInput :=
  ⟨field "original_dow", field "original_hour", field "original_minute",
    field "original_order"⟩

def uploadOf (parts : List Multipart.Part) : Upload :=
  { file := (parts.reverse.find? fun p => p.name = some "file").map (·.content)
    confirmed := parts.any fun p => p.name = some "confirm" }

def onUpload (r : Request) (action : Upload → Action) : Except Refusal Visit :=
  match r.multipartBody with
  | .error e => .error e
  | .ok parts => .ok (.act (action (uploadOf parts)) "/")

/-- The fields of parameters carry this before the id of the parameter. -/
def parameterMark : String := "param."

def parameterOf (f : String × String) : Option (String × String) :=
  (Text.afterStart? parameterMark.toList f.1.toList).map fun id => (String.ofList id, f.2)

def isQuerySafe (c : Char) : Bool := Text.isWordChar c || c = '-' || c = '_' || c = '.'

def boardHome (hardware : String) : String :=
  let hardware := Text.trim hardware
  if hardware ≠ "" && hardware.toList.all isQuerySafe then "/?hardware=" ++ hardware else "/"

def onBoard (fields : List (String × String)) : Visit :=
  let hardware := Form.value HardwareSettings.boardField fields
  .act (.applyHardware hardware (fields.filterMap parameterOf) (Form.has "confirm" fields))
    (boardHome hardware)

def Place.page (r : Request) : Place → Option (Except Refusal Visit)
  | .health => some (.ok .health)
  | .home => some (homeVisit r)
  | .zones => some (.ok .zones)
  | .reboot => some (.ok .reboot)
  | _ => none

def Place.form (r : Request) : Place → Option (Except Refusal Visit)
  | .override => onForm r ["value"] "/" fun f => .changeOverride (f "value")
  | .zoneDescription id => some do
    let id ← Request.textSegment id
    onForm r ["description"] "/" fun f => .renameZone id (f "description")
  | .zoneMode id => some do
    let id ← Request.textSegment id
    onForm r ["mode"] "/" fun f => .changeZoneMode id (f "mode")
  | .plannings => onForm r ["name"] "/" fun f => .createPlanning (f "name")
  | .planningName id => some do
    let id ← Request.numberSegment id
    onForm r ["name"] (homeOf ⟨id⟩) fun f => .renamePlanning ⟨id⟩ (f "name")
  | .planningRemoval id => some do
    return .act (.deletePlanning ⟨← Request.numberSegment id⟩) "/"
  | .slots id => some do
    let id ← Request.numberSegment id
    onForm r slotFields (homeOf ⟨id⟩) fun f => .addSlot ⟨id⟩ (slotInput f)
  | .slot owner id => some do
    let owner ← Request.numberSegment owner
    let id ← Request.numberSegment id
    onForm r (slotFields ++ shownFields) (homeOf ⟨owner⟩) fun f =>
      .editSlot ⟨owner⟩ ⟨id⟩ (shownInput f) (slotInput f)
  | .slotRemoval owner id => some do
    let owner ← Request.numberSegment owner
    let id ← Request.numberSegment id
    return .act (.deleteSlot ⟨owner⟩ ⟨id⟩) (homeOf ⟨owner⟩)
  | .accounts =>
    onForm r ["id", "password"] "/" fun f => .createAccount (f "id") (f "password")
  | .accountPassword id => some do
    let id ← Request.textSegment id
    onForm r ["password"] "/" fun f => .resetPassword id (f "password")
  | .accountRemoval id => some do
    return .act (.deleteAccount (← Request.textSegment id)) "/"
  | .firmware => onUpload r .uploadFirmware
  | .certificate => onUpload r .uploadCertificate
  | .hardware => some (r.formBody.map onBoard)
  | _ => none

def Place.visit? (r : Request) (verb : Verb) (p : Place) : Option (Except Refusal Visit) :=
  match verb with
  | .get => p.page r
  | .post => p.form r
  | _ => none

def visit (r : Request) : Except Refusal Visit :=
  match place? r.segments with
  | none => .error .notFound
  | some place => ((r.verb?.bind fun verb => place.visit? r verb).getD (.error .methodNotAllowed))

end HeatingControl.Web
