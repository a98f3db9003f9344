import HeatingControl.Controller.State
import HeatingControl.Ident

/-!
# What the controller does when it is online

Each change checks what it is given against the records it refers to, and leaves the state alone
when a check fails. A deleted planning is taken out of the zones that used it.
-/
namespace HeatingControl

/-- A change answers and leaves a state, also when it fails. -/
abbrev Change (α : Type) := State → Except Error α × State

namespace State

def refuse {α : Type} (s : State) (e : ValidationError) : Except Error α × State :=
  (.error (.validation e), s)

def missing {α : Type} (s : State) (entity id : String) : Except Error α × State :=
  (.error (.notFound entity id), s)

def hasOrder (s : State) (id : OrderId) : Bool := s.orders.any fun o => o.id = id

def hasPlanning (s : State) (id : PlanningId) : Bool := s.plannings.any fun p => p.id = id

def checkOrder (s : State) (id : OrderId) : Except ValidationError Unit :=
  if s.hasOrder id then .ok () else .error (.unknownOrder id.text)

def checkMode (s : State) : ZoneMode → Except ValidationError Unit
  | .fixed order => s.checkOrder order
  | .planning id => if s.hasPlanning id then .ok () else .error (.unknownPlanning id.number)

def checkSome {α : Type} (check : α → Except ValidationError Unit) :
    Option α → Except ValidationError Unit
  | none => .ok ()
  | some a => check a

def putOverride (value : Override) : Change Unit := fun s =>
  match checkSome s.checkOrder value.order? with
  | .error e => s.refuse e
  | .ok () => (.ok (), { s with override := value })

/-- The order in effect in a zone: the override, else the fixed order, else the one of the
planning at this moment. -/
def currentOrder (s : State) (t : WeekTime) (z : Zone) : OrderId :=
  match s.override with
  | .order id => id
  | .none =>
    match z.mode with
    | .fixed order => order
    | .planning id =>
      ((Table.get? id s.slots).bind fun slots => activeOrder? slots t).getD Order.fallback

def currentZones (s : State) (t : WeekTime) : List Zone :=
  s.zones.map fun z => { z with current := s.currentOrder t z }

def checkDescription : Option String → Except ValidationError (Option String)
  | none => .ok none
  | some d => if Text.allBlank d then .error .emptyName else .ok (some (Text.trim d))

def patchZone (id : ZoneId) (patch : ZonePatch) : Change Unit := fun s =>
  match checkSome s.checkMode patch.mode with
  | .error e => s.refuse e
  | .ok () =>
    match checkDescription patch.description with
    | .error e => s.refuse e
    | .ok description =>
      let change (z : Zone) : Zone :=
        { z with
          description := description.getD z.description
          mode := patch.mode.getD z.mode }
      if s.zones.any fun z => z.id = id then
        (.ok (), { s with zones := Table.updateFirst (fun z => z.id = id) change s.zones })
      else s.missing "Zone" id.text

/-- The greatest of the numbers that follow those in use. -/
def nextNumber (numbers : List UInt32) : UInt32 := ((numbers.map fun n => n + 1).max?).getD 0

def createPlanning (name : PlanningName) : Change Planning := fun s =>
  match PlanningName.make name.name with
  | .error e => s.refuse e
  | .ok name =>
    if s.plannings.length ≥ Limits.plannings then
      s.refuse (.limitReached "plannings" Limits.plannings)
    else
      let planning : Planning :=
        ⟨⟨nextNumber (s.plannings.map fun p => p.id.number)⟩, name.name⟩
      (.ok planning, { s with
        plannings := s.plannings ++ [planning]
        slots := Table.insert planning.id [] s.slots })

def renamePlanning (id : PlanningId) (name : PlanningName) : Change Unit := fun s =>
  match PlanningName.make name.name with
  | .error e => s.refuse e
  | .ok name =>
    let change (p : Planning) : Planning := { p with name := name.name }
    if s.hasPlanning id then
      (.ok (), { s with plannings := Table.updateFirst (fun p => p.id = id) change s.plannings })
    else s.missing "Planning" id.display

def modeWithout (id : PlanningId) (mode : ZoneMode) : ZoneMode :=
  if mode.planning? = some id then .fixed Order.fallback else mode

theorem modeWithout_self (id : PlanningId) :
    modeWithout id (.planning id) = .fixed Order.fallback :=
  if_pos rfl

theorem modeWithout_of_ne {id : PlanningId} {mode : ZoneMode} (h : mode ≠ .planning id) :
    modeWithout id mode = mode := by
  cases mode with
  | fixed order => rfl
  | planning other =>
    refine if_neg fun hsame => h ?_
    rw [Option.some.inj hsame]

/-- The list is cut first; that nothing went tells that there is no such planning. -/
def deletePlanning (id : PlanningId) : Change Unit := fun s =>
  let kept := s.plannings.filter fun p => p.id ≠ id
  let cut := { s with plannings := kept }
  if kept.length = s.plannings.length then cut.missing "Planning" id.display
  else
    (.ok (), { cut with
      slots := Table.erase id s.slots
      zones := s.zones.map fun z => { z with mode := modeWithout id z.mode } })

def planningSlots (id : PlanningId) : Change (List Slot) := fun s =>
  match Table.get? id s.slots with
  | some slots => (.ok slots, s)
  | none => s.missing "Planning" id.display

def createSlot (planning : PlanningId) (slot : NewSlot) : Change Slot := fun s =>
  match slot.validate with
  | .error e => s.refuse e
  | .ok () =>
    match s.checkOrder slot.order with
    | .error e => s.refuse e
    | .ok () =>
      match Table.get? planning s.slots with
      | none => s.missing "Planning" planning.display
      | some slots =>
        if slots.length ≥ Limits.slotsPerPlanning then
          s.refuse (.limitReached "slots" Limits.slotsPerPlanning)
        else
          let slot := slot.toSlot ⟨nextNumber (slots.map fun s => s.id.number)⟩
          (.ok slot, { s with slots := Table.adjust planning (· ++ [slot]) s.slots })

def patchSlot (planning : PlanningId) (slot : SlotId) (patch : SlotPatch) : Change Unit := fun s =>
  match checkSome s.checkOrder patch.order with
  | .error e => s.refuse e
  | .ok () =>
    match Table.get? planning s.slots with
    | none => s.missing "Planning" planning.display
    | some slots =>
      match slots.find? fun x => x.id = slot with
      | none => s.missing "Slot" slot.display
      | some target =>
        match patch.apply target with
        | .error e => s.refuse e
        | .ok patched =>
          let change := Table.updateFirst (fun x : Slot => x.id = slot) fun _ => patched
          (.ok (), { s with slots := Table.adjust planning change s.slots })

def deleteSlot (planning : PlanningId) (slot : SlotId) : Change Unit := fun s =>
  match Table.get? planning s.slots with
  | none => s.missing "Planning" planning.display
  | some slots =>
    let kept := slots.filter fun x => x.id ≠ slot
    let cut := { s with slots := Table.adjust planning (fun _ => kept) s.slots }
    if kept.length = slots.length then cut.missing "Slot" slot.display else (.ok (), cut)

def account? (s : State) (id : AccountId) : Option StoredAccount :=
  s.accounts.find? fun a => a.account.id = id

def createAccount (account : NewAccount) : Change Unit := fun s =>
  match account.validate with
  | .error e => s.refuse e
  | .ok () =>
    if (s.account? account.id).isSome then s.refuse (.accountExists account.id.text)
    else if s.accounts.length ≥ Limits.accounts then
      s.refuse (.limitReached "accounts" Limits.accounts)
    else
      (.ok (), { s with accounts := s.accounts ++ [⟨⟨account.id, .user⟩, account.password⟩] })

def deleteAccount (id : AccountId) : Change Unit := fun s =>
  match s.account? id with
  | none => s.missing "Account" id.text
  | some a =>
    if a.account.isDeletable then
      (.ok (), { s with accounts := s.accounts.filter fun a => a.account.id ≠ id })
    else s.refuse .undeletableAdmin

def resetPassword (id : AccountId) (reset : PasswordReset) : Change Unit := fun s =>
  match PasswordReset.make reset.password with
  | .error e => s.refuse e
  | .ok reset =>
    let change (a : StoredAccount) : StoredAccount := { a with password := reset.password }
    if (s.account? id).isSome then
      (.ok (), { s with
        accounts := Table.updateFirst (fun a => a.account.id = id) change s.accounts })
    else s.missing "Account" id.text

/-- Passwords can be read while the controller reboots. -/
def password? (s : State) (id : AccountId) : Option String := (s.account? id).map (·.password)

def uploadFirmware (image : Bytes) : Change Unit := fun s =>
  match FirmwareImage.inspect image with
  | .error e => s.refuse e
  | .ok image => (.ok (), { s with staged := image.descriptor })

def uploadCertificate (bundle : Bytes) : Change Unit := fun s =>
  match Utf8.decode? bundle with
  | none => s.refuse (.invalidCertificate "bundle is not UTF-8 text")
  | some text =>
    match CertificateBundle.parse text with
    | .error e => s.refuse e
    | .ok bundle => (.ok (), { s with certificates := some bundle })

def certificateCount? (s : State) : Option Nat := s.certificates.map (·.certificates)

def hardwareParameters (id : HardwareId) : Change (List HardwareParameter) := fun s =>
  match Table.get? id s.parameters with
  | some parameters => (.ok parameters, s)
  | none => s.missing "Hardware" id.text

/-- A value must name a parameter, and its text must suit the kind of the parameter. -/
def checkValue (parameters : List HardwareParameter) (v : String × ParameterValue) :
    Except ValidationError Unit :=
  match parameters.find? fun p => p.id = v.1 with
  | none => .error (.invalidParameterValue v.1 v.2.display)
  | some p => (ParameterValue.parse v.1 p.kind v.2.display).map fun _ => ()

def checkValues (parameters : List HardwareParameter) :
    List (String × ParameterValue) → Except ValidationError Unit
  | [] => .ok ()
  | v :: rest =>
    match checkValue parameters v with
    | .error e => .error e
    | .ok () => checkValues parameters rest

def storeValue (parameters : List HardwareParameter) (v : String × ParameterValue) :
    List HardwareParameter :=
  Table.updateFirst (fun p => p.id = v.1) (fun p => { p with value := v.2 }) parameters

/-- All values are checked before the first one is stored. -/
def applyHardware (settings : HardwareSettings) : Change Unit := fun s =>
  match Table.get? settings.hardware s.parameters with
  | none => s.missing "Hardware" settings.hardware.text
  | some parameters =>
    match checkValues parameters settings.values with
    | .error e => s.refuse e
    | .ok () =>
      (.ok (), { s with
        parameters := Table.adjust settings.hardware
          (fun ps => settings.values.foldl storeValue ps) s.parameters
        hardware := { s.hardware with current := some settings.hardware } })

end State
end HeatingControl
