import HeatingControl.Account
import HeatingControl.Hardware
import HeatingControl.Order
import HeatingControl.Slot
import HeatingControl.Status
import HeatingControl.Wire.Codec
import HeatingControl.Zone

/-!
# The records of the controller on the wire

The keys of every record, in the order in which they are written. A zone also accepts `desc` for
its description, a board `name`. Fields of a change that are absent are not written.
-/
namespace HeatingControl
namespace Wire

/-- A type that goes over the wire in the form of another. -/
@[reducible] def via {α β : Type} [Wire β] (write : α → β) (make : β → α) : Wire α :=
  ⟨fun v => encode (write v), fun j => (decode j).map make⟩

/-- As `via`, where not every value of the other type stands for one. -/
@[reducible] def viaChecked {α β ε : Type} [Wire β] (write : α → β)
    (make : β → Except ε α) : Wire α :=
  ⟨fun v => encode (write v), fun j =>
    match decode j with
    | .error e => .error e
    | .ok b =>
      match make b with
      | .ok v => .ok v
      | .error _ => .error .otherShape⟩

instance : Wire ZoneId := via ZoneId.text ZoneId.mk
instance : Wire OrderId := via OrderId.text OrderId.mk
instance : Wire AccountId := via AccountId.text AccountId.mk
instance : Wire HardwareId := via HardwareId.text HardwareId.mk
instance : Wire PlanningId := via PlanningId.number PlanningId.mk
instance : Wire SlotId := via SlotId.number SlotId.mk

instance : Wire Order where
  encode o := .object [("id", encode o.id), ("name", encode o.name), ("class", encode o.colour)]
  decode j := do
    let p ← places [field OrderId ["id"], field String ["name"], field String ["class"]] j
    return ⟨← required p 0, ← required p 1, ← required p 2⟩

instance : Wire Override := via Override.display Override.parse

structure OverrideBody where
  value : Override
  deriving DecidableEq, Repr

instance : Wire OverrideBody where
  encode b := .object [("override", encode b.value)]
  decode j := do
    let p ← places [field Override ["override"]] j
    return ⟨← required p 0⟩

instance : Wire ZoneMode := viaChecked ZoneMode.display ZoneMode.parse

instance : Wire Zone where
  encode z := .object [("id", encode z.id), ("description", encode z.description),
    ("mode", encode z.mode), ("current", encode z.current)]
  decode j := do
    let p ← places [field ZoneId ["id"], field String ["description", "desc"],
      field ZoneMode ["mode"], field OrderId ["current"]] j
    return ⟨← required p 0, ← required p 1, ← required p 2, ← required p 3⟩

instance : Wire ZonePatch where
  encode z := .object (present "description" z.description ++ present "mode" z.mode)
  decode j := do
    let p ← places [field (Option String) ["description"], field (Option ZoneMode) ["mode"]] j
    return ⟨← optional p 0, ← optional p 1⟩

instance : Wire Planning where
  encode v := .object [("id", encode v.id), ("name", encode v.name)]
  decode j := do
    let p ← places [field PlanningId ["id"], field String ["name"]] j
    return ⟨← required p 0, ← required p 1⟩

instance : Wire PlanningName where
  encode v := .object [("name", encode v.name)]
  decode j := do
    let p ← places [field String ["name"]] j
    return ⟨← required p 0⟩

instance : Wire DayOfWeek :=
  viaChecked (fun d => UInt8.ofNat d.index) DayOfWeek.ofByte

instance : Wire Slot where
  encode s := .object [("id", encode s.id), ("dow", encode s.day), ("hour", encode s.hour),
    ("minute", encode s.minute), ("order", encode s.order)]
  decode j := do
    let p ← places [field SlotId ["id"], field DayOfWeek ["dow"], field UInt8 ["hour"],
      field UInt8 ["minute"], field OrderId ["order"]] j
    return ⟨← required p 0, ← required p 1, ← required p 2, ← required p 3, ← required p 4⟩

instance : Wire NewSlot where
  encode s := .object [("dow", encode s.day), ("hour", encode s.hour),
    ("minute", encode s.minute), ("order", encode s.order)]
  decode j := do
    let p ← places [field DayOfWeek ["dow"], field UInt8 ["hour"], field UInt8 ["minute"],
      field OrderId ["order"]] j
    return ⟨← required p 0, ← required p 1, ← required p 2, ← required p 3⟩

instance : Wire SlotPatch where
  encode s := .object (present "dow" s.day ++ present "hour" s.hour ++
    present "minute" s.minute ++ present "order" s.order)
  decode j := do
    let p ← places [field (Option DayOfWeek) ["dow"], field (Option UInt8) ["hour"],
      field (Option UInt8) ["minute"], field (Option OrderId) ["order"]] j
    return ⟨← optional p 0, ← optional p 1, ← optional p 2, ← optional p 3⟩

structure Listing (name : String) (α : Type) where
  items : List α
  deriving DecidableEq, Repr

instance {name : String} {α : Type} [Wire α] : Wire (Listing name α) where
  encode l := .object [(name, encode l.items)]
  decode j := do
    let p ← places [field (List α) [name]] j
    return ⟨← required p 0⟩

/-- A choice among words: the word itself, or an object that gives it the value null. -/
def decodeWord {α : Type} (ofWord : String → Option α) : Json → Except Misfit α
  | .text s => ((ofWord s).map Except.ok).getD (.error .otherShape)
  | .object [(s, j)] =>
    match ofWord s, j with
    | some v, .null => .ok v
    | none, _ => .error .otherShape
    | _, j => .error (misfit j)
  | .object [] => .error .notJson
  | .object ((s, j) :: _) =>
    match ofWord s, j with
    | some _, .null => .error .notJson
    | none, _ => .error .otherShape
    | _, j => .error (misfit j)
  | j => .error (misfit j)

def accountTypeWord : AccountType → String
  | .admin => "admin"
  | .user => "user"

instance : Wire AccountType where
  encode t := .text (accountTypeWord t)
  decode := decodeWord fun s => [AccountType.admin, .user].find? fun t => accountTypeWord t = s

instance : Wire Account where
  encode a := .object [("id", encode a.id), ("type", encode a.kind)]
  decode j := do
    let p ← places [field AccountId ["id"], field AccountType ["type"]] j
    return ⟨← required p 0, ← required p 1⟩

instance : Wire NewAccount where
  encode a := .object [("id", encode a.id), ("password", encode a.password)]
  decode j := do
    let p ← places [field AccountId ["id"], field String ["password"]] j
    return ⟨← required p 0, ← required p 1⟩

instance : Wire PasswordReset where
  encode r := .object [("password", encode r.password)]
  decode j := do
    let p ← places [field String ["password"]] j
    return ⟨← required p 0⟩

instance : Wire HardwareType where
  encode h := .object [("id", encode h.id), ("description", encode h.description)]
  decode j := do
    let p ← places [field HardwareId ["id"], field String ["description", "name"]] j
    return ⟨← required p 0, ← required p 1⟩

/-- The current board is written even when there is none. -/
instance : Wire HardwareList where
  encode l := .object [("current", encode l.current), ("supported", encode l.supported)]
  decode j := do
    let p ← places [field (Option HardwareId) ["current"],
      field (List HardwareType) ["supported"]] j
    return ⟨← optional p 0, ← required p 1⟩

def parameterKindWord : ParameterKind → String
  | .number => "number"
  | .string => "string"

instance : Wire ParameterKind where
  encode k := .text (parameterKindWord k)
  decode := decodeWord fun s =>
    [ParameterKind.number, .string].find? fun k => parameterKindWord k = s

/-- The value alone tells which kind it is. -/
instance : Wire ParameterValue where
  encode v := match v with
    | .integer i => .int i.toInt
    | .text s => .text s
  decode j := match j with
    | .text s => .ok (.text s)
    | j => if j.isWhole then (decodeInt64 j).map .integer else .error .notJson

instance : Wire HardwareParameter where
  encode h := .object [("id", encode h.id), ("description", encode h.description),
    ("type", encode h.kind), ("value", encode h.value)]
  decode j := do
    let p ← places [field String ["id"], field String ["description"],
      field ParameterKind ["type"], field ParameterValue ["value"]] j
    return ⟨← required p 0, ← required p 1, ← required p 2, ← required p 3⟩

instance : Wire ConnectedUser where
  encode u := .object [("id", encode u.id), ("source_ip", encode u.sourceAddress)]
  decode j := do
    let p ← places [field String ["id"], field String ["source_ip"]] j
    return ⟨← required p 0, ← required p 1⟩

instance : Wire WifiStats where
  encode w := .object [("current_uptime", encode w.currentUptime),
    ("cumulated_uptime", encode w.cumulatedUptime), ("successes", encode w.successes),
    ("attempts", encode w.attempts), ("disconnects", encode w.disconnects)]
  decode j := do
    let p ← places [field UInt64 ["current_uptime"], field UInt64 ["cumulated_uptime"],
      field UInt64 ["successes"], field UInt64 ["attempts"], field UInt64 ["disconnects"]] j
    return ⟨← required p 0, ← required p 1, ← required p 2, ← required p 3, ← required p 4⟩

instance : Wire Uptime where
  encode u := .object [("system", encode u.system), ("wifi", encode u.wifi)]
  decode j := do
    let p ← places [field UInt64 ["system"], field WifiStats ["wifi"]] j
    return ⟨← required p 0, ← required p 1⟩

instance : Wire RunningFirmware where
  encode f := .object [("running_partition", encode f.partition),
    ("running_partition_size", encode f.partitionSize), ("running_app_name", encode f.name),
    ("running_app_version", encode f.version),
    ("running_app_compiled_date", encode f.compiledDate),
    ("running_app_compiled_time", encode f.compiledTime),
    ("running_app_idf_version", encode f.frameworkVersion)]
  decode j := do
    let p ← places [field String ["running_partition"], field UInt64 ["running_partition_size"],
      field String ["running_app_name"], field String ["running_app_version"],
      field String ["running_app_compiled_date"], field String ["running_app_compiled_time"],
      field String ["running_app_idf_version"]] j
    return ⟨← required p 0, ← required p 1, ← required p 2, ← required p 3, ← required p 4,
      ← required p 5, ← required p 6⟩

instance : Wire Status where
  encode s := .object (present "user" s.user ++ [("uptime", encode s.uptime)] ++
    present "firmware" s.firmware)
  decode j := do
    let p ← places [field (Option ConnectedUser) ["user"], field Uptime ["uptime"],
      field (Option RunningFirmware) ["firmware"]] j
    return ⟨← optional p 0, ← required p 1, ← optional p 2⟩

end Wire
end HeatingControl
