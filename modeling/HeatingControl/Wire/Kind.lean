import HeatingControl.Wire.Records

/-!
# The kinds of values on the wire

Every type that is exchanged with the controller, as one family, so that a text can be brought
to its normal form: decoded and written again.
-/
namespace HeatingControl.Wire

inductive Kind where
  | zoneId
  | orderId
  | accountId
  | hardwareId
  | planningId
  | slotId
  | order
  | zoneMode
  | zone
  | zonePatch
  | override
  | planning
  | planningName
  | day
  | slot
  | newSlot
  | slotPatch
  | account
  | newAccount
  | passwordReset
  | hardwareType
  | hardwareList
  | hardwareParameter
  | status
  deriving DecidableEq, Repr

def Kind.all : List Kind :=
  [.zoneId, .orderId, .accountId, .hardwareId, .planningId, .slotId, .order, .zoneMode, .zone,
   .zonePatch, .override, .planning, .planningName, .day, .slot, .newSlot, .slotPatch, .account,
   .newAccount, .passwordReset, .hardwareType, .hardwareList, .hardwareParameter, .status]

def Kind.name : Kind → String
  | .zoneId => "zone_id"
  | .orderId => "order_id"
  | .accountId => "account_id"
  | .hardwareId => "hardware_id"
  | .planningId => "planning_id"
  | .slotId => "slot_id"
  | .order => "order"
  | .zoneMode => "zone_mode"
  | .zone => "zone"
  | .zonePatch => "zone_patch"
  | .override => "override"
  | .planning => "planning"
  | .planningName => "planning_name"
  | .day => "day"
  | .slot => "slot"
  | .newSlot => "new_slot"
  | .slotPatch => "slot_patch"
  | .account => "account"
  | .newAccount => "new_account"
  | .passwordReset => "password_reset"
  | .hardwareType => "hardware_type"
  | .hardwareList => "hardware_list"
  | .hardwareParameter => "hardware_parameter"
  | .status => "status"

def Kind.ofName? (s : String) : Option Kind := all.find? fun k => k.name = s

abbrev Kind.Value : Kind → Type
  | .zoneId => ZoneId
  | .orderId => OrderId
  | .accountId => AccountId
  | .hardwareId => HardwareId
  | .planningId => PlanningId
  | .slotId => SlotId
  | .order => Order
  | .zoneMode => ZoneMode
  | .zone => Zone
  | .zonePatch => ZonePatch
  | .override => OverrideBody
  | .planning => Planning
  | .planningName => PlanningName
  | .day => DayOfWeek
  | .slot => Slot
  | .newSlot => NewSlot
  | .slotPatch => SlotPatch
  | .account => Account
  | .newAccount => NewAccount
  | .passwordReset => PasswordReset
  | .hardwareType => HardwareType
  | .hardwareList => HardwareList
  | .hardwareParameter => HardwareParameter
  | .status => Status

instance : (k : Kind) → Wire k.Value
  | .zoneId => inferInstanceAs (Wire ZoneId)
  | .orderId => inferInstanceAs (Wire OrderId)
  | .accountId => inferInstanceAs (Wire AccountId)
  | .hardwareId => inferInstanceAs (Wire HardwareId)
  | .planningId => inferInstanceAs (Wire PlanningId)
  | .slotId => inferInstanceAs (Wire SlotId)
  | .order => inferInstanceAs (Wire Order)
  | .zoneMode => inferInstanceAs (Wire ZoneMode)
  | .zone => inferInstanceAs (Wire Zone)
  | .zonePatch => inferInstanceAs (Wire ZonePatch)
  | .override => inferInstanceAs (Wire OverrideBody)
  | .planning => inferInstanceAs (Wire Planning)
  | .planningName => inferInstanceAs (Wire PlanningName)
  | .day => inferInstanceAs (Wire DayOfWeek)
  | .slot => inferInstanceAs (Wire Slot)
  | .newSlot => inferInstanceAs (Wire NewSlot)
  | .slotPatch => inferInstanceAs (Wire SlotPatch)
  | .account => inferInstanceAs (Wire Account)
  | .newAccount => inferInstanceAs (Wire NewAccount)
  | .passwordReset => inferInstanceAs (Wire PasswordReset)
  | .hardwareType => inferInstanceAs (Wire HardwareType)
  | .hardwareList => inferInstanceAs (Wire HardwareList)
  | .hardwareParameter => inferInstanceAs (Wire HardwareParameter)
  | .status => inferInstanceAs (Wire Status)

def Kind.normalise (k : Kind) (s : String) : Except Misfit String :=
  (ofText s : Except Misfit k.Value).map toText

end HeatingControl.Wire
