import HeatingControl.Account
import HeatingControl.Hardware
import HeatingControl.Order
import HeatingControl.Slot
import HeatingControl.Status
import HeatingControl.Text.Utf8
import HeatingControl.Zone

/-!
# The operations of the controller

Everything the dashboard can ask of the controller, with the type of each answer, and the verb
and path under which the interface offers it.
-/
namespace HeatingControl

inductive Operation where
  | getStatus
  | getOrders
  | getOverride
  | putOverride (value : Override)
  | getZones
  | patchZone (id : ZoneId) (patch : ZonePatch)
  | getPlannings
  | createPlanning (name : PlanningName)
  | renamePlanning (id : PlanningId) (name : PlanningName)
  | deletePlanning (id : PlanningId)
  | getPlanningSlots (id : PlanningId)
  | createSlot (planning : PlanningId) (slot : NewSlot)
  | patchSlot (planning : PlanningId) (slot : SlotId) (patch : SlotPatch)
  | deleteSlot (planning : PlanningId) (slot : SlotId)
  | getAccounts
  | createAccount (account : NewAccount)
  | deleteAccount (id : AccountId)
  | resetPassword (id : AccountId) (reset : PasswordReset)
  | uploadFirmware (image : Bytes)
  | uploadCertificate (bundle : Bytes)
  | reboot
  | getHardware
  | getHardwareParameters (id : HardwareId)
  | applyHardware (settings : HardwareSettings)
  deriving DecidableEq, Repr

namespace Operation

abbrev Answer : Operation → Type
  | .getStatus => Status
  | .getOrders => List Order
  | .getOverride => Override
  | .getZones => List Zone
  | .getPlannings => List Planning
  | .getPlanningSlots _ => List Slot
  | .getAccounts => List Account
  | .reboot => String
  | .getHardware => HardwareList
  | .getHardwareParameters _ => List HardwareParameter
  | _ => Unit

abbrev Result (op : Operation) : Type := Except Error op.Answer

def verb : Operation → Verb
  | .putOverride _ => .put
  | .patchZone _ _ | .renamePlanning _ _ | .patchSlot _ _ _ | .resetPassword _ _ => .patch
  | .deletePlanning _ | .deleteSlot _ _ | .deleteAccount _ => .delete
  | .createPlanning _ | .createSlot _ _ | .createAccount _ | .uploadFirmware _
  | .uploadCertificate _ | .applyHardware _ => .post
  | _ => .get

def name : Operation → String
  | .getStatus => "get_status"
  | .getOrders => "get_orders"
  | .getOverride => "get_override"
  | .putOverride _ => "put_override"
  | .getZones => "get_zones"
  | .patchZone _ _ => "patch_zone"
  | .getPlannings => "get_plannings"
  | .createPlanning _ => "create_planning"
  | .renamePlanning _ _ => "rename_planning"
  | .deletePlanning _ => "delete_planning"
  | .getPlanningSlots _ => "get_planning_slots"
  | .createSlot _ _ => "create_slot"
  | .patchSlot _ _ _ => "patch_slot"
  | .deleteSlot _ _ => "delete_slot"
  | .getAccounts => "get_accounts"
  | .createAccount _ => "create_account"
  | .deleteAccount _ => "delete_account"
  | .resetPassword _ _ => "reset_password"
  | .uploadFirmware _ => "upload_firmware"
  | .uploadCertificate _ => "upload_certificate"
  | .reboot => "reboot"
  | .getHardware => "get_hardware"
  | .getHardwareParameters _ => "get_hardware_parameters"
  | .applyHardware _ => "apply_hardware"

def root : String := "/ofp-api/v1"

def planningPath (id : PlanningId) : String := "/plannings/" ++ id.display

def slotPath (planning : PlanningId) (slot : SlotId) : String :=
  planningPath planning ++ "/slots/" ++ slot.display

def accountPath (id : AccountId) : String := "/accounts/" ++ id.text

/-- The path of an operation below the root; ids stand in it as they are. -/
def endpoint : Operation → String
  | .getStatus => "/status"
  | .getOrders => "/orders"
  | .getOverride | .putOverride _ => "/override"
  | .getZones => "/zones"
  | .patchZone id _ => "/zones/" ++ id.text
  | .getPlannings | .createPlanning _ => "/plannings"
  | .renamePlanning id _ | .deletePlanning id | .getPlanningSlots id => planningPath id
  | .createSlot planning _ => planningPath planning ++ "/slots"
  | .patchSlot planning slot _ | .deleteSlot planning slot => slotPath planning slot
  | .getAccounts | .createAccount _ => "/accounts"
  | .deleteAccount id | .resetPassword id _ => accountPath id
  | .uploadFirmware _ => "/upgrade"
  | .uploadCertificate _ => "/certificate"
  | .reboot => "/reboot"
  | .getHardware | .applyHardware _ => "/hardware"
  | .getHardwareParameters id => "/hardware/" ++ id.text ++ "/parameters"

end Operation
end HeatingControl
