import HeatingControl.Dashboard.Section

/-!
# The main page

Every section is loaded; one that fails is left out and its failure is shown among the errors.
-/
namespace HeatingControl.Dashboard

structure Selection where
  planning : Option PlanningId
  hardware : Option HardwareId
  deriving DecidableEq, Repr

structure Page where
  status : Option StatusView
  override : Option OverrideView
  zones : Option ZonesView
  plannings : Option PlanningsView
  slots : Option SlotsView
  accounts : Option AccountsView
  hardware : Option HardwareView
  /-- Whether the administrator is listed. -/
  admin : Bool
  errors : List String
  deriving DecidableEq, Repr

structure ZonePage where
  zones : Option ZonesView
  errors : List String
  deriving DecidableEq, Repr

def settle {α : Type} (r : Except Error α) : Task (Option α) :=
  match r with
  | .ok v => return some v
  | .error e => do
    perform (.note e.message)
    return none

def loadSelectedSlots (list : Except Error PlanningsView) :
    Task (Option (Except Error SlotsView)) :=
  match list.toOption.bind (·.selected) with
  | none => return none
  | some id => do return some (← (loadSlots id).run)

def settleSome {α : Type} (r : Option (Except Error α)) : Task (Option α) :=
  match r with
  | none => return none
  | some r => settle r

def publishSome : Option ZonesView → Task Unit
  | none => return ()
  | some view => perform (.publish view)

def bootstrap (selection : Selection) : Task Page := do
  let status ← loadStatus.run
  let override ← loadOverride.run
  let zones ← loadZones.run
  let plannings ← (loadPlannings selection.planning).run
  let slots ← loadSelectedSlots plannings
  let accounts ← loadAccounts.run
  let hardware ← (loadHardware selection.hardware).run
  let zones ← settle zones
  publishSome zones
  let accounts ← settle accounts
  let status ← settle status
  let override ← settle override
  let plannings ← settle plannings
  let slots ← settleSome slots
  let hardware ← settle hardware
  let errors ← perform .drain
  return {
    status, override, zones, plannings, slots, accounts, hardware, errors
    admin := (accounts.map (·.admin)).getD false }

/-- The latest zone section, fetched first when there is none. -/
def zonePage : Task ZonePage := do
  if (← perform .latest).isNone then refreshNow
  let zones ← perform .latest
  let errors ← perform .drain
  return ⟨zones, errors⟩

end HeatingControl.Dashboard
