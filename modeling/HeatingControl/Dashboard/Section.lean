import HeatingControl.Dashboard.Effect
import HeatingControl.View.Administration
import HeatingControl.View.Override
import HeatingControl.View.Plannings
import HeatingControl.View.Slots
import HeatingControl.View.Status

/-!
# Sections of the page

What each section asks of the controller, in which order, and the view it makes of the answers.
A section fails with the first question that fails.
-/
namespace HeatingControl.Dashboard

def loadStatus : Load StatusView := do
  let status ← call .getStatus
  return StatusView.render status

def loadOverride : Load OverrideView := do
  let current ← call .getOverride
  let orders ← call .getOrders
  return OverrideView.render current orders

def loadZones : Load ZonesView := do
  let orders ← call .getOrders
  let zones ← call .getZones
  let plannings ← call .getPlannings
  return ZonesView.render orders zones plannings

def loadPlannings (requested : Option PlanningId) : Load PlanningsView := do
  let plannings ← call .getPlannings
  return PlanningsView.render plannings requested

def loadSlots (planning : PlanningId) : Load SlotsView := do
  let slots ← call (.getPlanningSlots planning)
  let orders ← call .getOrders
  return SlotsView.render planning slots orders

def loadAccounts : Load AccountsView := do
  let accounts ← call .getAccounts
  return AccountsView.render accounts

/-- Without a selected board there are no parameters to ask for. -/
def loadHardware (requested : Option HardwareId) : Load HardwareView := do
  let list ← call .getHardware
  match HardwareView.selection list requested with
  | none => return HardwareView.render list none []
  | some id =>
    let parameters ← call (.getHardwareParameters id)
    return HardwareView.render list (some id) parameters

/-- Fetches the zone section anew. When that fails, the latest one stays and the failure is
noted. -/
def refreshNow : Task Unit := do
  match ← loadZones.run with
  | .ok view => perform (.publish view)
  | .error e => perform (.note e.message)

/-- A periodic refresh; it is dropped, and answers so, while another one is in progress. -/
def tick : Task Bool := do
  if ← perform .claim then
    refreshNow
    perform .release
    return true
  else return false

end HeatingControl.Dashboard
