import HeatingControl.Controller.Change
import HeatingControl.Controller.Operation

/-!
# Steps of the controller

Every call is one step at one moment. A reboot that is over is finished first; while a reboot is
under way, every call is turned away and changes nothing.
-/
namespace HeatingControl

/-- When a call is made: the instant, and the moment of the week that the clock shows. -/
structure Moment where
  now : Nat
  week : WeekTime
  deriving DecidableEq, Repr

/-- What is asked of the controller: an operation, or the creation of a record that is to be
answered with its number. -/
inductive Call where
  | operation (op : Operation)
  | addPlanning (name : PlanningName)
  | addSlot (planning : PlanningId) (slot : NewSlot)
  deriving DecidableEq, Repr

namespace Call

abbrev Answer : Call → Type
  | .operation op => op.Answer
  | .addPlanning _ => Planning
  | .addSlot _ _ => Slot

abbrev Result (c : Call) : Type := Except Error c.Answer

def verb : Call → Verb
  | .operation op => op.verb
  | .addPlanning _ | .addSlot _ _ => .post

def endpoint : Call → String
  | .operation op => op.endpoint
  | .addPlanning name => (Operation.createPlanning name).endpoint
  | .addSlot planning slot => (Operation.createSlot planning slot).endpoint

end Call

namespace State

def flashed (f : RunningFirmware) (app : AppDescriptor) : RunningFirmware :=
  { f with
    partition := if f.partition = "ota_0" then "ota_1" else "ota_0"
    name := app.projectName
    version := app.version
    compiledDate := app.date
    compiledTime := app.time
    frameworkVersion := app.frameworkVersion }

/-- Finishes a reboot that is over. -/
def boot (now : Nat) (s : State) : State :=
  match s.rebootingUntil with
  | none => s
  | some ending =>
    if now < ending then s
    else
      { s with
        rebootingUntil := none
        bootedAt := ending
        wifi := Seed.wifi
        firmware := (s.staged.map (flashed s.firmware)).getD s.firmware
        staged := none }

/-- Uptimes count from the last start. -/
def status (now : Nat) (s : State) : Status :=
  let system := UInt64.ofNat ((now - s.bootedAt) / 1000)
  { user := some ⟨"admin", "127.0.0.1"⟩
    uptime := ⟨system, { s.wifi with
      currentUptime := system
      cumulatedUptime := s.wifi.cumulatedUptime + system }⟩
    firmware := some s.firmware }

def waitPage (grace : Nat) : String :=
  "<!DOCTYPE html>\n<html lang=\"fr\">\n<head>\n<meta charset=\"utf-8\">\n" ++
  "<meta http-equiv=\"refresh\" content=\"" ++ Text.natText grace ++ ";url=/\">\n" ++
  "<title>OFP</title>\n</head>\n" ++
  "<body>\n<p>Redémarrage en cours, veuillez patienter...</p>\n</body>\n</html>\n"

def reboot (grace now : Nat) : Change String := fun s =>
  (.ok (waitPage grace), { s with rebootingUntil := some (now + grace * 1000) })

def read {α : Type} (f : State → α) : Change α := fun s => (.ok (f s), s)

def drop {α : Type} (c : Change α) : Change Unit := fun s =>
  let r := c s
  (r.1.map fun _ => (), r.2)

def perform (grace : Nat) (t : Moment) : (op : Operation) → Change op.Answer
  | .getStatus => read (status t.now)
  | .getOrders => read State.orders
  | .getOverride => read State.override
  | .putOverride value => putOverride value
  | .getZones => read fun s => s.currentZones t.week
  | .patchZone id patch => patchZone id patch
  | .getPlannings => read State.plannings
  | .createPlanning name => drop (createPlanning name)
  | .renamePlanning id name => renamePlanning id name
  | .deletePlanning id => deletePlanning id
  | .getPlanningSlots id => planningSlots id
  | .createSlot planning slot => drop (createSlot planning slot)
  | .patchSlot planning slot patch => patchSlot planning slot patch
  | .deleteSlot planning slot => deleteSlot planning slot
  | .getAccounts => read fun s => s.accounts.map (·.account)
  | .createAccount account => createAccount account
  | .deleteAccount id => deleteAccount id
  | .resetPassword id reset => resetPassword id reset
  | .uploadFirmware image => uploadFirmware image
  | .uploadCertificate bundle => uploadCertificate bundle
  | .reboot => reboot grace t.now
  | .getHardware => read State.hardware
  | .getHardwareParameters id => hardwareParameters id
  | .applyHardware settings => applyHardware settings

def performCall (grace : Nat) (t : Moment) : (c : Call) → Change c.Answer
  | .operation op => perform grace t op
  | .addPlanning name => createPlanning name
  | .addSlot planning slot => createSlot planning slot

def unavailable (c : Call) : Error := .http c.verb (Operation.root ++ c.endpoint) 503

def step (grace : Nat) (t : Moment) (c : Call) (s : State) : c.Result × State :=
  let s := s.boot t.now
  if s.rebootingUntil.isSome then (.error (unavailable c), s)
  else performCall grace t c s

end State
end HeatingControl
