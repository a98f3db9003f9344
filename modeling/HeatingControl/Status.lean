import HeatingControl.Text.Numeral

/-!
# Status report

The counters and identities that the controller reports, and the texts they are shown with.
-/
namespace HeatingControl

structure ConnectedUser where
  id : String
  sourceAddress : String
  deriving DecidableEq, Repr

structure WifiStats where
  currentUptime : UInt64
  cumulatedUptime : UInt64
  successes : UInt64
  attempts : UInt64
  disconnects : UInt64
  deriving DecidableEq, Repr

/-- Uptimes are in seconds. -/
structure Uptime where
  system : UInt64
  wifi : WifiStats
  deriving DecidableEq, Repr

structure RunningFirmware where
  partition : String
  partitionSize : UInt64
  name : String
  version : String
  compiledDate : String
  compiledTime : String
  frameworkVersion : String
  deriving DecidableEq, Repr

structure Status where
  user : Option ConnectedUser
  uptime : Uptime
  firmware : Option RunningFirmware
  deriving DecidableEq, Repr

/-- A duration in days, hours, minutes and seconds. Units that lead with zero are left out, the
seconds never are. -/
def durationText (seconds : Nat) : String :=
  let days := seconds / 86400
  let hours := seconds % 86400 / 3600
  let minutes := seconds % 3600 / 60
  let dayPart := if days > 0 then Text.natText days ++ "j " else ""
  let hourPart := if days > 0 ∨ hours > 0 then Text.natText hours ++ "h " else ""
  let minutePart :=
    if days > 0 ∨ hours > 0 ∨ minutes > 0 then Text.natText minutes ++ "m " else ""
  dayPart ++ hourPart ++ minutePart ++ Text.natText (seconds % 60) ++ "s"

def counterMax : Nat := UInt64.size - 1

/-- The percentage rounded down, zero of nothing. The product with 100 stops at the greatest
counter value. -/
def percent (part whole : UInt64) : Nat :=
  if whole = 0 then 0 else min (part.toNat * 100) counterMax / whole.toNat

end HeatingControl
