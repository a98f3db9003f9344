import HeatingControl.Account
import HeatingControl.Certificate
import HeatingControl.Controller.Table
import HeatingControl.Firmware
import HeatingControl.Hardware
import HeatingControl.Order
import HeatingControl.Slot
import HeatingControl.Status
import HeatingControl.Zone

/-!
# The state of the controller

Everything the controller keeps, and the state it starts from: eight zones on two extension
boards, three plannings and three accounts.
-/
namespace HeatingControl

structure StoredAccount where
  account : Account
  password : String
  deriving DecidableEq, Repr

/-- Instants are in milliseconds. -/
structure State where
  bootedAt : Nat
  /-- When the reboot that is under way ends. -/
  rebootingUntil : Option Nat
  wifi : WifiStats
  firmware : RunningFirmware
  /-- The image that runs after the next reboot. -/
  staged : Option AppDescriptor
  certificates : Option CertificateBundle
  orders : List Order
  override : Override
  zones : List Zone
  plannings : List Planning
  slots : List (PlanningId × List Slot)
  accounts : List StoredAccount
  hardware : HardwareList
  parameters : List (HardwareId × List HardwareParameter)
  deriving DecidableEq, Repr

namespace Seed

def zone (id description : String) (mode : ZoneMode) : Zone :=
  let current := match mode with
    | .fixed order => order
    | .planning _ => ⟨"economy"⟩
  ⟨⟨id⟩, description, mode, current⟩

def zones : List Zone :=
  [zone "e1z1" "salon" (.planning ⟨0⟩),
   zone "e1z2" "chambre parents" (.fixed ⟨"nofreeze"⟩),
   zone "e1z3" "e1z3" (.fixed ⟨"economy"⟩),
   zone "e1z4" "bureau cecile" (.fixed ⟨"cozyminus2"⟩),
   zone "e2z1" "e2z1" (.fixed ⟨"cozyminus1"⟩),
   zone "e2z2" "e2z2" (.fixed ⟨"cozy"⟩),
   zone "e2z3" "salle de bain" (.planning ⟨1⟩),
   zone "e2z4" "inutilisé" (.fixed ⟨"offload"⟩)]

def plannings : List Planning :=
  [⟨⟨0⟩, "Pièces de vie"⟩, ⟨⟨1⟩, "Bureaux"⟩, ⟨⟨2⟩, "Chambres"⟩]

/-- A daily program on every day of the week. -/
def weekly (daily : List (UInt8 × String)) : List Slot :=
  (DayOfWeek.all.flatMap fun day => daily.map fun e => (day, e)).zipIdx.map fun p =>
    ⟨⟨UInt32.ofNat p.2⟩, p.1.1, p.1.2.1, 0, ⟨p.1.2.2⟩⟩

def slots : List (PlanningId × List Slot) :=
  [(⟨0⟩, weekly [(0, "nofreeze"), (5, "economy"), (7, "cozy"), (9, "economy"), (17, "cozy"),
      (21, "nofreeze")]),
   (⟨1⟩, weekly [(0, "economy"), (17, "cozy")]),
   (⟨2⟩, weekly [(0, "cozy"), (9, "economy"), (10, "nofreeze")])]

def accounts : List StoredAccount :=
  [⟨⟨⟨"admin"⟩, .admin⟩, "admin"⟩, ⟨⟨⟨"nico"⟩, .user⟩, "user"⟩, ⟨⟨⟨"cecile"⟩, .user⟩, "user"⟩]

def hardware : HardwareList :=
  ⟨some ⟨"M1E1"⟩,
    [⟨⟨"ESP32"⟩, "modules ou DevKit seul"⟩,
     ⟨⟨"M1E1"⟩, "DevKit NodeMCU 30 pin + OFP M1 + OFP E1"⟩,
     ⟨⟨"OFP-10Z"⟩, "Carte 10 zones avec afficheur et bouton"⟩]⟩

def parameters : List (HardwareId × List HardwareParameter) :=
  [(⟨"ESP32"⟩, []),
   (⟨"M1E1"⟩, [⟨"ext_count", "Nombre de cartes d'extension E1", .number, .integer 3⟩]),
   (⟨"OFP-10Z"⟩, [⟨"dummy1", "dummy number", .number, .integer 69⟩,
     ⟨"dummy2", "dummy string", .string, .text "blah"⟩])]

def wifi : WifiStats := ⟨0, 0, 3, 4, 2⟩

def firmware : RunningFirmware :=
  ⟨"ota_0", 1572864, "ofp", "0.1.0", "Jan  1 2024", "12:00:00", "v5.1"⟩

end Seed

def State.seeded (now : Nat) : State :=
  { bootedAt := now
    rebootingUntil := none
    wifi := Seed.wifi
    firmware := Seed.firmware
    staged := none
    certificates := none
    orders := Order.canonical
    override := .order ⟨"cozyminus1"⟩
    zones := Seed.zones
    plannings := Seed.plannings
    slots := Seed.slots
    accounts := Seed.accounts
    hardware := Seed.hardware
    parameters := Seed.parameters }

end HeatingControl
