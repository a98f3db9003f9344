import HeatingControl.Text.Numeral

/-!
# Identifiers and capacities

Zones, orders, accounts and boards are named by short texts; plannings and their slots are
numbered. There is room for so many records of each kind.
-/
namespace HeatingControl

structure ZoneId where
  text : String
  deriving DecidableEq, Repr, Inhabited

structure OrderId where
  text : String
  deriving DecidableEq, Repr, Inhabited

structure AccountId where
  text : String
  deriving DecidableEq, Repr, Inhabited

structure HardwareId where
  text : String
  deriving DecidableEq, Repr, Inhabited

structure PlanningId where
  number : UInt32
  deriving DecidableEq, Repr, Inhabited

structure SlotId where
  number : UInt32
  deriving DecidableEq, Repr, Inhabited

/-- Text ids are ordered by their code points. -/
def ZoneId.order (a b : ZoneId) : Ordering := compare a.text b.text

def PlanningId.display (id : PlanningId) : String := Text.natText id.number.toNat

def SlotId.display (id : SlotId) : String := Text.natText id.number.toNat

/-- A planning number as a user writes it, blanks around it allowed. -/
def PlanningId.parse (s : String) : Except Text.NumeralFault PlanningId :=
  (Text.readUInt32 (Text.trim s)).map PlanningId.mk

def SlotId.parse (s : String) : Except Text.NumeralFault SlotId :=
  (Text.readUInt32 (Text.trim s)).map SlotId.mk

namespace Limits

def accounts : Nat := 16
def zones : Nat := 64
def plannings : Nat := 32
def slotsPerPlanning : Nat := 64

def accountIdLength : Nat := 15

end Limits
end HeatingControl
