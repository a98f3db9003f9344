import HeatingControl.Error
import HeatingControl.Ident

/-!
# Zones

A zone is heated by a fixed order or delegates to a planning. The mode is written
`:fixed:<order>` or `:planning:<number>`.
-/
namespace HeatingControl

inductive ZoneMode where
  | fixed (order : OrderId)
  | planning (id : PlanningId)
  deriving DecidableEq, Repr

namespace ZoneMode

def planning? : ZoneMode → Option PlanningId
  | .fixed _ => none
  | .planning id => some id

def display : ZoneMode → String
  | .fixed order => ":fixed:" ++ order.text
  | .planning id => ":planning:" ++ id.display

/-- An order is a word of ASCII letters and digits, a planning a number of 32 bits in digits
alone. -/
def read? (cs : List Char) : Option ZoneMode := do
  let (before, rest) ← Text.cutFirst ':' cs
  let (tag, value) ← Text.cutFirst ':' rest
  if before ≠ [] ∨ value = [] then none
  else if tag = "fixed".toList then
    if value.all Text.isWordChar then some (.fixed ⟨String.ofList value⟩) else none
  else if tag = "planning".toList then
    if value.all Text.isDigit then
      match Text.readNat (UInt32.size - 1) value with
      | .ok n => some (.planning ⟨UInt32.ofNat n⟩)
      | .error _ => none
    else none
  else none

def parse (s : String) : Except ValidationError ZoneMode :=
  match read? s.toList with
  | some mode => .ok mode
  | none => .error (.invalidZoneMode s)

end ZoneMode

structure Zone where
  id : ZoneId
  description : String
  mode : ZoneMode
  /-- The order in effect, as the controller computes it. -/
  current : OrderId
  deriving DecidableEq, Repr

/-- A change of a zone; what is absent stays. -/
structure ZonePatch where
  description : Option String
  mode : Option ZoneMode
  deriving DecidableEq, Repr

namespace ZonePatch

/-- Renames a zone; the description is trimmed and must not be blank. -/
def ofDescription (s : String) : Except ValidationError ZonePatch :=
  let s := Text.trim s
  if s = "" then .error .emptyName else .ok ⟨some s, none⟩

def ofMode (mode : ZoneMode) : ZonePatch := ⟨none, some mode⟩

def isEmpty (p : ZonePatch) : Bool := p.description.isNone && p.mode.isNone

end ZonePatch
end HeatingControl
