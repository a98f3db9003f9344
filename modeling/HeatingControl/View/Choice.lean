import HeatingControl.Order
import HeatingControl.Week

/-!
# Option lists

An option list keeps its records in their order and marks the first one that has the wanted
value, so that never more than one is marked.
-/
namespace HeatingControl

structure Choice where
  value : String
  label : String
  selected : Bool
  deriving DecidableEq, Repr

namespace Choice

variable {α : Type}

def list (value label : α → String) : Option String → List α → List Choice
  | _, [] => []
  | wanted, r :: rest =>
    if wanted = some (value r) then ⟨value r, label r, true⟩ :: list value label none rest
    else ⟨value r, label r, false⟩ :: list value label wanted rest

def days (selected : Option DayOfWeek) : List Choice :=
  list (fun d => Text.natText d.index) DayOfWeek.label
    (selected.map fun d => Text.natText d.index) DayOfWeek.all

def numbers (count : Nat) (unit : String) (selected : Option UInt8) : List Choice :=
  list Text.natText (fun n => Text.twoDigits n ++ unit)
    (selected.map fun n => Text.natText n.toNat) (List.range count)

def hours (selected : Option UInt8) : List Choice := numbers 24 "h" selected

def minutes (selected : Option UInt8) : List Choice := numbers 60 "m" selected

def orders (orders : List Order) (selected : Option OrderId) : List Choice :=
  list (fun o => o.id.text) Order.name (selected.map OrderId.text) orders

end Choice
end HeatingControl
