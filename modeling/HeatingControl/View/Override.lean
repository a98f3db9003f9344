import HeatingControl.Order

/-!
# The override section

One option for no override and one per order; the first with the current value is checked.
-/
namespace HeatingControl

structure OverrideOption where
  value : String
  name : String
  colour : String
  checked : Bool
  deriving DecidableEq, Repr

structure OverrideView where
  options : List OverrideOption
  deriving DecidableEq, Repr

namespace OverrideView

def noneLabel : String := "Aucun forçage"

def unchecked (orders : List Order) : List OverrideOption :=
  ⟨Override.noneText, noneLabel, "primary", false⟩ ::
    orders.map fun o => ⟨o.id.text, o.name, o.colour, false⟩

def check (value : String) : List OverrideOption → List OverrideOption
  | [] => []
  | o :: rest =>
    if o.value = value then { o with checked := true } :: rest else o :: check value rest

def render (current : Override) (orders : List Order) : OverrideView :=
  ⟨check current.display (unchecked orders)⟩

end OverrideView
end HeatingControl
