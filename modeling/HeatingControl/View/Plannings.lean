import HeatingControl.Slot
import HeatingControl.View.Choice

/-!
# The planning list

Plannings sorted by name, then number, with the requested one selected, or the first when the
requested one is not listed.
-/
namespace HeatingControl

structure PlanningsView where
  plannings : List Choice
  selected : Option PlanningId
  deriving DecidableEq, Repr

namespace PlanningsView

def emptyMessage : String :=
  "En l'absence de créneaux, l'ordre par défaut (confort) est utilisé."

def notAfter (a b : Planning) : Bool :=
  a.name < b.name || (a.name = b.name && a.id.number ≤ b.id.number)

def sorted (plannings : List Planning) : List Planning := plannings.mergeSort notAfter

def selection (plannings : List Planning) (requested : Option PlanningId) : Option PlanningId :=
  (requested.filter fun id => plannings.any fun p => p.id = id).or
    (plannings.head?.map Planning.id)

def render (plannings : List Planning) (requested : Option PlanningId) : PlanningsView :=
  let plannings := sorted plannings
  let selected := selection plannings requested
  ⟨Choice.list (fun p => p.id.display) Planning.name (selected.map PlanningId.display) plannings,
    selected⟩

def isEmpty (v : PlanningsView) : Bool := v.plannings.isEmpty

end PlanningsView
end HeatingControl
