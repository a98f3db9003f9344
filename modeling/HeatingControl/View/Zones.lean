import HeatingControl.Slot
import HeatingControl.View.Choice
import HeatingControl.Zone

/-!
# The zone section

A row per zone with the order in effect and a selector of modes: every order, then every
planning.
-/
namespace HeatingControl

structure ZoneRow where
  id : String
  description : String
  currentName : String
  currentColour : String
  modes : List Choice
  deriving DecidableEq, Repr

structure ZonesView where
  zones : List ZoneRow
  deriving DecidableEq, Repr

namespace ZonesView

def unknownOrder : String × String := ("?", "light")

def modes (orders : List Order) (plannings : List Planning) : List (ZoneMode × String) :=
  (orders.map fun o => (.fixed o.id, "Fixe: " ++ o.name)) ++
    plannings.map fun p => (.planning p.id, "Programmation: " ++ p.name)

def row (orders : List Order) (plannings : List Planning) (z : Zone) : ZoneRow :=
  let current := ((Order.find? orders z.current).map fun o => (o.name, o.colour)).getD unknownOrder
  { id := z.id.text
    description := z.description
    currentName := current.1
    currentColour := current.2
    modes := Choice.list (fun m => m.1.display) Prod.snd (some z.mode.display)
      (modes orders plannings) }

def render (orders : List Order) (zones : List Zone) (plannings : List Planning) : ZonesView :=
  ⟨zones.map (row orders plannings)⟩

end ZonesView
end HeatingControl
