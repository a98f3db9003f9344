import HeatingControl.Ident

/-!
# Heating orders and the override

The instruction levels a zone can be driven with, in the order in which the firmware lists them.
An override is either nothing, or one order forced on every zone.
-/
namespace HeatingControl

structure Order where
  id : OrderId
  name : String
  colour : String
  deriving DecidableEq, Repr

namespace Order

/-- The order in effect where neither a fixed order nor a slot gives one. -/
def fallback : OrderId := ⟨"cozy"⟩

def canonical : List Order :=
  [⟨⟨"offload"⟩, "Arrêt / Délestage", "secondary"⟩,
   ⟨⟨"nofreeze"⟩, "Hors-gel", "info"⟩,
   ⟨⟨"economy"⟩, "Economie", "success"⟩,
   ⟨⟨"cozyminus1"⟩, "Confort-1°", "warning"⟩,
   ⟨⟨"cozyminus2"⟩, "Confort-2°", "warning"⟩,
   ⟨⟨"cozy"⟩, "Confort", "danger"⟩]

def firmwareIndex? (id : OrderId) : Option Nat :=
  if id.text = "offload" then some 0
  else if id.text = "nofreeze" then some 1
  else if id.text = "economy" then some 2
  else if id.text = "cozy" then some 3
  else if id.text = "cozyminus2" then some 4
  else if id.text = "cozyminus1" then some 5
  else none

def find? (orders : List Order) (id : OrderId) : Option Order := orders.find? fun o => o.id = id

end Order

inductive Override where
  | none
  | order (id : OrderId)
  deriving DecidableEq, Repr

namespace Override

def noneText : String := "none"

/-- A blank text means no override too. -/
def parse (s : String) : Override :=
  let s := Text.trim s
  if s = noneText ∨ s = "" then .none else .order ⟨s⟩

def order? : Override → Option OrderId
  | .none => Option.none
  | .order id => some id

def display : Override → String
  | .none => noneText
  | .order id => id.text

end Override
end HeatingControl
