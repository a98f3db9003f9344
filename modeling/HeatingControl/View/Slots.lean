import HeatingControl.Slot
import HeatingControl.View.Choice

/-!
# The slots of a planning

A row of selectors per slot, in the order of the week, and one more row to add a slot. A row
keeps the values it was built from, so that a change can be told from what was merely sent back.
-/
namespace HeatingControl

structure SlotInput where
  day : String
  hour : String
  minute : String
  order : String
  deriving DecidableEq, Repr

namespace SlotInput

def number? (s : String) : Option UInt8 :=
  match Text.readUInt8 (Text.trim s) with
  | .ok n => some n
  | .error _ => none

def parse? (i : SlotInput) : Option NewSlot := do
  let index ← number? i.day
  let day ← DayOfWeek.ofIndex? index.toNat
  let hour ← number? i.hour
  let minute ← number? i.minute
  let order := Text.trim i.order
  if order = "" then none
  else match NewSlot.make day hour minute ⟨order⟩ with
    | .ok slot => some slot
    | .error _ => none

def ofSlot (s : Slot) : SlotInput :=
  ⟨Text.natText s.day.index, Text.natText s.hour.toNat, Text.natText s.minute.toNat,
    s.order.text⟩

end SlotInput

structure SlotRow where
  id : SlotId
  day : List Choice
  hour : List Choice
  minute : List Choice
  order : List Choice
  shown : SlotInput
  deriving DecidableEq, Repr

structure SlotsView where
  planning : PlanningId
  slots : List SlotRow
  addDay : List Choice
  addHour : List Choice
  addMinute : List Choice
  addOrder : List Choice
  deriving DecidableEq, Repr

namespace SlotsView

def row (orders : List Order) (s : Slot) : SlotRow :=
  { id := s.id
    day := Choice.days (some s.day)
    hour := Choice.hours (some s.hour)
    minute := Choice.minutes (some s.minute)
    order := Choice.orders orders (some s.order)
    shown := SlotInput.ofSlot s }

def render (planning : PlanningId) (slots : List Slot) (orders : List Order) : SlotsView :=
  { planning := planning
    slots := (sortSlots slots).map (row orders)
    addDay := Choice.days none
    addHour := Choice.hours none
    addMinute := Choice.minutes none
    addOrder := Choice.orders orders none }

end SlotsView
end HeatingControl
