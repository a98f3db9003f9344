import HeatingControl.Proofs.Slot.Sorted
import HeatingControl.Proofs.View.Choice

/-!
# Rows of slots

Slots are shown in the order of the week. A slot that comes in, at whatever place it is stored,
gets a row of its own, and the rows of the others stay as they are and in their order.
-/
namespace HeatingControl

/-- One option of each list makes up the fields. -/
structure SlotInput.From (day hour minute order : List Choice) (i : SlotInput) : Prop where
  day : ∃ c ∈ day, c.value = i.day
  hour : ∃ c ∈ hour, c.value = i.hour
  minute : ∃ c ∈ minute, c.value = i.minute
  order : ∃ c ∈ order, c.value = i.order

def SlotsView.Offers (v : SlotsView) (i : SlotInput) : Prop :=
  i.From v.addDay v.addHour v.addMinute v.addOrder

namespace SlotRow

def Offers (r : SlotRow) (i : SlotInput) : Prop := i.From r.day r.hour r.minute r.order

def Selects (r : SlotRow) (i : SlotInput) : Prop :=
  ∃ day hour minute order, r.day.filter (·.selected) = [day] ∧
    r.hour.filter (·.selected) = [hour] ∧ r.minute.filter (·.selected) = [minute] ∧
    r.order.filter (·.selected) = [order] ∧
    (⟨day.value, hour.value, minute.value, order.value⟩ : SlotInput) = i

end SlotRow

/-- The fields of a slot that can be stored. -/
structure SlotInput.Writes (orders : List Order) (i : SlotInput) (n : NewSlot) : Prop where
  hour : n.hour < 24
  minute : n.minute < 60
  order : ∃ o ∈ orders, o.id = n.order
  fields : ∀ id, i = ofSlot (n.toSlot id)

/-- Whatever is selected, the options offer the fields of slots that can be stored. -/
theorem SlotInput.From.exists_slot {orders : List Order} {day : Option DayOfWeek}
    {hour minute : Option UInt8} {order : Option OrderId} {i : SlotInput}
    (h : i.From (Choice.days day) (Choice.hours hour) (Choice.minutes minute)
      (Choice.orders orders order)) : ∃ n, i.Writes orders n := by
  obtain ⟨⟨dayOption, hday, hdayText⟩, ⟨hourOption, hhour, hhourText⟩,
    ⟨minuteOption, hminute, hminuteText⟩, ⟨orderOption, horder, horderText⟩⟩ := h
  obtain ⟨d, -, hd⟩ := Choice.value_of_mem hday
  obtain ⟨n, hn, hnText⟩ := Choice.number_of_mem (by decide) hhour
  obtain ⟨k, hk, hkText⟩ := Choice.number_of_mem (by decide) hminute
  obtain ⟨o, ho, hoText⟩ := Choice.value_of_mem horder
  refine ⟨⟨d, n, k, o.id⟩, UInt8.lt_iff_toNat_lt.mpr hn, UInt8.lt_iff_toNat_lt.mpr hk,
    ⟨o, ho, rfl⟩, ?_⟩
  intro id
  rw [hd] at hdayText
  rw [hnText] at hhourText
  rw [hkText] at hminuteText
  rw [hoText] at horderText
  cases i
  simp only [ofSlot, NewSlot.toSlot, hdayText, hhourText, hminuteText, horderText]

theorem SlotsView.exists_slot {planning : PlanningId} {slots : List Slot} {orders : List Order}
    {i : SlotInput} (h : (render planning slots orders).Offers i) : ∃ n, i.Writes orders n := by
  have hfrom : i.From (Choice.days none) (Choice.hours none) (Choice.minutes none)
      (Choice.orders orders none) := h
  exact hfrom.exists_slot

theorem SlotRow.exists_slot {orders : List Order} {x : Slot} {i : SlotInput}
    (h : (SlotsView.row orders x).Offers i) : ∃ n, i.Writes orders n := by
  have hfrom : i.From (Choice.days (some x.day)) (Choice.hours (some x.hour))
      (Choice.minutes (some x.minute)) (Choice.orders orders (some x.order)) := h
  exact hfrom.exists_slot

theorem SlotInput.Writes.selected {orders : List Order} {i : SlotInput} {n : NewSlot}
    (h : i.Writes orders n) (id : SlotId) :
    (SlotsView.row orders (n.toSlot id)).Selects i := by
  obtain ⟨o, ho, hid⟩ := h.order
  rw [h.fields id]
  exact SlotsView.marked_row (x := n.toSlot id) ho hid h.hour h.minute

namespace SlotsView

/-- A row comes in among the rows of a planning, which stay as they are. -/
structure Gains (v v' : SlotsView) (row : SlotRow) : Prop where
  planning : v'.planning = v.planning
  rows : ∃ front back, v.slots = front ++ back ∧ v'.slots = front ++ row :: back

/-- A row is replaced, and may have moved; the others stay as they are. -/
structure Replaces (v v' : SlotsView) (row row' : SlotRow) : Prop where
  planning : v'.planning = v.planning
  id : row'.id = row.id
  rows : ∃ front back front' back', v.slots = front ++ row :: back ∧
    v'.slots = front' ++ row' :: back' ∧ front ++ back = front' ++ back'

theorem render_gains (planning : PlanningId) (orders : List Order) (l r : List Slot) (x : Slot) :
    (render planning (l ++ r) orders).Gains (render planning (l ++ x :: r) orders)
      (row orders x) := by
  obtain ⟨front, back, hwith, hwithout⟩ := sortSlots_insert x l r
  refine ⟨rfl, front.map (row orders), back.map (row orders), ?_, ?_⟩
  · simp only [render, hwithout, List.map_append]
  · simp only [render, hwith, List.map_append, List.map_cons]

theorem render_replaces (planning : PlanningId) (orders : List Order) (l r : List Slot)
    {x y : Slot} (h : y.id = x.id) :
    (render planning (l ++ x :: r) orders).Replaces (render planning (l ++ y :: r) orders)
      (row orders x) (row orders y) := by
  obtain ⟨front, back, hwith, hwithout⟩ := sortSlots_insert x l r
  obtain ⟨front', back', hwith', hwithout'⟩ := sortSlots_insert y l r
  have hothers : front ++ back = front' ++ back' := hwithout.symm.trans hwithout'
  refine ⟨rfl, h, front.map (row orders), back.map (row orders), front'.map (row orders),
    back'.map (row orders), ?_, ?_, ?_⟩
  · simp only [render, hwith, List.map_append, List.map_cons]
  · simp only [render, hwith', List.map_append, List.map_cons]
  · simp only [← List.map_append, hothers]

end SlotsView
end HeatingControl
