import HeatingControl.Ident
import HeatingControl.Week

/-!
# Plannings and their slots

A planning is a named weekly schedule. A slot of it applies an order from its day, hour and minute
on. At any moment the latest slot is in force; before the first slot of the week it is the last
one of the week before.
-/
namespace HeatingControl

structure Planning where
  id : PlanningId
  name : String
  deriving DecidableEq, Repr

structure PlanningName where
  name : String
  deriving DecidableEq, Repr

def PlanningName.make (s : String) : Except ValidationError PlanningName :=
  let s := Text.trim s
  if s = "" then .error .emptyName else .ok ⟨s⟩

structure Slot where
  id : SlotId
  day : DayOfWeek
  hour : UInt8
  minute : UInt8
  order : OrderId
  deriving DecidableEq, Repr

def Slot.start (s : Slot) : Nat := minuteOfWeek s.day s.hour s.minute

def checkTime (hour minute : UInt8) : Except ValidationError Unit :=
  if hour > 23 then .error (.invalidHour hour)
  else if minute > 59 then .error (.invalidMinute minute)
  else .ok ()

theorem checkTime_ok_iff {hour minute : UInt8} :
    checkTime hour minute = .ok () ↔ hour < 24 ∧ minute < 60 := by
  have hh : hour > 23 ↔ ¬ hour < 24 := by
    simp only [gt_iff_lt, UInt8.lt_iff_toNat_lt]
    change 23 < hour.toNat ↔ ¬ hour.toNat < 24
    omega
  have hm : minute > 59 ↔ ¬ minute < 60 := by
    simp only [gt_iff_lt, UInt8.lt_iff_toNat_lt]
    change 59 < minute.toNat ↔ ¬ minute.toNat < 60
    omega
  by_cases h : hour < 24 <;> by_cases k : minute < 60 <;> simp [checkTime, hh, hm, h, k]

structure NewSlot where
  day : DayOfWeek
  hour : UInt8
  minute : UInt8
  order : OrderId
  deriving DecidableEq, Repr

namespace NewSlot

def validate (s : NewSlot) : Except ValidationError Unit := checkTime s.hour s.minute

def make (day : DayOfWeek) (hour minute : UInt8) (order : OrderId) :
    Except ValidationError NewSlot :=
  match checkTime hour minute with
  | .ok () => .ok ⟨day, hour, minute, order⟩
  | .error e => .error e

def toSlot (s : NewSlot) (id : SlotId) : Slot := ⟨id, s.day, s.hour, s.minute, s.order⟩

end NewSlot

/-- A change of a slot; what is absent stays. -/
structure SlotPatch where
  day : Option DayOfWeek
  hour : Option UInt8
  minute : Option UInt8
  order : Option OrderId
  deriving DecidableEq, Repr

namespace SlotPatch

def change {α : Type} [DecidableEq α] (before after : α) : Option α :=
  if before = after then none else some after

def diff (before after : NewSlot) : SlotPatch :=
  ⟨change before.day after.day, change before.hour after.hour,
    change before.minute after.minute, change before.order after.order⟩

def isEmpty (p : SlotPatch) : Bool :=
  p.day.isNone && p.hour.isNone && p.minute.isNone && p.order.isNone

def apply (p : SlotPatch) (s : Slot) : Except ValidationError Slot :=
  let hour := p.hour.getD s.hour
  let minute := p.minute.getD s.minute
  match checkTime hour minute with
  | .ok () => .ok ⟨s.id, p.day.getD s.day, hour, minute, p.order.getD s.order⟩
  | .error e => .error e

/-- An accepted patch keeps the id, takes the order from the patch or from the slot, and leaves a
time in range. -/
theorem apply_ok {p : SlotPatch} {s u : Slot} (h : p.apply s = .ok u) :
    u.id = s.id ∧ u.order = p.order.getD s.order ∧ u.hour < 24 ∧ u.minute < 60 := by
  simp only [apply] at h
  split at h
  · rename_i htime
    cases h
    exact ⟨rfl, rfl, checkTime_ok_iff.mp htime⟩
  · cases h

end SlotPatch

/-- Slots start in this order; of slots that start together the smaller id comes first. -/
def Slot.notAfter (a b : Slot) : Bool :=
  a.start < b.start || (a.start = b.start && a.id.number ≤ b.id.number)

def sortSlots (slots : List Slot) : List Slot := slots.mergeSort Slot.notAfter

/-- The later of two slots, the second where they are equal. -/
def Slot.later (a b : Slot) : Slot := if a.notAfter b then b else a

def latestSlot? : List Slot → Option Slot
  | [] => none
  | s :: rest => some (rest.foldl Slot.later s)

/-- The order in effect at a moment; none for a planning without slots. -/
def activeOrder? (slots : List Slot) (t : WeekTime) : Option OrderId :=
  let started := slots.filter fun s => s.start ≤ t.minutes
  ((latestSlot? started).or (latestSlot? slots)).map (·.order)

theorem latestSlot?_mem {slots : List Slot} {x : Slot} (h : latestSlot? slots = some x) :
    x ∈ slots := by
  have later_mem (l : List Slot) : ∀ s, l.foldl Slot.later s ∈ s :: l := by
    induction l with
    | nil => simp
    | cons a l ih =>
      intro s
      have hm := ih (s.later a)
      by_cases ha : s.notAfter a = true
      · rw [Slot.later, if_pos ha] at hm
        simpa [Slot.later, ha] using Or.inr (List.mem_cons.mp hm)
      · rw [Slot.later, if_neg ha] at hm
        simpa [Slot.later, ha] using (List.mem_cons.mp hm).imp_right Or.inr
  cases slots with
  | nil => simp [latestSlot?] at h
  | cons s rest => exact Option.some.inj h ▸ later_mem rest s

/-- The order in effect is the order of a slot. -/
theorem activeOrder?_mem {slots : List Slot} {t : WeekTime} {o : OrderId}
    (h : activeOrder? slots t = some o) : ∃ x ∈ slots, x.order = o := by
  obtain ⟨x, hx, rfl⟩ := Option.map_eq_some_iff.mp h
  refine ⟨x, ?_, rfl⟩
  rcases Option.or_eq_some_iff.mp hx with hx | ⟨_, hx⟩
  · exact (List.mem_filter.mp (latestSlot?_mem hx)).1
  · exact latestSlot?_mem hx

end HeatingControl
