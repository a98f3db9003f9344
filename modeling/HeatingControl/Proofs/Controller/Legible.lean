import HeatingControl.Proofs.Controller.Integrity
import HeatingControl.Proofs.Wire.Texts
import HeatingControl.View.Slots

/-!
# Texts of what the controller keeps

Modes, overrides and slots are shown as texts, and every such text is read as what it was written
for, as all orders that are kept are known.
-/
namespace HeatingControl

namespace SlotInput

theorem number?_natText {n : Nat} (h : n < UInt8.size) :
    number? (Text.natText n) = some (UInt8.ofNat n) := by
  have hsize : UInt8.size = 256 := rfl
  have htrim : Text.trim (Text.natText n) = Text.natText n := by
    apply Text.trim_of_no_blank
    intro c hc
    rw [Text.natText_toList] at hc
    exact Text.isBlank_of_isDigit (Text.isDigit_of_mem_digits n c hc)
  have hread : Text.readNat (UInt8.size - 1) (Text.digits n) = .ok n :=
    Text.readNat_digits (by omega)
  rw [number?, htrim, Text.readUInt8, Text.natText_toList, hread]
  rfl

theorem parse?_ofSlot {x : Slot} (horder : Text.trim x.order.text = x.order.text)
    (hne : x.order.text ≠ "") (hhour : x.hour < 24) (hminute : x.minute < 60) :
    (ofSlot x).parse? = some ⟨x.day, x.hour, x.minute, x.order⟩ := by
  have hday : number? (Text.natText x.day.index) = some (UInt8.ofNat x.day.index) :=
    number?_natText (by cases x.day <;> decide)
  have hindex : DayOfWeek.ofIndex? (UInt8.ofNat x.day.index).toNat = some x.day := by
    cases x.day <;> rfl
  have hnumber (n : UInt8) : number? (Text.natText n.toNat) = some n := by
    rw [number?_natText n.toNat_lt, UInt8.ofNat_toNat]
  have hmake : NewSlot.make x.day x.hour x.minute x.order =
      .ok ⟨x.day, x.hour, x.minute, x.order⟩ := by
    rw [NewSlot.make, checkTime_ok_iff.mpr ⟨hhour, hminute⟩]
  simp only [parse?, ofSlot, hday, hindex, hnumber, horder, Option.bind_eq_bind, Option.bind_some,
    if_neg hne, hmake]

end SlotInput

namespace State

variable {s : State}

theorem exists_of_hasOrder {id : OrderId} (h : s.hasOrder id = true) :
    ∃ o ∈ s.orders, o.id = id := by
  rw [hasOrder, List.any_eq_true] at h
  obtain ⟨o, ho, hid⟩ := h
  exact ⟨o, ho, by simpa using hid⟩

theorem exists_of_hasPlanning {id : PlanningId} (h : s.hasPlanning id = true) :
    ∃ p ∈ s.plannings, p.id = id := by
  rw [hasPlanning, List.any_eq_true] at h
  obtain ⟨p, hp, hid⟩ := h
  exact ⟨p, hp, by simpa using hid⟩

theorem Integrity.order_canonical (hs : Integrity s) {id : OrderId} (h : s.hasOrder id = true) :
    ∃ o ∈ Order.canonical, o.id = id := by
  rw [← hs.orders_canonical]
  exact exists_of_hasOrder h

theorem Integrity.order_legible (hs : Integrity s) {id : OrderId} (h : s.hasOrder id = true) :
    Override.parse id.text = .order id ∧ (ZoneMode.fixed id).Written := by
  have hall : ∀ o ∈ Order.canonical, Override.parse o.id.text = .order o.id ∧
      o.id.text ≠ "" ∧ o.id.text.toList.all Text.isWordChar = true := by decide
  obtain ⟨o, ho, rfl⟩ := hs.order_canonical h
  exact hall o ho

theorem Integrity.override_legible (hs : Integrity s) :
    Override.parse s.override.display = s.override := by
  cases hover : s.override with
  | none => rfl
  | order id => exact (hs.order_legible (hs.override_known id hover)).1

theorem Integrity.mode_legible (hs : Integrity s) {m : ZoneMode} (h : s.ModeKnown m) :
    ZoneMode.parse m.display = .ok m := by
  refine ZoneMode.parse_display ?_
  cases m with
  | fixed order => exact (hs.order_legible h).2
  | planning id => trivial

theorem Integrity.slot_legible (hs : Integrity s) {x : Slot} (h : s.SlotValid x) :
    (SlotInput.ofSlot x).parse? = some ⟨x.day, x.hour, x.minute, x.order⟩ := by
  have hall : ∀ o ∈ Order.canonical, Text.trim o.id.text = o.id.text ∧ o.id.text ≠ "" := by decide
  obtain ⟨horder, hhour, hminute⟩ := h
  obtain ⟨o, ho, hid⟩ := hs.order_canonical horder
  obtain ⟨htrim, hne⟩ := hall o ho
  rw [hid] at htrim hne
  exact SlotInput.parse?_ofSlot htrim hne hhour hminute

end State
end HeatingControl
