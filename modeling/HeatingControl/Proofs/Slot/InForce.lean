import HeatingControl.Slot
import Mathlib.Data.List.Nodup

/-!
# The slot in force

The week is a circle. In force is the slot that started the fewest minutes ago, however the slots
are listed; of slots that start together it is the one with the greatest id.
-/
namespace HeatingControl

def minutesPerWeek : Nat := 7 * 24 * 60

theorem minuteOfWeek_lt (day : DayOfWeek) {hour minute : UInt8} (hhour : hour < 24)
    (hminute : minute < 60) : minuteOfWeek day hour minute < minutesPerWeek := by
  have hday : day.index ≤ 6 := by cases day <;> decide
  have hhour : hour.toNat < 24 := hhour
  have hminute : minute.toNat < 60 := hminute
  unfold minuteOfWeek minutesPerWeek
  omega

namespace Slot

theorem notAfter_iff {a b : Slot} : a.notAfter b = true ↔
    a.start < b.start ∨ a.start = b.start ∧ a.id.number.toNat ≤ b.id.number.toNat := by
  simp [notAfter, UInt32.le_iff_toNat_le]

theorem notAfter_trans (a b c : Slot) (hab : a.notAfter b = true) (hbc : b.notAfter c = true) :
    a.notAfter c = true := by
  rw [notAfter_iff] at *
  omega

theorem notAfter_total (a b : Slot) : (a.notAfter b || b.notAfter a) = true := by
  rw [Bool.or_eq_true, notAfter_iff, notAfter_iff]
  omega

theorem notAfter_later (a b : Slot) :
    a.notAfter (a.later b) = true ∧ b.notAfter (a.later b) = true := by
  have htotal := notAfter_total a b
  by_cases hab : a.notAfter b = true
  · rw [later, if_pos hab]
    exact ⟨hab, notAfter_iff.mpr (Or.inr ⟨rfl, Nat.le_refl _⟩)⟩
  · rw [later, if_neg hab]
    refine ⟨notAfter_iff.mpr (Or.inr ⟨rfl, Nat.le_refl _⟩), ?_⟩
    simpa [hab] using htotal

/-- Minutes since the slot has started last, around the week. Both moments are counted in minutes
from Sunday 00:00. -/
def elapsed (x : Slot) (t : WeekTime) : Int :=
  let now : Nat := t.day.index * 24 * 60 + t.hour.toNat * 60 + t.minute.toNat
  let start : Nat := x.day.index * 24 * 60 + x.hour.toNat * 60 + x.minute.toNat
  ((now : Int) - start) % (7 * 24 * 60)

theorem elapsed_eq (x : Slot) (t : WeekTime) :
    x.elapsed t = ((t.minutes : Int) - x.start) % minutesPerWeek := rfl

/-- No slot of the list started fewer minutes ago, and none that started together with this one
has a greater id. -/
structure InForce (slots : List Slot) (t : WeekTime) (x : Slot) : Prop where
  mem : x ∈ slots
  latest : ∀ y ∈ slots,
    x.elapsed t < y.elapsed t ∨ x.elapsed t = y.elapsed t ∧ y.id.number ≤ x.id.number

theorem InForce.perm {slots slots' : List Slot} {t : WeekTime} {x : Slot} (h : InForce slots t x)
    (hperm : slots.Perm slots') : InForce slots' t x :=
  ⟨hperm.mem_iff.mp h.mem, fun y hy => h.latest y (hperm.mem_iff.mpr hy)⟩

theorem InForce.unique {slots : List Slot} {t : WeekTime} {x y : Slot}
    (hids : (slots.map (·.id)).Nodup) (hx : InForce slots t x) (hy : InForce slots t y) :
    x = y := by
  refine List.inj_on_of_nodup_map hids hx.mem hy.mem ?_
  rcases hx.latest y hy.mem with hxy | ⟨hsame, hid⟩
  · rcases hy.latest x hx.mem with hyx | ⟨hsame, -⟩
    · omega
    · omega
  · rcases hy.latest x hx.mem with hyx | ⟨-, hid'⟩
    · omega
    · exact congrArg SlotId.mk (UInt32.le_antisymm hid' hid)

end Slot

theorem latestSlot?_eq_none_iff {slots : List Slot} : latestSlot? slots = none ↔ slots = [] := by
  cases slots with
  | nil => simp [latestSlot?]
  | cons s rest => simp [latestSlot?]

theorem notAfter_latest {slots : List Slot} {x : Slot} (h : latestSlot? slots = some x) :
    ∀ y ∈ slots, y.notAfter x = true := by
  have hfold : ∀ (l : List Slot) (s : Slot), ∀ y ∈ s :: l,
      y.notAfter (l.foldl Slot.later s) = true := by
    intro l
    induction l with
    | nil =>
      intro s y hy
      rw [List.mem_singleton.mp hy]
      exact Slot.notAfter_iff.mpr (Or.inr ⟨rfl, Nat.le_refl _⟩)
    | cons a l ih =>
      intro s y hy
      have hlater := ih (s.later a) _ (List.mem_cons_self ..)
      obtain ⟨hs, ha⟩ := Slot.notAfter_later s a
      rcases List.mem_cons.mp hy with rfl | hy
      · exact Slot.notAfter_trans _ _ _ hs hlater
      · rcases List.mem_cons.mp hy with rfl | hy
        · exact Slot.notAfter_trans _ _ _ ha hlater
        · exact ih _ y (List.mem_cons_of_mem _ hy)
  cases slots with
  | nil => cases h
  | cons s rest => exact Option.some.inj h ▸ hfold rest s

theorem activeOrder?_eq_none_iff {slots : List Slot} {t : WeekTime} :
    activeOrder? slots t = none ↔ slots = [] := by
  simp only [activeOrder?, Option.map_eq_none_iff, Option.or_eq_none_iff, latestSlot?_eq_none_iff]
  constructor
  · rintro ⟨-, h⟩
    exact h
  · rintro rfl
    exact ⟨rfl, rfl⟩

section Circle

variable {slots : List Slot} {t : WeekTime}
  (htimes : ∀ x ∈ slots, x.hour < 24 ∧ x.minute < 60) (hhour : t.hour < 24)
  (hminute : t.minute < 60)

include htimes hhour hminute

/-- A slot that has not started this week has started in the week before. -/
theorem elapsed_of_mem {x : Slot} (hx : x ∈ slots) :
    x.elapsed t = if x.start ≤ t.minutes then (t.minutes : Int) - x.start
      else (t.minutes : Int) - x.start + minutesPerWeek := by
  have hstart : x.start < minutesPerWeek := minuteOfWeek_lt _ (htimes x hx).1 (htimes x hx).2
  have hnow : t.minutes < minutesPerWeek := minuteOfWeek_lt _ hhour hminute
  rw [Slot.elapsed_eq]
  split
  · exact Int.emod_eq_of_lt (by omega) (by omega)
  · rw [← Int.add_emod_right]
    exact Int.emod_eq_of_lt (by omega) (by omega)

theorem inForce_of_started {x : Slot}
    (h : latestSlot? (slots.filter fun s => s.start ≤ t.minutes) = some x) :
    x.InForce slots t := by
  obtain ⟨hx, hstarted⟩ := List.mem_filter.mp (latestSlot?_mem h)
  have hstarted : x.start ≤ t.minutes := of_decide_eq_true hstarted
  refine ⟨hx, fun y hy => ?_⟩
  rw [elapsed_of_mem htimes hhour hminute hx, elapsed_of_mem htimes hhour hminute hy,
    if_pos hstarted]
  by_cases hother : y.start ≤ t.minutes
  · rw [if_pos hother]
    have hafter := notAfter_latest h y (List.mem_filter.mpr ⟨hy, decide_eq_true hother⟩)
    rcases Slot.notAfter_iff.mp hafter with hlt | ⟨hsame, hid⟩
    · exact Or.inl (by omega)
    · exact Or.inr ⟨by rw [hsame], UInt32.le_iff_toNat_le.mpr hid⟩
  · have hstart : y.start < minutesPerWeek := minuteOfWeek_lt _ (htimes y hy).1 (htimes y hy).2
    rw [if_neg hother]
    exact Or.inl (by omega)

theorem inForce_of_none_started {x : Slot} (h : latestSlot? slots = some x)
    (hnone : ∀ y ∈ slots, ¬ y.start ≤ t.minutes) : x.InForce slots t := by
  have hx := latestSlot?_mem h
  refine ⟨hx, fun y hy => ?_⟩
  rw [elapsed_of_mem htimes hhour hminute hx, elapsed_of_mem htimes hhour hminute hy,
    if_neg (hnone x hx), if_neg (hnone y hy)]
  rcases Slot.notAfter_iff.mp (notAfter_latest h y hy) with hlt | ⟨hsame, hid⟩
  · exact Or.inl (by omega)
  · exact Or.inr ⟨by rw [hsame], UInt32.le_iff_toNat_le.mpr hid⟩

theorem exists_inForce (h : slots ≠ []) :
    ∃ x : Slot, x.InForce slots t ∧ activeOrder? slots t = some x.order := by
  cases hstarted : latestSlot? (slots.filter fun s => s.start ≤ t.minutes) with
  | some x =>
    refine ⟨x, inForce_of_started htimes hhour hminute hstarted, ?_⟩
    simp only [activeOrder?, hstarted, Option.some_or, Option.map_some]
  | none =>
    obtain ⟨x, hx⟩ := Option.ne_none_iff_exists'.mp (mt latestSlot?_eq_none_iff.mp h)
    have hnone : ∀ y ∈ slots, ¬ y.start ≤ t.minutes := by
      intro y hy
      simpa using List.filter_eq_nil_iff.mp (latestSlot?_eq_none_iff.mp hstarted) y hy
    refine ⟨x, inForce_of_none_started htimes hhour hminute hx hnone, ?_⟩
    simp only [activeOrder?, hstarted, hx, Option.none_or, Option.map_some]

theorem activeOrder?_of_inForce (hids : (slots.map (·.id)).Nodup) {x : Slot}
    (hx : x.InForce slots t) : activeOrder? slots t = some x.order := by
  obtain ⟨y, hy, hactive⟩ := exists_inForce htimes hhour hminute (List.ne_nil_of_mem hx.mem)
  rw [hactive, hx.unique hids hy]

theorem activeOrder?_perm (hids : (slots.map (·.id)).Nodup) {slots' : List Slot}
    (h : slots.Perm slots') : activeOrder? slots' t = activeOrder? slots t := by
  by_cases hempty : slots = []
  · rw [hempty] at h ⊢
    rw [h.nil_eq]
  · obtain ⟨x, hx, hactive⟩ := exists_inForce htimes hhour hminute hempty
    rw [hactive]
    refine activeOrder?_of_inForce (fun y hy => htimes y (h.mem_iff.mpr hy)) hhour hminute ?_
      (hx.perm h)
    exact (h.map (·.id)).nodup_iff.mp hids

end Circle

/-- Where hours and minutes are in range and the ids differ, there is an order in effect exactly
when there is a slot. It is that of the one slot that started the fewest minutes ago around the
week, the greatest id winning among those that start together, in whatever order the slots are
listed. -/
theorem latest_start_is_active {slots : List Slot} {t : WeekTime}
    (htimes : ∀ x ∈ slots, x.hour < 24 ∧ x.minute < 60) (hids : (slots.map (·.id)).Nodup)
    (hhour : t.hour < 24) (hminute : t.minute < 60) :
    (activeOrder? slots t = none ↔ slots = []) ∧
    (slots ≠ [] → ∃! x : Slot, x.InForce slots t) ∧
    (∀ x : Slot, x.InForce slots t → activeOrder? slots t = some x.order) ∧
    ∀ slots', slots.Perm slots' → activeOrder? slots' t = activeOrder? slots t := by
  refine ⟨activeOrder?_eq_none_iff, fun h => ?_, ?_, ?_⟩
  · obtain ⟨x, hx, -⟩ := exists_inForce htimes hhour hminute h
    exact ⟨x, hx, fun y hy => hy.unique hids hx⟩
  · exact fun x => activeOrder?_of_inForce htimes hhour hminute hids
  · exact fun slots' => activeOrder?_perm htimes hhour hminute hids

/-- Two slots start together on Saturday evening, and none before Sunday noon. The one of them in
force does not have the greatest id of all. -/
theorem saturday_evening_lasts_to_sunday :
    let slots : List Slot :=
      [⟨⟨7⟩, .saturday, 21, 30, ⟨"cozy"⟩⟩, ⟨⟨1⟩, .sunday, 12, 0, ⟨"nofreeze"⟩⟩,
       ⟨⟨9⟩, .monday, 6, 0, ⟨"comfort"⟩⟩, ⟨⟨5⟩, .saturday, 21, 30, ⟨"economy"⟩⟩]
    let t : WeekTime := ⟨.sunday, 11, 59⟩
    ((∀ x ∈ slots, x.hour < 24 ∧ x.minute < 60) ∧ (slots.map (·.id)).Nodup ∧ t.hour < 24 ∧
      t.minute < 60) ∧
    activeOrder? slots t = some ⟨"cozy"⟩ ∧ activeOrder? slots.reverse t = some ⟨"cozy"⟩ := by
  intro slots t
  have htimes : ∀ x ∈ slots, x.hour < 24 ∧ x.minute < 60 := by decide
  have hids : (slots.map (·.id)).Nodup := by decide
  have hinForce : Slot.InForce slots t ⟨⟨7⟩, .saturday, 21, 30, ⟨"cozy"⟩⟩ := ⟨by decide, by decide⟩
  obtain ⟨-, -, hactive, hperm⟩ :=
    latest_start_is_active htimes hids (t := t) (by decide) (by decide)
  refine ⟨⟨htimes, hids, by decide, by decide⟩, hactive _ hinForce, ?_⟩
  rw [hperm _ slots.reverse_perm.symm]
  exact hactive _ hinForce

end HeatingControl
