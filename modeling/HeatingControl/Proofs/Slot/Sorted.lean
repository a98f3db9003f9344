import HeatingControl.Proofs.Slot.InForce
import HeatingControl.Proofs.StableSort
import HeatingControl.View.Slots
import Mathlib.Data.Prod.Lex

/-!
# Slots in the order of the week

Slots are listed by day, hour, minute and number, and those that agree on all four stay as they
stand. The order in effect can be read off the list: it is that of the last slot that has started,
or of the very last one where none has.
-/
namespace HeatingControl

variable {slots : List Slot}

theorem sortSlots_perm (slots : List Slot) : (sortSlots slots).Perm slots :=
  List.mergeSort_perm slots Slot.notAfter

theorem sortSlots_sorted (slots : List Slot) :
    (sortSlots slots).Pairwise fun a b => a.notAfter b = true :=
  List.pairwise_mergeSort Slot.notAfter_trans Slot.notAfter_total slots

theorem sortSlots_idem (slots : List Slot) : sortSlots (sortSlots slots) = sortSlots slots :=
  List.mergeSort_of_pairwise (sortSlots_sorted slots)

theorem sortSlots_filter (p : Slot → Bool) (slots : List Slot) :
    sortSlots (slots.filter p) = (sortSlots slots).filter p :=
  mergeSort_filter Slot.notAfter_trans Slot.notAfter_total p slots

theorem sortSlots_insert (x : Slot) (l r : List Slot) :
    ∃ front back, sortSlots (l ++ x :: r) = front ++ x :: back ∧
      sortSlots (l ++ r) = front ++ back :=
  mergeSort_insert Slot.notAfter_trans Slot.notAfter_total x l r

namespace Slot

theorem later_assoc (a b c : Slot) : (a.later b).later c = a.later (b.later c) := by
  unfold later
  by_cases hab : a.notAfter b = true
  · by_cases hbc : b.notAfter c = true
    · rw [if_pos hab, if_pos hbc, if_pos (notAfter_trans a b c hab hbc)]
    · rw [if_pos hab, if_neg hbc, if_pos hab]
  · by_cases hbc : b.notAfter c = true
    · rw [if_neg hab, if_pos hbc]
    · have hac : ¬ a.notAfter c = true := by
        rw [notAfter_iff] at *
        omega
      rw [if_neg hab, if_neg hbc, if_neg hab, if_neg hac]

instance : Std.Associative later := ⟨later_assoc⟩

end Slot

theorem latestSlot?_cons (a : Slot) (slots : List Slot) :
    latestSlot? (a :: slots) = some ((latestSlot? slots).elim a a.later) := by
  cases slots with
  | nil => rfl
  | cons b rest =>
    rw [latestSlot?, latestSlot?, List.foldl_cons, List.foldl_assoc]
    rfl

/-- Comparing slot after slot and sorting all of them lead to the same slot. -/
theorem latestSlot?_eq_getLast? (slots : List Slot) :
    latestSlot? slots = (sortSlots slots).getLast? := by
  induction slots with
  | nil => simp [latestSlot?, sortSlots]
  | cons a slots ih =>
    rw [latestSlot?_cons, ih]
    exact (getLast?_mergeSort_cons Slot.notAfter_trans Slot.notAfter_total a slots).symm

theorem activeOrder?_eq_getLast? (slots : List Slot) (t : WeekTime) :
    activeOrder? slots t =
      (((sortSlots slots).filter fun x => x.start ≤ t.minutes).getLast?.or
        (sortSlots slots).getLast?).map (·.order) := by
  simp only [activeOrder?, latestSlot?_eq_getLast?, sortSlots_filter]

/-- Whatever hours and minutes the slots have, and whether or not their numbers differ, the order
in effect is that of the last slot of the sorted list that has started, or of the very last one
where none has. So it is the same for the list that is shown, row after row. -/
theorem active_is_last_started (slots : List Slot) (t : WeekTime) :
    activeOrder? slots t =
      (((sortSlots slots).filter fun x => x.start ≤ t.minutes).getLast?.or
        (sortSlots slots).getLast?).map (·.order) ∧
    activeOrder? (sortSlots slots) t = activeOrder? slots t ∧
    ∀ planning orders, (SlotsView.render planning slots orders).slots =
      (sortSlots slots).map (SlotsView.row orders) := by
  refine ⟨activeOrder?_eq_getLast? slots t, ?_, fun _ _ => rfl⟩
  rw [activeOrder?_eq_getLast?, sortSlots_idem, ← activeOrder?_eq_getLast?]

namespace Slot

/-- Day from Sunday, hour, minute and number, compared one after the other. -/
def place (x : Slot) : ℕ ×ₗ ℕ ×ₗ ℕ ×ₗ ℕ :=
  toLex (x.day.index, toLex (x.hour.toNat, toLex (x.minute.toNat, x.id.number.toNat)))

/-- One count of minutes tells day, hour and minute as long as hour and minute are in range. -/
theorem notAfter_iff_place_le {a b : Slot} (ha : a.hour < 24 ∧ a.minute < 60)
    (hb : b.hour < 24 ∧ b.minute < 60) : a.notAfter b = true ↔ a.place ≤ b.place := by
  have hours : a.hour.toNat < 24 ∧ b.hour.toNat < 24 := ⟨ha.1, hb.1⟩
  have minutes : a.minute.toNat < 60 ∧ b.minute.toNat < 60 := ⟨ha.2, hb.2⟩
  simp only [notAfter_iff, place, Prod.Lex.toLex_le_toLex, start, minuteOfWeek]
  omega

theorem notAfter_of_place_eq {a b : Slot} (h : a.place = b.place) : a.notAfter b = true := by
  simp only [place, toLex_inj, Prod.mk.injEq] at h
  obtain ⟨hday, hhour, hminute, hid⟩ := h
  refine notAfter_iff.mpr (Or.inr ⟨?_, Nat.le_of_eq hid⟩)
  rw [start, start, minuteOfWeek, minuteOfWeek, hday, hhour, hminute]

end Slot

theorem sortSlots_stable (place : ℕ ×ₗ ℕ ×ₗ ℕ ×ₗ ℕ) (slots : List Slot) :
    (sortSlots slots).filter (fun x => x.place = place) =
      slots.filter fun x => x.place = place := by
  refine filter_mergeSort_of_tied Slot.notAfter_trans Slot.notAfter_total fun a b ha hb => ?_
  have hplace : a.place = b.place := (of_decide_eq_true ha).trans (of_decide_eq_true hb).symm
  exact Slot.notAfter_of_place_eq hplace

theorem sortSlots_congr (hids : (slots.map (·.id)).Nodup) {slots' : List Slot}
    (h : slots'.Perm slots) : sortSlots slots' = sortSlots slots := by
  have hsame : (sortSlots slots').Perm (sortSlots slots) :=
    (sortSlots_perm slots').trans (h.trans (sortSlots_perm slots).symm)
  refine List.Perm.eq_of_pairwise ?_ (sortSlots_sorted slots') (sortSlots_sorted slots) hsame
  intro a b ha hb hab hba
  have ha : a ∈ slots := h.mem_iff.mp ((sortSlots_perm slots').mem_iff.mp ha)
  have hb : b ∈ slots := (sortSlots_perm slots).mem_iff.mp hb
  rw [Slot.notAfter_iff] at hab hba
  have hnumber : a.id.number.toNat = b.id.number.toNat := by omega
  exact List.inj_on_of_nodup_map hids ha hb (congrArg SlotId.mk (UInt32.toNat_inj.mp hnumber))

/-- Where hours and minutes are in range, sorting moves the slots into the order of day, hour,
minute and number. It adds and drops nothing, leaves slots that agree on all four in the order in
which they stood, has nothing to do a second time, and does not depend on the order in which slots
of different numbers are stored. -/
theorem slots_sorted_by_place (htimes : ∀ x ∈ slots, x.hour < 24 ∧ x.minute < 60) :
    (sortSlots slots).Perm slots ∧
    (sortSlots slots).Pairwise (fun a b => a.place ≤ b.place) ∧
    (∀ place, (sortSlots slots).filter (fun x => x.place = place) =
      slots.filter fun x => x.place = place) ∧
    sortSlots (sortSlots slots) = sortSlots slots ∧
    ((slots.map (·.id)).Nodup → ∀ slots', slots'.Perm slots →
      sortSlots slots' = sortSlots slots) := by
  refine ⟨sortSlots_perm slots, ?_, fun place => sortSlots_stable place slots,
    sortSlots_idem slots, fun hids _ h => sortSlots_congr hids h⟩
  refine (sortSlots_sorted slots).imp_of_mem fun {a b} ha hb hab => ?_
  have ha := htimes a ((sortSlots_perm slots).mem_iff.mp ha)
  have hb := htimes b ((sortSlots_perm slots).mem_iff.mp hb)
  exact (Slot.notAfter_iff_place_le ha hb).mp hab

/-- Two slots in the same place are not swapped, although they are stored under a later one; and
slots that start together come by their numbers, from whichever end the list is sorted. -/
theorem saturday_slots_sorted :
    let tied : List Slot :=
      [⟨⟨7⟩, .saturday, 21, 30, ⟨"nofreeze"⟩⟩, ⟨⟨5⟩, .saturday, 21, 30, ⟨"economy"⟩⟩,
       ⟨⟨5⟩, .saturday, 21, 30, ⟨"cozy"⟩⟩]
    let apart : List Slot :=
      [⟨⟨7⟩, .saturday, 21, 30, ⟨"nofreeze"⟩⟩, ⟨⟨5⟩, .saturday, 21, 30, ⟨"economy"⟩⟩,
       ⟨⟨9⟩, .sunday, 23, 59, ⟨"cozy"⟩⟩]
    ((∀ x ∈ tied, x.hour < 24 ∧ x.minute < 60) ∧
      (sortSlots tied).filter (fun x => x.place = toLex (6, toLex (21, toLex (30, 5)))) =
        [⟨⟨5⟩, .saturday, 21, 30, ⟨"economy"⟩⟩, ⟨⟨5⟩, .saturday, 21, 30, ⟨"cozy"⟩⟩]) ∧
    (∀ x ∈ apart, x.hour < 24 ∧ x.minute < 60) ∧ (apart.map (·.id)).Nodup ∧
      (sortSlots apart).Pairwise (fun a b => a.place ≤ b.place) ∧
      sortSlots apart.reverse = sortSlots apart := by
  intro tied apart
  have htied : ∀ x ∈ tied, x.hour < 24 ∧ x.minute < 60 := by decide
  have hapart : ∀ x ∈ apart, x.hour < 24 ∧ x.minute < 60 := by decide
  have hids : (apart.map (·.id)).Nodup := by decide
  obtain ⟨-, -, hstable, -, -⟩ := slots_sorted_by_place htied
  obtain ⟨-, hsorted, -, -, hsame⟩ := slots_sorted_by_place hapart
  refine ⟨⟨htied, ?_⟩, hapart, hids, hsorted, hsame hids _ apart.reverse_perm⟩
  rw [hstable]
  decide

end HeatingControl
