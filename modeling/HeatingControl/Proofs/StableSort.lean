import Mathlib.Data.List.Basic
import Mathlib.Tactic.ByContra

/-!
# Stable sorting

Where an element goes into a sorted list is told by the list, whatever the comparison. So an
element that comes in leaves the others in their order, leaving elements out commutes with sorting,
and the last of the sorted list is the latest of the greatest elements.
-/
namespace HeatingControl

variable {α : Type} {le : α → α → Bool}

theorem filters_of_all {p : α → Bool} {l : List α} (h : ∀ b ∈ l, p b = true) :
    l.filter p = l ∧ l.filter (fun b => !p b) = [] := by
  refine ⟨List.filter_eq_self.mpr h, List.filter_eq_nil_iff.mpr ?_⟩
  intro b hb
  simpa using h b hb

theorem filters_of_none {p : α → Bool} {l : List α} (h : ∀ b ∈ l, p b = false) :
    l.filter p = [] ∧ l.filter (fun b => !p b) = l := by
  constructor
  · exact List.filter_eq_nil_iff.mpr fun b hb => by simp [h b hb]
  · exact List.filter_eq_self.mpr fun b hb => by simp [h b hb]

section Preorder

variable (htrans : ∀ a b c, le a b = true → le b c = true → le a c = true)
  (htotal : ∀ a b, (le a b || le b a) = true)

include htrans htotal

theorem mergeSort_cons_filter (a : α) (l : List α) :
    (a :: l).mergeSort le = (l.mergeSort le).filter (fun b => !le a b) ++
      a :: (l.mergeSort le).filter (le a) := by
  obtain ⟨p, q, hcons, hsplit, hp⟩ := List.mergeSort_cons htrans htotal a l
  have hsorted := List.pairwise_mergeSort htrans htotal (a :: l)
  rw [hcons, List.pairwise_append, List.pairwise_cons] at hsorted
  obtain ⟨hq, hqdrop⟩ := filters_of_all hsorted.2.1.1
  obtain ⟨hpdrop, hp⟩ := filters_of_none (p := le a) fun b hb => by simpa using hp b hb
  rw [hcons, hsplit, List.filter_append, List.filter_append, hp, hpdrop, hq, hqdrop,
    List.append_nil, List.nil_append]

theorem mergeSort_insert (x : α) (l r : List α) :
    ∃ front back, (l ++ x :: r).mergeSort le = front ++ x :: back ∧
      (l ++ r).mergeSort le = front ++ back := by
  induction l with
  | nil =>
    obtain ⟨front, back, hwith, hwithout, -⟩ := List.mergeSort_cons htrans htotal x r
    exact ⟨front, back, hwith, hwithout⟩
  | cons a l ih =>
    obtain ⟨front, back, hwith, hwithout⟩ := ih
    have hsorted := List.pairwise_mergeSort htrans htotal (l ++ x :: r)
    rw [hwith, List.pairwise_append, List.pairwise_cons] at hsorted
    obtain ⟨-, ⟨hback, -⟩, hfront⟩ := hsorted
    rw [List.cons_append, List.cons_append, mergeSort_cons_filter htrans htotal,
      mergeSort_cons_filter htrans htotal, hwith, hwithout]
    -- The new element stands behind `a` or before it.
    cases hax : le a x with
    | true =>
      have hbehind : ∀ b ∈ back, le a b = true := fun b hb => htrans a x b hax (hback b hb)
      obtain ⟨hkeep, hdrop⟩ := filters_of_all hbehind
      refine ⟨front.filter (fun b => !le a b) ++ a :: front.filter (le a), back, ?_, ?_⟩
      · simp [hax, hdrop, hkeep]
      · simp [hdrop, hkeep]
    | false =>
      have hbefore : ∀ b ∈ front, le a b = false := by
        intro b hb
        by_contra hab
        have hle := htrans a b x (by simpa using hab) (hfront b hb x (List.mem_cons_self ..))
        rw [hax] at hle
        cases hle
      obtain ⟨hdrop, hkeep⟩ := filters_of_none hbefore
      refine ⟨front, back.filter (fun b => !le a b) ++ a :: back.filter (le a), ?_, ?_⟩
      · simp [hax, hdrop, hkeep]
      · simp [hdrop, hkeep]

theorem mergeSort_filter (p : α → Bool) (l : List α) :
    (l.filter p).mergeSort le = (l.mergeSort le).filter p := by
  induction l with
  | nil => simp
  | cons a l ih =>
    by_cases ha : p a = true
    · rw [List.filter_cons_of_pos ha, mergeSort_cons_filter htrans htotal,
        mergeSort_cons_filter htrans htotal, ih, List.filter_append, List.filter_cons_of_pos ha]
      simp only [List.filter_filter, Bool.and_comm]
    · obtain ⟨front, back, hwith, hwithout, -⟩ := List.mergeSort_cons htrans htotal a l
      rw [List.filter_cons_of_neg ha, ih, hwith, hwithout, List.filter_append, List.filter_append,
        List.filter_cons_of_neg ha]

theorem filter_mergeSort_of_tied {p : α → Bool} {l : List α}
    (h : ∀ a b, p a = true → p b = true → le a b = true) :
    (l.mergeSort le).filter p = l.filter p := by
  have htied : (l.filter p).Pairwise fun a b => le a b = true := by
    refine List.pairwise_of_forall_mem_list fun a ha b hb => ?_
    exact h a b (List.mem_filter.mp ha).2 (List.mem_filter.mp hb).2
  rw [← mergeSort_filter htrans htotal, List.mergeSort_of_pairwise htied]

/-- A new first element is the last of the sorted list only where it is greater than all others. -/
theorem getLast?_mergeSort_cons (a : α) (l : List α) :
    ((a :: l).mergeSort le).getLast? =
      some ((l.mergeSort le).getLast?.elim a fun b => if le a b then b else a) := by
  have hsorted := List.pairwise_mergeSort htrans htotal l
  rw [mergeSort_cons_filter htrans htotal]
  rcases (l.mergeSort le).eq_nil_or_concat' with hnil | ⟨front, b, hsnoc⟩
  · simp [hnil]
  · rw [hsnoc, List.pairwise_append] at hsorted
    have hgreatest : ∀ c ∈ front, le c b = true :=
      fun c hc => hsorted.2.2 c hc b (List.mem_cons_self ..)
    rw [hsnoc]
    by_cases hab : le a b = true
    · simp [hab, List.getLast?_cons]
    · have hnone : front.filter (le a) = [] := by
        refine List.filter_eq_nil_iff.mpr fun c hc hac => ?_
        exact hab (htrans a c b hac (hgreatest c hc))
      simp [hab, hnone]

end Preorder
end HeatingControl
