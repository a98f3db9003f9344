import HeatingControl.Dashboard.Effect
import Mathlib.Data.List.DropRight

/-!
# What the error panel keeps

Of all messages that were pushed, the panel keeps as many of the last as it has room for.
-/
namespace HeatingControl.Panel

section Last

variable {α β : Type} {n : Nat}

theorem rtake_of_length_le {l : List α} (h : l.length ≤ n) : l.rtake n = l := by
  rw [List.rtake, Nat.sub_eq_zero_of_le h, List.drop_zero]

/-- What was cut off before is not missed after. -/
theorem rtake_append_rtake (l rest : List α) :
    (l.rtake n ++ rest).rtake n = (l ++ rest).rtake n := by
  simp only [List.rtake_eq_reverse_take_reverse, List.reverse_append, List.reverse_reverse]
  rw [List.take_append, List.take_append, List.take_take]
  congr 3
  omega

theorem rtake_suffix (n : Nat) (l : List α) : l.rtake n <:+ l := List.drop_suffix _ l

theorem map_rtake (f : α → β) (l : List α) : (l.rtake n).map f = (l.map f).rtake n := by
  rw [List.rtake, List.rtake, List.map_drop, List.length_map]

/-- An element is among the last ones as long as there is room for those behind it. -/
theorem mem_rtake_middle {x : α} {l r : List α} (h : x ∉ r) :
    x ∈ (l ++ x :: r).rtake n ↔ r.length < n := by
  have hlength : (l ++ x :: r).length = l.length + (r.length + 1) := by simp
  constructor
  · intro hx
    by_contra hn
    have hcut : (l ++ x :: r).length - n = (l ++ [x]).length + (r.length - n) := by
      rw [hlength, List.length_append, List.length_singleton]
      omega
    rw [List.rtake, hcut, List.append_cons l x r, List.drop_length_add_append] at hx
    exact h (List.mem_of_mem_drop hx)
  · intro hn
    rw [List.rtake, List.drop_append_of_le_length (by omega)]
    exact List.mem_append_right _ (List.mem_cons_self ..)

end Last

variable {p : Panel}

/-- There is room for a message, and no more messages than there is room for. -/
structure Sound (p : Panel) : Prop where
  room : 0 < p.capacity
  within : p.messages.length ≤ p.capacity

theorem sound_new (capacity : Nat) : (Panel.new capacity).Sound := by
  constructor
  · exact Nat.lt_of_lt_of_le Nat.one_pos (Nat.le_max_right capacity 1)
  · exact Nat.zero_le _

theorem Sound.drain (h : p.Sound) : p.drain.2.Sound := ⟨h.room, Nat.zero_le _⟩

theorem push_capacity (p : Panel) (message : String) : (p.push message).capacity = p.capacity := by
  unfold push
  split <;> rfl

theorem Sound.push (h : p.Sound) (message : String) : (p.push message).Sound := by
  obtain ⟨hroom, hwithin⟩ := h
  constructor
  · rw [push_capacity]
    exact hroom
  · rw [push_capacity]
    unfold Panel.push
    split
    · simp only [List.length_append, List.length_drop, List.length_singleton]
      omega
    · simp only [List.length_append, List.length_singleton]
      omega

/-- The oldest message goes only when there is no room left. -/
theorem Sound.push_messages (h : p.Sound) (message : String) :
    (p.push message).messages = (p.messages ++ [message]).rtake p.capacity := by
  obtain ⟨hroom, hwithin⟩ := h
  have hlength : (p.messages ++ [message]).length = p.messages.length + 1 := by simp
  by_cases hfull : p.messages.length = p.capacity
  · have hover : (p.messages ++ [message]).length - p.capacity = 1 := by omega
    rw [Panel.push, if_pos hfull, List.rtake, hover]
    exact (List.drop_append_of_le_length (by omega)).symm
  · rw [Panel.push, if_neg hfull, rtake_of_length_le (by omega)]

def pushAll (p : Panel) (messages : List String) : Panel := messages.foldl push p

theorem pushAll_append (p : Panel) (first second : List String) :
    (p.pushAll first).pushAll second = p.pushAll (first ++ second) :=
  (List.foldl_append ..).symm

theorem pushAll_capacity (p : Panel) (messages : List String) :
    (p.pushAll messages).capacity = p.capacity := by
  induction messages generalizing p with
  | nil => rfl
  | cons message rest ih => exact (ih _).trans (push_capacity p message)

theorem Sound.pushAll_messages (h : p.Sound) (messages : List String) :
    (p.pushAll messages).messages = (p.messages ++ messages).rtake p.capacity := by
  induction messages generalizing p with
  | nil =>
    rw [List.append_nil, rtake_of_length_le h.within]
    rfl
  | cons message rest ih =>
    calc ((p.push message).pushAll rest).messages
        = ((p.push message).messages ++ rest).rtake p.capacity := by
          rw [ih (h.push message), push_capacity]
      _ = ((p.messages ++ [message]).rtake p.capacity ++ rest).rtake p.capacity := by
          rw [h.push_messages]
      _ = (p.messages ++ [message] ++ rest).rtake p.capacity := rtake_append_rtake _ _
      _ = (p.messages ++ message :: rest).rtake p.capacity := by
          rw [List.append_assoc, List.singleton_append]

end HeatingControl.Panel
