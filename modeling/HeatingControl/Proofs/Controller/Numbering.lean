import HeatingControl.Proofs.Controller.Atomicity
import HeatingControl.Proofs.Controller.Frame

/-!
# Numbers of plannings and slots

A planning or a slot gets the number above the greatest one in its list. The new number is fresh as
long as no number wraps, and a call raises the bound of the numbers in use by the records it
creates, whatever was deleted before.
-/
namespace HeatingControl

/-- How many plannings and slots a call is to create, whether it succeeds or not. -/
def Call.creations : Call → Nat
  | .operation (.createPlanning _) => 1
  | .operation (.createSlot _ _) => 1
  | .operation _ => 0
  | .addPlanning _ => 1
  | .addSlot _ _ => 1

namespace State

section NextNumber

variable {numbers : List UInt32}

instance : Std.LawfulOrderMax UInt32 where
  max_eq_or a b := by
    change (if a ≤ b then b else a) = a ∨ (if a ≤ b then b else a) = b
    split
    · exact Or.inr rfl
    · exact Or.inl rfl
  max_le_iff a b c := by
    change (if a ≤ b then b else a) ≤ c ↔ a ≤ c ∧ b ≤ c
    split
    all_goals simp only [UInt32.le_iff_toNat_le] at *; omega

theorem toNat_succ {n : UInt32} (h : n.toNat + 1 < UInt32.size) : (n + 1).toNat = n.toNat + 1 := by
  rw [UInt32.toNat_add]
  exact Nat.mod_eq_of_lt h

theorem lt_nextNumber (h : ∀ n ∈ numbers, n.toNat + 1 < UInt32.size) :
    ∀ n ∈ numbers, n < nextNumber numbers := by
  intro n hn
  have hsucc : n + 1 ∈ numbers.map fun n => n + 1 := List.mem_map_of_mem hn
  cases hmax : (numbers.map fun n => n + 1).max? with
  | none =>
    rw [List.max?_eq_none_iff] at hmax
    rw [hmax] at hsucc
    simp at hsucc
  | some m =>
    have hle : n + 1 ≤ m := (List.max?_eq_some_iff.mp hmax).2 _ hsucc
    rw [UInt32.le_iff_toNat_le, toNat_succ (h n hn)] at hle
    rw [nextNumber, hmax, Option.getD_some, UInt32.lt_iff_toNat_lt]
    omega

theorem nextNumber_le {b : Nat} (hb : b < UInt32.size) (h : ∀ n ∈ numbers, n.toNat < b) :
    (nextNumber numbers).toNat ≤ b := by
  cases hmax : (numbers.map fun n => n + 1).max? with
  | none =>
    rw [nextNumber, hmax]
    exact Nat.zero_le b
  | some m =>
    have hmember : m ∈ numbers.map fun n => n + 1 := (List.max?_eq_some_iff.mp hmax).1
    obtain ⟨n, hn, rfl⟩ := List.mem_map.mp hmember
    have hlt := h n hn
    rw [nextNumber, hmax, Option.getD_some, toNat_succ (by omega)]
    omega

theorem next_id_fresh {α β : Type} {number : α → UInt32} {id : α → β} {mk : UInt32 → β}
    {l : List α} (hid : ∀ a ∈ l, ∀ n, id a = mk n → number a = n)
    (hl : ∀ a ∈ l, (number a).toNat + 1 < UInt32.size) :
    mk (nextNumber (l.map number)) ∉ l.map id := by
  intro hmem
  obtain ⟨a, ha, hnext⟩ := List.mem_map.mp hmem
  have hlt : number a < nextNumber (l.map number) := by
    apply lt_nextNumber
    · intro n hn
      obtain ⟨c, hc, rfl⟩ := List.mem_map.mp hn
      exact hl c hc
    · exact List.mem_map_of_mem ha
  rw [hid a ha _ hnext] at hlt
  exact UInt32.lt_irrefl _ hlt

end NextNumber

theorem createPlanning_ok {s : State} {name : PlanningName} {p : Planning}
    (h : (createPlanning name s).1 = .ok p) :
    p.id.number = nextNumber (s.plannings.map fun q => q.id.number) ∧
      (createPlanning name s).2 = { s with
        plannings := s.plannings ++ [p]
        slots := Table.insert p.id [] s.slots } := by
  unfold createPlanning at h ⊢
  split at h
  · cases h
  · split at h
    · cases h
    · rename_i hroom
      cases h
      rw [if_neg hroom]
      constructor
      · rfl
      · rfl

theorem createSlot_ok {s : State} {planning : PlanningId} {slot : NewSlot} {x : Slot}
    (h : (createSlot planning slot s).1 = .ok x) :
    ∃ slots, Table.get? planning s.slots = some slots ∧
      x.id.number = nextNumber (slots.map fun y => y.id.number) ∧
      (createSlot planning slot s).2 = { s with
        slots := Table.adjust planning (· ++ [x]) s.slots } := by
  unfold createSlot at h ⊢
  split at h
  · cases h
  · split at h
    · cases h
    · split at h
      · cases h
      · rename_i slots hfound
        split at h
        · cases h
        · rename_i hroom
          cases h
          refine ⟨slots, hfound, rfl, ?_⟩
          simp only [if_neg hroom]

structure NumbersBelow (b : Nat) (s : State) : Prop where
  plannings : ∀ p ∈ s.plannings, p.id.number.toNat < b
  slots : ∀ e ∈ s.slots, ∀ x ∈ e.2, x.id.number.toNat < b

section Bounds

variable {b : Nat} {s : State}

theorem NumbersBelow.mono {c : Nat} (h : NumbersBelow b s) (hbc : b ≤ c) : NumbersBelow c s := by
  constructor
  · intro p hp
    exact Nat.lt_of_lt_of_le (h.plannings p hp) hbc
  · intro e he x hx
    exact Nat.lt_of_lt_of_le (h.slots e he x hx) hbc

theorem NumbersBelow.of_tables {u : State} (h : NumbersBelow b s)
    (hplannings : u.plannings = s.plannings) (hslots : u.slots = s.slots) : NumbersBelow b u := by
  constructor
  · rw [hplannings]
    exact h.plannings
  · rw [hslots]
    exact h.slots

theorem NumbersBelow.adjust (h : NumbersBelow b s) (planning : PlanningId)
    {f : List Slot → List Slot}
    (hf : ∀ l, (planning, l) ∈ s.slots → ∀ x ∈ f l, x.id.number.toNat < b) :
    NumbersBelow b { s with slots := Table.adjust planning f s.slots } := by
  constructor
  · exact h.plannings
  · intro e he x hx
    rcases Table.mem_adjust he with he | ⟨l, hl, rfl⟩
    · exact h.slots e he x hx
    · exact hf l hl x hx

theorem NumbersBelow.createPlanning (h : NumbersBelow b s) (hb : b < UInt32.size)
    (name : PlanningName) : NumbersBelow (b + 1) (createPlanning name s).2 := by
  have hmono : NumbersBelow (b + 1) s := h.mono (Nat.le_succ b)
  cases hr : (State.createPlanning name s).1 with
  | error e =>
    rw [(createPlanning_settles s name).error_state hr]
    exact hmono
  | ok p =>
    obtain ⟨hnumber, hstate⟩ := createPlanning_ok hr
    rw [hstate]
    constructor
    · intro q hq
      rcases List.mem_append.mp hq with hq | hq
      · exact hmono.plannings q hq
      · obtain rfl := List.mem_singleton.mp hq
        rw [hnumber]
        apply Nat.lt_succ_of_le
        apply nextNumber_le hb
        intro n hn
        obtain ⟨q, hq, rfl⟩ := List.mem_map.mp hn
        exact h.plannings q hq
    · intro e he x hx
      rcases Table.mem_insert he with he | rfl
      · exact hmono.slots e he x hx
      · simp at hx

theorem NumbersBelow.createSlot (h : NumbersBelow b s) (hb : b < UInt32.size)
    (planning : PlanningId) (slot : NewSlot) :
    NumbersBelow (b + 1) (createSlot planning slot s).2 := by
  have hmono : NumbersBelow (b + 1) s := h.mono (Nat.le_succ b)
  cases hr : (State.createSlot planning slot s).1 with
  | error e =>
    rw [(createSlot_settles s planning slot).error_state hr]
    exact hmono
  | ok y =>
    obtain ⟨slots, hfound, hnumber, hstate⟩ := createSlot_ok hr
    rw [hstate]
    apply hmono.adjust planning
    intro l hl x hx
    rcases List.mem_append.mp hx with hx | hx
    · exact hmono.slots _ hl x hx
    · obtain rfl := List.mem_singleton.mp hx
      rw [hnumber]
      apply Nat.lt_succ_of_le
      apply nextNumber_le hb
      intro n hn
      obtain ⟨z, hz, rfl⟩ := List.mem_map.mp hn
      exact h.slots _ (Table.mem_of_get? hfound) z hz

theorem NumbersBelow.renamePlanning (h : NumbersBelow b s) (id : PlanningId)
    (name : PlanningName) : NumbersBelow b (renamePlanning id name s).2 := by
  unfold State.renamePlanning
  split
  · exact h
  · dsimp only
    split
    · constructor
      · intro p hp
        rcases Table.mem_updateFirst hp with hp | ⟨q, hq, -, rfl⟩
        · exact h.plannings p hp
        · exact h.plannings q hq
      · exact h.slots
    · exact h

theorem NumbersBelow.deletePlanning (h : NumbersBelow b s) (id : PlanningId) :
    NumbersBelow b (deletePlanning id s).2 := by
  have hkept : ∀ p ∈ s.plannings.filter (fun p => p.id ≠ id), p.id.number.toNat < b := by
    intro p hp
    exact h.plannings p (List.mem_filter.mp hp).1
  unfold State.deletePlanning
  dsimp only
  split
  · exact ⟨hkept, h.slots⟩
  · constructor
    · exact hkept
    · intro e he
      exact h.slots e (List.mem_filter.mp he).1

theorem NumbersBelow.patchSlot (h : NumbersBelow b s) (planning : PlanningId) (slot : SlotId)
    (patch : SlotPatch) : NumbersBelow b (patchSlot planning slot patch s).2 := by
  unfold State.patchSlot
  split
  · exact h
  · split
    · exact h
    · rename_i slots hfound
      split
      · exact h
      · rename_i target htarget
        split
        · exact h
        · rename_i patched hpatched
          apply h.adjust planning
          intro l hl x hx
          rcases Table.mem_updateFirst hx with hx | ⟨_, _, _, rfl⟩
          · exact h.slots _ hl x hx
          · rw [(SlotPatch.apply_ok hpatched).1]
            exact h.slots _ (Table.mem_of_get? hfound) target (List.mem_of_find?_eq_some htarget)

theorem NumbersBelow.deleteSlot (h : NumbersBelow b s) (planning : PlanningId) (slot : SlotId) :
    NumbersBelow b (deleteSlot planning slot s).2 := by
  unfold State.deleteSlot
  split
  · exact h
  · rename_i slots hfound
    let kept := slots.filter fun x => x.id ≠ slot
    have hcut : NumbersBelow b { s with
        slots := Table.adjust planning (fun _ => kept) s.slots } := by
      apply h.adjust planning
      intro l _ x hx
      exact h.slots _ (Table.mem_of_get? hfound) x (List.mem_filter.mp hx).1
    dsimp only
    split
    · exact hcut
    · exact hcut

/-- A call moves the bound by the records it is to create. -/
theorem NumbersBelow.perform (h : NumbersBelow b s) (hb : b < UInt32.size) (grace : Nat)
    (t : Moment) (op : Operation) :
    NumbersBelow (b + (Call.operation op).creations) (perform grace t op s).2 := by
  cases op with
  | createPlanning name => exact h.createPlanning hb name
  | createSlot planning slot => exact h.createSlot hb planning slot
  | renamePlanning id name => exact h.renamePlanning id name
  | deletePlanning id => exact h.deletePlanning id
  | patchSlot planning slot patch => exact h.patchSlot planning slot patch
  | deleteSlot planning slot => exact h.deleteSlot planning slot
  | _ =>
    -- No other operation touches plannings or slots.
    obtain ⟨u, hframe⟩ := perform_frame grace t _ s
    rw [hframe]
    exact h.of_tables rfl rfl

theorem NumbersBelow.step (h : NumbersBelow b s) (hb : b < UInt32.size) (grace : Nat)
    (t : Moment) (c : Call) : NumbersBelow (b + c.creations) (step grace t c s).2 := by
  have hboot : NumbersBelow b (s.boot t.now) := by
    obtain ⟨_, _, _, _, _, hrecords⟩ := boot_records t.now s
    rw [hrecords]
    exact ⟨h.plannings, h.slots⟩
  by_cases honline : s.OnlineAt t.now
  · rw [step_of_online honline]
    cases c with
    | operation op => exact hboot.perform hb grace t op
    | addPlanning name => exact hboot.createPlanning hb name
    | addSlot planning slot => exact hboot.createSlot hb planning slot
  · rw [step_of_offline honline]
    exact hboot.mono (Nat.le_add_right ..)

def NumbersFit (s : State) : Prop := NumbersBelow (UInt32.size - 1) s

theorem NumbersFit.planning (h : s.NumbersFit) :
    ∀ p ∈ s.plannings, p.id.number.toNat + 1 < UInt32.size :=
  fun p hp => Nat.add_lt_of_lt_sub (h.plannings p hp)

theorem NumbersFit.slot (h : s.NumbersFit) :
    ∀ e ∈ s.slots, ∀ x ∈ e.2, x.id.number.toNat + 1 < UInt32.size :=
  fun e he x hx => Nat.add_lt_of_lt_sub (h.slots e he x hx)

theorem NumbersFit.boot (h : s.NumbersFit) (now : Nat) : (s.boot now).NumbersFit := by
  obtain ⟨_, _, _, _, _, hrecords⟩ := boot_records now s
  rw [hrecords]
  exact ⟨h.plannings, h.slots⟩

end Bounds

end State
end HeatingControl
