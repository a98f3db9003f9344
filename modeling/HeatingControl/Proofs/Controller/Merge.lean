import HeatingControl.Proofs.Controller.Integrity

/-!
# Edits of slots

An edit is made from a slot as it was shown, which need not be the one that is stored any more.
What the edit changes is stored; what it leaves alone stays as it is stored, not as it was shown.
-/
namespace HeatingControl

/-- The edited value where the edit changes what was shown, otherwise the stored one. -/
def mergeField {α : Type} [DecidableEq α] (shown edited stored : α) : α :=
  if shown = edited then stored else edited

theorem change_getD {α : Type} [DecidableEq α] (shown edited stored : α) :
    (SlotPatch.change shown edited).getD stored = mergeField shown edited stored := by
  by_cases h : shown = edited <;> simp [SlotPatch.change, mergeField, h]

def Slot.merge (shown edited : NewSlot) (c : Slot) : Slot :=
  { id := c.id
    day := mergeField shown.day edited.day c.day
    hour := mergeField shown.hour edited.hour c.hour
    minute := mergeField shown.minute edited.minute c.minute
    order := mergeField shown.order edited.order c.order }

def NewSlot.InRange (n : NewSlot) : Prop := n.hour < 24 ∧ n.minute < 60

namespace SlotPatch

variable {shown edited : NewSlot} {c : Slot}

theorem change_isNone {α : Type} [DecidableEq α] {before after : α} :
    (change before after).isNone = true ↔ before = after := by
  by_cases h : before = after <;> simp [change, h]

theorem diff_isEmpty : (diff shown edited).isEmpty = true ↔ shown = edited := by
  constructor
  · intro h
    simp only [isEmpty, diff, Bool.and_eq_true, change_isNone] at h
    obtain ⟨⟨⟨hday, hhour⟩, hminute⟩, horder⟩ := h
    cases shown
    cases edited
    simp_all
  · rintro rfl
    simp [isEmpty, diff, change]

theorem apply_diff (hedited : edited.InRange) (hhour : c.hour < 24) (hminute : c.minute < 60) :
    (diff shown edited).apply c = .ok (c.merge shown edited) := by
  have hhourMerged : mergeField shown.hour edited.hour c.hour < 24 := by
    unfold mergeField
    split
    · exact hhour
    · exact hedited.1
  have hminuteMerged : mergeField shown.minute edited.minute c.minute < 60 := by
    unfold mergeField
    split
    · exact hminute
    · exact hedited.2
  simp only [apply, diff, change_getD, checkTime_ok_iff.mpr ⟨hhourMerged, hminuteMerged⟩]
  rfl

end SlotPatch

namespace State

variable {s u : State} {planning : PlanningId} {c d : Slot}

def slot? (s : State) (planning : PlanningId) (slot : SlotId) : Option Slot :=
  (Table.get? planning s.slots).bind fun slots => slots.find? fun x => x.id = slot

/-- One slot of a planning is replaced where it stands, and nothing else changes. -/
structure SlotReplaced (planning : PlanningId) (c d : Slot) (s u : State) : Prop where
  id : d.id = c.id
  replaced : ∃ front back, Table.get? planning s.slots = some (front ++ c :: back) ∧
    (∀ x ∈ front, x.id ≠ c.id) ∧ Table.get? planning u.slots = some (front ++ d :: back)
  others : ∀ other, other ≠ planning → Table.get? other u.slots = Table.get? other s.slots
  plannings : Table.keys u.slots = Table.keys s.slots
  rest : u = { s with slots := u.slots }

theorem SlotReplaced.slot? (h : SlotReplaced planning c d s u) :
    u.slot? planning c.id = some d := by
  obtain ⟨front, back, -, hfront, hafter⟩ := h.replaced
  have hnone : front.find? (fun x => x.id = c.id) = none := by
    rw [List.find?_eq_none]
    intro x hx
    simpa using hfront x hx
  simp [State.slot?, hafter, List.find?_append, hnone, h.id]

theorem SlotReplaced.rebootingUntil (h : SlotReplaced planning c d s u) :
    u.rebootingUntil = s.rebootingUntil := by
  rw [h.rest]

theorem SlotReplaced.hasOrder (h : SlotReplaced planning c d s u) (id : OrderId) :
    u.hasOrder id = s.hasOrder id := by
  rw [h.rest]
  rfl

private theorem cut_unique {front front' back back' : List Slot}
    (hfront : ∀ x ∈ front, x.id ≠ d.id) (hfront' : ∀ x ∈ front', x.id ≠ d.id)
    (h : front ++ d :: back = front' ++ d :: back') : front = front' ∧ back = back' := by
  induction front generalizing front' with
  | nil =>
    cases front' with
    | nil => simpa using h
    | cons x rest =>
      obtain ⟨rfl, -⟩ := List.cons.inj h
      exact absurd rfl (hfront' d (List.mem_cons_self ..))
  | cons x front ih =>
    cases front' with
    | nil =>
      obtain ⟨rfl, -⟩ := List.cons.inj h
      exact absurd rfl (hfront x (List.mem_cons_self ..))
    | cons y front' =>
      obtain ⟨rfl, hrest⟩ := List.cons.inj h
      obtain ⟨rfl, hback⟩ := ih (fun z hz => hfront z (List.mem_cons_of_mem _ hz))
        (fun z hz => hfront' z (List.mem_cons_of_mem _ hz)) hrest
      exact ⟨rfl, hback⟩

theorem SlotReplaced.trans {v : State} {e : Slot} (h : SlotReplaced planning c d s u)
    (k : SlotReplaced planning d e u v) : SlotReplaced planning c e s v := by
  obtain ⟨front, back, hbefore, hfront, hbetween⟩ := h.replaced
  obtain ⟨front', back', hbetween', hfront', hafter⟩ := k.replaced
  have hsame : front ++ d :: back = front' ++ d :: back' :=
    Option.some.inj (hbetween.symm.trans hbetween')
  have hfrontId : ∀ x ∈ front, x.id ≠ d.id := by
    rw [h.id]
    exact hfront
  obtain ⟨rfl, rfl⟩ := cut_unique hfrontId hfront' hsame
  constructor
  · exact k.id.trans h.id
  · exact ⟨front, back, hbefore, hfront, hafter⟩
  · intro other hother
    exact (k.others other hother).trans (h.others other hother)
  · exact k.plannings.trans h.plannings
  · rw [k.rest, h.rest]

theorem Integrity.slot_valid (hs : Integrity s) (hc : s.slot? planning c.id = some c) :
    s.SlotValid c := by
  obtain ⟨slots, found, hfind⟩ := Option.bind_eq_some_iff.mp hc
  exact hs.slots_valid _ (Table.mem_of_get? found) c (List.mem_of_find?_eq_some hfind)

theorem patchSlot_unknown {slot : SlotId} {patch : SlotPatch} {id : OrderId}
    (hpatch : patch.order = some id) (hno : ¬ s.hasOrder id = true) :
    patchSlot planning slot patch s = (.error (.validation (.unknownOrder id.text)), s) := by
  simp [patchSlot, hpatch, checkSome, checkOrder, hno, refuse]

theorem patchSlot_replaces {patch : SlotPatch}
    (hknown : ∀ id, patch.order = some id → s.hasOrder id = true)
    (hc : s.slot? planning c.id = some c) (happly : patch.apply c = .ok d) :
    (patchSlot planning c.id patch s).1 = .ok () ∧
      SlotReplaced planning c d s (patchSlot planning c.id patch s).2 := by
  obtain ⟨slots, found, hfind⟩ := Option.bind_eq_some_iff.mp hc
  have hcheck : checkSome s.checkOrder patch.order = .ok () := by
    cases horder : patch.order with
    | none => rfl
    | some id => exact checkOrder_ok_iff.mpr (hknown id horder)
  obtain ⟨front, back, hslots, hfront, hupdate⟩ :=
    Table.updateFirst_of_find? (fun _ => d) hfind
  have hpatch : patchSlot planning c.id patch s = (.ok (), { s with
      slots := Table.adjust planning
        (Table.updateFirst (fun x : Slot => x.id = c.id) fun _ => d) s.slots }) := by
    simp only [patchSlot, hcheck, found, hfind, happly]
  rw [hpatch]
  refine ⟨rfl, (SlotPatch.apply_ok happly).1, ⟨front, back, ?_, ?_, ?_⟩, ?_, ?_, rfl⟩
  · rw [found, hslots]
  · intro x hx
    simpa using hfront x hx
  · rw [Table.get?_adjust, found, Option.map_some, hupdate]
  · intro other hother
    exact Table.get?_adjust_of_ne hother _ _
  · exact Table.keys_adjust ..

/-- An edit whose order is known, or as it was shown, merges into the stored slot. -/
theorem patchSlot_merges (hs : Integrity s) {shown edited : NewSlot} (hedited : edited.InRange)
    (hknown : edited.order = shown.order ∨ s.hasOrder edited.order = true)
    (hc : s.slot? planning c.id = some c) :
    (patchSlot planning c.id (.diff shown edited) s).1 = .ok () ∧
      SlotReplaced planning c (c.merge shown edited) s
        (patchSlot planning c.id (.diff shown edited) s).2 := by
  obtain ⟨-, hhour, hminute⟩ := hs.slot_valid hc
  refine patchSlot_replaces ?_ hc (SlotPatch.apply_diff hedited hhour hminute)
  intro id hid
  simp only [SlotPatch.diff, SlotPatch.change] at hid
  split at hid
  · cases hid
  · rename_i hne
    obtain rfl := Option.some.inj hid
    rcases hknown with heq | hknown
    · exact absurd heq.symm hne
    · exact hknown

end State
end HeatingControl
