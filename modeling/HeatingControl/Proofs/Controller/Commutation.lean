import HeatingControl.Proofs.Controller.Edits

/-!
# Independent requests

Two requests that address different records, or different fields of one record, can be made in
either order: each comes to the same, also where it fails, and the state is the same afterwards.
-/
namespace HeatingControl

/-- Of two edits of one value neither notices the other. -/
structure CommuteAt {σ α β : Type} (f : σ → α × σ) (g : σ → β × σ) (x : σ) : Prop where
  left : (f (g x).2).1 = (f x).1
  right : (g (f x).2).1 = (g x).1
  state : (g (f x).2).2 = (f (g x).2).2

section Edits

variable {σ α β ρ τ : Type} {x : σ}

theorem CommuteAt.symm {f : σ → α × σ} {g : σ → β × σ} (h : CommuteAt f g x) :
    CommuteAt g f x :=
  ⟨h.right, h.left, h.state.symm⟩

theorem CommuteAt.guarded {f : σ → Except Error ρ × σ} {g : σ → β × σ} (h : CommuteAt f g x)
    (check : Except ValidationError Unit) : CommuteAt (guarded check f) g x := by
  cases check with
  | error e => exact ⟨rfl, rfl, rfl⟩
  | ok => exact h

theorem CommuteAt.dropped {f : σ → Except Error ρ × σ} {g : σ → β × σ} (h : CommuteAt f g x) :
    CommuteAt (dropped f) g x := by
  refine ⟨?_, h.right, h.state⟩
  change (f (g x).2).1.map _ = (f x).1.map _
  rw [h.left]

variable {p q : α → Bool} {missed missed' : Error} {f g : α → Except Error Unit × α}

/-- Neither change makes a record fit the other, and on a record that both find they commute. -/
theorem changeFirst_commute {l : List α} (hf : ∀ a, q (f a).2 = q a) (hg : ∀ a, p (g a).2 = p a)
    (h : ∀ a ∈ l, p a = true → q a = true → CommuteAt f g a) :
    CommuteAt (changeFirst p missed f) (changeFirst q missed' g) l := by
  induction l with
  | nil => exact ⟨rfl, rfl, rfl⟩
  | cons a l ih =>
    obtain ⟨hleft, hright, hstate⟩ := ih fun b hb => h b (List.mem_cons_of_mem a hb)
    cases hp : p a with
    | true =>
      cases hq : q a with
      | true =>
        obtain ⟨hleft, hright, hstate⟩ := h a (List.mem_cons_self ..) hp hq
        constructor <;> simp [changeFirst, hp, hq, hf, hg, hleft, hright, hstate]
      | false => constructor <;> simp [changeFirst, hp, hq, hf]
    | false =>
      cases hq : q a with
      | true => constructor <;> simp [changeFirst, hp, hq, hg]
      | false => constructor <;> simp [changeFirst, hp, hq, hleft, hright, hstate]

theorem changeFirst_removeAll_commute (hf : ∀ a, q (f a).2 = q a)
    (h : ∀ a, p a = true → q a = false) (l : List α) :
    CommuteAt (changeFirst p missed f) (removeAll q missed') l := by
  induction l with
  | nil => exact ⟨rfl, rfl, rfl⟩
  | cons a l ih =>
    obtain ⟨hleft, hright, hstate⟩ := ih
    simp only [removeAll] at hleft hright hstate
    cases hp : p a with
    | true => constructor <;> simp [changeFirst, removeAll, hp, hf, h a hp]
    | false =>
      cases hq : q a with
      | true => constructor <;> simp [changeFirst, removeAll, hp, hq, hleft, hstate]
      | false =>
        constructor <;>
          simp [changeFirst, removeAll, hp, hq, hleft, hright, hstate, -List.any_eq_true]

theorem any_filter_apart (h : ∀ a, p a = true → q a = false) (l : List α) :
    (l.filter fun a => !q a).any p = l.any p := by
  induction l with
  | nil => rfl
  | cons a l ih =>
    cases hp : p a with
    | true => simp [hp, h a hp]
    | false =>
      cases hq : q a with
      | true => simpa [hp, hq] using ih
      | false => simpa [hp, hq] using ih

theorem removeAll_commute (h : ∀ a, p a = true → q a = false) (l : List α) :
    CommuteAt (removeAll p missed) (removeAll q missed') l := by
  have hback : ∀ a, q a = true → p a = false := by
    intro a hq
    cases hp : p a with
    | true => exact absurd hq (by simp [h a hp])
    | false => rfl
  constructor
  · simp only [removeAll, any_filter_apart h]
  · simp only [removeAll, any_filter_apart hback]
  · simp only [removeAll, List.filter_filter, Bool.and_comm]

end Edits

namespace Table

variable {κ ν : Type} [DecidableEq κ]

theorem adjust_comm {i j : κ} (h : i ≠ j) (f g : ν → ν) (t : List (κ × ν)) :
    adjust i f (adjust j g t) = adjust j g (adjust i f t) := by
  simp only [adjust, List.map_map]
  refine List.map_congr_left fun e _ => ?_
  by_cases hi : e.1 = i
  · have hj : ¬ i = j := h
    simp [hi, hj]
  · by_cases hj : e.1 = j
    · have hi : ¬ j = i := h.symm
      simp [hi, hj]
    · simp [hi, hj]

end Table

def SlotPatch.Disjoint (p q : SlotPatch) : Prop :=
  (p.day = none ∨ q.day = none) ∧ (p.hour = none ∨ q.hour = none) ∧
    (p.minute = none ∨ q.minute = none) ∧ (p.order = none ∨ q.order = none)

def ZonePatch.Disjoint (p q : ZonePatch) : Prop :=
  (p.description = none ∨ q.description = none) ∧ (p.mode = none ∨ q.mode = none)

theorem getD_getD_comm {α : Type} {a b : Option α} (h : a = none ∨ b = none) (x : α) :
    a.getD (b.getD x) = b.getD (a.getD x) := by
  rcases h with rfl | rfl
  · rfl
  · rfl

namespace SlotPatch

def set (p : SlotPatch) (x : Slot) : Slot :=
  ⟨x.id, p.day.getD x.day, p.hour.getD x.hour, p.minute.getD x.minute, p.order.getD x.order⟩

/-- Of a time that is in range only what replaces a part of it can fail. -/
theorem checkTime_getD {hour minute : UInt8} (h : checkTime hour minute = .ok ())
    (hour' minute' : Option UInt8) :
    checkTime (hour'.getD hour) (minute'.getD minute) =
      checkTime (hour'.getD 0) (minute'.getD 0) := by
  have hmidnight : ¬ (0 : UInt8) > 23 := by decide
  have hfull : ¬ (0 : UInt8) > 59 := by decide
  unfold checkTime at h
  split at h
  · cases h
  · rename_i hhour
    split at h
    · cases h
    · rename_i hminute
      cases hour' <;> cases minute' <;>
        simp only [checkTime, Option.getD_none, Option.getD_some, if_neg hhour, if_neg hminute,
          if_neg hmidnight, if_neg hfull]

theorem apply_inRange (p : SlotPatch) {x : Slot} (hx : checkTime x.hour x.minute = .ok ()) :
    p.apply x = (checkTime (p.hour.getD 0) (p.minute.getD 0)).map fun _ => p.set x := by
  simp only [apply, checkTime_getD hx]
  cases checkTime (p.hour.getD 0) (p.minute.getD 0) with
  | error e => rfl
  | ok => rfl

end SlotPatch

namespace State

theorem patched_inRange (p : SlotPatch) {x : Slot} (hx : checkTime x.hour x.minute = .ok ()) :
    patched p x =
      guarded (checkTime (p.hour.getD 0) (p.minute.getD 0)) (fun x => (.ok (), p.set x)) x := by
  rw [patched, p.apply_inRange hx]
  cases checkTime (p.hour.getD 0) (p.minute.getD 0) with
  | error e => rfl
  | ok => rfl

theorem patched_keeps_range (p : SlotPatch) {x : Slot} (hx : checkTime x.hour x.minute = .ok ()) :
    checkTime (patched p x).2.hour (patched p x).2.minute = .ok () := by
  unfold patched
  cases happly : p.apply x with
  | error e => exact hx
  | ok y => exact checkTime_ok_iff.mpr (SlotPatch.apply_ok happly).2.2

theorem patched_id (p : SlotPatch) (x : Slot) : (patched p x).2.id = x.id := by
  unfold patched
  cases happly : p.apply x with
  | error e => rfl
  | ok y => exact (SlotPatch.apply_ok happly).1

theorem patched_commute {p q : SlotPatch} (h : p.Disjoint q) {x : Slot}
    (hx : checkTime x.hour x.minute = .ok ()) : CommuteAt (patched p) (patched q) x := by
  have hset : p.set (q.set x) = q.set (p.set x) := by
    obtain ⟨hday, hhour, hminute, horder⟩ := h
    simp only [SlotPatch.set, getD_getD_comm hday, getD_getD_comm hhour, getD_getD_comm hminute,
      getD_getD_comm horder]
  have hsets : CommuteAt (fun x => ((.ok () : Except Error Unit), p.set x))
      (fun x => ((.ok () : Except Error Unit), q.set x)) x := ⟨rfl, rfl, hset.symm⟩
  obtain ⟨hleft, hright, hstate⟩ :=
    ((hsets.guarded (checkTime (p.hour.getD 0) (p.minute.getD 0))).symm.guarded
      (checkTime (q.hour.getD 0) (q.minute.getD 0))).symm
  have hp := patched_inRange p (patched_keeps_range q hx)
  have hq := patched_inRange q (patched_keeps_range p hx)
  rw [patched_inRange p hx] at hq
  rw [patched_inRange q hx] at hp
  constructor
  · rw [patched_inRange q hx, hp, patched_inRange p hx, hleft]
  · rw [patched_inRange p hx, hq, patched_inRange q hx, hright]
  · rw [patched_inRange p hx, hq, patched_inRange q hx, hp, hstate]

section Planning

variable {ρ τ : Type} {i j : PlanningId} {t : List (PlanningId × List Slot)}
  {f : List Slot → Except Error ρ × List Slot} {g : List Slot → Except Error τ × List Slot}

theorem inPlanning_of_none (h : Table.get? i t = none) :
    inPlanning i f t = (.error (.notFound "Planning" i.display), t) := by
  simp only [inPlanning, h]

theorem inPlanning_fst {slots : List Slot} (h : Table.get? i t = some slots) :
    (inPlanning i f t).1 = (f slots).1 := by
  simp only [inPlanning, h]

theorem inPlanning_snd {slots : List Slot} (h : Table.get? i t = some slots) :
    (inPlanning i f t).2 = Table.adjust i (fun _ => (f slots).2) t := by
  simp only [inPlanning, h]

theorem get?_inPlanning_of_ne (h : j ≠ i) :
    Table.get? j (inPlanning i f t).2 = Table.get? j t := by
  cases hfound : Table.get? i t with
  | none => rw [inPlanning_of_none hfound]
  | some slots =>
    rw [inPlanning_snd hfound]
    exact Table.get?_adjust_of_ne h _ _

theorem get?_inPlanning {slots : List Slot} (h : Table.get? i t = some slots) :
    Table.get? i (inPlanning i f t).2 = some (f slots).2 := by
  rw [inPlanning_snd h, Table.get?_adjust, h]
  rfl

theorem inPlanning_apart (h : i ≠ j) : CommuteAt (inPlanning i f) (inPlanning j g) t := by
  have hi : Table.get? i (inPlanning j g t).2 = Table.get? i t := get?_inPlanning_of_ne h
  have hj : Table.get? j (inPlanning i f t).2 = Table.get? j t := get?_inPlanning_of_ne h.symm
  cases hfi : Table.get? i t with
  | none =>
    rw [hfi] at hi
    constructor <;> simp only [inPlanning_of_none hfi, inPlanning_of_none hi]
  | some a =>
    rw [hfi] at hi
    cases hfj : Table.get? j t with
    | none =>
      rw [hfj] at hj
      constructor <;> simp only [inPlanning_of_none hfj, inPlanning_of_none hj]
    | some b =>
      rw [hfj] at hj
      constructor
      · rw [inPlanning_fst hi, inPlanning_fst hfi]
      · rw [inPlanning_fst hj, inPlanning_fst hfj]
      · rw [inPlanning_snd hi, inPlanning_snd hj, inPlanning_snd hfi, inPlanning_snd hfj]
        exact Table.adjust_comm h.symm _ _ t

theorem inPlanning_commute (h : ∀ slots, Table.get? i t = some slots → CommuteAt f g slots) :
    CommuteAt (inPlanning i f) (inPlanning i g) t := by
  cases hfound : Table.get? i t with
  | none => constructor <;> simp only [inPlanning_of_none hfound]
  | some slots =>
    obtain ⟨hleft, hright, hstate⟩ := h slots hfound
    constructor
    · rw [inPlanning_fst (get?_inPlanning hfound), inPlanning_fst hfound, hleft]
    · rw [inPlanning_fst (get?_inPlanning hfound), inPlanning_fst hfound, hright]
    · rw [inPlanning_snd (get?_inPlanning hfound), inPlanning_snd (get?_inPlanning hfound),
        inPlanning_snd hfound, inPlanning_snd hfound, Table.adjust_adjust, Table.adjust_adjust,
        hstate]

/-- An edit that works on the slots of one planning alone, behind any checks. -/
inductive Under (planning : PlanningId) : {ρ : Type} →
    (List (PlanningId × List Slot) → Except Error ρ × List (PlanningId × List Slot)) → Prop
  | slots {ρ : Type} (f : List Slot → Except Error ρ × List Slot) :
    Under planning (inPlanning planning f)
  | guarded {ρ : Type}
      {F : List (PlanningId × List Slot) → Except Error ρ × List (PlanningId × List Slot)}
      (check : Except ValidationError Unit) (h : Under planning F) :
    Under planning (guarded check F)
  | dropped {ρ : Type}
      {F : List (PlanningId × List Slot) → Except Error ρ × List (PlanningId × List Slot)}
      (h : Under planning F) :
    Under planning (dropped F)

theorem Under.commute
    {F : List (PlanningId × List Slot) → Except Error ρ × List (PlanningId × List Slot)}
    {G : List (PlanningId × List Slot) → Except Error τ × List (PlanningId × List Slot)}
    (hF : Under i F) (hG : Under j G) (h : i ≠ j) : CommuteAt F G t := by
  induction hF with
  | guarded check _ ih => exact ih.guarded check
  | dropped _ ih => exact ih.dropped
  | slots f =>
    refine CommuteAt.symm ?_
    induction hG with
    | guarded check _ ih => exact ih.guarded check
    | dropped _ ih => exact ih.dropped
    | slots g => exact inPlanning_apart h.symm

end Planning

inductive OnSlot (slot : SlotId) : {ρ : Type} → (List Slot → Except Error ρ × List Slot) → Prop
  | change (patch : SlotPatch) : OnSlot slot (changeSlot slot patch)
  | remove : OnSlot slot (removeSlot slot)

theorem OnSlot.commute {ρ τ : Type} {i j : SlotId} {f : List Slot → Except Error ρ × List Slot}
    {g : List Slot → Except Error τ × List Slot}
    (hf : OnSlot i f) (hg : OnSlot j g) (h : i ≠ j) (slots : List Slot) :
    CommuteAt f g slots := by
  have hkept : ∀ (slot : SlotId) (patch : SlotPatch) (x : Slot),
      decide ((patched patch x).2.id = slot) = decide (x.id = slot) := by
    intro slot patch x
    rw [patched_id]
  have hij : ∀ x : Slot, decide (x.id = i) = true → decide (x.id = j) = false := by
    intro x hx
    simpa [of_decide_eq_true hx] using h
  have hji : ∀ x : Slot, decide (x.id = j) = true → decide (x.id = i) = false := by
    intro x hx
    simpa [of_decide_eq_true hx] using h.symm
  cases hf with
  | change p =>
    cases hg with
    | change q =>
      refine changeFirst_commute (hkept j p) (hkept i q) ?_
      intro x _ hi hj
      rw [hij x hi] at hj
      cases hj
    | remove => exact changeFirst_removeAll_commute (hkept j p) hij slots
  | remove =>
    cases hg with
    | change q => exact (changeFirst_removeAll_commute (hkept i q) hji slots).symm
    | remove => exact removeAll_commute hij slots

theorem changeSlot_commute {slot : SlotId} {p q : SlotPatch} (h : p.Disjoint q)
    {slots : List Slot} (hrange : ∀ x ∈ slots, checkTime x.hour x.minute = .ok ()) :
    CommuteAt (changeSlot slot p) (changeSlot slot q) slots := by
  refine changeFirst_commute ?_ ?_ ?_
  · intro x
    rw [patched_id]
  · intro x
    rw [patched_id]
  · intro x hx _ _
    exact patched_commute h (hrange x hx)

variable {s : State}

theorem zoneEdit_commute {i j : ZoneId} {p q : ZonePatch} (h : i = j → p.Disjoint q)
    (zones : List Zone) : CommuteAt (s.zoneEdit i p) (s.zoneEdit j q) zones := by
  suffices hset : ∀ z : Zone, decide (z.id = i) = true → decide (z.id = j) = true →
      p.set (q.set z) = q.set (p.set z) by
    refine CommuteAt.guarded (CommuteAt.guarded (CommuteAt.symm ?_) _) _
    refine CommuteAt.guarded (CommuteAt.guarded (CommuteAt.symm ?_) _) _
    refine changeFirst_commute (fun _ => rfl) (fun _ => rfl) ?_
    intro z _ hi hj
    exact ⟨rfl, rfl, (hset z hi hj).symm⟩
  intro z hi hj
  have hij : i = j := (of_decide_eq_true hi).symm.trans (of_decide_eq_true hj)
  obtain ⟨hdescription, hmode⟩ := h hij
  have htrimmed : p.description.map Text.trim = none ∨ q.description.map Text.trim = none := by
    rcases hdescription with hp | hq
    · exact Or.inl (by rw [hp]; rfl)
    · exact Or.inr (by rw [hq]; rfl)
  simp only [ZonePatch.set, getD_getD_comm htrimmed, getD_getD_comm hmode]

theorem planningEdit_commute {i j : PlanningId} (h : i ≠ j) (name name' : PlanningName)
    (plannings : List Planning) :
    CommuteAt (planningEdit i name) (planningEdit j name') plannings := by
  refine CommuteAt.guarded (CommuteAt.symm (CommuteAt.guarded (CommuteAt.symm ?_) _)) _
  refine changeFirst_commute (fun _ => rfl) (fun _ => rfl) ?_
  intro p _ hi hj
  exact absurd ((of_decide_eq_true hi).symm.trans (of_decide_eq_true hj)) h

theorem accountEdit_commute {i j : AccountId} (h : i ≠ j) (reset reset' : PasswordReset)
    (accounts : List StoredAccount) :
    CommuteAt (accountEdit i reset) (accountEdit j reset') accounts := by
  refine CommuteAt.guarded (CommuteAt.symm (CommuteAt.guarded (CommuteAt.symm ?_) _)) _
  refine changeFirst_commute (fun _ => rfl) (fun _ => rfl) ?_
  intro a _ hi hj
  exact absurd ((of_decide_eq_true hi).symm.trans (of_decide_eq_true hj)) h

end State

namespace Call

/-- The kind of record that a call changes, for calls that change one record or the slots of one
planning. -/
def kind? : Call → Option RecordKind
  | .operation (.putOverride _) => some .override
  | .operation (.patchZone _ _) => some .zone
  | .operation (.renamePlanning _ _) => some .planning
  | .operation (.createSlot _ _) | .operation (.patchSlot _ _ _) | .operation (.deleteSlot _ _) =>
    some .slot
  | .operation (.resetPassword _ _) => some .account
  | .addSlot _ _ => some .slot
  | _ => none

def slotsOf? : Call → Option PlanningId
  | .operation (.createSlot planning _) | .operation (.patchSlot planning _ _)
  | .operation (.deleteSlot planning _) | .addSlot planning _ => some planning
  | _ => none

def slot? : Call → Option (PlanningId × SlotId)
  | .operation (.patchSlot planning slot _) | .operation (.deleteSlot planning slot) =>
    some (planning, slot)
  | _ => none

/-- Calls with different targets. -/
inductive Independent : Call → Call → Prop
  | kinds {c d : Call} {k l : RecordKind} (hc : c.kind? = some k) (hd : d.kind? = some l)
      (h : k ≠ l) : Independent c d
  | zones {i j : ZoneId} (p q : ZonePatch) (h : i ≠ j) :
    Independent (.operation (.patchZone i p)) (.operation (.patchZone j q))
  | zoneFields (i : ZoneId) {p q : ZonePatch} (h : p.Disjoint q) :
    Independent (.operation (.patchZone i p)) (.operation (.patchZone i q))
  | plannings {i j : PlanningId} (name name' : PlanningName) (h : i ≠ j) :
    Independent (.operation (.renamePlanning i name)) (.operation (.renamePlanning j name'))
  | accounts {i j : AccountId} (reset reset' : PasswordReset) (h : i ≠ j) :
    Independent (.operation (.resetPassword i reset)) (.operation (.resetPassword j reset'))
  | slotLists {c d : Call} {i j : PlanningId} (hc : c.slotsOf? = some i) (hd : d.slotsOf? = some j)
      (h : i ≠ j) : Independent c d
  | slots {c d : Call} {planning : PlanningId} {i j : SlotId} (hc : c.slot? = some (planning, i))
      (hd : d.slot? = some (planning, j)) (h : i ≠ j) : Independent c d
  | slotFields (planning : PlanningId) (slot : SlotId) {p q : SlotPatch} (h : p.Disjoint q) :
    Independent (.operation (.patchSlot planning slot p))
      (.operation (.patchSlot planning slot q))

variable {s : State} {c d : Call}

theorem exists_edits {k : RecordKind} (h : c.kind? = some k) (s : State) :
    ∃ f, c.Edits s k f := by
  cases c with
  | addPlanning => cases h
  | addSlot planning slot =>
    cases h
    exact ⟨_, .addSlot planning slot⟩
  | operation op =>
    cases op <;> cases h
    case operation.putOverride.refl value => exact ⟨_, .putOverride value⟩
    case operation.patchZone.refl id patch => exact ⟨_, .patchZone id patch⟩
    case operation.renamePlanning.refl id name => exact ⟨_, .renamePlanning id name⟩
    case operation.createSlot.refl planning slot => exact ⟨_, .createSlot planning slot⟩
    case operation.patchSlot.refl planning slot patch => exact ⟨_, .patchSlot planning slot patch⟩
    case operation.deleteSlot.refl planning slot => exact ⟨_, .deleteSlot planning slot⟩
    case operation.resetPassword.refl id reset => exact ⟨_, .resetPassword id reset⟩

theorem exists_under {i : PlanningId} (h : c.slotsOf? = some i) (s : State) :
    ∃ f, c.Edits s .slot f ∧ State.Under i f := by
  have hnew : ∀ slot, State.Under i (s.newSlotEdit i slot) := fun slot =>
    .guarded _ (.guarded _ (.slots _))
  cases c with
  | addPlanning => cases h
  | addSlot planning slot =>
    cases h
    exact ⟨_, .addSlot i slot, hnew slot⟩
  | operation op =>
    cases op <;> cases h
    case operation.createSlot.refl slot => exact ⟨_, .createSlot i slot, .dropped (hnew slot)⟩
    case operation.patchSlot.refl slot patch =>
      exact ⟨_, .patchSlot i slot patch, .guarded _ (.slots _)⟩
    case operation.deleteSlot.refl slot => exact ⟨_, .deleteSlot i slot, .slots _⟩

theorem exists_onSlot {planning : PlanningId} {i : SlotId} (h : c.slot? = some (planning, i))
    (s : State) : ∃ check f, State.OnSlot i f ∧
      c.Edits s .slot (guarded check (State.inPlanning planning f)) := by
  cases c with
  | addPlanning => cases h
  | addSlot => cases h
  | operation op =>
    cases op <;> cases h
    case operation.patchSlot.refl patch => exact ⟨_, _, .change patch, .patchSlot planning i patch⟩
    case operation.deleteSlot.refl => exact ⟨.ok (), _, .remove, .deleteSlot planning i⟩

theorem Independent.symm (h : c.Independent d) : d.Independent c := by
  cases h with
  | kinds hc hd h => exact .kinds hd hc h.symm
  | zones p q h => exact .zones q p h.symm
  | zoneFields i h => exact .zoneFields i ⟨h.1.symm, h.2.symm⟩
  | plannings name name' h => exact .plannings name' name h.symm
  | accounts reset reset' h => exact .accounts reset' reset h.symm
  | slotLists hc hd h => exact .slotLists hd hc h.symm
  | slots hc hd h => exact .slots hd hc h.symm
  | slotFields planning slot h =>
    exact .slotFields planning slot ⟨h.1.symm, h.2.1.symm, h.2.2.1.symm, h.2.2.2.symm⟩

theorem Independent.exists_edits (h : c.Independent d) (s : State) : ∃ k f, c.Edits s k f := by
  cases h with
  | kinds hc _ _ => exact ⟨_, Call.exists_edits hc s⟩
  | zones p _ _ => exact ⟨_, _, .patchZone _ p⟩
  | zoneFields i _ => exact ⟨_, _, .patchZone i _⟩
  | plannings name _ _ => exact ⟨_, _, .renamePlanning _ name⟩
  | accounts reset _ _ => exact ⟨_, _, .resetPassword _ reset⟩
  | slotLists hc _ _ =>
    obtain ⟨f, hf, -⟩ := exists_under hc s
    exact ⟨_, f, hf⟩
  | slots hc _ _ =>
    obtain ⟨check, f, -, hf⟩ := exists_onSlot hc s
    exact ⟨_, _, hf⟩
  | slotFields planning slot _ => exact ⟨_, _, .patchSlot planning slot _⟩

end Call

namespace State

variable {grace : Nat} {t u : Moment} {s : State} {c d : Call} {k l : RecordKind}

/-- Made at two moments, one after the other in either order, two calls come to the same and leave
the same. -/
structure SameInEitherOrder (run : Moment → (c : Call) → Change c.Answer) (t u : Moment)
    (c d : Call) (s : State) : Prop where
  left : (run u c (run t d s).2).1 = (run t c s).1
  right : (run u d (run t c s).2).1 = (run t d s).1
  state : (run u d (run t c s).2).2 = (run u c (run t d s).2).2

/-- Edits that commute at the records of their kind commute at the state. -/
theorem performCall_commute (hn : (Table.keys s.slots).Nodup) {f : k.Part → c.Result × k.Part}
    {g : k.Part → d.Result × k.Part} (hf : c.Edits s k f) (hg : d.Edits s k g)
    (h : CommuteAt f g (k.part s)) : SameInEitherOrder (performCall grace) t u c d s := by
  have hsame := SameReferences.refl s
  have hc := hf.perform hn hsame grace t
  have hd := hg.perform hn hsame grace t
  have hcd := hg.perform hn (hf.sameReferences hsame) grace u
  have hdc := hf.perform hn (hg.sameReferences hsame) grace u
  constructor <;>
    simp only [hc, hd, hcd, hdc, RecordKind.part_put, RecordKind.put_put, h.left, h.right, h.state]

theorem performCall_commute_of_ne (hn : (Table.keys s.slots).Nodup)
    {f : k.Part → c.Result × k.Part} {g : l.Part → d.Result × l.Part} (hf : c.Edits s k f)
    (hg : d.Edits s l g) (h : k ≠ l) : SameInEitherOrder (performCall grace) t u c d s := by
  have hsame := SameReferences.refl s
  have hc := hf.perform hn hsame grace t
  have hd := hg.perform hn hsame grace t
  have hcd := hg.perform hn (hf.sameReferences hsame) grace u
  have hdc := hf.perform hn (hg.sameReferences hsame) grace u
  constructor <;>
    simp only [hc, hd, hcd, hdc, RecordKind.part_put_of_ne h, RecordKind.part_put_of_ne h.symm,
      RecordKind.put_comm h]

theorem Integrity.performCall_commute (hs : Integrity s) (h : c.Independent d) :
    SameInEitherOrder (performCall grace) t u c d s := by
  have hn := hs.slot_keys_distinct
  cases h with
  | kinds hc hd h =>
    obtain ⟨f, hf⟩ := Call.exists_edits hc s
    obtain ⟨g, hg⟩ := Call.exists_edits hd s
    exact performCall_commute_of_ne hn hf hg h
  | zones p q h =>
    refine State.performCall_commute hn (.patchZone _ p) (.patchZone _ q) ?_
    exact zoneEdit_commute (fun hsame => absurd hsame h) s.zones
  | zoneFields id h =>
    refine State.performCall_commute hn (.patchZone id _) (.patchZone id _) ?_
    exact zoneEdit_commute (fun _ => h) s.zones
  | plannings name name' h =>
    refine State.performCall_commute hn (.renamePlanning _ name) (.renamePlanning _ name') ?_
    exact planningEdit_commute h name name' s.plannings
  | accounts reset reset' h =>
    refine State.performCall_commute hn (.resetPassword _ reset) (.resetPassword _ reset') ?_
    exact accountEdit_commute h reset reset' s.accounts
  | slotLists hc hd h =>
    obtain ⟨f, hf, hunder⟩ := Call.exists_under hc s
    obtain ⟨g, hg, hunder'⟩ := Call.exists_under hd s
    exact State.performCall_commute hn hf hg (hunder.commute hunder' h)
  | slots hc hd h =>
    obtain ⟨check, f, hslot, hf⟩ := Call.exists_onSlot hc s
    obtain ⟨check', g, hslot', hg⟩ := Call.exists_onSlot hd s
    refine State.performCall_commute hn hf hg ?_
    refine CommuteAt.guarded (CommuteAt.symm (CommuteAt.guarded (CommuteAt.symm ?_) _)) _
    exact inPlanning_commute fun slots _ => hslot.commute hslot' h slots
  | slotFields planning slot h =>
    refine State.performCall_commute hn (.patchSlot planning slot _) (.patchSlot planning slot _) ?_
    refine CommuteAt.guarded (CommuteAt.symm (CommuteAt.guarded (CommuteAt.symm ?_) _)) _
    refine inPlanning_commute fun slots hfound => changeSlot_commute h ?_
    intro x hx
    exact checkTime_ok_iff.mpr (hs.slots_valid _ (Table.mem_of_get? hfound) x hx).2

theorem Integrity.performCall_idle (hs : Integrity s) (h : c.Independent d)
    (hidle : s.rebootingUntil = none) :
    (performCall grace t c s).2.rebootingUntil = none := by
  obtain ⟨k, f, hf⟩ := h.exists_edits s
  rw [hf.perform hs.slot_keys_distinct (.refl s)]
  exact (RecordKind.rebootingUntil_put ..).trans hidle

/-- Two independent calls can be made in either order, as long as no reboot ends between them: each
comes to the same, a value or an error, and the state afterwards is the same. For two calls at one
moment (`u = t`) the last hypothesis is trivial (`id`): no reboot ends between them. -/
theorem independent_calls_commute (h : Reachable grace s) (hcd : c.Independent d)
    (hreboot : s.OnlineAt u.now → s.OnlineAt t.now) :
    SameInEitherOrder (step grace) t u c d s := by
  by_cases honline : s.OnlineAt t.now
  · have hs := h.integrity.boot t.now
    have hc : (performCall grace t c (s.boot t.now)).2.rebootingUntil = none :=
      hs.performCall_idle hcd honline
    have hd : (performCall grace t d (s.boot t.now)).2.rebootingUntil = none :=
      hs.performCall_idle hcd.symm honline
    have hcommute : SameInEitherOrder (performCall grace) t u c d (s.boot t.now) :=
      hs.performCall_commute hcd
    obtain ⟨hleft, hright, hstate⟩ := hcommute
    constructor <;>
      simp only [step_of_online honline, step_of_idle hc, step_of_idle hd, hleft, hright, hstate]
  · have hlater : ¬ s.OnlineAt u.now := fun hu => honline (hreboot hu)
    have hdue : ¬ s.BootDue t.now := fun hdue => honline (boot_of_due hdue)
    constructor <;>
      simp only [step_of_offline honline, boot_of_not_due hdue, step_of_offline hlater]

/-- Two patches of one zone, the second of which names a planning that is not there; and a slot
that is removed while another one of its planning is moved. -/
theorem zone_fields_and_slots_in_either_order :
    let t : Moment := ⟨0, ⟨.monday, 8, 0⟩⟩
    let u : Moment := ⟨7, ⟨.monday, 8, 0⟩⟩
    let s := seeded 0
    let rename : Call := .operation (.patchZone ⟨"e1z1"⟩ ⟨some " kitchen ", none⟩)
    let move : Call := .operation (.patchZone ⟨"e1z1"⟩ ⟨none, some (.planning ⟨9⟩)⟩)
    let remove : Call := .operation (.deleteSlot ⟨1⟩ ⟨0⟩)
    let shift : Call := .operation (.patchSlot ⟨1⟩ ⟨1⟩ ⟨none, some 18, none, none⟩)
    Reachable 10 s ∧ (s.OnlineAt u.now → s.OnlineAt t.now) ∧
      rename.Independent move ∧ SameInEitherOrder (step 10) t u rename move s ∧
      remove.Independent shift ∧ SameInEitherOrder (step 10) t u remove shift s := by
  intro t u s rename move remove shift
  have hrun : Reachable 10 s := .seeded 0
  have hreboot : s.OnlineAt u.now → s.OnlineAt t.now := fun _ => rfl
  have hfields : rename.Independent move := .zoneFields _ ⟨Or.inr rfl, Or.inl rfl⟩
  have hslots : remove.Independent shift := .slots rfl rfl (by decide)
  exact ⟨hrun, hreboot, hfields, independent_calls_commute hrun hfields hreboot,
    hslots, independent_calls_commute hrun hslots hreboot⟩

end State

end HeatingControl
