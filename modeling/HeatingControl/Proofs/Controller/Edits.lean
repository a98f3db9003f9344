import HeatingControl.Proofs.Controller.Integrity

/-!
# Requests on one kind of record

Each of the requests that change an override, a zone, the name of a planning, the slots of a
planning or a password works on the records of one kind. Of the rest of the state it sees the known
orders and which plannings there are, and no request of these changes that.
-/
namespace HeatingControl

inductive RecordKind where
  | override
  | zone
  | planning
  | slot
  | account
  deriving DecidableEq, Repr

namespace RecordKind

abbrev Part : RecordKind → Type
  | .override => Override
  | .zone => List Zone
  | .planning => List Planning
  | .slot => List (PlanningId × List Slot)
  | .account => List StoredAccount

def part (s : State) : (k : RecordKind) → k.Part
  | .override => s.override
  | .zone => s.zones
  | .planning => s.plannings
  | .slot => s.slots
  | .account => s.accounts

def put (s : State) : (k : RecordKind) → k.Part → State
  | .override, value => { s with override := value }
  | .zone, zones => { s with zones := zones }
  | .planning, plannings => { s with plannings := plannings }
  | .slot, slots => { s with slots := slots }
  | .account, accounts => { s with accounts := accounts }

variable {k l : RecordKind}

@[simp] theorem part_put (s : State) (x : k.Part) : k.part (k.put s x) = x := by
  cases k <;> rfl

@[simp] theorem put_put (s : State) (x y : k.Part) : k.put (k.put s x) y = k.put s y := by
  cases k <;> rfl

theorem part_put_of_ne (h : k ≠ l) (s : State) (x : l.Part) : k.part (l.put s x) = k.part s := by
  cases k <;> cases l <;> first | rfl | exact absurd rfl h

theorem put_comm (h : k ≠ l) (s : State) (x : k.Part) (y : l.Part) :
    k.put (l.put s y) x = l.put (k.put s x) y := by
  cases k <;> cases l <;> first | rfl | exact absurd rfl h

theorem rebootingUntil_put (s : State) (x : k.Part) :
    (k.put s x).rebootingUntil = s.rebootingUntil := by
  cases k <;> rfl

end RecordKind

section Edits

variable {σ α ρ : Type}

def guarded (check : Except ValidationError Unit) (f : σ → Except Error ρ × σ) :
    σ → Except Error ρ × σ := fun x =>
  match check with
  | .error e => (.error (.validation e), x)
  | .ok () => f x

def dropped (f : σ → Except Error ρ × σ) : σ → Except Error Unit × σ := fun x =>
  ((f x).1.map fun _ => (), (f x).2)

def changeFirst (fits : α → Bool) (missing : Error) (f : α → Except Error Unit × α) :
    List α → Except Error Unit × List α
  | [] => (.error missing, [])
  | a :: rest =>
    if fits a then ((f a).1, (f a).2 :: rest)
    else ((changeFirst fits missing f rest).1, a :: (changeFirst fits missing f rest).2)

def removeAll (fits : α → Bool) (missing : Error) (l : List α) : Except Error Unit × List α :=
  (if l.any fits then .ok () else .error missing, l.filter fun a => !fits a)

variable {fits : α → Bool} {missing : Error} {f : α → Except Error Unit × α}

theorem changeFirst_of_find? {l : List α} {a : α} (h : l.find? fits = some a) :
    changeFirst fits missing f l = ((f a).1, Table.updateFirst fits (fun _ => (f a).2) l) := by
  induction l with
  | nil => cases h
  | cons b l ih =>
    by_cases hb : fits b = true
    · obtain rfl : b = a := by simpa [hb] using h
      simp [changeFirst, Table.updateFirst, hb]
    · have hrest := ih (by simpa [hb] using h)
      simp [changeFirst, Table.updateFirst, hb, hrest]

theorem changeFirst_of_none {l : List α} (h : l.find? fits = none) :
    changeFirst fits missing f l = (.error missing, l) := by
  induction l with
  | nil => rfl
  | cons b l ih =>
    obtain ⟨hb, hrest⟩ : ¬ fits b = true ∧ l.find? fits = none := by
      rw [List.find?_eq_none] at h ⊢
      exact ⟨h b (List.mem_cons_self ..), fun x hx => h x (List.mem_cons_of_mem b hx)⟩
    simp [changeFirst, hb, ih hrest]

theorem changeFirst_always (fits : α → Bool) (missing : Error) (g : α → α) (l : List α) :
    changeFirst fits missing (fun a => (.ok (), g a)) l =
      if l.any fits then (.ok (), Table.updateFirst fits g l) else (.error missing, l) := by
  induction l with
  | nil => rfl
  | cons a l ih =>
    by_cases ha : fits a = true
    · simp [changeFirst, Table.updateFirst, ha]
    · by_cases hl : l.any fits = true
      · simp [changeFirst, Table.updateFirst, ha, hl, ih]
      · simp [changeFirst, ha, hl, ih]

end Edits

def ZonePatch.set (p : ZonePatch) (z : Zone) : Zone :=
  { z with
    description := (p.description.map Text.trim).getD z.description
    mode := p.mode.getD z.mode }

namespace State

variable {s u : State}

/-- What a request sees of the records of other kinds. -/
structure SameReferences (s u : State) : Prop where
  orders : u.orders = s.orders
  plannings : ∀ id, u.hasPlanning id = s.hasPlanning id
  slot_keys : Table.keys u.slots = Table.keys s.slots

theorem SameReferences.refl (s : State) : SameReferences s s :=
  ⟨rfl, fun _ => rfl, rfl⟩

theorem SameReferences.checkOrder (h : SameReferences s u) : u.checkOrder = s.checkOrder := by
  funext id
  have hknown : u.hasOrder id = s.hasOrder id := by rw [hasOrder, hasOrder, h.orders]
  simp only [State.checkOrder, hknown]

theorem SameReferences.checkMode (h : SameReferences s u) : u.checkMode = s.checkMode := by
  funext m
  cases m with
  | fixed order => exact congrFun h.checkOrder order
  | planning id => simp only [State.checkMode, h.plannings id]

def overrideEdit (s : State) (value : Override) : Override → Except Error Unit × Override :=
  guarded (checkSome s.checkOrder value.order?) fun _ => (.ok (), value)

def zoneEdit (s : State) (id : ZoneId) (patch : ZonePatch) :
    List Zone → Except Error Unit × List Zone :=
  guarded (checkSome s.checkMode patch.mode) <|
  guarded ((checkDescription patch.description).map fun _ => ()) <|
  changeFirst (fun z => z.id = id) (.notFound "Zone" id.text) fun z => (.ok (), patch.set z)

def planningEdit (id : PlanningId) (name : PlanningName) :
    List Planning → Except Error Unit × List Planning :=
  guarded ((PlanningName.make name.name).map fun _ => ()) <|
  changeFirst (fun p => p.id = id) (.notFound "Planning" id.display) fun p =>
    (.ok (), { p with name := Text.trim name.name })

def accountEdit (id : AccountId) (reset : PasswordReset) :
    List StoredAccount → Except Error Unit × List StoredAccount :=
  guarded ((PasswordReset.make reset.password).map fun _ => ()) <|
  changeFirst (fun a => a.account.id = id) (.notFound "Account" id.text) fun a =>
    (.ok (), { a with password := reset.password })

def inPlanning {ρ : Type} (planning : PlanningId) (f : List Slot → Except Error ρ × List Slot)
    (t : List (PlanningId × List Slot)) : Except Error ρ × List (PlanningId × List Slot) :=
  match Table.get? planning t with
  | none => (.error (.notFound "Planning" planning.display), t)
  | some slots => ((f slots).1, Table.adjust planning (fun _ => (f slots).2) t)

def appendSlot (slot : NewSlot) (slots : List Slot) : Except Error Slot × List Slot :=
  if slots.length ≥ Limits.slotsPerPlanning then
    (.error (.validation (.limitReached "slots" Limits.slotsPerPlanning)), slots)
  else
    let slot := slot.toSlot ⟨nextNumber (slots.map fun x => x.id.number)⟩
    (.ok slot, slots ++ [slot])

def newSlotEdit (s : State) (planning : PlanningId) (slot : NewSlot) :
    List (PlanningId × List Slot) → Except Error Slot × List (PlanningId × List Slot) :=
  guarded slot.validate <|
  guarded (s.checkOrder slot.order) <|
  inPlanning planning (appendSlot slot)

def patched (patch : SlotPatch) (x : Slot) : Except Error Unit × Slot :=
  match patch.apply x with
  | .error e => (.error (.validation e), x)
  | .ok y => (.ok (), y)

def changeSlot (slot : SlotId) (patch : SlotPatch) : List Slot → Except Error Unit × List Slot :=
  changeFirst (fun x => x.id = slot) (.notFound "Slot" slot.display) (patched patch)

def removeSlot (slot : SlotId) : List Slot → Except Error Unit × List Slot :=
  removeAll (fun x => x.id = slot) (.notFound "Slot" slot.display)

end State

/-- What a call does to the records of its kind, for those that work on one kind alone. -/
inductive Call.Edits (s : State) : (c : Call) → (k : RecordKind) →
    (k.Part → c.Result × k.Part) → Prop
  | putOverride (value : Override) :
    Edits s (.operation (.putOverride value)) .override (s.overrideEdit value)
  | patchZone (id : ZoneId) (patch : ZonePatch) :
    Edits s (.operation (.patchZone id patch)) .zone (s.zoneEdit id patch)
  | renamePlanning (id : PlanningId) (name : PlanningName) :
    Edits s (.operation (.renamePlanning id name)) .planning (State.planningEdit id name)
  | addSlot (planning : PlanningId) (slot : NewSlot) :
    Edits s (.addSlot planning slot) .slot (s.newSlotEdit planning slot)
  | createSlot (planning : PlanningId) (slot : NewSlot) :
    Edits s (.operation (.createSlot planning slot)) .slot (dropped (s.newSlotEdit planning slot))
  | patchSlot (planning : PlanningId) (slot : SlotId) (patch : SlotPatch) :
    Edits s (.operation (.patchSlot planning slot patch)) .slot
      (guarded (State.checkSome s.checkOrder patch.order)
        (State.inPlanning planning (State.changeSlot slot patch)))
  | deleteSlot (planning : PlanningId) (slot : SlotId) :
    Edits s (.operation (.deleteSlot planning slot)) .slot
      (State.inPlanning planning (State.removeSlot slot))
  | resetPassword (id : AccountId) (reset : PasswordReset) :
    Edits s (.operation (.resetPassword id reset)) .account (State.accountEdit id reset)

namespace State

variable {s u : State} {grace : Nat} {t : Moment}

theorem putOverride_eq (hsame : SameReferences s u) (value : Override) :
    putOverride value u =
      ((s.overrideEdit value u.override).1,
        { u with override := (s.overrideEdit value u.override).2 }) := by
  unfold putOverride overrideEdit guarded
  rw [hsame.checkOrder]
  cases checkSome s.checkOrder value.order? with
  | error e => rfl
  | ok => rfl

theorem checkDescription_ok {d r : Option String} (h : checkDescription d = .ok r) :
    r = d.map Text.trim := by
  cases d with
  | none =>
    cases h
    rfl
  | some text =>
    simp only [checkDescription] at h
    split at h
    · cases h
    · cases h
      rfl

theorem patchZone_eq (hsame : SameReferences s u) (id : ZoneId) (patch : ZonePatch) :
    patchZone id patch u =
      ((s.zoneEdit id patch u.zones).1, { u with zones := (s.zoneEdit id patch u.zones).2 }) := by
  unfold patchZone zoneEdit guarded
  rw [hsame.checkMode]
  cases checkSome s.checkMode patch.mode with
  | error e => rfl
  | ok =>
    cases hdescription : checkDescription patch.description with
    | error e => rfl
    | ok description =>
      obtain rfl := checkDescription_ok hdescription
      simp only [Except.map, changeFirst_always]
      split
      · rfl
      · rfl

theorem renamePlanning_eq (u : State) (id : PlanningId) (name : PlanningName) :
    renamePlanning id name u =
      ((planningEdit id name u.plannings).1,
        { u with plannings := (planningEdit id name u.plannings).2 }) := by
  unfold renamePlanning planningEdit guarded
  cases hmake : PlanningName.make name.name with
  | error e => rfl
  | ok made =>
    obtain rfl : made = ⟨Text.trim name.name⟩ := by
      simp only [PlanningName.make] at hmake
      split at hmake
      · cases hmake
      · cases hmake
        rfl
    have hlisted : (u.plannings.any fun p => p.id = id) = u.hasPlanning id := rfl
    simp only [Except.map, changeFirst_always, hlisted]
    cases u.hasPlanning id with
    | true => rfl
    | false => rfl

theorem resetPassword_eq (u : State) (id : AccountId) (reset : PasswordReset) :
    resetPassword id reset u =
      ((accountEdit id reset u.accounts).1,
        { u with accounts := (accountEdit id reset u.accounts).2 }) := by
  unfold resetPassword accountEdit guarded
  cases hmake : PasswordReset.make reset.password with
  | error e => rfl
  | ok made =>
    obtain ⟨rfl, -⟩ := PasswordReset.make_ok hmake
    have hlisted : (u.accounts.any fun a => a.account.id = id) = (u.account? id).isSome := by
      rw [account?, List.isSome_find?]
    simp only [Except.map, changeFirst_always, hlisted]
    cases (u.account? id).isSome with
    | true => rfl
    | false => rfl

theorem deleteSlot_eq (u : State) (planning : PlanningId) (slot : SlotId) :
    deleteSlot planning slot u =
      let f := inPlanning planning (removeSlot slot)
      ((f u.slots).1, { u with slots := (f u.slots).2 }) := by
  unfold deleteSlot inPlanning
  cases hfound : Table.get? planning u.slots with
  | none => simp only [hfound, missing]
  | some slots =>
    have hkept : (slots.filter fun x => !decide (x.id = slot)) =
        slots.filter fun x => x.id ≠ slot := by simp
    have hgone : (slots.filter fun x => x.id ≠ slot).length = slots.length ↔
        ¬ (slots.any fun x => x.id = slot) = true := by
      rw [List.length_filter_eq_length_iff]
      simp
    simp only [hfound, removeSlot, removeAll, hkept, hgone]
    cases slots.any fun x => x.id = slot with
    | true => rfl
    | false => rfl

-- The slots of a planning are looked up once and written back; with one entry for each planning
-- it makes no difference that the source of a failed edit is written back too.

section Slots

variable {planning : PlanningId} (hn : (Table.keys u.slots).Nodup)

include hn

theorem createSlot_eq (hsame : SameReferences s u) (planning : PlanningId) (slot : NewSlot) :
    createSlot planning slot u =
      let f := s.newSlotEdit planning slot
      ((f u.slots).1, { u with slots := (f u.slots).2 }) := by
  unfold createSlot newSlotEdit guarded
  rw [hsame.checkOrder]
  cases slot.validate with
  | error e => rfl
  | ok =>
    cases s.checkOrder slot.order with
    | error e => rfl
    | ok =>
      cases hfound : Table.get? planning u.slots with
      | none => simp only [inPlanning, hfound, missing]
      | some slots =>
        simp only [inPlanning, hfound, appendSlot]
        by_cases hfull : slots.length ≥ Limits.slotsPerPlanning
        · simp only [if_pos hfull, refuse, Table.adjust_const_of_get? hn hfound]
        · simp only [if_neg hfull]
          rw [Table.adjust_of_get? hn hfound (· ++ [_])]

theorem patchSlot_eq (hsame : SameReferences s u) (planning : PlanningId) (slot : SlotId)
    (patch : SlotPatch) :
    patchSlot planning slot patch u =
      let f := guarded (checkSome s.checkOrder patch.order)
        (inPlanning planning (changeSlot slot patch))
      ((f u.slots).1, { u with slots := (f u.slots).2 }) := by
  unfold patchSlot guarded
  rw [hsame.checkOrder]
  cases checkSome s.checkOrder patch.order with
  | error e => rfl
  | ok =>
    cases hfound : Table.get? planning u.slots with
    | none => simp only [inPlanning, hfound, missing]
    | some slots =>
      have hkeep := Table.adjust_const_of_get? hn hfound
      cases htarget : slots.find? fun x => x.id = slot with
      | none =>
        simp only [inPlanning, hfound, htarget, changeSlot, changeFirst_of_none htarget, missing,
          hkeep]
      | some target =>
        simp only [inPlanning, hfound, htarget, changeSlot, changeFirst_of_find? htarget, patched]
        cases patch.apply target with
        | error e =>
          have hsame :
              Table.updateFirst (fun x => x.id = slot) (fun _ => target) slots = slots := by
            obtain ⟨front, back, hslots, -, hupdate⟩ :=
              Table.updateFirst_of_find? (fun _ => target) htarget
            rw [hupdate, hslots]
          simp only [hsame, hkeep, refuse]
        | ok y =>
          simp only [Table.adjust_of_get? hn hfound
            (Table.updateFirst (fun x => x.id = slot) fun _ => y)]

end Slots
end State

section Edited

variable {s u : State} {c : Call} {k : RecordKind} {f : k.Part → c.Result × k.Part}

theorem guarded_keeps {σ β ρ : Type} (g : σ → β) {check : Except ValidationError Unit}
    {f : σ → Except Error ρ × σ} {x : σ} (h : g (f x).2 = g x) :
    g (guarded check f x).2 = g x := by
  cases check with
  | error e => rfl
  | ok => exact h

theorem changeFirst_keeps {α β : Type} {fits : α → Bool} {missing : Error}
    {f : α → Except Error Unit × α} {g : α → β} (hf : ∀ a, g (f a).2 = g a) (l : List α) :
    (changeFirst fits missing f l).2.map g = l.map g := by
  induction l with
  | nil => rfl
  | cons a l ih =>
    by_cases ha : fits a = true
    · simp [changeFirst, ha, hf a]
    · simp [changeFirst, ha, ih]

namespace State

theorem planningEdit_ids (id : PlanningId) (name : PlanningName) (plannings : List Planning) :
    (planningEdit id name plannings).2.map (·.id) = plannings.map (·.id) := by
  refine guarded_keeps (List.map Planning.id) ?_
  exact changeFirst_keeps (fun _ => rfl) plannings

theorem inPlanning_keys {ρ : Type} (planning : PlanningId)
    (f : List Slot → Except Error ρ × List Slot) (t : List (PlanningId × List Slot)) :
    Table.keys (inPlanning planning f t).2 = Table.keys t := by
  unfold inPlanning
  cases Table.get? planning t with
  | none => rfl
  | some slots => exact Table.keys_adjust planning (fun _ => (f slots).2) t

theorem newSlotEdit_keys (planning : PlanningId) (slot : NewSlot)
    (t : List (PlanningId × List Slot)) :
    Table.keys (s.newSlotEdit planning slot t).2 = Table.keys t := by
  refine guarded_keeps (fun t : List (PlanningId × List Slot) => Table.keys t) ?_
  refine guarded_keeps (fun t : List (PlanningId × List Slot) => Table.keys t) ?_
  exact inPlanning_keys ..

end State

open State

theorem Call.Edits.perform (h : c.Edits s k f) (hn : (Table.keys s.slots).Nodup)
    (hsame : SameReferences s u) (grace : Nat) (t : Moment) :
    u.performCall grace t c = ((f (k.part u)).1, k.put u (f (k.part u)).2) := by
  have hkeys : (Table.keys u.slots).Nodup := by
    rw [hsame.slot_keys]
    exact hn
  cases h with
  | putOverride value => exact putOverride_eq hsame value
  | patchZone id patch => exact patchZone_eq hsame id patch
  | renamePlanning id name => exact renamePlanning_eq u id name
  | addSlot planning slot => exact createSlot_eq hkeys hsame planning slot
  | createSlot planning slot =>
    have hcreate := createSlot_eq hkeys hsame planning slot
    change drop (State.createSlot planning slot) u = _
    rw [drop, hcreate]
    rfl
  | patchSlot planning slot patch => exact patchSlot_eq hkeys hsame planning slot patch
  | deleteSlot planning slot => exact deleteSlot_eq u planning slot
  | resetPassword id reset => exact resetPassword_eq u id reset

theorem Call.Edits.sameReferences (h : c.Edits s k f) (hsame : SameReferences s u) :
    SameReferences s (k.put u (f (k.part u)).2) := by
  cases h with
  | putOverride | patchZone | resetPassword =>
    exact ⟨hsame.orders, hsame.plannings, hsame.slot_keys⟩
  | renamePlanning id name =>
    refine ⟨hsame.orders, ?_, hsame.slot_keys⟩
    intro other
    rw [← hsame.plannings other, Bool.eq_iff_iff, hasPlanning_iff, hasPlanning_iff]
    exact Iff.of_eq (congrArg (other ∈ ·) (planningEdit_ids id name u.plannings))
  | addSlot planning slot | createSlot planning slot =>
    refine ⟨hsame.orders, hsame.plannings, ?_⟩
    rw [← hsame.slot_keys]
    exact newSlotEdit_keys ..
  | patchSlot planning slot patch =>
    refine ⟨hsame.orders, hsame.plannings, ?_⟩
    rw [← hsame.slot_keys]
    exact guarded_keeps (fun t : List (PlanningId × List Slot) => Table.keys t)
      (inPlanning_keys ..)
  | deleteSlot planning slot =>
    refine ⟨hsame.orders, hsame.plannings, ?_⟩
    rw [← hsame.slot_keys]
    exact inPlanning_keys ..

end Edited
end HeatingControl
