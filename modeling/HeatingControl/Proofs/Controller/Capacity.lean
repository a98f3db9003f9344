import HeatingControl.Proofs.Controller.Numbering
import Mathlib.Algebra.Group.Nat.Defs

/-!
# Ids and capacities during a run

Numbers come back after the record that had them was deleted. In a run that does not create more
records than 32 bits can number, ids stay distinct all the same, and nothing refers to a record
before it is created.
-/
namespace HeatingControl.State

structure Numbered (s : State) : Prop where
  zone_ids_distinct : (s.zones.map (·.id)).Nodup
  planning_ids_distinct : (s.plannings.map (·.id)).Nodup
  slot_ids_distinct : ∀ e ∈ s.slots, (e.2.map (·.id)).Nodup
  plannings_fit : s.plannings.length ≤ Limits.plannings
  slots_fit : ∀ e ∈ s.slots, e.2.length ≤ Limits.slotsPerPlanning

section Keeping

variable {s : State}

theorem Numbered.boot (h : Numbered s) (now : Nat) : Numbered (s.boot now) := by
  obtain ⟨_, _, _, _, _, hrecords⟩ := boot_records now s
  rw [hrecords]
  exact ⟨h.zone_ids_distinct, h.planning_ids_distinct, h.slot_ids_distinct, h.plannings_fit,
    h.slots_fit⟩

theorem Numbered.adjust_slots (h : Numbered s) (planning : PlanningId)
    {f : List Slot → List Slot}
    (hf : ∀ l, (planning, l) ∈ s.slots →
      ((f l).map (·.id)).Nodup ∧ (f l).length ≤ Limits.slotsPerPlanning) :
    Numbered { s with slots := Table.adjust planning f s.slots } := by
  refine ⟨h.zone_ids_distinct, h.planning_ids_distinct, ?_, h.plannings_fit, ?_⟩
  · intro e he
    rcases Table.mem_adjust he with he | ⟨l, hl, rfl⟩
    · exact h.slot_ids_distinct e he
    · exact (hf l hl).1
  · intro e he
    rcases Table.mem_adjust he with he | ⟨l, hl, rfl⟩
    · exact h.slots_fit e he
    · exact (hf l hl).2

theorem Transition.preserves_numbering {u : State} (h : Transition s u) (hi : Integrity s)
    (hfit : s.NumbersFit) (hs : Numbered s) : Numbered u := by
  have ⟨hz, hp, hx, hproom, hxroom⟩ := hs
  cases h with
  | read => exact hs
  | overridden => exact ⟨hz, hp, hx, hproom, hxroom⟩
  | zonePatched id description mode known entered =>
    refine ⟨?_, hp, hx, hproom, hxroom⟩
    rw [Table.map_updateFirst]
    · exact hz
    · intro z _
      rfl
  | planningCreated name room number next =>
    subst next
    refine ⟨hz, ?_, ?_, ?_, ?_⟩
    · rw [List.map_append]
      apply Table.nodup_append_new hp
      apply next_id_fresh
      · intro p _ n hn
        exact congrArg PlanningId.number hn
      · exact hfit.planning
    · intro e he
      rcases Table.mem_insert he with he | rfl
      · exact hx e he
      · exact List.nodup_nil
    · rw [List.length_append]
      exact room
    · intro e he
      rcases Table.mem_insert he with he | rfl
      · exact hxroom e he
      · exact Nat.zero_le _
  | planningRenamed id name =>
    refine ⟨hz, ?_, hx, ?_, hxroom⟩
    · rw [Table.map_updateFirst]
      · exact hp
      · intro p _
        rfl
    · rw [Table.length_updateFirst]
      exact hproom
  | planningDeleted id listed =>
    refine ⟨?_, ?_, ?_, ?_, ?_⟩
    · rw [List.map_map]
      exact hz
    · exact Table.nodup_map_filter hp _
    · intro e he
      exact hx e (List.mem_filter.mp he).1
    · exact Nat.le_trans (List.length_filter_le ..) hproom
    · intro e he
      exact hxroom e (List.mem_filter.mp he).1
  | slotCreated planning slot slots valid known found room number next =>
    subst next
    apply hs.adjust_slots planning
    intro l hl
    -- With one entry for each planning, the slots that gain one are those that had room.
    have hfound := Table.get?_of_mem hi.slot_keys_distinct hl
    rw [found, Option.some.injEq] at hfound
    subst hfound
    constructor
    · rw [List.map_append]
      apply Table.nodup_append_new (hx _ hl)
      apply next_id_fresh
      · intro x _ n hn
        exact congrArg SlotId.number hn
      · exact hfit.slot _ hl
    · rw [List.length_append]
      exact room
  | slotPatched planning patch slots target patched known found member applied =>
    apply hs.adjust_slots planning
    intro l hl
    constructor
    · rw [Table.map_updateFirst]
      · exact hx _ hl
      · intro x hfits
        rw [(SlotPatch.apply_ok applied).1]
        exact (of_decide_eq_true hfits).symm
    · rw [Table.length_updateFirst]
      exact hxroom _ hl
  | slotDeleted planning slot slots found member =>
    apply hs.adjust_slots planning
    intro l _
    have hslots := Table.mem_of_get? found
    constructor
    · exact Table.nodup_map_filter (hx _ hslots) _
    · exact Nat.le_trans (List.length_filter_le ..) (hxroom _ hslots)
  | accountCreated => exact ⟨hz, hp, hx, hproom, hxroom⟩
  | accountDeleted => exact ⟨hz, hp, hx, hproom, hxroom⟩
  | passwordReset => exact ⟨hz, hp, hx, hproom, hxroom⟩
  | firmwareStaged => exact ⟨hz, hp, hx, hproom, hxroom⟩
  | certificatesStored => exact ⟨hz, hp, hx, hproom, hxroom⟩
  | rebooted => exact ⟨hz, hp, hx, hproom, hxroom⟩
  | hardwareApplied => exact ⟨hz, hp, hx, hproom, hxroom⟩

end Keeping

/-- A run, and how many plannings and slots it has asked for. -/
inductive CountedRun (grace : Nat) : Nat → State → Prop where
  | seeded (now : Nat) : CountedRun grace 0 (.seeded now)
  | step {n : Nat} {s : State} (t : Moment) (c : Call) (h : CountedRun grace n s) :
      CountedRun grace (n + c.creations) (step grace t c s).2

section Runs

variable {grace n : Nat} {s : State}

theorem CountedRun.reachable (h : CountedRun grace n s) : Reachable grace s := by
  induction h with
  | seeded now => exact .seeded now
  | step t c _ ih => exact .step t c ih

def maxCreations : Nat := 2 ^ 31

def seededNumbers : Nat := 42

private theorem seeded_numbersBelow (now : Nat) : NumbersBelow seededNumbers (.seeded now) := by
  constructor
  · change ∀ p ∈ Seed.plannings, p.id.number.toNat < seededNumbers
    decide +kernel
  · change ∀ e ∈ Seed.slots, ∀ x ∈ e.2, x.id.number.toNat < seededNumbers
    decide +kernel

private theorem seeded_numbered (now : Nat) : Numbered (.seeded now) := by
  have hzones : (Seed.zones.map (·.id)).Nodup := by decide +kernel
  have hplannings : (Seed.plannings.map (·.id)).Nodup := by decide +kernel
  have hslots : ∀ e ∈ Seed.slots, (e.2.map (·.id)).Nodup := by decide +kernel
  have hfew : Seed.plannings.length ≤ Limits.plannings := by decide
  have hroom : ∀ e ∈ Seed.slots, e.2.length ≤ Limits.slotsPerPlanning := by decide +kernel
  exact ⟨hzones, hplannings, hslots, hfew, hroom⟩

theorem CountedRun.numbersBelow (h : CountedRun grace n s) (hn : n ≤ maxCreations) :
    NumbersBelow (seededNumbers + n) s := by
  induction h with
  | seeded now => exact seeded_numbersBelow now
  | @step n s t c _ ih =>
    have hsize : seededNumbers + n < UInt32.size := by
      simp only [maxCreations, seededNumbers, UInt32.size] at *
      omega
    rw [← Nat.add_assoc]
    exact (ih (by omega)).step hsize grace t c

theorem CountedRun.numbersFit (h : CountedRun grace n s) (hn : n ≤ maxCreations) :
    s.NumbersFit := by
  apply (h.numbersBelow hn).mono
  simp only [maxCreations, seededNumbers, UInt32.size] at *
  omega

/-- Ids stay distinct as long as no number has wrapped. -/
theorem CountedRun.numbered (h : CountedRun grace n s) (hn : n ≤ maxCreations) : Numbered s := by
  induction h with
  | seeded now => exact seeded_numbered now
  | @step n s t c hrun ih =>
    have hprevious : n ≤ maxCreations := Nat.le_trans (Nat.le_add_right ..) hn
    have hs : Numbered (s.boot t.now) := (ih hprevious).boot t.now
    by_cases honline : s.OnlineAt t.now
    · have hi := hrun.reachable.integrity
      have hfit := (hrun.numbersFit hprevious).boot t.now
      have hsettles : Settles (s.boot t.now) (State.step grace t c s) :=
        step_settles honline hi.slot_keys_distinct c
      generalize State.step grace t c s = r at hsettles
      cases hsettles with
      | refused => exact hs
      | missed => exact hs
      | accepted _ hu => exact hu.preserves_numbering (hi.boot t.now) hfit hs
    · rw [step_of_offline honline]
      exact hs

end Runs

/-- A planning was added under a number above all others; no zone refers to it and it has no
slot. -/
structure PlanningAdded (s u : State) (p : Planning) : Prop where
  listed : u.plannings = s.plannings ++ [p]
  greatest : ∀ q ∈ s.plannings, q.id.number < p.id.number
  unreferenced : ∀ z ∈ u.zones, z.mode.planning? ≠ some p.id
  empty : Table.get? p.id u.slots = some []

/-- A slot was added to a planning under a number above all others there. -/
structure SlotAdded (s u : State) (planning : PlanningId) (slots : List Slot) (x : Slot) :
    Prop where
  before : Table.get? planning s.slots = some slots
  after : Table.get? planning u.slots = some (slots ++ [x])
  greatest : ∀ y ∈ slots, y.id.number < x.id.number

section Creations

variable {s : State}

theorem planningAdded_of_ok (hi : Integrity s) (hfit : s.NumbersFit) {name : PlanningName}
    {p : Planning} (h : (createPlanning name s).1 = .ok p) :
    PlanningAdded s (createPlanning name s).2 p := by
  obtain ⟨hnumber, hstate⟩ := createPlanning_ok h
  have hgreatest : ∀ q ∈ s.plannings, q.id.number < p.id.number := by
    intro q hq
    rw [hnumber]
    apply lt_nextNumber
    · intro n hn
      obtain ⟨r, hr, rfl⟩ := List.mem_map.mp hn
      exact hfit.planning r hr
    · exact List.mem_map_of_mem (f := fun q : Planning => q.id.number) hq
  rw [hstate]
  constructor
  · rfl
  · exact hgreatest
  · -- What a zone refers to was listed before, under a smaller number.
    intro z hz href
    have hknown := hi.modes_known z hz
    cases hmode : z.mode with
    | fixed order =>
      rw [hmode] at href
      cases href
    | planning id =>
      rw [hmode] at href hknown
      obtain ⟨q, hq, hid⟩ := List.any_eq_true.mp hknown
      have hsame : q.id = p.id := (of_decide_eq_true hid).trans (Option.some.inj href)
      have hlt := hgreatest q hq
      rw [hsame] at hlt
      exact UInt32.lt_irrefl _ hlt
  · exact Table.get?_insert p.id [] s.slots

theorem slotAdded_of_ok (hfit : s.NumbersFit) {planning : PlanningId} {slot : NewSlot} {x : Slot}
    (h : (createSlot planning slot s).1 = .ok x) :
    ∃ slots, SlotAdded s (createSlot planning slot s).2 planning slots x := by
  obtain ⟨slots, hfound, hnumber, hstate⟩ := createSlot_ok h
  rw [hstate]
  refine ⟨slots, hfound, ?_, ?_⟩
  · rw [Table.get?_adjust, hfound]
    rfl
  · intro y hy
    rw [hnumber]
    apply lt_nextNumber
    · intro n hn
      obtain ⟨z, hz, rfl⟩ := List.mem_map.mp hn
      exact hfit.slot _ (Table.mem_of_get? hfound) z hz
    · exact List.mem_map_of_mem (f := fun y : Slot => y.id.number) hy

/-- An operation that drops the record it has created has created one. -/
theorem ok_of_drop {α : Type} {c : Change α} (h : (drop c s).1 = .ok ()) :
    ∃ a, (c s).1 = .ok a := by
  cases hr : (c s).1 with
  | ok a => exact ⟨a, rfl⟩
  | error e =>
    simp only [drop, hr] at h
    cases h

theorem PlanningAdded.of_boot {now : Nat} {u : State} {p : Planning}
    (h : PlanningAdded (s.boot now) u p) : PlanningAdded s u p := by
  obtain ⟨_, _, _, _, _, hrecords⟩ := boot_records now s
  rw [hrecords] at h
  exact ⟨h.listed, h.greatest, h.unreferenced, h.empty⟩

theorem SlotAdded.of_boot {now : Nat} {u : State} {planning : PlanningId} {slots : List Slot}
    {x : Slot} (h : SlotAdded (s.boot now) u planning slots x) :
    SlotAdded s u planning slots x := by
  obtain ⟨_, _, _, _, _, hrecords⟩ := boot_records now s
  rw [hrecords] at h
  exact ⟨h.before, h.after, h.greatest⟩

end Creations

/-- In every state of a run of at most `maxCreations` creations the ids of zones, plannings and
slots are distinct, the capacities are kept and every number has a successor of 32 bits. A
creation that succeeds there takes a number above all in its list; a planning that is created
has no slots and no zone refers to it, also if another one had its number before. -/
theorem counted_run_numbers {grace n : Nat} {s : State} (h : CountedRun grace n s)
    (hn : n ≤ maxCreations) :
    Numbered s ∧
    (∀ p ∈ s.plannings, p.id.number.toNat + 1 < UInt32.size) ∧
    (∀ e ∈ s.slots, ∀ x ∈ e.2, x.id.number.toNat + 1 < UInt32.size) ∧
    ∀ t : Moment,
      (∀ name p, (step grace t (.addPlanning name) s).1 = .ok p →
        PlanningAdded s (step grace t (.addPlanning name) s).2 p) ∧
      (∀ name, (step grace t (.operation (.createPlanning name)) s).1 = .ok () →
        ∃ p, PlanningAdded s (step grace t (.operation (.createPlanning name)) s).2 p) ∧
      (∀ planning slot x, (step grace t (.addSlot planning slot) s).1 = .ok x →
        ∃ slots, SlotAdded s (step grace t (.addSlot planning slot) s).2 planning slots x) ∧
      ∀ planning slot, (step grace t (.operation (.createSlot planning slot)) s).1 = .ok () →
        ∃ slots x, SlotAdded s (step grace t (.operation (.createSlot planning slot)) s).2
          planning slots x := by
  have hfit := h.numbersFit hn
  refine ⟨h.numbered hn, hfit.planning, hfit.slot, ?_⟩
  intro t
  have hi := h.reachable.integrity.boot t.now
  have hfit' := hfit.boot t.now
  refine ⟨?_, ?_, ?_, ?_⟩
  · intro name p hok
    have honline := onlineAt_of_ok hok
    rw [step_of_online honline] at hok ⊢
    exact (planningAdded_of_ok hi hfit' hok).of_boot
  · intro name hok
    have honline := onlineAt_of_ok hok
    rw [step_of_online honline] at hok ⊢
    obtain ⟨p, hp⟩ := ok_of_drop hok
    exact ⟨p, (planningAdded_of_ok hi hfit' hp).of_boot⟩
  · intro planning slot x hok
    have honline := onlineAt_of_ok hok
    rw [step_of_online honline] at hok ⊢
    obtain ⟨slots, hadded⟩ := slotAdded_of_ok hfit' hok
    exact ⟨slots, hadded.of_boot⟩
  · intro planning slot hok
    have honline := onlineAt_of_ok hok
    rw [step_of_online honline] at hok ⊢
    obtain ⟨x, hx⟩ := ok_of_drop hok
    obtain ⟨slots, hadded⟩ := slotAdded_of_ok hfit' hx
    exact ⟨slots, x, hadded.of_boot⟩

/-- A planning that a zone uses is deleted, and its number is given again: the zone does not use
the new planning, which has no slots, and the first slot it gets has the first number. -/
theorem reused_number_starts_afresh :
    let t : Moment := ⟨0, ⟨.monday, 8, 0⟩⟩
    let use : Call := .operation (.patchZone ⟨"e1z3"⟩ ⟨none, some (.planning ⟨2⟩)⟩)
    let delete : Call := .operation (.deletePlanning ⟨2⟩)
    let create : Call := .addPlanning ⟨"Combles"⟩
    let used := (step 10 t use (seeded 0)).2
    let s := (step 10 t delete used).2
    let u := (step 10 t create s).2
    let first : NewSlot := ⟨.monday, 6, 30, ⟨"cozy"⟩⟩
    (∃ z ∈ used.zones, z.mode.planning? = some ⟨2⟩) ∧
      CountedRun 10 0 s ∧ Numbered s ∧ PlanningAdded s u ⟨⟨2⟩, "Combles"⟩ ∧
      CountedRun 10 1 u ∧ Numbered u ∧
      ∃ slots, SlotAdded u (step 10 t (.addSlot ⟨2⟩ first) u).2 ⟨2⟩ slots
        (first.toSlot ⟨0⟩) := by
  intro t use delete create used s u first
  have hs : CountedRun 10 0 s := .step t delete (.step t use (.seeded 0))
  have hu : CountedRun 10 1 u := .step t create hs
  obtain ⟨hnumbered, -, -, hcreate⟩ := counted_run_numbers hs (by decide)
  obtain ⟨hnumbered', -, -, hcreate'⟩ := counted_run_numbers hu (by decide)
  have hplanning : (step 10 t create s).1 = .ok ⟨⟨2⟩, "Combles"⟩ := by rfl
  have hslot : (step 10 t (.addSlot ⟨2⟩ first) u).1 = .ok (first.toSlot ⟨0⟩) := by rfl
  refine ⟨?_, hs, hnumbered, (hcreate t).1 _ _ hplanning, hu, hnumbered',
    (hcreate' t).2.2.1 _ _ _ hslot⟩
  decide +kernel

end HeatingControl.State
