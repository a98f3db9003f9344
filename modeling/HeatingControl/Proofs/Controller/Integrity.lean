import HeatingControl.Proofs.Controller.Run
import Mathlib.Tactic.ByContra

/-!
# Referential integrity

Zones refer to plannings and orders, slots to orders, the slot table to plannings. In every state
of a run all of these references are kept, so that the order in effect in a zone is always known
and the slots of a planning can be read exactly when the planning is listed.
-/
namespace HeatingControl.State

/-- What a zone's mode refers to is there. -/
def ModeKnown (s : State) : ZoneMode → Prop
  | .fixed order => s.hasOrder order = true
  | .planning id => s.hasPlanning id = true

def SlotValid (s : State) (x : Slot) : Prop :=
  s.hasOrder x.order = true ∧ x.hour < 24 ∧ x.minute < 60

instance (s : State) : (m : ZoneMode) → Decidable (s.ModeKnown m)
  | .fixed order => inferInstanceAs (Decidable (s.hasOrder order = true))
  | .planning id => inferInstanceAs (Decidable (s.hasPlanning id = true))

instance (s : State) (x : Slot) : Decidable (s.SlotValid x) :=
  inferInstanceAs (Decidable (_ ∧ _ ∧ _))

structure Integrity (s : State) : Prop where
  orders_canonical : s.orders = Order.canonical
  override_known : ∀ id, s.override = .order id → s.hasOrder id = true
  modes_known : ∀ z ∈ s.zones, s.ModeKnown z.mode
  /-- One entry for each planning, and no other. -/
  slot_keys_distinct : (Table.keys s.slots).Nodup
  slot_keys_listed : ∀ id, id ∈ Table.keys s.slots ↔ s.hasPlanning id = true
  slots_valid : ∀ e ∈ s.slots, ∀ x ∈ e.2, s.SlotValid x

theorem modeKnown_of_checkMode {s : State} {m : ZoneMode} (h : s.checkMode m = .ok ()) :
    s.ModeKnown m := by
  cases m with
  | fixed order => exact checkOrder_ok_iff.mp h
  | planning id =>
    by_contra hno
    have hfalse : ¬ s.hasPlanning id = true := hno
    simp [checkMode, hfalse] at h

theorem Integrity.fallback_known {s : State} (hs : Integrity s) :
    s.hasOrder Order.fallback = true := by
  rw [hasOrder, hs.orders_canonical]
  decide

theorem hasPlanning_iff {s : State} {id : PlanningId} :
    s.hasPlanning id = true ↔ id ∈ s.plannings.map (·.id) := by
  simp [hasPlanning]

theorem Integrity.boot {s : State} (hs : Integrity s) (now : Nat) : Integrity (s.boot now) := by
  obtain ⟨_, _, _, _, _, h⟩ := boot_records now s
  rw [h]
  exact ⟨hs.orders_canonical, hs.override_known, hs.modes_known, hs.slot_keys_distinct,
    hs.slot_keys_listed, hs.slots_valid⟩

private theorem patched_modes_known {s : State} (hs : Integrity s) {fits : Zone → Bool}
    {description : Option String} {mode : Option ZoneMode}
    (known : ∀ m, mode = some m → s.checkMode m = .ok ()) :
    ∀ z ∈ Table.updateFirst fits (fun z => { z with
      description := description.getD z.description
      mode := mode.getD z.mode }) s.zones, s.ModeKnown z.mode := by
  intro z hz
  rcases Table.mem_updateFirst hz with hz | ⟨w, hw, _, rfl⟩
  · exact hs.modes_known z hz
  · cases mode with
    | none => exact hs.modes_known w hw
    | some m => exact modeKnown_of_checkMode (known m rfl)

private theorem ModeKnown.mono {s u : State} {m : ZoneMode} (ho : u.orders = s.orders)
    (hp : ∀ id, s.hasPlanning id = true → u.hasPlanning id = true) (h : s.ModeKnown m) :
    u.ModeKnown m := by
  cases m with
  | fixed order =>
    have hknown : s.hasOrder order = true := h
    rwa [← show u.hasOrder order = s.hasOrder order by rw [hasOrder, hasOrder, ho]] at hknown
  | planning id => exact hp id h

/-- A zone that used the planning falls back to the default order; no other mode names it. -/
private theorem modeKnown_without {s u : State} {id : PlanningId} {m : ZoneMode}
    (ho : u.orders = s.orders) (hp : u.plannings = s.plannings.filter fun p => p.id ≠ id)
    (hf : s.hasOrder Order.fallback = true) (h : s.ModeKnown m) :
    u.ModeKnown (modeWithout id m) := by
  have hfallback : u.hasOrder Order.fallback = true := by
    rw [hasOrder, ho]
    exact hf
  cases m with
  | fixed order =>
    have hknown : s.hasOrder order = true := h
    rw [← show u.hasOrder order = s.hasOrder order by rw [hasOrder, hasOrder, ho]] at hknown
    exact hknown
  | planning other =>
    by_cases hother : other = id
    · rw [hother, modeWithout_self]
      exact hfallback
    · have hlisted : other ∈ s.plannings.map (·.id) := hasPlanning_iff.mp h
      obtain ⟨p, hp', rfl⟩ := List.mem_map.mp hlisted
      have hkept : u.hasPlanning p.id = true := by
        rw [hasPlanning_iff, hp]
        exact List.mem_map.mpr ⟨p, List.mem_filter.mpr ⟨hp', by simpa using hother⟩, rfl⟩
      rw [modeWithout_of_ne fun hmode => hother (ZoneMode.planning.inj hmode)]
      exact hkept

theorem Integrity.adjust_slots {s : State} (hs : Integrity s) (planning : PlanningId)
    (f : List Slot → List Slot)
    (hf : ∀ l, (planning, l) ∈ s.slots → ∀ x ∈ f l, x ∈ l ∨ s.SlotValid x) :
    Integrity { s with slots := Table.adjust planning f s.slots } := by
  refine ⟨hs.orders_canonical, hs.override_known, hs.modes_known, ?_, ?_, ?_⟩
  · rw [Table.keys_adjust]
    exact hs.slot_keys_distinct
  · rw [Table.keys_adjust]
    exact hs.slot_keys_listed
  · intro e he x hx
    rcases Table.mem_adjust he with he | ⟨l, hl, rfl⟩
    · exact hs.slots_valid e he x hx
    · rcases hf l hl x hx with h | h
      · exact hs.slots_valid _ hl x h
      · exact h

theorem Transition.preserves_integrity {s u : State} (h : Transition s u) (hs : Integrity s) :
    Integrity u := by
  have ⟨ho, hv, hm, hd, hl, hx⟩ := hs
  cases h with
  | read => exact hs
  | overridden value known =>
    exact ⟨ho, fun id hid => known id (by simp_all [Override.order?]), hm, hd, hl, hx⟩
  | zonePatched id description mode known entered =>
    exact ⟨ho, hv, patched_modes_known hs known, hd, hl, hx⟩
  | planningCreated name room number next =>
    refine ⟨ho, hv, ?_, Table.nodup_keys_insert hd, ?_, ?_⟩
    · -- A mode that was known stays known, since no planning goes.
      intro z hz
      refine ModeKnown.mono (s := s) rfl (fun id hid => ?_) (hm z hz)
      have hlisted : (s.plannings.any fun p => p.id = id) = true := hid
      simp [hasPlanning, List.any_append, hlisted]
    · intro id
      rw [Table.mem_keys_insert, hl id, hasPlanning_iff, hasPlanning_iff, List.map_append,
        List.mem_append]
      simp
    · intro e he x hxe
      rcases Table.mem_insert he with he | rfl
      · exact hx e he x hxe
      · simp at hxe
  | planningRenamed id name =>
    have hsame : ∀ {u : State} (other : PlanningId),
        u.plannings = Table.updateFirst (fun p => p.id = id) (fun p => ⟨p.id, name⟩) s.plannings →
        u.hasPlanning other = s.hasPlanning other := by
      intro u other hu
      rw [Bool.eq_iff_iff, hasPlanning_iff, hasPlanning_iff, hu, Table.map_updateFirst]
      exact fun _ _ => rfl
    refine ⟨ho, hv, ?_, hd, ?_, hx⟩
    · intro z hz
      exact ModeKnown.mono (s := s) rfl (fun other h => (hsame other rfl).trans h) (hm z hz)
    · intro other
      rw [hsame other rfl]
      exact hl other
  | planningDeleted id listed =>
    refine ⟨ho, hv, ?_, Table.nodup_keys_erase hd, ?_, ?_⟩
    · -- A zone that followed the planning falls back to an order that is listed.
      intro z hz
      obtain ⟨w, hw, rfl⟩ := List.mem_map.mp hz
      exact modeKnown_without (s := s) rfl rfl hs.fallback_known (hm w hw)
    · intro other
      have hids : (s.plannings.filter fun p => p.id ≠ id).map (·.id) =
          (s.plannings.map (·.id)).filter fun i => i ≠ id := by
        rw [List.filter_map]
        rfl
      rw [Table.mem_keys_erase, hl other, hasPlanning_iff, hasPlanning_iff, hids, List.mem_filter]
      simp
    · intro e he x hxe
      exact hx e (List.mem_filter.mp he).1 x hxe
  | slotCreated planning slot slots valid known found room number next =>
    refine hs.adjust_slots planning _ fun l _ x hxl => ?_
    rcases List.mem_append.mp hxl with h | h
    · exact Or.inl h
    · rw [List.mem_singleton.mp h]
      exact Or.inr ⟨known, checkTime_ok_iff.mp valid⟩
  | slotPatched planning patch slots target patched known found member applied =>
    refine hs.adjust_slots planning _ fun l _ x hxl => ?_
    rcases Table.mem_updateFirst hxl with h | ⟨_, _, _, rfl⟩
    · exact Or.inl h
    · obtain ⟨_, horder, htime⟩ := SlotPatch.apply_ok applied
      refine Or.inr ⟨?_, htime⟩
      rw [horder]
      cases hpatch : patch.order with
      | none => exact (hx _ (Table.mem_of_get? found) target member).1
      | some id => exact known id hpatch
  | slotDeleted planning slot slots found member =>
    refine hs.adjust_slots planning _ fun l _ x hxl => ?_
    exact Or.inr (hx _ (Table.mem_of_get? found) x (List.mem_filter.mp hxl).1)
  | accountCreated => exact ⟨ho, hv, hm, hd, hl, hx⟩
  | accountDeleted => exact ⟨ho, hv, hm, hd, hl, hx⟩
  | passwordReset => exact ⟨ho, hv, hm, hd, hl, hx⟩
  | firmwareStaged => exact ⟨ho, hv, hm, hd, hl, hx⟩
  | certificatesStored => exact ⟨ho, hv, hm, hd, hl, hx⟩
  | rebooted => exact ⟨ho, hv, hm, hd, hl, hx⟩
  | hardwareApplied => exact ⟨ho, hv, hm, hd, hl, hx⟩

private theorem seeded_integrity (now : Nat) : Integrity (.seeded now) := by
  have hmodes : ∀ z ∈ Seed.zones, (seeded 0).ModeKnown z.mode := by decide +kernel
  have hslots : ∀ e ∈ Seed.slots, ∀ x ∈ e.2, (seeded 0).SlotValid x := by decide +kernel
  have hkeys : Table.keys Seed.slots = Seed.plannings.map (·.id) := by decide +kernel
  refine ⟨rfl, ?_, hmodes, ?_, ?_, hslots⟩
  · intro id hid
    rw [← Override.order.inj hid]
    exact (by decide +kernel : (seeded 0).hasOrder ⟨"cozyminus1"⟩ = true)
  · exact (by decide +kernel : (Table.keys Seed.slots).Nodup)
  · intro id
    rw [hasPlanning_iff]
    exact Iff.of_eq (congrArg (id ∈ ·) hkeys)

/-- What the seeded state has, what a finished reboot keeps and what every transition keeps holds
in every state of a run, beside the references. -/
theorem Reachable.invariant {grace : Nat} {P : State → Prop} (start : ∀ now, P (.seeded now))
    (restart : ∀ s now, P s → P (s.boot now))
    (preserved : ∀ s u, Integrity s → Transition s u → P s → P u)
    {s : State} (h : Reachable grace s) : Integrity s ∧ P s := by
  induction h with
  | seeded now => exact ⟨seeded_integrity now, start now⟩
  | @step s t c _ ih =>
    obtain ⟨hi, hp⟩ := ih
    have hi' := hi.boot t.now
    have hp' := restart s t.now hp
    by_cases honline : s.OnlineAt t.now
    · have hsettles : Settles (s.boot t.now) (State.step grace t c s) :=
        step_settles honline hi.slot_keys_distinct c
      generalize State.step grace t c s = r at hsettles
      cases hsettles with
      | refused e => exact ⟨hi', hp'⟩
      | missed entity id => exact ⟨hi', hp'⟩
      | accepted a hu => exact ⟨hu.preserves_integrity hi', preserved _ _ hi' hu hp'⟩
    · rw [step_of_offline honline]
      exact ⟨hi', hp'⟩

theorem Reachable.integrity {grace : Nat} {s : State} (h : Reachable grace s) : Integrity s :=
  (h.invariant (P := fun _ => True) (fun _ => trivial) (fun _ _ _ => trivial)
    (fun _ _ _ _ _ => trivial)).1

theorem Integrity.current_known {s : State} (hs : Integrity s) (t : WeekTime) {z : Zone}
    (hz : z ∈ s.zones) : s.hasOrder (s.currentOrder t z) = true := by
  unfold currentOrder
  split
  · rename_i id hid
    exact hs.override_known id hid
  · have hmode := hs.modes_known z hz
    split
    · rename_i order hfixed
      rw [hfixed] at hmode
      exact hmode
    · rename_i id _
      cases hactive : (Table.get? id s.slots).bind fun slots => activeOrder? slots t with
      | none => exact hs.fallback_known
      | some o =>
        obtain ⟨slots, hfound, ho⟩ := Option.bind_eq_some_iff.mp hactive
        obtain ⟨x, hx, rfl⟩ := activeOrder?_mem ho
        exact (hs.slots_valid _ (Table.mem_of_get? hfound) x hx).1

theorem Integrity.planningSlots_ok_iff {s : State} (hs : Integrity s) (id : PlanningId) :
    (∃ slots, (planningSlots id s).1 = .ok slots) ↔ s.hasPlanning id = true := by
  rw [← hs.slot_keys_listed id, ← Table.get?_isSome_iff, planningSlots]
  cases Table.get? id s.slots with
  | none => simp [missing]
  | some slots => simp

/-- In every state of a run all references are kept. While the controller is online, all zones can
be read at every moment of the week, each with a known order in effect, and the slots of exactly
the listed plannings can be read. -/
theorem run_keeps_references {grace : Nat} {s : State} (h : Reachable grace s) :
    Integrity s ∧
    ∀ t : Moment, s.OnlineAt t.now →
      (∃ zones, (step grace t (.operation .getZones) s).1 = .ok zones ∧
        zones.map (·.id) = s.zones.map (·.id) ∧
        ∀ z ∈ zones, s.hasOrder z.current = true) ∧
      ∀ id, (∃ slots, (step grace t (.operation (.getPlanningSlots id)) s).1 = .ok slots) ↔
        s.hasPlanning id = true := by
  have hs := h.integrity
  refine ⟨hs, fun t honline => ?_⟩
  have hboot := hs.boot t.now
  obtain ⟨_, _, _, _, _, hrecords⟩ := boot_records t.now s
  rw [step_of_online honline]
  refine ⟨⟨(s.boot t.now).currentZones t.week, rfl, ?_, ?_⟩, fun id => ?_⟩
  · simp [currentZones, hrecords]
  · intro z hz
    obtain ⟨w, hw, rfl⟩ := List.mem_map.mp hz
    have hknown := hboot.current_known t.week hw
    rw [hasOrder, hboot.orders_canonical] at hknown
    rw [hasOrder, hs.orders_canonical]
    exact hknown
  · rw [step_of_online honline]
    have hread := hboot.planningSlots_ok_iff id
    rw [show (s.boot t.now).hasPlanning id = s.hasPlanning id by rw [hrecords]; rfl] at hread
    exact hread

/-- A planning that a zone used is deleted: the zones can still be read, and its slots cannot. -/
theorem references_after_deletion :
    let t : Moment := ⟨0, ⟨.monday, 8, 0⟩⟩
    let s := (step 10 t (.operation (.deletePlanning ⟨1⟩)) (seeded 0)).2
    Reachable 10 s ∧ s.OnlineAt t.now ∧ Integrity s ∧
      (∃ zones, (step 10 t (.operation .getZones) s).1 = .ok zones ∧
        zones.map (·.id) = s.zones.map (·.id) ∧
        ∀ z ∈ zones, s.hasOrder z.current = true) ∧
      ¬ ∃ slots, (step 10 t (.operation (.getPlanningSlots ⟨1⟩)) s).1 = .ok slots := by
  intro t s
  have hrun : Reachable 10 s := .step t _ (.seeded 0)
  have honline : s.OnlineAt t.now := by decide +kernel
  have hgone : ¬ s.hasPlanning ⟨1⟩ = true := by decide +kernel
  obtain ⟨hs, hreads⟩ := run_keeps_references hrun
  exact ⟨hrun, honline, hs, (hreads t honline).1, fun h => hgone (((hreads t honline).2 ⟨1⟩).mp h)⟩

end HeatingControl.State
