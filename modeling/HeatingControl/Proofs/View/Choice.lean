import HeatingControl.View.Administration
import HeatingControl.View.Override
import HeatingControl.View.Plannings
import HeatingControl.View.Slots
import HeatingControl.View.Zones

/-!
# What is marked in the lists of options

A list has one option for each record, in its place, and marks the first record with the wanted
value. So one option is marked, no more and no less, wherever a record with that value is listed.
-/
namespace HeatingControl

namespace Choice

variable {α : Type} {value label : α → String}

theorem getElem?_list (value label : α → String) (wanted : Option String) (l : List α) (i : Nat) :
    (list value label wanted l)[i]? = l[i]?.map fun r =>
      ⟨value r, label r, wanted = some (value r) ∧ ∀ s ∈ l.take i, value s ≠ value r⟩ := by
  induction l generalizing wanted i with
  | nil => rfl
  | cons a l ih =>
    by_cases ha : wanted = some (value a)
    · subst ha
      cases i with
      | zero => simp [list]
      | succ i =>
        -- Once a record is marked, nothing is wanted any more.
        rw [list, if_pos rfl, List.getElem?_cons_succ, List.getElem?_cons_succ, ih none]
        apply Option.map_congr
        intro r _
        have hnot : ¬ (some (value a) = some (value r) ∧
            ∀ s ∈ (a :: l).take (i + 1), value s ≠ value r) := by
          rintro ⟨hsame, hearlier⟩
          exact hearlier a (List.mem_cons_self ..) (Option.some.inj hsame)
        simp only [hnot, reduceCtorEq, false_and]
    · cases i with
      | zero => simp [list, ha]
      | succ i =>
        rw [list, if_neg ha, List.getElem?_cons_succ, List.getElem?_cons_succ, ih wanted]
        apply Option.map_congr
        intro r _
        have hr : wanted = some (value r) → value a ≠ value r := by
          rintro rfl hsame
          exact ha (congrArg some hsame.symm)
        simp only [List.take_succ_cons, List.forall_mem_cons, Choice.mk.injEq, true_and,
          decide_eq_decide]
        exact and_congr_right fun hwanted => (and_iff_right (hr hwanted)).symm

theorem list_records (value label : α → String) (wanted : Option String) (l : List α) :
    (list value label wanted l).map (fun c => (c.value, c.label)) =
      l.map fun r => (value r, label r) := by
  apply List.ext_getElem?
  intro i
  rw [List.getElem?_map, List.getElem?_map, getElem?_list, Option.map_map]
  rfl

theorem value_of_mem {wanted : Option String} {l : List α} {c : Choice}
    (h : c ∈ list value label wanted l) : ∃ r ∈ l, c.value = value r := by
  have hrecord := List.mem_map_of_mem (f := fun c : Choice => (c.value, c.label)) h
  rw [list_records] at hrecord
  obtain ⟨r, hr, hc⟩ := List.mem_map.mp hrecord
  exact ⟨r, hr, (congrArg Prod.fst hc).symm⟩

theorem number_of_mem {count : Nat} (hcount : count ≤ UInt8.size) {unit : String}
    {selected : Option UInt8} {c : Choice} (h : c ∈ numbers count unit selected) :
    ∃ n : UInt8, n.toNat < count ∧ c.value = Text.natText n.toNat := by
  obtain ⟨k, hk, hvalue⟩ := value_of_mem h
  have hlt : k < count := List.mem_range.mp hk
  have hnat : (UInt8.ofNat k).toNat = k :=
    UInt8.toNat_ofNat_of_lt' (Nat.lt_of_lt_of_le hlt hcount)
  refine ⟨UInt8.ofNat k, ?_, ?_⟩
  · rw [hnat]
    exact hlt
  · rw [hnat]
    exact hvalue

theorem marked_eq (value label : α → String) (wanted : Option String) (l : List α) :
    (list value label wanted l).filter (·.selected) =
      ((l.find? fun r => wanted = some (value r)).map
        fun r => ⟨value r, label r, true⟩).toList := by
  induction l generalizing wanted with
  | nil => rfl
  | cons a l ih =>
    by_cases ha : wanted = some (value a)
    · have hrest : (list value label none l).filter (·.selected) = [] := by
        rw [ih none]
        simp
      simp [list, ha, hrest]
    · have hrest := ih wanted
      simp only [list, if_neg ha, List.find?_cons, decide_eq_false ha]
      exact hrest

theorem marked_of_mem {l : List α} {r : α} (h : r ∈ l) :
    ∃ c, (list value label (some (value r)) l).filter (·.selected) = [c] ∧ c.value = value r := by
  cases hfind : l.find? fun s => some (value r) = some (value s) with
  | none => exact absurd (decide_eq_true rfl) (List.find?_eq_none.mp hfind r h)
  | some s =>
    have hs : value s = value r := by simpa [eq_comm] using List.find?_some hfind
    refine ⟨⟨value s, label s, true⟩, ?_, hs⟩
    rw [marked_eq, hfind]
    rfl

theorem marked_day (d : DayOfWeek) :
    ∃ c, (days (some d)).filter (·.selected) = [c] ∧ c.value = Text.natText d.index := by
  have hlisted : d ∈ DayOfWeek.all := by cases d <;> decide
  exact marked_of_mem hlisted

theorem marked_number {count : Nat} {n : UInt8} (h : n.toNat < count) (unit : String) :
    ∃ c, (numbers count unit (some n)).filter (·.selected) = [c] ∧
      c.value = Text.natText n.toNat :=
  marked_of_mem (List.mem_range.mpr h)

theorem marked_order {l : List Order} {o : Order} (h : o ∈ l) :
    ∃ c, (orders l (some o.id)).filter (·.selected) = [c] ∧ c.value = o.id.text :=
  marked_of_mem h

end Choice

namespace OverrideView

theorem value_of_mem {current : Override} {orders : List Order} {o : OverrideOption}
    (h : o ∈ (render current orders).options) :
    ∃ v : Override, o.value = v.display ∧ ∀ id, v = .order id → ∃ r ∈ orders, r.id = id := by
  have hcheck : ∀ (value : String) (l : List OverrideOption), o ∈ check value l →
      ∃ a ∈ l, o.value = a.value := by
    intro value l hl
    induction l with
    | nil => cases hl
    | cons a l ih =>
      unfold check at hl
      split at hl
      · rcases List.mem_cons.mp hl with rfl | hl
        · exact ⟨a, List.mem_cons_self .., rfl⟩
        · exact ⟨o, List.mem_cons_of_mem a hl, rfl⟩
      · rcases List.mem_cons.mp hl with rfl | hl
        · exact ⟨_, List.mem_cons_self .., rfl⟩
        · obtain ⟨b, hb, hvalue⟩ := ih hl
          exact ⟨b, List.mem_cons_of_mem a hb, hvalue⟩
  obtain ⟨a, ha, hvalue⟩ := hcheck _ _ h
  rcases List.mem_cons.mp ha with rfl | ha
  · exact ⟨.none, hvalue, nofun⟩
  · obtain ⟨r, hr, rfl⟩ := List.mem_map.mp ha
    refine ⟨.order r.id, hvalue, ?_⟩
    rintro id ⟨⟩
    exact ⟨r, hr, rfl⟩

theorem checked_of_mem {value : String} {l : List OverrideOption}
    (hl : ∀ o ∈ l, o.checked = false) (h : ∃ o ∈ l, o.value = value) :
    ∃ o, (check value l).filter (·.checked) = [o] ∧ o.value = value := by
  induction l with
  | nil => simp at h
  | cons a l ih =>
    have hrest : ∀ o ∈ l, o.checked = false := fun o ho => hl o (List.mem_cons_of_mem a ho)
    by_cases ha : a.value = value
    · refine ⟨{ a with checked := true }, ?_, ha⟩
      have hnone : l.filter (·.checked) = [] := by
        rw [List.filter_eq_nil_iff]
        intro o ho
        simp [hrest o ho]
      simp [check, ha, hnone]
    · obtain ⟨o, ho, hvalue⟩ : ∃ o ∈ l, o.value = value := by
        obtain ⟨o, ho, hvalue⟩ := h
        rcases List.mem_cons.mp ho with rfl | ho
        · exact absurd hvalue ha
        · exact ⟨o, ho, hvalue⟩
      obtain ⟨c, hc, hcvalue⟩ := ih hrest ⟨o, ho, hvalue⟩
      refine ⟨c, ?_, hcvalue⟩
      simpa [check, ha, hl a (List.mem_cons_self ..)] using hc

theorem checked_current {current : Override} {orders : List Order}
    (h : ∀ id, current = .order id → ∃ o ∈ orders, o.id = id) :
    ∃ o, (render current orders).options.filter (·.checked) = [o] ∧
      o.value = current.display := by
  apply checked_of_mem
  · intro o ho
    rcases List.mem_cons.mp ho with rfl | ho
    · rfl
    · obtain ⟨_, _, rfl⟩ := List.mem_map.mp ho
      rfl
  · cases current with
    | none => exact ⟨_, List.mem_cons_self .., rfl⟩
    | order id =>
      obtain ⟨o, ho, rfl⟩ := h id rfl
      exact ⟨_, List.mem_cons_of_mem _ (List.mem_map_of_mem ho), rfl⟩

end OverrideView

namespace ZonesView

variable {orders : List Order} {plannings : List Planning}

theorem mem_modes_fixed {o : Order} (h : o ∈ orders) :
    ∃ label, (ZoneMode.fixed o.id, label) ∈ modes orders plannings :=
  ⟨_, List.mem_append_left _ (List.mem_map_of_mem h)⟩

theorem mem_modes_planning {p : Planning} (h : p ∈ plannings) :
    ∃ label, (ZoneMode.planning p.id, label) ∈ modes orders plannings :=
  ⟨_, List.mem_append_right _ (List.mem_map_of_mem h)⟩

theorem marked_mode {z : Zone} {label : String} (h : (z.mode, label) ∈ modes orders plannings) :
    ∃ c, (row orders plannings z).modes.filter (·.selected) = [c] ∧ c.value = z.mode.display :=
  Choice.marked_of_mem h

theorem row_current (plannings : List Planning) {z : Zone} {o : Order} (h : o ∈ orders)
    (hid : o.id = z.current) :
    ∃ o ∈ orders, o.id = z.current ∧ (row orders plannings z).currentName = o.name ∧
      (row orders plannings z).currentColour = o.colour := by
  have hsome : (Order.find? orders z.current).isSome = true := by
    rw [Order.find?, List.find?_isSome]
    exact ⟨o, h, by simpa using hid⟩
  obtain ⟨first, hfirst⟩ := Option.isSome_iff_exists.mp hsome
  refine ⟨first, List.mem_of_find?_eq_some hfirst, ?_, ?_, ?_⟩
  · simpa using List.find?_some hfirst
  · simp [row, hfirst]
  · simp [row, hfirst]

end ZonesView

namespace PlanningsView

variable {plannings : List Planning}

theorem mem_sorted {p : Planning} : p ∈ sorted plannings ↔ p ∈ plannings := List.mem_mergeSort

theorem selection_of_ne_nil (h : plannings ≠ []) (requested : Option PlanningId) :
    ∃ p ∈ plannings, selection plannings requested = some p.id := by
  unfold selection
  cases hfilter : requested.filter fun id => plannings.any fun p => p.id = id with
  | some id =>
    have hlisted := (Option.filter_eq_some_iff.mp hfilter).2
    obtain ⟨p, hp, hid⟩ := List.any_eq_true.mp hlisted
    obtain rfl : p.id = id := by simpa using hid
    exact ⟨p, hp, rfl⟩
  | none =>
    cases plannings with
    | nil => exact absurd rfl h
    | cons p rest => exact ⟨p, List.mem_cons_self .., rfl⟩

theorem selected_of_listed {p : Planning} (h : p ∈ plannings) {id : PlanningId} (hid : p.id = id) :
    (render plannings (some id)).selected = some id := by
  have hany : ((sorted plannings).any fun p => p.id = id) = true :=
    List.any_eq_true.mpr ⟨p, mem_sorted.mpr h, decide_eq_true hid⟩
  simp only [render, selection, Option.filter_some, hany, if_true, Option.some_or]

theorem render_nil (requested : Option PlanningId) : render [] requested = ⟨[], none⟩ := by
  have hsorted : sorted [] = [] := List.mergeSort_nil
  cases requested <;> simp [render, hsorted, selection, Choice.list]

theorem marked_selection (h : plannings ≠ []) (requested : Option PlanningId) :
    ∃ c, ∃ p ∈ plannings, (render plannings requested).selected = some p.id ∧
      (render plannings requested).plannings.filter (·.selected) = [c] ∧
      c.value = p.id.display := by
  have hsorted : sorted plannings ≠ [] := by
    obtain ⟨p, hp⟩ := List.exists_mem_of_ne_nil plannings h
    exact List.ne_nil_of_mem (mem_sorted.mpr hp)
  obtain ⟨p, hp, hselected⟩ := selection_of_ne_nil hsorted requested
  have hrender : (render plannings requested).selected = some p.id := hselected
  obtain ⟨c, hc, hvalue⟩ : ∃ c, (Choice.list (fun p => p.id.display) Planning.name
      (some p.id.display) (sorted plannings)).filter (·.selected) = [c] ∧
      c.value = p.id.display := Choice.marked_of_mem hp
  refine ⟨c, p, mem_sorted.mp hp, hrender, ?_, hvalue⟩
  simp only [render, hselected]
  exact hc

end PlanningsView

namespace HardwareView

variable {l : HardwareList}

theorem selection_of_current {board : HardwareType} (hboard : board ∈ l.supported)
    (hcurrent : l.current = some board.id) (requested : Option HardwareId) :
    ∃ h ∈ l.supported, selection l requested = some h.id := by
  unfold selection
  cases hfilter : requested.filter fun id => (l.find? id).isSome with
  | some id =>
    have hlisted := (Option.filter_eq_some_iff.mp hfilter).2
    obtain ⟨h, hfound⟩ := Option.isSome_iff_exists.mp hlisted
    obtain rfl : h.id = id := by simpa using List.find?_some hfound
    exact ⟨h, List.mem_of_find?_eq_some hfound, rfl⟩
  | none => exact ⟨board, hboard, hcurrent⟩

theorem marked_board {h : HardwareType} (hlisted : h ∈ l.supported)
    (parameters : List HardwareParameter) :
    ∃ c, (render l (some h.id) parameters).supported.filter (·.selected) = [c] ∧
      c.value = h.id.text :=
  Choice.marked_of_mem hlisted

end HardwareView

namespace SlotsView

/-- In the row of a slot each field has one marked option, and together they are its fields. -/
theorem marked_row {orders : List Order} {x : Slot} {o : Order} (ho : o ∈ orders)
    (hid : o.id = x.order) (hhour : x.hour < 24) (hminute : x.minute < 60) :
    ∃ day hour minute order, (row orders x).day.filter (·.selected) = [day] ∧
      (row orders x).hour.filter (·.selected) = [hour] ∧
      (row orders x).minute.filter (·.selected) = [minute] ∧
      (row orders x).order.filter (·.selected) = [order] ∧
      (⟨day.value, hour.value, minute.value, order.value⟩ : SlotInput) = SlotInput.ofSlot x := by
  obtain ⟨day, hday, hdayValue⟩ := Choice.marked_day x.day
  obtain ⟨hour, hhourMarked, hhourValue⟩ :=
    Choice.marked_number (UInt8.lt_iff_toNat_lt.mp hhour) "h"
  obtain ⟨minute, hminuteMarked, hminuteValue⟩ :=
    Choice.marked_number (UInt8.lt_iff_toNat_lt.mp hminute) "m"
  obtain ⟨order, horder, horderValue⟩ := Choice.marked_order ho
  rw [hid] at horder horderValue
  refine ⟨day, hour, minute, order, hday, hhourMarked, hminuteMarked, horder, ?_⟩
  rw [hdayValue, hhourValue, hminuteValue, horderValue]
  rfl

end SlotsView
end HeatingControl
