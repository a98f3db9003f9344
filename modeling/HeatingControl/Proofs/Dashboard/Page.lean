import HeatingControl.Proofs.Controller.Accounts
import HeatingControl.Proofs.Controller.Boards
import HeatingControl.Proofs.Controller.Legible
import HeatingControl.Proofs.Dashboard.Site
import HeatingControl.Proofs.View.Choice
import Mathlib.Data.List.Forall2

/-!
# The main page of a controller that is online

Every section comes, whatever was selected, and every option list marks the one option that stands
for what is stored.
-/
namespace HeatingControl

structure ZoneRow.Shows (week : WeekTime) (s : State) (z : Zone) (row : ZoneRow) : Prop where
  id : row.id = z.id.text
  description : row.description = z.description
  current : ∃ o ∈ s.orders, o.id = s.currentOrder week z ∧ row.currentName = o.name ∧
    row.currentColour = o.colour
  named : row.currentName ≠ ZonesView.unknownOrder.1
  mode : ∃ c, row.modes.filter (·.selected) = [c] ∧ ZoneMode.parse c.value = .ok z.mode

structure SlotRow.Shows (x : Slot) (row : SlotRow) : Prop where
  id : row.id = x.id
  marked : ∃ day hour minute order, row.day.filter (·.selected) = [day] ∧
    row.hour.filter (·.selected) = [hour] ∧ row.minute.filter (·.selected) = [minute] ∧
    row.order.filter (·.selected) = [order] ∧
    SlotInput.parse? ⟨day.value, hour.value, minute.value, order.value⟩ =
      some ⟨x.day, x.hour, x.minute, x.order⟩

namespace Dashboard

/-- A page without a gap, on which everything that is stored is marked and nothing else. -/
structure Page.Complete (week : WeekTime) (s : State) (p : Page) : Prop where
  status : p.status.isSome = true
  override : ∃ v o, p.override = some v ∧ v.options.filter (·.checked) = [o] ∧
    Override.parse o.value = s.override
  zones : ∃ v, p.zones = some v ∧ List.Forall₂ (ZoneRow.Shows week s) s.zones v.zones
  plannings : ∃ v, p.plannings = some v ∧ (s.plannings = [] → v.plannings = []) ∧
    (s.plannings ≠ [] → ∃ c, ∃ x ∈ s.plannings, v.selected = some x.id ∧
      v.plannings.filter (·.selected) = [c] ∧ c.value = x.id.display)
  slots_present : p.slots.isSome = true ↔ s.plannings ≠ []
  slots : ∀ v, p.slots = some v → p.plannings.bind (·.selected) = some v.planning ∧
    ∃ stored sorted, Table.get? v.planning s.slots = some stored ∧ sorted.Perm stored ∧
      List.Forall₂ SlotRow.Shows sorted v.slots
  accounts : p.accounts.isSome = true
  hardware : ∃ v c, p.hardware = some v ∧ v.supported.filter (·.selected) = [c] ∧
    ∃ board ∈ s.hardware.supported, v.selected = some board.id ∧ c.value = board.id.text
  admin : p.admin = true
  errors : p.errors = []

/-- The page as it is made of what is stored, with the messages that were pending. -/
structure Page.Built (week : WeekTime) (s : State) (messages : List String) (selection : Selection)
    (p : Page) : Prop where
  status : p.status.isSome = true
  override : p.override = some (OverrideView.render s.override s.orders)
  zones : p.zones = some (ZonesView.render s.orders (s.currentZones week) s.plannings)
  plannings : p.plannings = some (PlanningsView.render s.plannings selection.planning)
  slots_present : p.slots.isSome = true ↔ s.plannings ≠ []
  slots : ∀ v, p.slots = some v →
    (PlanningsView.render s.plannings selection.planning).selected = some v.planning ∧
    ∃ stored, Table.get? v.planning s.slots = some stored ∧
      v = SlotsView.render v.planning stored s.orders
  accounts : p.accounts = some (AccountsView.render (s.accounts.map (·.account)))
  hardware : ∃ board ∈ s.hardware.supported, ∃ parameters,
    HardwareView.selection s.hardware selection.hardware = some board.id ∧
    Table.get? board.id s.parameters = some parameters ∧
    p.hardware = some (HardwareView.render s.hardware (some board.id) parameters)
  admin : p.admin = hasAdministrator (s.accounts.map (·.account))
  errors : p.errors = messages

section Loads

variable {grace : Nat} {week : WeekTime} {b : State} {m : Memory}
  (hidle : b.rebootingUntil = none)

include hidle

theorem loads_status : Loads grace week b m loadStatus fun _ => True := by
  have hread : Loads grace week b m (call .getStatus) fun _ => True :=
    loads_call hidle fun now => ⟨b.status now, rfl, trivial⟩
  refine hread.bind ?_
  intro status _
  exact loads_pure trivial

theorem loads_override :
    Loads grace week b m loadOverride (· = OverrideView.render b.override b.orders) := by
  refine (loads_read .getOverride b.override hidle fun _ => rfl).bind ?_
  rintro _ rfl
  refine (loads_read .getOrders b.orders hidle fun _ => rfl).bind ?_
  rintro _ rfl
  exact loads_pure rfl

theorem loads_plannings (requested : Option PlanningId) :
    Loads grace week b m (loadPlannings requested)
      (· = PlanningsView.render b.plannings requested) := by
  refine (loads_read .getPlannings b.plannings hidle fun _ => rfl).bind ?_
  rintro _ rfl
  exact loads_pure rfl

theorem loads_slots {planning : PlanningId} {slots : List Slot}
    (found : Table.get? planning b.slots = some slots) :
    Loads grace week b m (loadSlots planning) (· = SlotsView.render planning slots b.orders) := by
  have hread : State.planningSlots planning b = (.ok slots, b) := by
    simp only [State.planningSlots, found]
  refine (loads_read (.getPlanningSlots planning) slots hidle fun _ => hread).bind ?_
  rintro _ rfl
  refine (loads_read .getOrders b.orders hidle fun _ => rfl).bind ?_
  rintro _ rfl
  exact loads_pure rfl

theorem loads_accounts :
    Loads grace week b m loadAccounts
      (· = AccountsView.render (b.accounts.map (·.account))) := by
  refine (loads_read .getAccounts (b.accounts.map (·.account)) hidle fun _ => rfl).bind ?_
  rintro _ rfl
  exact loads_pure rfl

theorem loads_hardware {requested : Option HardwareId} {board : HardwareId}
    {parameters : List HardwareParameter}
    (hselected : HardwareView.selection b.hardware requested = some board)
    (found : Table.get? board b.parameters = some parameters) :
    Loads grace week b m (loadHardware requested)
      (· = HardwareView.render b.hardware (some board) parameters) := by
  have hread : State.hardwareParameters board b = (.ok parameters, b) := by
    simp only [State.hardwareParameters, found]
  refine (loads_read .getHardware b.hardware hidle fun _ => rfl).bind ?_
  rintro _ rfl
  rw [hselected]
  refine (loads_read (.getHardwareParameters board) parameters hidle fun _ => hread).bind ?_
  rintro _ rfl
  exact loads_pure rfl

omit hidle in
theorem loads_selectedSlots {view : PlanningsView} {slots : Option SlotsView}
    (h : ∀ id, view.selected = some id →
      ∃ v, slots = some v ∧ Loads grace week b m (loadSlots id) (· = v))
    (hnone : view.selected = none → slots = none) :
    Task.Ensures (Site.behaviour grace week) (AtRest b m) (loadSelectedSlots (.ok view))
      fun r w => r = slots.map .ok ∧ AtRest b m w := by
  unfold loadSelectedSlots
  cases hselected : view.selected with
  | none =>
    rw [hnone hselected]
    simp only [Except.toOption, Option.bind_some, hselected]
    exact fun w hw => ⟨rfl, hw⟩
  | some id =>
    obtain ⟨v, rfl, hload⟩ := h id hselected
    simp only [Except.toOption, Option.bind_some, hselected]
    refine Task.Ensures.bind hload fun r => Task.ensures_of_fact ?_
    rintro ⟨_, rfl, rfl⟩ w hw
    exact ⟨rfl, hw⟩

theorem bootstrap_atRest {selection : Selection} {slots : Option SlotsView}
    {hardware : HardwareView}
    (hslots : Task.Ensures (Site.behaviour grace week) (AtRest b m)
      (loadSelectedSlots (.ok (PlanningsView.render b.plannings selection.planning)))
      fun r w => r = slots.map .ok ∧ AtRest b m w)
    (hhardware : Loads grace week b m (loadHardware selection.hardware) (· = hardware)) :
    Task.Ensures (Site.behaviour grace week) (AtRest b m) (bootstrap selection) fun p w =>
      w.1.state = b ∧ ∃ status, p =
        { status := some status
          override := some (OverrideView.render b.override b.orders)
          zones := some (ZonesView.render b.orders (b.currentZones week) b.plannings)
          plannings := some (PlanningsView.render b.plannings selection.planning)
          slots := slots
          accounts := some (AccountsView.render (b.accounts.map (·.account)))
          hardware := some hardware
          admin := hasAdministrator (b.accounts.map (·.account))
          errors := m.panel.messages } := by
  unfold bootstrap
  refine Task.Ensures.bind (loads_status hidle) fun r => Task.ensures_of_fact ?_
  rintro ⟨status, rfl, -⟩
  refine Task.Ensures.bind (loads_override hidle) fun r => Task.ensures_of_fact ?_
  rintro ⟨_, rfl, rfl⟩
  refine Task.Ensures.bind (loads_zones hidle) fun r => Task.ensures_of_fact ?_
  rintro ⟨_, rfl, rfl⟩
  refine Task.Ensures.bind (loads_plannings hidle _) fun r => Task.ensures_of_fact ?_
  rintro ⟨_, rfl, rfl⟩
  refine Task.Ensures.bind hslots fun r => Task.ensures_of_fact ?_
  rintro rfl
  refine Task.Ensures.bind (loads_accounts hidle) fun r => Task.ensures_of_fact ?_
  rintro ⟨_, rfl, rfl⟩
  refine Task.Ensures.bind hhardware fun r => Task.ensures_of_fact ?_
  rintro ⟨_, rfl, rfl⟩ ⟨site, n⟩ ⟨hstate, rfl⟩
  cases slots with
  | none => exact ⟨hstate, status, rfl⟩
  | some v => exact ⟨hstate, status, rfl⟩

end Loads

section Complete

variable {grace : Nat} {week : WeekTime} {b : State} {m : Memory}

theorem mode_listed (hb : State.Integrity b) {z : Zone} (hz : z ∈ b.zones) :
    ∃ label, (z.mode, label) ∈ ZonesView.modes b.orders b.plannings := by
  have hmode := hb.modes_known z hz
  cases hz : z.mode with
  | fixed order =>
    rw [hz] at hmode
    obtain ⟨o, ho, rfl⟩ := State.exists_of_hasOrder hmode
    exact ZonesView.mem_modes_fixed ho
  | planning id =>
    rw [hz] at hmode
    obtain ⟨p, hp, rfl⟩ := State.exists_of_hasPlanning hmode
    exact ZonesView.mem_modes_planning hp

theorem zoneRow_shows (hb : State.Integrity b) {z : Zone} (hz : z ∈ b.zones) :
    ZoneRow.Shows week b z
      (ZonesView.row b.orders b.plannings { z with current := b.currentOrder week z }) := by
  generalize hshown : { z with current := b.currentOrder week z } = shown
  have hmode : shown.mode = z.mode := by rw [← hshown]
  have hcurrent : shown.current = b.currentOrder week z := by rw [← hshown]
  obtain ⟨o, ho, hid⟩ := State.exists_of_hasOrder (hb.current_known week hz)
  obtain ⟨first, hfirst, hfirstId, hname, hcolour⟩ :=
    ZonesView.row_current b.plannings ho (hid.trans hcurrent.symm)
  obtain ⟨label, hlisted⟩ := mode_listed hb hz
  rw [← hmode] at hlisted
  obtain ⟨c, hmarked, hvalue⟩ := ZonesView.marked_mode hlisted
  constructor
  · rw [← hshown]
    rfl
  · rw [← hshown]
    rfl
  · exact ⟨first, hfirst, hfirstId.trans hcurrent, hname, hcolour⟩
  · have hnamed : ∀ o ∈ Order.canonical, o.name ≠ ZonesView.unknownOrder.1 := by decide
    rw [hname]
    rw [hb.orders_canonical] at hfirst
    exact hnamed first hfirst
  · refine ⟨c, hmarked, ?_⟩
    rw [hvalue, hmode]
    exact hb.mode_legible (hb.modes_known z hz)

theorem slotRow_shows (hb : State.Integrity b) {x : Slot} (hx : b.SlotValid x) :
    SlotRow.Shows x (SlotsView.row b.orders x) := by
  obtain ⟨horder, hhour, hminute⟩ := hx
  obtain ⟨o, ho, hid⟩ := State.exists_of_hasOrder horder
  obtain ⟨day, hour, minute, order, hday, hhourMarked, hminuteMarked, horderMarked, hfields⟩ :=
    SlotsView.marked_row ho hid hhour hminute
  refine ⟨rfl, day, hour, minute, order, hday, hhourMarked, hminuteMarked, horderMarked, ?_⟩
  rw [hfields]
  exact hb.slot_legible ⟨horder, hhour, hminute⟩

theorem zones_shown (hb : State.Integrity b) :
    List.Forall₂ (ZoneRow.Shows week b) b.zones
      (ZonesView.render b.orders (b.currentZones week) b.plannings).zones := by
  simp only [ZonesView.render, State.currentZones, List.map_map]
  apply List.forall₂_map_right_iff.mpr
  apply List.forall₂_same.mpr
  intro z hz
  exact zoneRow_shows hb hz

theorem slots_shown (hb : State.Integrity b) {planning : PlanningId} {stored : List Slot}
    (found : Table.get? planning b.slots = some stored) :
    List.Forall₂ SlotRow.Shows (sortSlots stored)
      (SlotsView.render planning stored b.orders).slots := by
  simp only [SlotsView.render]
  apply List.forall₂_map_right_iff.mpr
  apply List.forall₂_same.mpr
  intro x hx
  have hstored : x ∈ stored := List.mem_mergeSort.mp hx
  exact slotRow_shows hb (hb.slots_valid _ (Table.mem_of_get? found) x hstored)

theorem slots_found (hb : State.Integrity b) {p : Planning} (hp : p ∈ b.plannings) :
    ∃ stored, Table.get? p.id b.slots = some stored := by
  apply Option.isSome_iff_exists.mp
  rw [Table.get?_isSome_iff, hb.slot_keys_listed, State.hasPlanning, List.any_eq_true]
  exact ⟨p, hp, decide_eq_true rfl⟩

theorem slots_selected (grace : Nat) (week : WeekTime) (m : Memory) (hb : State.Integrity b)
    (hidle : b.rebootingUntil = none) (requested : Option PlanningId) :
    let view := PlanningsView.render b.plannings requested
    ∃ slots : Option SlotsView,
      Task.Ensures (Site.behaviour grace week) (AtRest b m) (loadSelectedSlots (.ok view))
        (fun r w => r = slots.map .ok ∧ AtRest b m w) ∧
      (slots.isSome = true ↔ b.plannings ≠ []) ∧
      ∀ v, slots = some v → view.selected = some v.planning ∧
        ∃ stored, Table.get? v.planning b.slots = some stored ∧
          v = SlotsView.render v.planning stored b.orders := by
  intro view
  by_cases hempty : b.plannings = []
  · have hnone : view.selected = none := by
      simp only [view, hempty, PlanningsView.render_nil]
    refine ⟨none, loads_selectedSlots ?_ fun _ => rfl, by simp [hempty], ?_⟩
    · intro id hid
      rw [hnone] at hid
      cases hid
    · rintro v ⟨⟩
  · obtain ⟨c, p, hp, hselected, -, -⟩ := PlanningsView.marked_selection hempty requested
    obtain ⟨stored, found⟩ := slots_found hb hp
    refine ⟨some (SlotsView.render p.id stored b.orders), loads_selectedSlots ?_ ?_,
      by simp [hempty], ?_⟩
    · intro id hid
      obtain rfl : p.id = id := Option.some.inj (hselected.symm.trans hid)
      exact ⟨_, rfl, loads_slots hidle found⟩
    · intro hnone
      cases hselected.symm.trans hnone
    · rintro v ⟨⟩
      exact ⟨hselected, stored, found, rfl⟩

theorem bootstrap_built (hrun : State.Reachable grace b) (hidle : b.rebootingUntil = none)
    (selection : Selection) :
    Task.Ensures (Site.behaviour grace week) (AtRest b m) (bootstrap selection)
      fun p w => w.1.state = b ∧ p.Built week b m.panel.messages selection := by
  obtain ⟨slots, hslots, hpresent, hselected⟩ :=
    slots_selected grace week m hrun.integrity hidle selection.planning
  obtain ⟨current, hsupported, hcurrent⟩ := hrun.boardListed.current_supported
  obtain ⟨board, hboard, hboardSelected⟩ :=
    HardwareView.selection_of_current hsupported hcurrent selection.hardware
  obtain ⟨parameters, found⟩ := hrun.boardListed.parameters_found hboard
  have hpage := bootstrap_atRest hidle hslots (loads_hardware hidle hboardSelected found)
  refine hpage.mono ?_
  rintro p w ⟨hstate, status, rfl⟩
  refine ⟨hstate, rfl, rfl, rfl, rfl, hpresent, hselected, rfl, ?_, rfl, rfl⟩
  exact ⟨board, hboard, parameters, hboardSelected, found, rfl⟩

theorem Page.Built.complete (hrun : State.Reachable grace b) {selection : Selection} {p : Page}
    (h : p.Built week b [] selection) : p.Complete week b := by
  have hb := hrun.integrity
  constructor
  · exact h.status
  · have hlisted : ∀ id, b.override = .order id → ∃ o ∈ b.orders, o.id = id :=
      fun id hid => State.exists_of_hasOrder (hb.override_known id hid)
    obtain ⟨o, hchecked, hvalue⟩ := OverrideView.checked_current hlisted
    refine ⟨_, o, h.override, hchecked, ?_⟩
    rw [hvalue]
    exact hb.override_legible
  · exact ⟨_, h.zones, zones_shown hb⟩
  · refine ⟨_, h.plannings, ?_, ?_⟩
    · intro hempty
      rw [hempty, PlanningsView.render_nil]
    · intro hne
      obtain ⟨c, p, hp, hmarked⟩ := PlanningsView.marked_selection hne selection.planning
      exact ⟨c, p, hp, hmarked⟩
  · exact h.slots_present
  · intro v hv
    obtain ⟨hselected, stored, found, hview⟩ := h.slots v hv
    have hrows := slots_shown hb found
    rw [← hview] at hrows
    refine ⟨?_, stored, sortSlots stored, found, List.mergeSort_perm .., hrows⟩
    rw [h.plannings]
    exact hselected
  · rw [h.accounts]
    rfl
  · obtain ⟨board, hboard, parameters, -, -, hview⟩ := h.hardware
    obtain ⟨c, hmarked, hvalue⟩ := HardwareView.marked_board hboard parameters
    exact ⟨_, c, hview, hmarked, board, hboard, rfl, hvalue⟩
  · rw [h.admin]
    exact hrun.accounts.hasAdministrator
  · exact h.errors

theorem bootstrap_shows (hrun : State.Reachable grace b) (hidle : b.rebootingUntil = none)
    (hm : m.panel.messages = []) (selection : Selection) :
    Task.Ensures (Site.behaviour grace week) (AtRest b m) (bootstrap selection)
      fun p _ => p.Complete week b := by
  refine (bootstrap_built hrun hidle selection).mono ?_
  rintro p w ⟨-, hbuilt⟩
  rw [hm] at hbuilt
  exact hbuilt.complete hrun

theorem bootstrap_of_online {s : State} (h : State.Reachable grace s) {instants : Nat → Nat}
    (honline : s.OnlineAt (instants 0)) (m : Memory) (week : WeekTime) (selection : Selection) :
    let r := (bootstrap selection).runWith (Site.behaviour grace week) (⟨s, instants⟩, m)
    r.2.1.state = s.boot (instants 0) ∧
      r.1.Built week (s.boot (instants 0)) m.panel.messages selection := by
  have hasks : (bootstrap selection).Asks := trivial
  rw [hasks.runWith_boot]
  exact bootstrap_built (h.boot (instants 0)) honline selection
    (⟨s.boot (instants 0), instants⟩, m) ⟨rfl, rfl⟩

theorem Page.Complete.of_boot {s : State} {now : Nat} {p : Page}
    (h : p.Complete week (s.boot now)) : p.Complete week s := by
  obtain ⟨_, _, _, _, _, hrecords⟩ := State.boot_records now s
  rw [hrecords] at h
  obtain ⟨v, hv, hrows⟩ := h.zones
  have hzones : List.Forall₂ (ZoneRow.Shows week s) s.zones v.zones :=
    hrows.imp fun z row hz => ⟨hz.id, hz.description, hz.current, hz.named, hz.mode⟩
  exact ⟨h.status, h.override, ⟨v, hv, hzones⟩, h.plannings, h.slots_present, h.slots, h.accounts,
    h.hardware, h.admin, h.errors⟩

end Complete

/-- In every state of a run in which the controller is online, the page is complete whatever is
selected: no section is missing, slots are there just where there is a planning, the administrator
is known and no failure is shown; each list marks one option, and that one stands for what is
stored. -/
theorem bootstrap_complete {grace : Nat} {s : State} (h : State.Reachable grace s)
    (week : WeekTime) (instants : Nat → Nat) (honline : s.OnlineAt (instants 0)) {m : Memory}
    (hm : m.panel.messages = []) (selection : Selection) :
    ((bootstrap selection).runWith (Site.behaviour grace week) (⟨s, instants⟩, m)).1.Complete
      week s := by
  have hasks : (bootstrap selection).Asks := trivial
  rw [hasks.runWith_boot]
  have hshows : Task.Ensures (Site.behaviour grace week) (AtRest (s.boot (instants 0)) m)
      (bootstrap selection) fun p _ => p.Complete week (s.boot (instants 0)) :=
    bootstrap_shows (h.boot (instants 0)) honline hm selection
  exact (hshows (⟨s.boot (instants 0), instants⟩, m) ⟨rfl, rfl⟩).of_boot

/-- The planning of a zone is deleted, the controller is rebooted, and the page is asked for with
a planning and a board that do not exist. -/
theorem page_of_bogus_selection :
    let t : Moment := ⟨5, ⟨.monday, 8, 0⟩⟩
    let deleted := (State.step 10 t (.operation (.deletePlanning ⟨1⟩)) (.seeded 0)).2
    let s := (State.step 10 t (.operation .reboot) deleted).2
    let instants := fun n => 20000 + n
    let m := Memory.new 1
    let selection : Selection := ⟨some ⟨1⟩, some ⟨"M2"⟩⟩
    State.Reachable 10 s ∧ s.rebootingUntil.isSome ∧ s.OnlineAt (instants 0) ∧
      m.panel.messages = [] ∧
      ((bootstrap selection).runWith (Site.behaviour 10 t.week) (⟨s, instants⟩, m)).1.Complete
        t.week s := by
  intro t deleted s instants m selection
  have hrun : State.Reachable 10 s := .step t _ (.step t _ (.seeded 0))
  have hpending : s.rebootingUntil.isSome := by decide +kernel
  have honline : s.OnlineAt (instants 0) := by decide +kernel
  exact ⟨hrun, hpending, honline, rfl,
    bootstrap_complete hrun t.week instants honline rfl selection⟩

end Dashboard
end HeatingControl
