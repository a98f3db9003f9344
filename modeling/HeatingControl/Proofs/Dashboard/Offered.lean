import HeatingControl.Proofs.Controller.Zones
import HeatingControl.Proofs.Dashboard.Page
import HeatingControl.Proofs.Dashboard.SlotEdit
import HeatingControl.Proofs.View.SlotRows

/-!
# What the page offers

Whatever is chosen among the options of the page is accepted, and it is what the next page shows.
-/
namespace HeatingControl

/-- The row of a zone before and after a mode was chosen for the zone with this id. -/
structure ZoneRow.Switched (zone mode : String) (before after : ZoneRow) : Prop where
  id : after.id = before.id
  description : after.description = before.description
  chosen : before.id = zone → ∃ c, after.modes.filter (·.selected) = [c] ∧ c.value = mode
  others : before.id ≠ zone → after.modes = before.modes

/-- The slot that is shown in the row is the one that its number names. -/
def SlotRow.Named (s : State) (planning : PlanningId) (row : SlotRow) : Prop :=
  (s.slot? planning row.id).map (SlotsView.row s.orders) = some row

namespace Dashboard

variable {grace : Nat} {week week' : WeekTime} {b u : State} {m : Memory} {a : Action}

def outcomeOf (grace : Nat) (week : WeekTime) (w : Site × Memory) (a : Action) : Outcome :=
  (a.run.runWith (Site.behaviour grace week) w).1

def pageAfter (grace : Nat) (week week' : WeekTime) (w : Site × Memory) (a : Action)
    (selection : Selection) : Page :=
  ((bootstrap selection).runWith (Site.behaviour grace week')
    (a.run.runWith (Site.behaviour grace week) w).2).1

/-- An accepted change, and the pages that can be made after it. -/
structure Accepted (grace : Nat) (week week' : WeekTime) (w : Site × Memory) (a : Action)
    (u : State) : Prop where
  applied : outcomeOf grace week w a = .applied
  reachable : State.Reachable grace u
  page : ∀ selection, ∃ messages,
    (pageAfter grace week week' w a selection).Built week' u messages selection

theorem accepted_of_ok {op : Operation} (v : op.Answer) {w : Site × Memory}
    (hb : State.Reachable grace w.1.state) (hidle : w.1.state.rebootingUntil = none)
    (h : a.touchesZones = true) (hrequest : a.request? = some op)
    (hok : ∀ t, w.1.state.perform grace t op = (.ok v, u)) (hu : u.rebootingUntil = none) :
    Accepted grace week week' w a u := by
  obtain ⟨⟨s, instants⟩, m⟩ := w
  have hstep : State.step grace ⟨instants 0, week⟩ (.operation op) s = (.ok v, u) := by
    rw [State.step_of_idle hidle]
    exact hok _
  obtain ⟨happlied, hstate⟩ := run_of_ok (m := m) h hrequest (congrArg Prod.fst hstep)
  have hrun : State.Reachable grace u := by
    have hnext := State.Reachable.step ⟨instants 0, week⟩ (.operation op) hb
    rwa [hstep] at hnext
  rw [hstep] at hstate
  refine ⟨happlied, hrun, fun selection => ?_⟩
  exact ⟨_, (bootstrap_built hrun hu selection _ ⟨hstate, rfl⟩).2⟩

theorem pageAfter_of_pure (week week' : WeekTime) {w : Site × Memory}
    (hb : State.Reachable grace w.1.state) (hidle : w.1.state.rebootingUntil = none)
    {outcome : Outcome} (h : a.run = pure outcome) (selection : Selection) :
    outcomeOf grace week w a = outcome ∧ ∃ messages,
      (pageAfter grace week week' w a selection).Built week' w.1.state messages selection := by
  unfold outcomeOf pageAfter
  rw [h]
  exact ⟨rfl, _, (bootstrap_built hb hidle selection w ⟨rfl, rfl⟩).2⟩

-- Otherwise pages are run whenever two of them are compared.
attribute [irreducible] outcomeOf pageAfter

theorem mode_known_of_listed {mode : ZoneMode} {label : String}
    (h : (mode, label) ∈ ZonesView.modes b.orders b.plannings) : b.ModeKnown mode := by
  rcases List.mem_append.mp h with h | h
  · obtain ⟨o, ho, heq⟩ := List.mem_map.mp h
    cases heq
    exact List.any_eq_true.mpr ⟨o, ho, decide_eq_true rfl⟩
  · obtain ⟨p, hp, heq⟩ := List.mem_map.mp h
    cases heq
    exact List.any_eq_true.mpr ⟨p, hp, decide_eq_true rfl⟩

def withMode (b : State) (id : ZoneId) (mode : ZoneMode) : State :=
  { b with zones := b.zones.map fun z => if z.id = id then { z with mode := mode } else z }

theorem changeZoneMode_request (hb : State.Integrity b) (zone : String) {mode : ZoneMode}
    (hmode : b.ModeKnown mode) : (Action.changeZoneMode zone mode.display).request? =
      some (.patchZone ⟨zone⟩ (ZonePatch.ofMode mode)) := by
  rw [Action.request?, hb.mode_legible hmode]
  rfl

theorem changeZoneMode_accepted {w : Site × Memory} (hb : State.Reachable grace w.1.state)
    (hidle : w.1.state.rebootingUntil = none) {z : Zone} (hz : z ∈ w.1.state.zones)
    {mode : ZoneMode} (hmode : w.1.state.ModeKnown mode) :
    Accepted grace week week' w (.changeZoneMode z.id.text mode.display)
      (withMode w.1.state z.id mode) := by
  have hrequest := changeZoneMode_request hb.integrity z.id.text hmode
  refine accepted_of_ok () hb hidle rfl hrequest (fun t => ?_) hidle
  exact hb.zonesKept.patchZone_mode hz hmode

theorem zones_switched (id : ZoneId) {mode : ZoneMode} {label : String}
    (hmode : (mode, label) ∈ ZonesView.modes b.orders b.plannings) :
    List.Forall₂ (ZoneRow.Switched id.text mode.display)
      (ZonesView.render b.orders (b.currentZones week) b.plannings).zones
      (ZonesView.render b.orders ((withMode b id mode).currentZones week') b.plannings).zones := by
  simp only [ZonesView.render, State.currentZones, withMode, List.map_map]
  rw [List.forall₂_map_left_iff, List.forall₂_map_right_iff, List.forall₂_same]
  intro z hz
  by_cases hid : z.id = id
  · subst hid
    simp only [Function.comp_apply, if_true]
    refine ⟨rfl, rfl, fun _ => ?_, fun hne => absurd rfl hne⟩
    exact Choice.marked_of_mem hmode
  · simp only [Function.comp_apply, if_neg hid]
    exact ⟨rfl, rfl, fun heq => absurd (congrArg ZoneId.mk heq) hid, fun _ => rfl⟩

theorem changeOverride_request (hb : State.Integrity b) {value : Override}
    (hknown : ∀ id, value = .order id → b.hasOrder id = true) :
    (Action.changeOverride value.display).request? = some (.putOverride value) := by
  have hlegible : Text.allBlank value.display = false ∧ Override.parse value.display = value := by
    cases value with
    | none => decide
    | order id =>
      have hall : ∀ o ∈ Order.canonical, Text.allBlank o.id.text = false := by decide
      obtain ⟨o, ho, rfl⟩ := hb.order_canonical (hknown id rfl)
      exact ⟨hall o ho, (hb.order_legible (hknown o.id rfl)).1⟩
  simp only [Action.request?, hlegible.1, Bool.false_eq_true, if_false, hlegible.2]

theorem changeOverride_accepted {w : Site × Memory} (hb : State.Reachable grace w.1.state)
    (hidle : w.1.state.rebootingUntil = none) {value : Override}
    (hknown : ∀ id, value = .order id → w.1.state.hasOrder id = true) :
    Accepted grace week week' w (.changeOverride value.display)
      { w.1.state with override := value } := by
  have hrequest := changeOverride_request hb.integrity hknown
  refine accepted_of_ok () hb hidle rfl hrequest (fun t => ?_) hidle
  exact State.putOverride_of_known hknown

theorem slots_of_built {week : WeekTime} {messages : List String} {selection : Selection}
    {p : Page} (hrun : State.Reachable grace b) (h : p.Built week b messages selection)
    {planning : PlanningId} (hselected : selection.planning = some planning)
    {stored : List Slot} (found : Table.get? planning b.slots = some stored) :
    p.slots = some (SlotsView.render planning stored b.orders) := by
  have hlisted : b.hasPlanning planning = true := by
    rw [← hrun.integrity.slot_keys_listed, ← Table.get?_isSome_iff, found]
    rfl
  obtain ⟨x, hx, hid⟩ := State.exists_of_hasPlanning hlisted
  have hselection : (PlanningsView.render b.plannings selection.planning).selected =
      some planning := by
    rw [hselected]
    exact PlanningsView.selected_of_listed hx hid
  obtain ⟨v, hv⟩ := Option.isSome_iff_exists.mp (h.slots_present.mpr (List.ne_nil_of_mem hx))
  obtain ⟨hplanning, stored', found', hview⟩ := h.slots v hv
  obtain rfl : v.planning = planning := Option.some.inj (hplanning.symm.trans hselection)
  rw [found, Option.some.injEq] at found'
  rw [hv, found']
  exact congrArg some hview

section Slots

/-- An edit of a slot that is stored as it was shown stores all of its fields. -/
theorem merge_of_shown (c : Slot) (n : NewSlot) :
    c.merge ⟨c.day, c.hour, c.minute, c.order⟩ n = n.toSlot c.id := by
  have hfield {α : Type} [DecidableEq α] (shown edited : α) :
      mergeField shown edited shown = edited := by
    by_cases h : shown = edited <;> simp [mergeField, h]
  simp only [Slot.merge, hfield]
  rfl

variable {w : Site × Memory} (hb : State.Reachable grace w.1.state)
  (hidle : w.1.state.rebootingUntil = none) {planning : PlanningId} {posted : SlotInput}
  {n : NewSlot}

theorem order_known_of_listed (h : ∃ o ∈ b.orders, o.id = n.order) :
    b.hasOrder n.order = true := by
  obtain ⟨o, ho, hid⟩ := h
  exact List.any_eq_true.mpr ⟨o, ho, decide_eq_true hid⟩

theorem parse?_of_writes (hb : State.Integrity b) (h : posted.Writes b.orders n) :
    posted.parse? = some n := by
  rw [h.fields ⟨0⟩]
  exact hb.slot_legible (x := n.toSlot ⟨0⟩) ⟨order_known_of_listed h.order, h.hour, h.minute⟩

include hb hidle

theorem addSlot_accepted (week week' : WeekTime) {stored : List Slot}
    (found : Table.get? planning w.1.state.slots = some stored)
    (hroom : stored.length < Limits.slotsPerPlanning) (h : posted.Writes w.1.state.orders n) :
    ∃ id u, Accepted grace week week' w (.addSlot planning posted) u ∧
      u.orders = w.1.state.orders ∧
      Table.get? planning u.slots = some (stored ++ [n.toSlot id]) := by
  let id : SlotId := ⟨State.nextNumber (stored.map fun x => x.id.number)⟩
  let u : State := { w.1.state with
    slots := Table.adjust planning (· ++ [n.toSlot id]) w.1.state.slots }
  have hrequest : (Action.addSlot planning posted).request? = some (.createSlot planning n) := by
    rw [Action.request?, parse?_of_writes hb.integrity h]
    rfl
  have hvalid : n.validate = .ok () := checkTime_ok_iff.mpr ⟨h.hour, h.minute⟩
  have hcheck : w.1.state.checkOrder n.order = .ok () :=
    State.checkOrder_ok_iff.mpr (order_known_of_listed h.order)
  have hok : ∀ t, w.1.state.perform grace t (.createSlot planning n) = (.ok (), u) := by
    intro t
    simp only [State.perform, State.drop, State.createSlot, hvalid, hcheck, found,
      if_neg (Nat.not_le.mpr hroom)]
    rfl
  have hu : u.rebootingUntil = none := hidle
  refine ⟨id, u, accepted_of_ok () hb hidle rfl hrequest hok hu, rfl, ?_⟩
  rw [Table.get?_adjust, found]
  rfl

theorem editSlot_accepted (week week' : WeekTime) {c : Slot}
    (hc : w.1.state.slot? planning c.id = some c) (h : posted.Writes w.1.state.orders n)
    (hne : n.toSlot c.id ≠ c) :
    ∃ u, Accepted grace week week' w
        (.editSlot planning c.id (SlotInput.ofSlot c) posted) u ∧
      State.SlotReplaced planning c (n.toSlot c.id) w.1.state u := by
  let o : NewSlot := ⟨c.day, c.hour, c.minute, c.order⟩
  have hs := hb.integrity
  have hchanged : n ≠ o := by
    rintro rfl
    exact hne rfl
  have hmerged : (State.patchSlot planning c.id (.diff o n) w.1.state).1 = .ok () ∧
      State.SlotReplaced planning c (c.merge o n) w.1.state
        (State.patchSlot planning c.id (.diff o n) w.1.state).2 :=
    State.patchSlot_merges hs ⟨h.hour, h.minute⟩ (Or.inr (order_known_of_listed h.order)) hc
  obtain ⟨hok, hreplaced⟩ := hmerged
  rw [merge_of_shown] at hreplaced
  have hperform : ∀ t, w.1.state.perform grace t (.patchSlot planning c.id (.diff o n)) =
      (.ok (), (State.patchSlot planning c.id (.diff o n) w.1.state).2) :=
    fun t => Prod.ext hok rfl
  refine ⟨_, ?_, hreplaced⟩
  exact accepted_of_ok () hb hidle rfl
    (editSlot_request c.id (hs.slot_legible (hs.slot_valid hc)) (parse?_of_writes hs h) hchanged)
    hperform (hreplaced.rebootingUntil.trans hidle)

end Slots

section Choices

variable {week₀ : WeekTime} {messages : List String} {selection : Selection} {p : Page}
  {w : Site × Memory} (hb : State.Reachable grace w.1.state)
  (hidle : w.1.state.rebootingUntil = none)
  (hp : p.Built week₀ w.1.state messages selection)

include hb hidle hp

theorem modes_hold : ∃ zones, p.zones = some zones ∧ ∀ row ∈ zones.zones, ∀ c ∈ row.modes,
    let a := Action.changeZoneMode row.id c.value
    outcomeOf grace week w a = .applied ∧
    ∀ chosen, ∃ zones', (pageAfter grace week week' w a chosen).zones = some zones' ∧
      List.Forall₂ (ZoneRow.Switched row.id c.value) zones.zones zones'.zones := by
  refine ⟨_, hp.zones, fun row hrow c hc => ?_⟩
  simp only [ZonesView.render, State.currentZones, List.map_map] at hrow
  obtain ⟨z, hz, rfl⟩ := List.mem_map.mp hrow
  obtain ⟨⟨mode, label⟩, hlisted, hvalue⟩ := Choice.value_of_mem hc
  have haccepted : Accepted grace week week' w (.changeZoneMode z.id.text mode.display)
      (withMode w.1.state z.id mode) :=
    changeZoneMode_accepted hb hidle hz (mode_known_of_listed hlisted)
  rw [hvalue]
  refine ⟨haccepted.applied, fun chosen => ?_⟩
  obtain ⟨messages, hnext⟩ := haccepted.page chosen
  exact ⟨_, hnext.zones, zones_switched z.id hlisted⟩

theorem overrides_hold : ∃ v, p.override = some v ∧ ∀ o ∈ v.options,
    let a := Action.changeOverride o.value
    outcomeOf grace week w a = .applied ∧
    ∀ chosen, ∃ v' o', (pageAfter grace week week' w a chosen).override = some v' ∧
      v'.options.filter (·.checked) = [o'] ∧ o'.value = o.value := by
  refine ⟨_, hp.override, fun o ho => ?_⟩
  obtain ⟨value, hvalue, hlisted⟩ := OverrideView.value_of_mem ho
  have hknown : ∀ id, value = .order id → w.1.state.hasOrder id = true := by
    intro id hid
    obtain ⟨r, hr, hrid⟩ := hlisted id hid
    exact List.any_eq_true.mpr ⟨r, hr, decide_eq_true hrid⟩
  have haccepted : Accepted grace week week' w (.changeOverride value.display)
      { w.1.state with override := value } := changeOverride_accepted hb hidle hknown
  rw [hvalue]
  refine ⟨haccepted.applied, fun chosen => ?_⟩
  obtain ⟨messages, hnext⟩ := haccepted.page chosen
  obtain ⟨o', hchecked, hvalue'⟩ := OverrideView.checked_current hlisted
  exact ⟨_, o', hnext.override, hchecked, hvalue'⟩

theorem newSlots_hold {v : SlotsView} (hv : p.slots = some v)
    (hroom : v.slots.length < Limits.slotsPerPlanning) {posted : SlotInput}
    (hposted : v.Offers posted) :
    let a := Action.addSlot v.planning posted
    outcomeOf grace week w a = .applied ∧
    ∀ chosen : Selection, chosen.planning = some v.planning → ∃ v' row,
      (pageAfter grace week week' w a chosen).slots = some v' ∧ v.Gains v' row ∧
      row.Selects posted := by
  obtain ⟨-, stored, found, hview⟩ := hp.slots v hv
  generalize v.planning = planning at *
  subst hview
  have hlength : stored.length < Limits.slotsPerPlanning := by
    simpa only [SlotsView.render, List.length_map, sortSlots, List.length_mergeSort] using hroom
  obtain ⟨n, hn⟩ := SlotsView.exists_slot hposted
  obtain ⟨id, u, haccepted, horders, hstored⟩ :=
    addSlot_accepted hb hidle week week' found hlength hn
  refine ⟨haccepted.applied, fun chosen hchosen => ?_⟩
  obtain ⟨messages, hnext⟩ := haccepted.page chosen
  have hview := slots_of_built haccepted.reachable hnext hchosen hstored
  rw [horders] at hview
  refine ⟨_, _, hview, ?_, hn.selected id⟩
  have hgains := SlotsView.render_gains planning w.1.state.orders stored [] (n.toSlot id)
  rwa [List.append_nil] at hgains

theorem edits_hold {v : SlotsView} (hv : p.slots = some v) {row : SlotRow}
    (hrow : row.Named w.1.state v.planning) {posted : SlotInput} (hposted : row.Offers posted) :
    let a := Action.editSlot v.planning row.id row.shown posted
    (outcomeOf grace week w a = if posted = row.shown then .skipped else .applied) ∧
    ∀ chosen : Selection, chosen.planning = some v.planning → ∃ v' row',
      (pageAfter grace week week' w a chosen).slots = some v' ∧ v.Replaces v' row row' ∧
      row'.Selects posted := by
  obtain ⟨-, stored, found, hview⟩ := hp.slots v hv
  generalize v.planning = planning at *
  subst hview
  have hs := hb.integrity
  obtain ⟨c, hc, rfl⟩ := Option.map_eq_some_iff.mp hrow
  have hc : w.1.state.slot? planning c.id = some c := hc
  obtain ⟨n, hn⟩ := SlotRow.exists_slot hposted
  have hshown := hs.slot_legible (hs.slot_valid hc)
  have hparsed := parse?_of_writes hs hn
  intro a
  by_cases hsame : posted = (SlotsView.row w.1.state.orders c).shown
  · have htext : posted = SlotInput.ofSlot c := hsame
    have hnc : n.toSlot c.id = c := by
      rw [htext, hshown] at hparsed
      rw [← Option.some.inj hparsed]
      rfl
    have hselects := hn.selected c.id
    rw [hnc] at hselects
    have hskipped : (Action.editSlot planning c.id (SlotInput.ofSlot c) posted).run =
        pure .skipped := by
      rw [htext]
      exact editSlot_unchanged c.id hshown hshown
    rw [if_pos hsame]
    obtain ⟨slots, found', hfind⟩ := Option.bind_eq_some_iff.mp hc
    rw [found, Option.some.injEq] at found'
    subst found'
    obtain ⟨front, back, rfl⟩ := List.append_of_mem (List.mem_of_find?_eq_some hfind)
    refine ⟨(pageAfter_of_pure week week' hb hidle hskipped ⟨none, none⟩).1,
      fun chosen hchosen => ?_⟩
    obtain ⟨-, messages, hnext⟩ :=
      pageAfter_of_pure week week' hb hidle hskipped chosen
    exact ⟨_, _, slots_of_built hb hnext hchosen found,
      SlotsView.render_replaces planning w.1.state.orders front back rfl, hselects⟩
  · have hne : n.toSlot c.id ≠ c := by
      intro heq
      apply hsame
      rw [hn.fields c.id, heq]
      rfl
    rw [if_neg hsame]
    obtain ⟨u, haccepted, hreplaced⟩ :=
      editSlot_accepted hb hidle week week' hc hn hne
    obtain ⟨front, back, hbefore, -, hafter⟩ := hreplaced.replaced
    rw [found, Option.some.injEq] at hbefore
    subst hbefore
    have horders : u.orders = w.1.state.orders := by rw [hreplaced.rest]
    refine ⟨haccepted.applied, fun chosen hchosen => ?_⟩
    obtain ⟨messages, hnext⟩ := haccepted.page chosen
    have hview := slots_of_built haccepted.reachable hnext hchosen hafter
    rw [horders] at hview
    exact ⟨_, _, hview, SlotsView.render_replaces planning w.1.state.orders front back rfl,
      hn.selected c.id⟩

end Choices

/-- Whatever is chosen on a page that shows the state is accepted, and every page that is made
next shows the choice: the mode of the zone, the override, and for a slot that is added or edited
one row with the fields that were chosen, the other rows being as they were. -/
structure Page.ChoicesHold (grace : Nat) (week week' : WeekTime) (s : State) (w : Site × Memory)
    (p : Page) : Prop where
  modes : ∃ zones, p.zones = some zones ∧ ∀ row ∈ zones.zones, ∀ c ∈ row.modes,
    let a := Action.changeZoneMode row.id c.value
    outcomeOf grace week w a = .applied ∧
    ∀ chosen, ∃ zones', (pageAfter grace week week' w a chosen).zones = some zones' ∧
      List.Forall₂ (ZoneRow.Switched row.id c.value) zones.zones zones'.zones
  override : ∃ v, p.override = some v ∧ ∀ o ∈ v.options,
    let a := Action.changeOverride o.value
    outcomeOf grace week w a = .applied ∧
    ∀ chosen, ∃ v' o', (pageAfter grace week week' w a chosen).override = some v' ∧
      v'.options.filter (·.checked) = [o'] ∧ o'.value = o.value
  slots_present : p.slots.isSome = true ↔ s.plannings ≠ []
  added : ∀ v, p.slots = some v → v.slots.length < Limits.slotsPerPlanning →
    ∀ posted, v.Offers posted →
    let a := Action.addSlot v.planning posted
    outcomeOf grace week w a = .applied ∧
    ∀ chosen : Selection, chosen.planning = some v.planning → ∃ v' row,
      (pageAfter grace week week' w a chosen).slots = some v' ∧ v.Gains v' row ∧
      row.Selects posted
  edited : ∀ v, p.slots = some v → ∀ row ∈ v.slots, row.Named s v.planning →
    ∀ posted, row.Offers posted →
    let a := Action.editSlot v.planning row.id row.shown posted
    (outcomeOf grace week w a = if posted = row.shown then .skipped else .applied) ∧
    ∀ chosen : Selection, chosen.planning = some v.planning → ∃ v' row',
      (pageAfter grace week week' w a chosen).slots = some v' ∧ v.Replaces v' row row' ∧
      row'.Selects posted
  /-- Every row is named by its number as long as slot numbers are distinct, as they are in runs of
  few enough creations. -/
  named : ∀ n, State.CountedRun grace n s → n ≤ State.maxCreations →
    ∀ v, p.slots = some v → ∀ row ∈ v.slots, row.Named s v.planning

theorem named_boot (now : Nat) (s : State) (planning : PlanningId) (row : SlotRow) :
    row.Named (s.boot now) planning ↔ row.Named s planning := by
  obtain ⟨_, _, _, _, _, hrecords⟩ := State.boot_records now s
  rw [SlotRow.Named, SlotRow.Named, boot_slot?, hrecords]

theorem rows_named {s : State} {n : Nat} (hrun : State.CountedRun grace n s)
    (hn : n ≤ State.maxCreations) {planning : PlanningId} {stored : List Slot}
    (found : Table.get? planning s.slots = some stored) :
    ∀ row ∈ (SlotsView.render planning stored s.orders).slots, row.Named s planning := by
  intro row hrow
  obtain ⟨c, hc, rfl⟩ := List.mem_map.mp hrow
  have hstored : c ∈ stored := List.mem_mergeSort.mp hc
  have hdistinct := (hrun.numbered hn).slot_ids_distinct _ (Table.mem_of_get? found)
  have hfound : s.slot? planning c.id = some c :=
    Option.bind_eq_some_iff.mpr ⟨stored, found, Table.find?_of_mem hdistinct hstored⟩
  exact congrArg (Option.map (SlotsView.row s.orders)) hfound

/-- In every state of a run in which the controller is online, all that the page offers is accepted
and shown. -/
theorem offered_choices_hold {s : State} (h : State.Reachable grace s) {instants : Nat → Nat}
    (honline : s.OnlineAt (instants 0)) (m : Memory) (week₀ week week' : WeekTime)
    (selection : Selection) :
    let r := (bootstrap selection).runWith (Site.behaviour grace week₀) (⟨s, instants⟩, m)
    r.1.ChoicesHold grace week week' s r.2 := by
  obtain ⟨hstate, hbuilt⟩ := bootstrap_of_online h honline m week₀ selection
  generalize (bootstrap selection).runWith (Site.behaviour grace week₀) (⟨s, instants⟩, m) = r at *
  intro r'
  have hb : State.Reachable grace r.2.1.state := by
    rw [hstate]
    exact h.boot _
  have hidle : r.2.1.state.rebootingUntil = none := by
    rw [hstate]
    exact honline
  obtain ⟨_, _, _, _, _, hrecords⟩ := State.boot_records (instants 0) s
  constructor
  · rw [← hstate] at hbuilt
    exact modes_hold hb hidle hbuilt
  · rw [← hstate] at hbuilt
    exact overrides_hold hb hidle hbuilt
  · have hpresent := hbuilt.slots_present
    rwa [hrecords] at hpresent
  · rw [← hstate] at hbuilt
    intro v hv hroom posted hposted
    exact newSlots_hold hb hidle hbuilt hv hroom hposted
  · rw [← hstate] at hbuilt
    intro v hv row hrow hnamed posted hposted
    rw [← named_boot (instants 0), ← hstate] at hnamed
    exact edits_hold hb hidle hbuilt hv hnamed hposted
  · intro n hrun hn v hv row hrow
    obtain ⟨-, stored, found, hview⟩ := hbuilt.slots v hv
    rw [hview] at hrow
    rw [hrecords] at found hrow
    exact rows_named hrun hn found row hrow

/-- The page of a controller that is back from a reboot, with another planning than the first. -/
theorem choices_after_reboot :
    let t : Moment := ⟨5, ⟨.monday, 8, 0⟩⟩
    let s := (State.step 10 t (.operation .reboot) (.seeded 0)).2
    let instants := fun n => 20000 + n
    let r := (bootstrap ⟨some ⟨2⟩, none⟩).runWith (Site.behaviour 10 t.week)
      (⟨s, instants⟩, Memory.new 1)
    State.Reachable 10 s ∧ s.rebootingUntil.isSome ∧ s.OnlineAt (instants 0) ∧
      r.1.ChoicesHold 10 t.week ⟨.friday, 23, 59⟩ s r.2 := by
  intro t s instants r
  have hrun : State.Reachable 10 s := .step t _ (.seeded 0)
  have hpending : s.rebootingUntil.isSome := by decide +kernel
  have honline : s.OnlineAt (instants 0) := by decide +kernel
  exact ⟨hrun, hpending, honline, offered_choices_hold hrun honline (Memory.new 1) t.week t.week
    ⟨.friday, 23, 59⟩ ⟨some ⟨2⟩, none⟩⟩

end Dashboard
end HeatingControl
