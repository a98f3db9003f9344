import HeatingControl.Proofs.Controller.Kinds
import HeatingControl.Proofs.Dashboard.Offered
import HeatingControl.Proofs.Web.ShownForm

/-!
# Forms that come back as they were shown

A form that is sent back without a change writes what is stored already, or nothing at all.
-/
namespace HeatingControl.Web

open Dashboard (Action Outcome Page Memory Site Selection Loads AtRest)

def Keeps (grace : Nat) (s : State) (outcome : Outcome) (a : Action) : Prop :=
  ∀ (week : WeekTime) (w : Site × Memory), w.1.state = s →
    let r := a.run.runWith (Site.behaviour grace week) w
    r.1 = outcome ∧ r.2.1.state = s

/-- The form stands on the page. The body that is sent for it stands for its fields, and wherever
they are received they are an action of the kind; they are not if the body is too large. -/
structure SentBack (p : Page) (f : ShownForm) (kind : Action → Prop) : Prop where
  shown : Within f.html (homePage p)
  encoded : Form.read f.request.body = f.fields
  posted : f.request.body.length ≤ Request.bodyLimit → f.Posts f.request
  received : ∃ a back, (∀ r, f.Posts r → visit r = .ok (.act a back)) ∧ kind a

theorem sentBack {p : Page} {f : ShownForm} {kind : Action → Prop} {a : Action} {back : String}
    (hshown : Within f.html (homePage p)) (hvisit : ∀ r, f.Posts r → visit r = .ok (.act a back))
    (ha : kind a) : SentBack p f kind where
  shown := hshown
  encoded := Form.read_write f.fields
  posted := ShownForm.posts_request
  received := ⟨a, back, hvisit, ha⟩

section Actions

variable {grace : Nat} {s : State} {a : Action} (hidle : s.rebootingUntil = none)

include hidle

theorem keeps_of_plan (op : Operation)
    (hplan : ∀ week m, Loads grace week s m a.plan (· = some op)) (v : op.Answer)
    (hperform : ∀ t, s.perform grace t op = (.ok v, s)) : Keeps grace s a.success a := by
  have hattempt : ∀ week m, Loads grace week s m a.attempt (· = a.success) := by
    intro week m
    refine (hplan week m).bind ?_
    rintro _ rfl
    refine (Dashboard.loads_read op v hidle fun _ => hperform _).bind ?_
    rintro _ -
    exact Dashboard.loads_pure rfl
  rintro week ⟨site, m⟩ hstate
  have hrun : Dashboard.Task.Ensures (Site.behaviour grace week) (AtRest s m) a.run
      fun r w => r = a.success ∧ w.1.state = s := by
    refine Dashboard.Task.Ensures.bind (hattempt week m) fun r =>
      Dashboard.Task.ensures_of_fact ?_
    rintro ⟨outcome, rfl, rfl⟩
    cases a.success with
    | applied =>
      dsimp only
      split
      · refine (Dashboard.refreshNow_atRest hidle).bind fun _ => ?_
        rintro w ⟨hstate, -⟩
        exact ⟨rfl, hstate⟩
      · rintro w ⟨hstate, -⟩
        exact ⟨rfl, hstate⟩
    | skipped | reboot | failed =>
      rintro w ⟨hstate, -⟩
      exact ⟨rfl, hstate⟩
  exact hrun (site, m) ⟨hstate, rfl⟩

theorem keeps_of_request {op : Operation} (h : a.touchesZones = true)
    (hrequest : a.request? = some op) (v : op.Answer)
    (hperform : ∀ t, s.perform grace t op = (.ok v, s)) : Keeps grace s .applied a := by
  have hplan : ∀ week m, Loads grace week s m a.plan (· = some op) := by
    intro week m
    rw [Dashboard.Action.plan_eq h, hrequest]
    exact Dashboard.loads_pure rfl
  have hkeeps := keeps_of_plan hidle op hplan v hperform
  rwa [Dashboard.Action.success_eq h] at hkeeps

end Actions

/-- The forms of a page that shows the state, sent back as they are shown: the row of a slot asks
for nothing, and the others write what is stored already, that of a board if it is in use. -/
structure UntouchedForms (grace : Nat) (s : State) (selection : Selection) (p : Page) : Prop where
  slots_present : p.slots.isSome = true ↔ s.plannings ≠ []
  slots : ∀ v, p.slots = some v → ∀ row ∈ v.slots,
    SentBack p (slotForm v.planning row) fun a => a.run = pure .skipped
  zones : ∃ v, p.zones = some v ∧ v.zones.length = s.zones.length ∧ ∀ row ∈ v.zones,
    SentBack p (modeForm row) (Keeps grace s .applied) ∧
      SentBack p (descriptionForm row) (Keeps grace s .applied)
  override : ∃ v, p.override = some v ∧ SentBack p (overrideForm v) (Keeps grace s .applied)
  hardware : ∃ v board, p.hardware = some v ∧ v.selected = some board ∧
    (selection.hardware = none → s.hardware.current = some board) ∧
    (s.hardware.current = some board →
      SentBack p (hardwareForm v.parameters board) (Keeps grace s .reboot))

section Page

variable {grace : Nat} {week : WeekTime} {s : State} {messages : List String}
  {selection : Selection} {p : Page} (hrun : State.Reachable grace s)
  (hp : p.Built week s messages selection)

include hrun hp

theorem slotForm_sentBack {v : SlotsView} (hv : p.slots = some v) {row : SlotRow}
    (hrow : row ∈ v.slots) :
    SentBack p (slotForm v.planning row) fun a => a.run = pure .skipped := by
  have hshown := slotForm_shown hp.plannings hv hrow
  have hs := hrun.integrity
  obtain ⟨-, stored, found, hview⟩ := hp.slots v hv
  rw [hview] at hrow
  obtain ⟨x, hx, rfl⟩ := List.mem_map.mp hrow
  have hstored : x ∈ stored := List.mem_mergeSort.mp hx
  have hvalid := hs.slots_valid _ (Table.mem_of_get? found) x hstored
  have hlegible := hs.slot_legible hvalid
  obtain ⟨horder, hhour, hminute⟩ := hvalid
  obtain ⟨o, ho, hid⟩ := State.exists_of_hasOrder horder
  have hselects : (SlotsView.row s.orders x).Selects (SlotInput.ofSlot x) :=
    SlotsView.marked_row ho hid hhour hminute
  exact sentBack hshown (fun _ => visit_slotForm v.planning hselects)
    (Dashboard.editSlot_unchanged x.id hlegible hlegible)

variable (hidle : s.rebootingUntil = none)

include hidle

omit hp in
theorem changeZoneMode_keeps {z : Zone} (hz : z ∈ s.zones) :
    Keeps grace s .applied (.changeZoneMode z.id.text z.mode.display) := by
  have hs := hrun.integrity
  have hmode := hs.modes_known z hz
  refine keeps_of_request hidle rfl (Dashboard.changeZoneMode_request hs _ hmode) () fun t => ?_
  refine (hrun.zonesKept.patchZone_mode hz hmode).trans ?_
  rw [hrun.zonesKept.map_unchanged hz rfl]

omit hp in
theorem renameZone_keeps {z : Zone} (hz : z ∈ s.zones) :
    Keeps grace s .applied (.renameZone z.id.text z.description) := by
  have hkept := hrun.zonesKept
  obtain ⟨htrimmed, hfilled⟩ := hkept.described z hz
  have hblank : Text.allBlank z.description = false := by
    rw [Bool.eq_false_iff, ne_eq, ← Text.trim_eq_empty, htrimmed]
    exact hfilled
  have hrequest : (Action.renameZone z.id.text z.description).request? =
      some (.patchZone z.id ⟨some z.description, none⟩) := by
    simp only [Action.request?, ZonePatch.ofDescription, htrimmed, if_neg hfilled]
    rfl
  refine keeps_of_request hidle rfl hrequest () fun t => ?_
  refine (hkept.patchZone_description hz hblank).trans ?_
  rw [htrimmed, hkept.map_unchanged hz rfl]

theorem zoneForms_sentBack : ∃ v, p.zones = some v ∧ v.zones.length = s.zones.length ∧
    ∀ row ∈ v.zones, SentBack p (modeForm row) (Keeps grace s .applied) ∧
      SentBack p (descriptionForm row) (Keeps grace s .applied) := by
  refine ⟨_, hp.zones, by simp [ZonesView.render, State.currentZones], fun row hrow => ?_⟩
  obtain ⟨hdescription, hmode⟩ := zoneForms_shown hp.zones hrow
  simp only [ZonesView.render, State.currentZones, List.map_map] at hrow
  obtain ⟨z, hz, rfl⟩ := List.mem_map.mp hrow
  have hword : IsWord z.id.text := by
    have hall : ∀ id ∈ Seed.zones.map (·.id), IsWord id.text := by decide
    apply hall
    rw [← hrun.zonesKept.ids]
    exact List.mem_map_of_mem hz
  obtain ⟨label, hlisted⟩ := Dashboard.mode_listed hrun.integrity hz
  obtain ⟨c, hmarked, hvalue⟩ :=
    ZonesView.marked_mode (z := { z with current := s.currentOrder week z }) hlisted
  have hvisit := fun r => visit_modeForm (r := r) hword hmarked
  rw [hvalue] at hvisit
  have hswitched := changeZoneMode_keeps hrun hidle hz
  have hrenamed := renameZone_keeps hrun hidle hz
  exact ⟨sentBack hmode hvisit hswitched,
    sentBack hdescription (fun _ => visit_descriptionForm hword) hrenamed⟩

theorem overrideForm_sentBack :
    ∃ v, p.override = some v ∧ SentBack p (overrideForm v) (Keeps grace s .applied) := by
  have hs := hrun.integrity
  obtain ⟨o, hchecked, hvalue⟩ := OverrideView.checked_current
    fun id hid => State.exists_of_hasOrder (hs.override_known id hid)
  have hvisit := fun r => visit_overrideForm (r := r) hchecked
  rw [hvalue] at hvisit
  refine ⟨_, hp.override, sentBack (overrideForm_shown hp.override) hvisit ?_⟩
  refine keeps_of_request hidle rfl
    (Dashboard.changeOverride_request hs hs.override_known) () fun t => ?_
  exact State.putOverride_of_known hs.override_known

omit hp in
theorem applyHardware_keeps (hkinds : s.KindsKept) {board : HardwareId}
    (hcurrent : s.hardware.current = some board) {parameters : List HardwareParameter}
    (found : Table.get? board s.parameters = some parameters) :
    Keeps grace s .reboot
      (.applyHardware board.text (parameters.map fun p => (p.id, p.value.display)) true) := by
  have hboards := hrun.boards
  have hkept := State.valuesKept_iff.mpr hkinds
  have hnamed : Action.board? board.text true = some board := by
    have hall : ∀ id ∈ Seed.hardware.supported.map (·.id),
        Action.board? id.text true = some id := by decide
    obtain ⟨id, hid, hlisted⟩ := hrun.boardListed.current
    obtain rfl : id = board := Option.some.inj (hlisted.symm.trans hcurrent)
    exact hall id hid
  have hread : State.hardwareParameters board s = (.ok parameters, s) := by
    simp only [State.hardwareParameters, found]
  have hentry := Table.mem_of_get? found
  have hform := HardwareSettings.ofForm_texts (hboards.ids_distinct hentry) (hkept _ hentry) board
  have happly := State.applyHardware_unchanged hboards hkept hcurrent found
  let op : Operation := .applyHardware ⟨board, parameters.map fun p => (p.id, p.value)⟩
  refine keeps_of_plan hidle op (fun week m => ?_) () fun _ => happly
  simp only [Action.plan, hnamed]
  refine (Dashboard.loads_read (.getHardwareParameters board) parameters hidle
    fun _ => hread).bind ?_
  rintro _ rfl
  rw [hform]
  exact Dashboard.loads_pure rfl

theorem hardwareForm_sentBack (hkinds : s.KindsKept) :
    ∃ v board, p.hardware = some v ∧ v.selected = some board ∧
      (selection.hardware = none → s.hardware.current = some board) ∧
      (s.hardware.current = some board →
        SentBack p (hardwareForm v.parameters board) (Keeps grace s .reboot)) := by
  obtain ⟨board, -, parameters, hselection, found, hview⟩ := hp.hardware
  refine ⟨_, board.id, hview, rfl, ?_, fun hcurrent => ?_⟩
  · intro hnone
    rw [hnone] at hselection
    exact hselection
  · have hadmin : p.admin = true := by
      rw [hp.admin]
      exact hrun.accounts.hasAdministrator
    have hvisit := fun r =>
      visit_hardwareForm (r := r) (parameters.map ParameterField.ofParameter) board.id
    rw [List.map_map] at hvisit
    exact sentBack (hardwareForm_shown hadmin hview rfl) hvisit
      (applyHardware_keeps hrun hidle hkinds hcurrent found)

end Page

/-- In every state of a run in which the controller is online and every value is of the kind of
its parameter, making the page changes nothing but that a reboot that is over is finished, and no
form of the page that is sent back as it is shown changes anything. -/
theorem untouched_forms_change_nothing {grace : Nat} {s : State} (h : State.Reachable grace s)
    (hkinds : s.KindsKept) {instants : Nat → Nat} (honline : s.OnlineAt (instants 0)) (m : Memory)
    (week : WeekTime) (selection : Selection) :
    let r := (Dashboard.bootstrap selection).runWith (Site.behaviour grace week)
      (⟨s, instants⟩, m)
    r.2.1.state = s.boot (instants 0) ∧ UntouchedForms grace r.2.1.state selection r.1 := by
  obtain ⟨hstate, hbuilt⟩ := Dashboard.bootstrap_of_online h honline m week selection
  intro r
  have hstate : r.2.1.state = s.boot (instants 0) := hstate
  have hrun : State.Reachable grace (s.boot (instants 0)) := h.boot _
  have hbootKinds := (State.boot_kindsKept (instants 0)).mpr hkinds
  refine ⟨hstate, ?_⟩
  rw [hstate]
  constructor
  · exact hbuilt.slots_present
  · exact fun v hv row hrow => slotForm_sentBack hrun hbuilt hv hrow
  · exact zoneForms_sentBack hrun hbuilt honline
  · exact overrideForm_sentBack hrun hbuilt honline
  · exact hardwareForm_sentBack hrun hbuilt honline hbootKinds

/-- A board with parameters of both kinds is in use, an override is set, and a zone was given a
name with blanks around it. -/
theorem forms_of_changed_records :
    let t : Moment := ⟨5, ⟨.monday, 8, 0⟩⟩
    let settings : HardwareSettings :=
      ⟨⟨"OFP-10Z"⟩, [("dummy1", .integer (-3)), ("dummy2", .text " a&b = c ")]⟩
    let onBoard := (State.step 10 t (.operation (.applyHardware settings)) (.seeded 0)).2
    let overridden := (State.step 10 t (.operation (.putOverride (.order ⟨"cozy"⟩))) onBoard).2
    let s := (State.step 10 t (.operation (.patchZone ⟨"e1z1"⟩ ⟨some " Salon \t", none⟩))
      overridden).2
    let instants := fun n => 7 + n
    let selection : Selection := ⟨some ⟨2⟩, none⟩
    let r := (Dashboard.bootstrap selection).runWith (Site.behaviour 10 t.week)
      (⟨s, instants⟩, Memory.new 1)
    State.Reachable 10 s ∧ s.KindsKept ∧ s.OnlineAt (instants 0) ∧
      s.hardware.current = some ⟨"OFP-10Z"⟩ ∧ s.override = .order ⟨"cozy"⟩ ∧
      r.2.1.state = s.boot (instants 0) ∧ UntouchedForms 10 r.2.1.state selection r.1 := by
  intro t settings onBoard overridden s instants selection r
  have hrun : State.Reachable 10 s := .step t _ (.step t _ (.step t _ (.seeded 0)))
  have hkinds : s.KindsKept := by decide +kernel
  have honline : s.OnlineAt (instants 0) := by decide +kernel
  have hcurrent : s.hardware.current = some ⟨"OFP-10Z"⟩ := by decide +kernel
  have hoverride : s.override = .order ⟨"cozy"⟩ := by decide +kernel
  exact ⟨hrun, hkinds, honline, hcurrent, hoverride,
    untouched_forms_change_nothing hrun hkinds honline (Memory.new 1) t.week selection⟩

end HeatingControl.Web
