import HeatingControl.Controller.Step
import HeatingControl.Proofs.Dashboard.Asked
import HeatingControl.Proofs.Dashboard.Panel
import HeatingControl.Proofs.View.Choice

/-!
# What the main page makes of failures

Every section of the page is read by itself, and what fails in one leaves the others as they are.
Each failure is noted once.
-/
namespace HeatingControl.Dashboard

open HeatingControl.Dashboard.Task

variable {σ α β : Type} {api : Behaviour σ}

namespace Reading

/-- The message of the section, if it has failed. -/
def failures (r : Reading α) : List String :=
  match r.view with
  | .ok _ => []
  | .error e => [e.message]

/-- The section is shown exactly when all that was asked for it succeeded, and as it was read. -/
structure ShownAs (r : Reading α) (shown : Option α) : Prop where
  isSome : shown.isSome = true ↔ ∀ x ∈ r.asked, x.Succeeded
  view : ∀ v, shown = some v → r.view = .ok v

theorem Settled.shownAs {r : Reading α} (h : r.Settled) : r.ShownAs r.view.toOption := by
  constructor
  · refine Iff.trans ?_ h.symm
    simp only [Option.isSome_iff_exists, toOption_eq_some]
  · intro v hv
    exact toOption_eq_some.mp hv

end Reading

structure PageReading where
  status : Reading StatusView
  override : Reading OverrideView
  zones : Reading ZonesView
  plannings : Reading PlanningsView
  slots : Option (Reading SlotsView)
  accounts : Reading AccountsView
  hardware : Reading HardwareView

namespace PageReading

def asked (p : PageReading) : List Asked :=
  p.status.asked ++ p.override.asked ++ p.zones.asked ++ p.plannings.asked ++
    (p.slots.map Reading.asked).getD [] ++ p.accounts.asked ++ p.hardware.asked

/-- The message of every section that has failed, in the order in which they are noted. -/
def failures (p : PageReading) : List String :=
  p.zones.failures ++ p.accounts.failures ++ p.status.failures ++ p.override.failures ++
    p.plannings.failures ++ (p.slots.map Reading.failures).getD [] ++ p.hardware.failures

def selected (p : PageReading) : Option PlanningId := p.plannings.view.toOption.bind (·.selected)

/-- Every section is what its own questions make of it. -/
structure Of (selection : Selection) (p : PageReading) : Prop where
  status : ∃ status, p.status = Reading.status status
  override : ∃ current orders, p.override = Reading.override current orders
  zones : ∃ orders zones plannings, p.zones = Reading.zones orders zones plannings
  plannings : ∃ plannings, p.plannings = Reading.plannings selection.planning plannings
  slots : ∃ slots orders, p.slots = p.selected.map fun id => Reading.slots id slots orders
  accounts : ∃ accounts, p.accounts = Reading.accounts accounts
  hardware : ∃ list parameters, p.hardware = Reading.hardware selection.hardware list parameters

structure Settled (p : PageReading) : Prop where
  status : p.status.Settled
  override : p.override.Settled
  zones : p.zones.Settled
  plannings : p.plannings.Settled
  slots : ∀ x ∈ p.slots, x.Settled
  accounts : p.accounts.Settled
  hardware : p.hardware.Settled

def page (p : PageReading) (errors : List String) : Page where
  status := p.status.view.toOption
  override := p.override.view.toOption
  zones := p.zones.view.toOption
  plannings := p.plannings.view.toOption
  slots := p.slots.bind (·.view.toOption)
  accounts := p.accounts.view.toOption
  hardware := p.hardware.view.toOption
  admin := (p.accounts.view.toOption.map (·.admin)).getD false
  errors := errors

/-- Every section is shown as it was read, or left out. -/
structure ShownOn (p : PageReading) (page : Page) : Prop where
  status : p.status.ShownAs page.status
  override : p.override.ShownAs page.override
  zones : p.zones.ShownAs page.zones
  plannings : p.plannings.ShownAs page.plannings
  slots : match p.slots with
    | none => page.slots = none
    | some slots => slots.ShownAs page.slots
  accounts : p.accounts.ShownAs page.accounts
  hardware : p.hardware.ShownAs page.hardware

theorem Settled.shownOn {p : PageReading} (h : p.Settled) (errors : List String) :
    p.ShownOn (p.page errors) := by
  refine ⟨h.status.shownAs, h.override.shownAs, h.zones.shownAs, h.plannings.shownAs, ?_,
    h.accounts.shownAs, h.hardware.shownAs⟩
  cases hslots : p.slots with
  | none => simp [page, hslots]
  | some slots =>
    simp only [page, hslots, Option.bind_some]
    exact (h.slots slots hslots).shownAs

variable {selection : Selection} {p : PageReading}

theorem Of.selected_eq (h : p.Of selection) {id : PlanningId} : p.selected = some id ↔
    ∃ plannings, p.plannings = Reading.plannings selection.planning (.ok plannings) ∧
      plannings ≠ [] ∧ (PlanningsView.render plannings selection.planning).selected = some id := by
  obtain ⟨answer, hanswer⟩ := h.plannings
  unfold selected
  rw [hanswer]
  constructor
  · intro hselected
    cases answer with
    | error e => cases hselected
    | ok plannings =>
      refine ⟨plannings, rfl, ?_, hselected⟩
      rintro rfl
      change (PlanningsView.render [] selection.planning).selected = some id at hselected
      rw [PlanningsView.render_nil] at hselected
      cases hselected
  · rintro ⟨plannings, hplannings, -, hselected⟩
    rw [hplannings]
    exact hselected

theorem Of.slots_isSome (h : p.Of selection) : p.slots.isSome = true ↔
    ∃ plannings, p.plannings = Reading.plannings selection.planning (.ok plannings) ∧
      plannings ≠ [] := by
  obtain ⟨slots, orders, hslots⟩ := h.slots
  rw [hslots, Option.isSome_map, Option.isSome_iff_exists]
  constructor
  · rintro ⟨id, hid⟩
    obtain ⟨plannings, hplannings, hne, -⟩ := h.selected_eq.mp hid
    exact ⟨plannings, hplannings, hne⟩
  · rintro ⟨plannings, hplannings, hne⟩
    obtain ⟨_, planning, _, hselected, _⟩ :=
      PlanningsView.marked_selection hne selection.planning
    exact ⟨planning.id, h.selected_eq.mpr ⟨plannings, hplannings, hne, hselected⟩⟩

/-- Where a question belongs: the accounts and the boards are asked for by their own sections
alone, and the slots only of the selected planning. -/
theorem Of.mem_asked (h : p.Of selection) {x : Asked} (hx : x ∈ p.asked) :
    x.op ∈ [.getStatus, .getOverride, .getOrders, .getZones, .getPlannings] ∨
      (∃ id, p.selected = some id ∧ x.op = .getPlanningSlots id) ∨
      x ∈ p.accounts.asked ∨ x ∈ p.hardware.asked := by
  obtain ⟨⟨_, hstatus⟩, ⟨_, _, hoverride⟩, ⟨_, _, _, hzones⟩, ⟨_, hplannings⟩, ⟨_, _, hslots⟩,
    -, -⟩ := h
  simp only [asked, List.mem_append] at hx
  rcases hx with (((((hx | hx) | hx) | hx) | hx) | hx) | hx
  · rw [hstatus] at hx
    exact Or.inl (List.mem_singleton.mp hx ▸ by simp)
  · rw [hoverride] at hx
    rcases Reading.op_of_override hx with hop | hop <;> exact Or.inl (hop ▸ by simp)
  · rw [hzones] at hx
    rcases Reading.op_of_zones hx with hop | hop | hop <;> exact Or.inl (hop ▸ by simp)
  · rw [hplannings] at hx
    exact Or.inl (List.mem_singleton.mp hx ▸ by simp)
  · rw [hslots] at hx
    cases hselected : p.selected with
    | none => simp [hselected] at hx
    | some selected =>
      rw [hselected] at hx
      rcases Reading.op_of_slots hx with hop | hop
      · exact Or.inr (Or.inl ⟨selected, rfl, hop⟩)
      · exact Or.inl (hop ▸ by simp)
  · exact Or.inr (Or.inr (Or.inl hx))
  · exact Or.inr (Or.inr (Or.inr hx))

theorem Of.op_of_accounts (h : p.Of selection) {x : Asked} (hx : x ∈ p.accounts.asked) :
    x.op = .getAccounts := by
  obtain ⟨_, haccounts⟩ := h.accounts
  rw [haccounts] at hx
  rw [List.mem_singleton.mp hx]

theorem Of.op_of_hardware (h : p.Of selection) {x : Asked} (hx : x ∈ p.hardware.asked) :
    x.op = .getHardware ∨ ∃ board, x.op = .getHardwareParameters board := by
  obtain ⟨_, _, hhardware⟩ := h.hardware
  rw [hhardware] at hx
  exact Reading.op_of_hardware hx

theorem Of.selected_of_asked (h : p.Of selection) {id : PlanningId} {x : Asked}
    (hx : x ∈ p.asked) (hop : x.op = .getPlanningSlots id) : p.selected = some id := by
  rcases h.mem_asked hx with hother | ⟨selected, hselected, hslots⟩ | hx | hx
  · simp [hop] at hother
  · cases hop.symm.trans hslots
    exact hselected
  · cases hop.symm.trans (h.op_of_accounts hx)
  · rcases h.op_of_hardware hx with hother | ⟨_, hother⟩ <;> cases hop.symm.trans hother

theorem Of.asked_of_selected (h : p.Of selection) {id : PlanningId}
    (hselected : p.selected = some id) : ∃ x ∈ p.asked, x.op = .getPlanningSlots id := by
  obtain ⟨slots, orders, hslots⟩ := h.slots
  have hfirst : ⟨.getPlanningSlots id, slots⟩ ∈ (Reading.slots id slots orders).asked := by
    cases slots <;> exact List.mem_cons_self
  refine ⟨⟨.getPlanningSlots id, slots⟩, ?_, rfl⟩
  simp only [asked, hslots, hselected, List.mem_append, Option.map_some, Option.getD_some,
    hfirst, true_or, or_true]

theorem Of.asks_slots (h : p.Of selection) {id : PlanningId} :
    (∃ x ∈ p.asked, x.op = .getPlanningSlots id) ↔ p.selected = some id := by
  constructor
  · rintro ⟨x, hx, hop⟩
    exact h.selected_of_asked hx hop
  · exact h.asked_of_selected

theorem Of.admin_iff (h : p.Of selection) (errors : List String) :
    (p.page errors).admin = true ↔ ∃ accounts,
      p.accounts = Reading.accounts (.ok accounts) ∧ ∃ a ∈ accounts, a.id.text = "admin" := by
  obtain ⟨answer, hanswer⟩ := h.accounts
  simp only [page, hanswer]
  cases answer with
  | error e =>
    constructor
    · rintro ⟨⟩
    · rintro ⟨accounts, haccounts, -⟩
      cases haccounts
  | ok accounts =>
    have hadmin : (((Reading.accounts (.ok accounts)).view.toOption.map (·.admin)).getD false) =
        hasAdministrator accounts := rfl
    rw [hadmin]
    constructor
    · intro h
      obtain ⟨a, ha, hid⟩ := List.any_eq_true.mp h
      refine ⟨accounts, rfl, a, ha, ?_⟩
      exact congrArg AccountId.text (of_decide_eq_true hid)
    · rintro ⟨_, haccounts, a, ha, hid⟩
      obtain ⟨⟩ := haccounts
      refine List.any_eq_true.mpr ⟨a, ha, decide_eq_true ?_⟩
      exact congrArg AccountId.mk hid

end PageReading

def Memory.noteAll (m : Memory) (messages : List String) : Memory :=
  { m with panel := m.panel.pushAll messages }

theorem settle_runs (r : Reading α) (s : σ) (m : Memory) :
    Runs api (settle r.view) (s, m) [] r.view.toOption (s, m.noteAll r.failures) := by
  unfold Reading.failures
  cases r.view with
  | ok v => exact ⟨rfl, rfl⟩
  | error e => exact ⟨rfl, rfl⟩

theorem settleSome_runs (r : Option (Reading α)) (s : σ) (m : Memory) :
    Runs api (settleSome (r.map Reading.view)) (s, m) [] (r.bind (·.view.toOption))
      (s, m.noteAll ((r.map Reading.failures).getD [])) := by
  cases r with
  | none => exact ⟨rfl, rfl⟩
  | some r => exact settle_runs r s m

theorem publishSome_runs (view : Option ZonesView) (s : σ) (m : Memory) :
    Runs api (publishSome view) (s, m) [] () (s, { m with snapshot := view.or m.snapshot }) := by
  cases view with
  | none => exact ⟨rfl, rfl⟩
  | some view => exact ⟨rfl, rfl⟩

theorem drain_runs (s : σ) (m : Memory) :
    Runs api (perform .drain) (s, m) [] m.panel.messages
      (s, { m with panel := m.panel.drain.2 }) :=
  ⟨rfl, rfl⟩

theorem loadSelectedSlots_runs (api : Behaviour σ) (list : Except Error PlanningsView) (s : σ)
    (m : Memory) : ∃ slots orders s',
      let r := (list.toOption.bind (·.selected)).map fun id => Reading.slots id slots orders
      (∀ x ∈ r, x.Settled) ∧
        Runs api (loadSelectedSlots list) (s, m) ((r.map Reading.asked).getD [])
          (r.map Reading.view) (s', m) := by
  unfold loadSelectedSlots
  cases list.toOption.bind (·.selected) with
  | none => exact ⟨.ok [], .ok [], s, by simp, rfl, rfl⟩
  | some id =>
    obtain ⟨_, s', ⟨slots, orders, rfl⟩, hsettled, hruns⟩ := loadSlots_reads api id s m
    refine ⟨slots, orders, s', by simpa using hsettled, ?_⟩
    have hasked : ((some (Reading.slots id slots orders)).map Reading.asked).getD [] =
        (Reading.slots id slots orders).asked ++ [] := (List.append_nil _).symm
    dsimp only [Option.map_some] at hasked ⊢
    rw [hasked]
    exact hruns.bind (runs_pure _ _)

/-- Every section is read, then every failure is noted, then the panel is emptied. -/
theorem bootstrap_runs (api : Behaviour σ) (selection : Selection) (s : σ) (m : Memory) :
    ∃ (p : PageReading) (s' : σ), p.Of selection ∧ p.Settled ∧
      let noted := m.panel.pushAll p.failures
      let m' := { m with panel := noted.drain.2, snapshot := p.zones.view.toOption.or m.snapshot }
      Runs api (bootstrap selection) (s, m) p.asked (p.page noted.messages) (s', m') := by
  obtain ⟨status, s₁, hstatus, settled₁, run₁⟩ := loadStatus_reads api s m
  obtain ⟨override, s₂, hoverride, settled₂, run₂⟩ := loadOverride_reads api s₁ m
  obtain ⟨zones, s₃, hzones, settled₃, run₃⟩ := loadZones_reads api s₂ m
  obtain ⟨plannings, s₄, hplannings, settled₄, run₄⟩ :=
    loadPlannings_reads api selection.planning s₃ m
  obtain ⟨slots, orders, s₅, settled₅, run₅⟩ :=
    loadSelectedSlots_runs api plannings.view s₄ m
  obtain ⟨accounts, s₆, haccounts, settled₆, run₆⟩ := loadAccounts_reads api s₅ m
  obtain ⟨hardware, s₇, hhardware, settled₇, run₇⟩ :=
    loadHardware_reads api selection.hardware s₆ m
  let p : PageReading :=
    { status, override, zones, plannings, accounts, hardware
      slots := (plannings.view.toOption.bind (·.selected)).map fun id =>
        Reading.slots id slots orders }
  have hof : p.Of selection :=
    ⟨hstatus, hoverride, hzones, hplannings, ⟨slots, orders, rfl⟩, haccounts, hhardware⟩
  have hsettled : p.Settled :=
    ⟨settled₁, settled₂, settled₃, settled₄, settled₅, settled₆, settled₇⟩
  refine ⟨p, s₇, hof, hsettled, ?_⟩
  have hasked : p.asked = status.asked ++ (override.asked ++ (zones.asked ++ (plannings.asked ++
      ((p.slots.map Reading.asked).getD [] ++ (accounts.asked ++ (hardware.asked ++ [])))))) := by
    simp only [PageReading.asked, List.append_assoc, List.append_nil, p]
  have hpanel : m.panel.pushAll p.failures =
      ((((((m.panel.pushAll zones.failures).pushAll accounts.failures).pushAll
        status.failures).pushAll override.failures).pushAll plannings.failures).pushAll
        ((p.slots.map Reading.failures).getD [])).pushAll hardware.failures := by
    simp only [Panel.pushAll_append, PageReading.failures, List.append_assoc, p]
  rw [hasked, hpanel]
  unfold bootstrap
  refine run₁.bind <| run₂.bind <| run₃.bind <| run₄.bind <| run₅.bind <| run₆.bind <|
    run₇.bind ?_
  -- From here on nothing is asked: one failure is noted after the other.
  refine (settle_runs zones s₇ m).bind_quiet <| (publishSome_runs _ _ _).bind_quiet ?_
  refine (settle_runs accounts _ _).bind_quiet <| (settle_runs status _ _).bind_quiet ?_
  refine (settle_runs override _ _).bind_quiet <| (settle_runs plannings _ _).bind_quiet ?_
  refine (settleSome_runs p.slots _ _).bind_quiet <| (settle_runs hardware _ _).bind_quiet ?_
  exact (drain_runs _ _).bind_quiet <| runs_pure _ _

/-- For every behaviour of the controller, every selection and whatever is pending on the panel:
a section is on the page exactly when all that was asked for it succeeded, and as its answers make
it; the slots are asked of the planning that is selected in a list that came and is not empty; the
latest zone section is replaced exactly when there is a new one; the panel is emptied, and what it
kept of its messages and of one for each failed section is on the page. -/
theorem bootstrap_isolates (api : Behaviour σ) (selection : Selection) (s : σ) {m : Memory}
    (h : m.panel.Sound) :
    let r := (bootstrap selection).runWith api (s, m)
    ∃ p : PageReading, p.Of selection ∧ Task.asked api (bootstrap selection) (s, m) = p.asked ∧
      p.ShownOn r.1 ∧
      (p.slots.isSome = true ↔ ∃ plannings,
        p.plannings = Reading.plannings selection.planning (.ok plannings) ∧ plannings ≠ []) ∧
      (∀ id, (∃ x ∈ p.asked, x.op = .getPlanningSlots id) ↔ ∃ plannings,
        p.plannings = Reading.plannings selection.planning (.ok plannings) ∧ plannings ≠ [] ∧
          (PlanningsView.render plannings selection.planning).selected = some id) ∧
      (r.1.admin = true ↔ ∃ accounts, p.accounts = Reading.accounts (.ok accounts) ∧
        ∃ a ∈ accounts, a.id.text = "admin") ∧
      r.1.errors = (m.panel.messages ++ p.failures).rtake m.panel.capacity ∧
      r.2.2 = { m with panel := ⟨m.panel.capacity, []⟩, snapshot := r.1.zones.or m.snapshot } := by
  obtain ⟨p, s', hof, hsettled, hruns⟩ := bootstrap_runs api selection s m
  intro r
  have hr : r = _ := hruns.run
  refine ⟨p, hof, hruns.asked, ?_, hof.slots_isSome, ?_, ?_, ?_, ?_⟩
  · rw [hr]
    exact hsettled.shownOn _
  · intro id
    exact hof.asks_slots.trans hof.selected_eq
  · rw [hr]
    exact hof.admin_iff _
  · rw [hr]
    exact h.pushAll_messages p.failures
  · rw [hr]
    simp only [Panel.drain, Panel.pushAll_capacity]
    rfl

def withoutPlannings : Behaviour State
  | .getPlannings, s => (.error (.http .get "/ofp-api/v1/plannings" 500), s)
  | op, s => State.step 0 ⟨0, ⟨.monday, 8, 0⟩⟩ (.operation op) s

/-- Two sections fail with the plannings, and the oldest pending message makes room for them. -/
theorem page_without_plannings :
    let m : Memory := ⟨⟨3, ["first", "second"]⟩, none, false⟩
    let selection : Selection := ⟨some ⟨9⟩, none⟩
    let r := (bootstrap selection).runWith withoutPlannings (.seeded 0, m)
    let failure := "Erreur lors de la récupération /ofp-api/v1/plannings : 500"
    m.panel.Sound ∧ r.1.errors = ["second", failure, failure] ∧ r.1.admin = true ∧
      ∃ p : PageReading, p.Of selection ∧ p.ShownOn r.1 ∧
        r.1.errors = (["first", "second"] ++ p.failures).rtake 3 ∧ r.2.2.snapshot = none := by
  intro m selection r failure
  have hsound : m.panel.Sound := ⟨by decide, by decide⟩
  obtain ⟨herrors, hadmin, hzones⟩ :
      r.1.errors = ["second", failure, failure] ∧ r.1.admin = true ∧ r.1.zones = none := by
    decide +kernel
  obtain ⟨p, hof, -, hshown, -, -, -, hkept, hmemory⟩ :=
    bootstrap_isolates withoutPlannings selection (.seeded 0) hsound
  refine ⟨hsound, herrors, hadmin, p, hof, hshown, hkept, ?_⟩
  have hsnapshot : r.2.2.snapshot = r.1.zones.or none := congrArg Memory.snapshot hmemory
  rw [hsnapshot, hzones]
  rfl

end HeatingControl.Dashboard
