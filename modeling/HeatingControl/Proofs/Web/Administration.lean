import HeatingControl.Proofs.Dashboard.Bootstrap
import HeatingControl.Proofs.Web.Offers
import HeatingControl.Web.Respond

/-!
# Who is offered the administration

On the main page the uploads, the form for a new account, the form of a board and the reboot are
offered to the administrator and to no one else. Who the administrator is, is told by one answer of
the controller, whatever strings stand in the others (`administration_is_offered`).
-/
namespace HeatingControl

namespace Dashboard

namespace Reading

variable {requested : Option HardwareId} {list : Except Error HardwareList}
  {parameters : Except Error (List HardwareParameter)}

theorem hardware_selected :
    (∃ v, (hardware requested list parameters).view = .ok v ∧ v.selected.isSome = true) ↔
      ∃ l id ps, ⟨.getHardware, .ok l⟩ ∈ (hardware requested list parameters).asked ∧
        HardwareView.selection l requested = some id ∧
        ⟨.getHardwareParameters id, .ok ps⟩ ∈ (hardware requested list parameters).asked := by
  cases list with
  | error e => simp [hardware]
  | ok l =>
    cases hselection : HardwareView.selection l requested with
    | none => simp [hardware, hselection, HardwareView.render]
    | some id =>
      cases parameters with
      | error e =>
        constructor
        · rintro ⟨v, hv, -⟩
          simp [hardware, hselection] at hv
        · rintro ⟨l', id', ps, -, -, hx⟩
          simp only [hardware, hselection] at hx
          rcases List.mem_cons.mp hx with hx | hx
          · cases hx
          · cases List.mem_singleton.mp hx
      | ok ps =>
        constructor
        · rintro -
          exact ⟨l, id, ps, by simp [hardware, hselection], hselection,
            by simp [hardware, hselection]⟩
        · rintro -
          exact ⟨HardwareView.render l (some id) ps, by simp [hardware, hselection], rfl⟩

end Reading

namespace PageReading

variable {selection : Selection} {p : PageReading}

theorem Of.mem_accounts (h : p.Of selection) {answer : Except Error (List Account)} :
    ⟨.getAccounts, answer⟩ ∈ p.asked ↔ p.accounts = Reading.accounts answer := by
  constructor
  · intro hx
    rcases h.mem_asked hx with hother | ⟨_, _, hother⟩ | hx | hx
    · simp at hother
    · cases hother
    · obtain ⟨answer', haccounts⟩ := h.accounts
      rw [haccounts] at hx ⊢
      obtain ⟨-, hanswer⟩ := Asked.mk.inj (List.mem_singleton.mp hx)
      rw [eq_of_heq hanswer]
    · rcases h.op_of_hardware hx with hother | ⟨_, hother⟩ <;> cases hother
  · intro haccounts
    simp [asked, haccounts, Reading.accounts]

theorem Of.mem_hardware (h : p.Of selection) {x : Asked}
    (hop : x.op = .getHardware ∨ ∃ id, x.op = .getHardwareParameters id) :
    x ∈ p.asked ↔ x ∈ p.hardware.asked := by
  constructor
  · intro hx
    rcases h.mem_asked hx with hother | ⟨_, _, hother⟩ | hx | hx
    · rcases hop with hop | ⟨_, hop⟩ <;> simp [hop] at hother
    · rcases hop with hop | ⟨_, hop⟩ <;> cases hop.symm.trans hother
    · rcases hop with hop | ⟨_, hop⟩ <;> cases hop.symm.trans (h.op_of_accounts hx)
    · exact hx
  · intro hx
    simp [asked, hx]

theorem Of.accounts_of_admin (h : p.Of selection) (errors : List String)
    (hadmin : (p.page errors).admin = true) : (p.page errors).accounts.isSome = true := by
  obtain ⟨accounts, haccounts, -⟩ := (h.admin_iff errors).mp hadmin
  change p.accounts.view.toOption.isSome = true
  rw [haccounts]
  rfl

/-- The page has a selected board exactly when the list of boards came, it selects one, and the
parameters of that one came. -/
theorem Of.board_selected (h : p.Of selection) (errors : List String) :
    (∃ v, (p.page errors).hardware = some v ∧ v.selected.isSome = true) ↔
      ∃ list id parameters, ⟨.getHardware, .ok list⟩ ∈ p.asked ∧
        HardwareView.selection list selection.hardware = some id ∧
        ⟨.getHardwareParameters id, .ok parameters⟩ ∈ p.asked := by
  obtain ⟨list, parameters, hhardware⟩ := h.hardware
  have hlist : ∀ l, ⟨.getHardware, .ok l⟩ ∈ p.asked ↔
      ⟨.getHardware, .ok l⟩ ∈ (Reading.hardware selection.hardware list parameters).asked :=
    fun l => hhardware ▸ h.mem_hardware (Or.inl rfl)
  have hparameters : ∀ id ps, ⟨.getHardwareParameters id, .ok ps⟩ ∈ p.asked ↔
      ⟨.getHardwareParameters id, .ok ps⟩ ∈
        (Reading.hardware selection.hardware list parameters).asked :=
    fun id ps => hhardware ▸ h.mem_hardware (Or.inr ⟨id, rfl⟩)
  simp only [hlist, hparameters, ← Reading.hardware_selected, page, hhardware, toOption_eq_some]

end PageReading
end Dashboard

namespace Web

open Dashboard (Page PageReading Task Behaviour Memory Asked)

/-- What is offered whoever is listed among the accounts. -/
def Offer.IsCommon (o : Offer) : Prop :=
  o ∈ [.selection, .post "/override", .link (some "/zones"), .post "/plannings"] ∨
    ∃ front ∈ ["/zones/", "/plannings/", "/accounts/"], ∃ back, o = .post (front ++ back)

theorem ne_append {s front : String} (h : ¬ front.toList <+: s.toList) (back : String) :
    s ≠ front ++ back := by
  rintro rfl
  rw [String.toList_append] at h
  exact h (List.prefix_append _ _)

theorem mem_elim {α : Type} {o : Offer} {v : Option α} {os : α → List Offer} :
    o ∈ v.elim [] os ↔ ∃ a, v = some a ∧ o ∈ os a := by
  cases v <;> simp

theorem mem_ite {o : Offer} {condition : Bool} {os : List Offer} :
    o ∈ (if condition then os else []) ↔ condition = true ∧ o ∈ os := by
  cases condition <;> simp

theorem isCommon_zone {o : Offer} {z : ZoneRow} (h : o ∈ zoneOffers z) : o.IsCommon := by
  simp only [zoneOffers, List.mem_cons, List.not_mem_nil, or_false] at h
  rcases h with rfl | rfl <;> exact Or.inr ⟨"/zones/", by simp, _, rfl⟩

theorem isCommon_planning (id : PlanningId) (what : String) :
    (Offer.post (planningAddress id what)).IsCommon :=
  Or.inr ⟨"/plannings/", by simp, _, rfl⟩

theorem isCommon_slot {o : Offer} {planning : PlanningId} {r : SlotRow}
    (h : o ∈ slotOffers planning r) : o.IsCommon := by
  simp only [slotOffers, List.mem_cons, List.not_mem_nil, or_false] at h
  rcases h with rfl | rfl
  · exact Or.inr ⟨"/plannings/", by simp, _, rfl⟩
  · exact Or.inr ⟨"/plannings/", by simp, _, by rw [slotAddress, String.append_assoc]⟩

theorem isCommon_account {o : Offer} {a : AccountRow} (h : o ∈ accountOffers a) : o.IsCommon := by
  simp only [accountOffers, List.mem_cons, mem_ite, List.not_mem_nil, or_false] at h
  rcases h with rfl | ⟨-, rfl⟩ <;> exact Or.inr ⟨"/accounts/", by simp, _, rfl⟩

theorem isCommon_planningList {o : Offer} {v : PlanningsView} (h : o ∈ planningListOffers v) :
    o.IsCommon := by
  unfold planningListOffers at h
  split at h
  · cases h
  · rcases List.mem_cons.mp h with rfl | h
    · exact Or.inl (by simp)
    · obtain ⟨id, -, h⟩ := mem_elim.mp h
      simp only [selectedOffers, List.mem_cons, List.not_mem_nil, or_false] at h
      rcases h with rfl | rfl <;> exact isCommon_planning id _

theorem isCommon_planningSection {o : Offer} {slots : Option SlotsView} {v : PlanningsView}
    (h : o ∈ planningSectionOffers slots v) : o.IsCommon := by
  rcases List.mem_append.mp h with h | h
  · exact isCommon_planningList h
  rcases List.mem_cons.mp h with rfl | h
  · exact Or.inl (by simp)
  obtain ⟨v, -, h⟩ := mem_elim.mp h
  rcases List.mem_append.mp h with h | h
  · obtain ⟨r, -, hr⟩ := List.mem_flatMap.mp h
    exact isCommon_slot hr
  · rw [List.mem_singleton.mp h]
    exact isCommon_planning v.planning "slots"

/-- Beside what is common there is on the page the form for a new account, and what stands in the
sections of the administrator. -/
theorem mem_pageOffers {p : Page} {o : Offer} (h : o ∈ pageOffers p) :
    o.IsCommon ∨ p.admin = true ∧ (o = .post "/accounts" ∨ o ∈ adminOffers p.hardware) := by
  simp only [pageOffers, List.mem_append] at h
  rcases h with (((h | h) | h) | h) | h
  · obtain ⟨-, -, h⟩ := mem_elim.mp h
    exact Or.inl (Or.inl (by simp [List.mem_singleton.mp h]))
  · obtain ⟨v, -, h⟩ := mem_elim.mp h
    rcases List.mem_append.mp h with h | h
    · obtain ⟨z, -, hz⟩ := List.mem_flatMap.mp h
      exact Or.inl (isCommon_zone hz)
    · exact Or.inl (Or.inl (by simp [List.mem_singleton.mp h]))
  · obtain ⟨v, -, h⟩ := mem_elim.mp h
    exact Or.inl (isCommon_planningSection h)
  · obtain ⟨v, -, h⟩ := mem_elim.mp h
    rcases List.mem_append.mp h with h | h
    · obtain ⟨a, -, ha⟩ := List.mem_flatMap.mp h
      exact Or.inl (isCommon_account ha)
    · obtain ⟨hadmin, h⟩ := mem_ite.mp h
      exact Or.inr ⟨hadmin, Or.inl (List.mem_singleton.mp h)⟩
  · obtain ⟨hadmin, h⟩ := mem_ite.mp h
    exact Or.inr ⟨hadmin, Or.inr h⟩

theorem not_isCommon_link {target : String} (h : target ≠ "/zones") :
    ¬ (Offer.link (some target)).IsCommon := by
  rintro (hmem | ⟨_, -, _, hpost⟩)
  · simp [Offer.selection, Offer.post, h] at hmem
  · cases hpost

theorem not_isCommon_form {method : Option String} {action : String}
    (hfixed : action ∉ ["/", "/override", "/plannings"])
    (hfront : ∀ front ∈ ["/zones/", "/plannings/", "/accounts/"],
      ¬ front.toList <+: action.toList) :
    ¬ (Offer.form method (some action)).IsCommon := by
  rintro (h | ⟨front, hmem, back, h⟩)
  · simp_all [Offer.selection, Offer.post]
  · obtain ⟨-, h⟩ := Offer.form.inj h
    exact ne_append (hfront front hmem) back (Option.some.inj h)

theorem mem_hardwareOffers {v : HardwareView} {o : Offer} :
    o ∈ hardwareOffers v ↔ o = .selection ∨ v.selected.isSome = true ∧ o = .post "/hardware" := by
  cases hselected : v.selected <;> simp [hardwareOffers, hselected]

theorem mem_adminOffers {hardware : Option HardwareView} {o : Offer} :
    o ∈ adminOffers hardware ↔ o = .post "/firmware" ∨ o = .post "/certificate" ∨
      (∃ v, hardware = some v ∧
        (o = .selection ∨ v.selected.isSome = true ∧ o = .post "/hardware")) ∨
      o = .link (some "/reboot") := by
  simp only [adminOffers, List.mem_cons, List.mem_append, mem_elim, mem_hardwareOffers,
    List.not_mem_nil, or_false]

/-- What is offered to the administrator and to no one else, with the form of a board where one is
selected. -/
structure Administration (os : List Offer) (admin board : Prop) : Prop where
  firmware : (∃ method, .form method (some "/firmware") ∈ os) ↔ admin
  certificate : (∃ method, .form method (some "/certificate") ∈ os) ↔ admin
  account : .post "/accounts" ∈ os ↔ admin
  reboot : .link (some "/reboot") ∈ os ↔ admin
  hardware : .post "/hardware" ∈ os ↔ admin ∧ board

theorem Administration.congr {os : List Offer} {admin admin' board board' : Prop}
    (h : Administration os admin board) (hadmin : admin ↔ admin') (hboard : board ↔ board') :
    Administration os admin' board' := by
  rwa [← propext hadmin, ← propext hboard]

theorem mem_pageOffers_of_not_isCommon {p : Page} {o : Offer} (hcommon : ¬ o.IsCommon)
    (haccount : o ≠ .post "/accounts") :
    o ∈ pageOffers p ↔ p.admin = true ∧ o ∈ adminOffers p.hardware := by
  constructor
  · intro h
    rcases mem_pageOffers h with h | ⟨hadmin, rfl | h⟩
    · exact absurd h hcommon
    · exact absurd rfl haccount
    · exact ⟨hadmin, h⟩
  · rintro ⟨hadmin, h⟩
    exact List.mem_append_right _ (mem_ite.mpr ⟨hadmin, h⟩)

theorem page_administration {p : Page} (haccounts : p.admin = true → p.accounts.isSome = true) :
    Administration (pageOffers p) (p.admin = true)
      (∃ v, p.hardware = some v ∧ v.selected.isSome = true) := by
  have hfirmware : ∀ method, ¬ (Offer.form method (some "/firmware")).IsCommon :=
    fun _ => not_isCommon_form (by decide) (by decide)
  have hcertificate : ∀ method, ¬ (Offer.form method (some "/certificate")).IsCommon :=
    fun _ => not_isCommon_form (by decide) (by decide)
  have haccount : ¬ (Offer.post "/accounts").IsCommon :=
    not_isCommon_form (by decide) (by decide)
  have hreboot : ¬ (Offer.link (some "/reboot")).IsCommon := not_isCommon_link (by decide)
  have hhardware : ¬ (Offer.post "/hardware").IsCommon :=
    not_isCommon_form (by decide) (by decide)
  constructor
  · constructor
    · rintro ⟨method, h⟩
      exact ((mem_pageOffers_of_not_isCommon (hfirmware method) (by simp [Offer.post])).mp h).1
    · intro hadmin
      refine ⟨some "post", ?_⟩
      exact (mem_pageOffers_of_not_isCommon (hfirmware _) (by decide)).mpr
        ⟨hadmin, mem_adminOffers.mpr (Or.inl rfl)⟩
  · constructor
    · rintro ⟨method, h⟩
      exact ((mem_pageOffers_of_not_isCommon (hcertificate method) (by simp [Offer.post])).mp h).1
    · intro hadmin
      refine ⟨some "post", ?_⟩
      exact (mem_pageOffers_of_not_isCommon (hcertificate _) (by decide)).mpr
        ⟨hadmin, mem_adminOffers.mpr (Or.inr (Or.inl rfl))⟩
  · constructor
    · intro h
      rcases mem_pageOffers h with h | ⟨hadmin, -⟩
      · exact absurd h haccount
      · exact hadmin
    · intro hadmin
      obtain ⟨v, hv⟩ := Option.isSome_iff_exists.mp (haccounts hadmin)
      refine List.mem_append_left _ (List.mem_append_right _ (mem_elim.mpr ⟨v, hv, ?_⟩))
      exact List.mem_append_right _ (mem_ite.mpr ⟨hadmin, List.mem_singleton_self _⟩)
  · rw [mem_pageOffers_of_not_isCommon hreboot (by decide), mem_adminOffers]
    simp
  · rw [mem_pageOffers_of_not_isCommon hhardware (by decide), mem_adminOffers]
    simp [Offer.post, Offer.selection]

/-- A request for the main page, with any query that gives neither selection twice. -/
structure AsksHome (r : Request) : Prop where
  method : r.method = "GET"
  path : r.segments = [""]
  query : Form.unrepeated ["planning", "hardware"] r.query = true

theorem visit_of_asksHome {r : Request} (h : AsksHome r) :
    visit r = .ok (.home (selectionOf r.query)) := by
  have hverb : r.verb? = some .get := by
    rw [Request.verb?, h.method]
    decide
  have hvisit : homeVisit r = .ok (.home (selectionOf r.query)) := if_pos h.query
  have hplace : place? [""] = some .home := rfl
  rw [visit, h.path, hplace]
  simp only [hverb, Option.bind_some, Place.visit?, Place.page, hvisit, Option.getD_some]

section Answer

variable {σ : Type} (api : Behaviour σ) (w : σ × Memory) (refreshSeconds : Nat) {r : Request}
  (h : AsksHome r)

include h

theorem respond_runs {xs : List Asked} {page : Page} {w' : σ × Memory}
    (hruns : Task.Runs api (Dashboard.bootstrap (selectionOf r.query)) w xs page w') :
    Task.Runs api (respond refreshSeconds r) w xs (.html (render (homePage page))) w' := by
  have hresponse : Task.Runs api (Visit.respond refreshSeconds (.home (selectionOf r.query))) w
      (xs ++ []) (.html (render (homePage page))) w' :=
    hruns.bind (Task.runs_pure _ _)
  have hget : r.method ≠ "HEAD" := by
    rw [h.method]
    decide
  have hrest := hresponse.bind (Task.runs_pure (Response.html (render (homePage page))) w')
  simp only [List.append_nil] at hrest
  unfold respond
  simpa only [visit_of_asksHome h, if_neg hget] using hrest

theorem accounts_asked : ∃ answer,
    ⟨.getAccounts, answer⟩ ∈ Task.asked api (respond refreshSeconds r) w := by
  obtain ⟨s, m⟩ := w
  obtain ⟨p, s', hof, -, hruns⟩ := Dashboard.bootstrap_runs api (selectionOf r.query) s m
  obtain ⟨answer, haccounts⟩ := hof.accounts
  rw [(respond_runs api (s, m) refreshSeconds h hruns).asked]
  exact ⟨answer, hof.mem_accounts.mpr haccounts⟩

/-- For every behaviour of the controller and every query that can be read: the answer is a page,
and on it the administration is offered exactly when the accounts came and one of them has the id
of the administrator, whatever its type; the form of a board, when besides the boards came, one is
selected and its parameters came. What else was answered makes no difference. -/
theorem administration_is_offered :
    let task := respond refreshSeconds r
    let asked := Task.asked api task w
    ∃ page ts, (task.runWith api w).1 = .html page ∧ read page = some ts ∧
      Administration (offers ts)
        (∃ accounts, ⟨.getAccounts, .ok accounts⟩ ∈ asked ∧ ∃ a ∈ accounts, a.id.text = "admin")
        (∃ list id parameters, ⟨.getHardware, .ok list⟩ ∈ asked ∧
          HardwareView.selection list (selectionOf r.query).hardware = some id ∧
          ⟨.getHardwareParameters id, .ok parameters⟩ ∈ asked) := by
  obtain ⟨s, m⟩ := w
  obtain ⟨p, s', hof, -, hruns⟩ := Dashboard.bootstrap_runs api (selectionOf r.query) s m
  have hanswer := respond_runs api (s, m) refreshSeconds h hruns
  intro task asked
  have hasked : asked = p.asked := hanswer.asked
  obtain ⟨ts, hts, hoffers⟩ := parse_homePage (p.page (m.panel.pushAll p.failures).messages)
  refine ⟨_, _, congrArg Prod.fst hanswer.run, read_render hts, ?_⟩
  rw [hasked, hoffers]
  refine (page_administration ?_).congr ?_ (hof.board_selected _)
  · exact hof.accounts_of_admin _
  · simp only [hof.admin_iff, hof.mem_accounts]

end Answer

/-- Every name that the controller answers with is markup, and what it fails with is too. One
account is called like the administrator and is none by its type; no list of boards comes. -/
def hostile : Behaviour Unit
  | .getAccounts, s =>
    (.ok [⟨⟨"admin"⟩, .user⟩, ⟨⟨"<form method=\"post\" action=\"/hardware\">"⟩, .admin⟩], s)
  | .getPlannings, s => (.ok [⟨⟨1⟩, "</option><form method=\"post\" action=\"/hardware\">"⟩], s)
  | _, s => (.error (.notFound "\"><a href=\"/reboot\">" "<form action=\"/firmware\">"), s)

theorem administration_of_hostile :
    let r : Request := ⟨"GET", "/?hardware=%3Cform%3E", none, []⟩
    let w := ((), Memory.new 10)
    AsksHome r ∧ ∃ page ts, ((respond 5 r).runWith hostile w).1 = .html page ∧
      read page = some ts ∧ Administration (offers ts) True False := by
  intro r w
  have hr : AsksHome r := ⟨rfl, by decide +kernel, by decide +kernel⟩
  obtain ⟨page, ts, hpage, hread, hoffers⟩ := administration_is_offered hostile w 5 hr
  have hanswered : ∀ x ∈ Task.asked hostile (respond 5 r) w, x.result = (hostile x.op ()).1 := by
    intro x hx
    obtain ⟨_, -, hresult⟩ := Task.asked_of_kept (fun _ => True) (fun _ _ _ => trivial) trivial x hx
    exact hresult
  refine ⟨hr, page, ts, hpage, hread, hoffers.congr (iff_true_intro ?_) (iff_false_intro ?_)⟩
  · obtain ⟨answer, hmem⟩ := accounts_asked hostile w 5 hr
    have hanswer : answer = _ := hanswered _ hmem
    exact ⟨_, hanswer ▸ hmem, ⟨⟨"admin"⟩, .user⟩, List.mem_cons_self, rfl⟩
  · rintro ⟨list, _, _, hmem, -⟩
    cases hanswered _ hmem

end Web
end HeatingControl
