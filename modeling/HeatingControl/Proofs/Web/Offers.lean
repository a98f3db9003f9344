import HeatingControl.Proofs.Web.Block
import HeatingControl.Web.HomePage
import HeatingControl.Web.Zones

/-!
# What the pages offer

Every section of a page is a block, whatever strings it shows, and so every page can be read. The
forms and links of the main page are those that `pageOffers` lists (`parse_homePage`).
-/
namespace HeatingControl.Web

open Dashboard (Page ZonePage)

theorem block_statusSection (v : StatusView) : Block (statusSection v) [] := by
  have hline : ∀ line, Block (html ["<li>", data line, "</li>\n"]) [] :=
    fun _ _ => ⟨_, _, rfl, rfl⟩
  exact .html_quiet (block_literal fun _ => ⟨_, _, rfl, rfl⟩) <|
    .html_quiet (block_each_quiet hline v.lines) <|
    .html_last (block_literal fun _ => ⟨_, _, rfl, rfl⟩)

theorem block_overrideOption (o : OverrideOption) : Block (overrideOption o) [] := by
  intro v
  obtain ⟨value, name, colour, checked⟩ := o
  cases checked <;> exact ⟨_, _, rfl, rfl⟩

theorem block_overrideSection (v : OverrideView) :
    Block (overrideSection v) [.post "/override"] := by
  have hfields : Block (html [each v.options overrideOption, "\n", button "Appliquer"]) [] :=
    .html_quiet (block_each_quiet block_overrideOption v.options) <|
      .html_quiet (block_literal fun _ => ⟨_, _, rfl, rfl⟩) <|
      .html_last (block_button (isPlain_ofList rfl))
  exact .html_quiet (block_literal fun _ => ⟨_, _, rfl, rfl⟩) <|
    .html_cons (block_blockForm (address_plain (isPlain_ofList rfl)) hfields) <|
    .html_last (block_literal fun _ => ⟨_, _, rfl, rfl⟩)

def zoneAddress (z : ZoneRow) (what : String) : String := "/zones/" ++ (z.id ++ ("/" ++ what))

def zoneOffers (z : ZoneRow) : List Offer :=
  [.post (zoneAddress z "description"), .post (zoneAddress z "mode")]

theorem address_zoneAction (z : ZoneRow) (what : String) (h : IsPlain what) :
    Address (zoneAction z what) (zoneAddress z what) := by
  have hzones : Address "/zones/" "/zones/" := address_plain (isPlain_ofList rfl)
  have hslash : Address "/" "/" := address_plain (isPlain_ofList rfl)
  exact hzones.html_cons <| (address_data z.id).html_cons <|
    (hslash.append (address_plain h)).html_last

theorem block_zoneRow (z : ZoneRow) : Block (zoneRow z) (zoneOffers z) := by
  have hrename : Block (html ["<input name=\"description\" value=\"", data z.description, "\">\n",
      button "Renommer"]) [] :=
    .html_quoted (fun _ => ⟨_, _, rfl, rfl⟩) <|
      .html_last (block_button (isPlain_ofList rfl))
  have hselect : Block (html [selector "mode" z.modes, button "Appliquer"]) [] :=
    .html_quiet (block_selector (isPlain_ofList rfl) z.modes) <|
      .html_last (block_button (isPlain_ofList rfl))
  have hdescription :=
    block_topForm (address_zoneAction z "description" (isPlain_ofList rfl)) hrename
  have hmode := block_topForm (address_zoneAction z "mode" (isPlain_ofList rfl)) hselect
  exact .html_quiet (block_literal fun _ => ⟨_, _, rfl, rfl⟩) <|
    .html_quiet (block_data z.id) <|
    .html_quiet (block_literal fun _ => ⟨_, _, rfl, rfl⟩) <|
    .html_cons hdescription <|
    .html_quoted (fun _ => ⟨_, _, rfl, rfl⟩) <|
    .html_quiet (block_data z.currentName) <|
    .html_quiet (block_literal fun _ => ⟨_, _, rfl, rfl⟩) <|
    .html_cons hmode <|
    .html_last (block_literal fun _ => ⟨_, _, rfl, rfl⟩)

theorem block_zoneTable (v : ZonesView) : Block (zoneTable v) (v.zones.flatMap zoneOffers) := by
  have hrows := block_each block_zoneRow v.zones
  have hblock : Block (zoneTable v) (v.zones.flatMap zoneOffers ++ []) :=
    .html_quiet (block_literal fun _ => ⟨_, _, rfl, rfl⟩) <|
    .html_quiet (block_literal fun _ => ⟨_, _, rfl, rfl⟩) <|
    .html_cons hrows <|
    .html_last (block_literal fun _ => ⟨_, _, rfl, rfl⟩)
  rwa [List.append_nil] at hblock

def zoneSectionOffers (v : ZonesView) : List Offer :=
  v.zones.flatMap zoneOffers ++ [.link (some "/zones")]

theorem block_zoneSection (v : ZonesView) : Block (zoneSection v) (zoneSectionOffers v) :=
  .html_quiet (block_literal fun _ => ⟨_, _, rfl, rfl⟩) <|
  .html_cons (block_zoneTable v) <|
  .html_last (block_literal fun _ => ⟨_, _, rfl, rfl⟩)

theorem address_last {s : String} (h : IsPlain s) : Address ("/" ++ s) ("/" ++ s) :=
  (address_plain (isPlain_ofList rfl)).append (address_plain h)

def planningAddress (id : PlanningId) (what : String) : String :=
  "/plannings/" ++ (id.display ++ ("/" ++ what))

theorem address_planningAction (id : PlanningId) (what : String) (h : IsPlain what) :
    Address (planningAction id what) (planningAddress id what) := by
  have hplannings : Address "/plannings/" "/plannings/" := address_plain (isPlain_ofList rfl)
  exact hplannings.html_cons <| (address_data id.display).html_cons (address_last h).html_last

def selectedOffers (id : PlanningId) : List Offer :=
  [.post (planningAddress id "rename"), .post (planningAddress id "delete")]

theorem block_selectedPlanning (id : PlanningId) :
    Block (selectedPlanning id) (selectedOffers id) := by
  have hrename : Block (html ["<input name=\"name\" placeholder=\"Nouveau nom\">\n",
      button "Renommer"]) [] :=
    .html_quiet (block_literal fun _ => ⟨_, _, rfl, rfl⟩) <|
      .html_last (block_button (isPlain_ofList rfl))
  have hdelete : Block (html [button "Supprimer"]) [] :=
    .html_last (block_button (isPlain_ofList rfl))
  exact .html_cons
    (block_inlineForm (address_planningAction id "rename" (isPlain_ofList rfl)) hrename) <|
    .html_last (block_inlineForm (address_planningAction id "delete" (isPlain_ofList rfl)) hdelete)

def planningListOffers (v : PlanningsView) : List Offer :=
  if v.isEmpty then [] else .selection :: v.selected.elim [] selectedOffers

theorem block_planningList (v : PlanningsView) :
    Block (planningList v) (planningListOffers v) := by
  refine Block.onNewLine ?_
  unfold planningListOffers
  cases v.isEmpty with
  | true => exact fun _ => ⟨_, _, rfl, rfl⟩
  | false =>
    have hselect : Block (html [selector "planning" v.plannings, button "Afficher"]) [] :=
      .html_quiet (block_selector (isPlain_ofList rfl) v.plannings) <|
        .html_last (block_button (isPlain_ofList rfl))
    have hselected := block_showSome block_selectedPlanning v.selected
    have hblock : Block (html [selectionForm [selector "planning" v.plannings, button "Afficher"],
        showSome v.selected selectedPlanning, "\n"])
        ([.selection] ++ (v.selected.elim [] selectedOffers ++ [])) :=
      .html_cons (block_selectionForm hselect) <| .html_cons hselected <|
        .html_last (block_literal fun _ => ⟨_, _, rfl, rfl⟩)
    rwa [List.append_nil] at hblock

theorem block_hidden {name : String} (hname : IsPlain name) (value : String) :
    Block (hidden name value) [] := by
  intro v
  have hopened : ∃ q q', Leads (.text v) ("<input type=\"hidden\" name=\"" ++ name ++ "\" value=\"")
      q [] ∧ q.extend [.inserted value] = some q' ∧ ∃ v', Leads q' "\">\n" (.text v') [] :=
    ⟨_, _, leads_around hname (leads_literal rfl rfl) rfl (leads_literal rfl rfl), rfl, _,
      leads_literal rfl rfl⟩
  obtain ⟨q, q', hfront, hvalue, v', hback⟩ := hopened
  exact ⟨v', hfront.append <| (leads_data hvalue).append <| hback.append ⟨[], rfl, rfl⟩⟩

def slotAddress (planning : PlanningId) (slot : SlotId) : String :=
  "/plannings/" ++ (planning.display ++ ("/slots/" ++ slot.display))

theorem address_slotAction (planning : PlanningId) (slot : SlotId) :
    Address (slotAction planning slot) (slotAddress planning slot) := by
  have hplannings : Address "/plannings/" "/plannings/" := address_plain (isPlain_ofList rfl)
  have hslots : Address "/slots/" "/slots/" := address_plain (isPlain_ofList rfl)
  exact hplannings.html_cons <| (address_data planning.display).html_cons <|
    hslots.html_cons (address_data slot.display).html_last

def slotOffers (planning : PlanningId) (r : SlotRow) : List Offer :=
  [.post (slotAddress planning r.id), .post (slotAddress planning r.id ++ "/delete")]

theorem block_slotRow (planning : PlanningId) (r : SlotRow) :
    Block (slotRow planning r) (slotOffers planning r) := by
  have hedit : Block (html [hidden "original_dow" r.shown.day, hidden "original_hour" r.shown.hour,
      hidden "original_minute" r.shown.minute, hidden "original_order" r.shown.order,
      selector "dow" r.day, selector "hour" r.hour, selector "minute" r.minute,
      selector "order" r.order, button "Modifier"]) [] :=
    .html_quiet (block_hidden (isPlain_ofList rfl) r.shown.day) <|
    .html_quiet (block_hidden (isPlain_ofList rfl) r.shown.hour) <|
    .html_quiet (block_hidden (isPlain_ofList rfl) r.shown.minute) <|
    .html_quiet (block_hidden (isPlain_ofList rfl) r.shown.order) <|
    .html_quiet (block_selector (isPlain_ofList rfl) r.day) <|
    .html_quiet (block_selector (isPlain_ofList rfl) r.hour) <|
    .html_quiet (block_selector (isPlain_ofList rfl) r.minute) <|
    .html_quiet (block_selector (isPlain_ofList rfl) r.order) <|
    .html_last (block_button (isPlain_ofList rfl))
  have hdelete : Block (html [button "Supprimer"]) [] :=
    .html_last (block_button (isPlain_ofList rfl))
  have hslot := address_slotAction planning r.id
  have hremoval : Address "/delete" "/delete" := address_plain (isPlain_ofList rfl)
  exact .html_quiet (block_literal fun _ => ⟨_, _, rfl, rfl⟩) <|
    .html_cons (block_inlineForm hslot hedit) <|
    .html_quiet (block_literal fun _ => ⟨_, _, rfl, rfl⟩) <|
    .html_cons (block_inlineForm (hslot.html_cons hremoval.html_last) hdelete) <|
    .html_last (block_literal fun _ => ⟨_, _, rfl, rfl⟩)

def slotTableOffers (v : SlotsView) : List Offer :=
  v.slots.flatMap (slotOffers v.planning) ++ [.post (planningAddress v.planning "slots")]

theorem block_slotTable (v : SlotsView) : Block (slotTable v) (slotTableOffers v) := by
  have hadd : Block (html [plainSelector "dow" v.addDay, plainSelector "hour" v.addHour,
      plainSelector "minute" v.addMinute, plainSelector "order" v.addOrder,
      button "Ajouter un créneau"]) [] :=
    .html_quiet (block_plainSelector (isPlain_ofList rfl) v.addDay) <|
    .html_quiet (block_plainSelector (isPlain_ofList rfl) v.addHour) <|
    .html_quiet (block_plainSelector (isPlain_ofList rfl) v.addMinute) <|
    .html_quiet (block_plainSelector (isPlain_ofList rfl) v.addOrder) <|
    .html_last (block_button (isPlain_ofList rfl))
  have hslots := address_planningAction v.planning "slots" (isPlain_ofList rfl)
  exact .html_quiet (block_literal fun _ => ⟨_, _, rfl, rfl⟩) <|
    .html_quiet (block_literal fun _ => ⟨_, _, rfl, rfl⟩) <|
    .html_cons (block_each (block_slotRow v.planning) v.slots) <|
    .html_quiet (block_literal fun _ => ⟨_, _, rfl, rfl⟩) <|
    .html_last (block_blockForm hslots hadd)

def planningSectionOffers (slots : Option SlotsView) (v : PlanningsView) : List Offer :=
  planningListOffers v ++ .post "/plannings" :: slots.elim [] slotTableOffers

theorem block_planningSection (slots : Option SlotsView) (v : PlanningsView) :
    Block (planningSection slots v) (planningSectionOffers slots v) := by
  have hcreate : Block (html ["<input name=\"name\" placeholder=\"Nom de la programmation\">\n",
      button "Créer"]) [] :=
    .html_quiet (block_literal fun _ => ⟨_, _, rfl, rfl⟩) <|
      .html_last (block_button (isPlain_ofList rfl))
  have hplannings : Address "/plannings" "/plannings" := address_plain (isPlain_ofList rfl)
  have hblock : Block (planningSection slots v)
      (planningListOffers v ++ ([.post "/plannings"] ++ (slots.elim [] slotTableOffers ++ []))) :=
    .html_quiet (block_literal fun _ => ⟨_, _, rfl, rfl⟩) <|
    .html_cons (block_planningList v) <|
    .html_quiet (block_literal fun _ => ⟨_, _, rfl, rfl⟩) <|
    .html_cons (block_blockForm hplannings hcreate) <|
    .html_quiet (block_literal fun _ => ⟨_, _, rfl, rfl⟩) <|
    .html_cons (block_showSome block_slotTable slots) <|
    .html_last (block_literal fun _ => ⟨_, _, rfl, rfl⟩)
  rwa [List.append_nil] at hblock

def accountAddress (a : AccountRow) (what : String) : String :=
  "/accounts/" ++ (a.id ++ ("/" ++ what))

theorem address_accountAction (a : AccountRow) (what : String) (h : IsPlain what) :
    Address (accountAction a what) (accountAddress a what) := by
  have haccounts : Address "/accounts/" "/accounts/" := address_plain (isPlain_ofList rfl)
  exact haccounts.html_cons <| (address_data a.id).html_cons (address_last h).html_last

def accountOffers (a : AccountRow) : List Offer :=
  .post (accountAddress a "password") ::
    if a.deletable then [.post (accountAddress a "delete")] else []

theorem block_accountRow (a : AccountRow) : Block (accountRow a) (accountOffers a) := by
  have hpassword : Block (html
      ["<input type=\"password\" name=\"password\" placeholder=\"Nouveau mot de passe\">\n",
       button "Changer"]) [] :=
    .html_quiet (block_literal fun _ => ⟨_, _, rfl, rfl⟩) <|
      .html_last (block_button (isPlain_ofList rfl))
  have hdelete : Block (html [button "Supprimer"]) [] :=
    .html_last (block_button (isPlain_ofList rfl))
  have hremoval := block_inlineForm (address_accountAction a "delete" (isPlain_ofList rfl)) hdelete
  have hblock : Block (accountRow a) ([.post (accountAddress a "password")] ++
      ((if a.deletable then [.post (accountAddress a "delete")] else []) ++ [])) :=
    .html_quiet (block_literal fun _ => ⟨_, _, rfl, rfl⟩) <|
    .html_quiet (block_data a.id) <|
    .html_quiet (block_literal fun _ => ⟨_, _, rfl, rfl⟩) <|
    .html_cons (block_inlineForm
      (address_accountAction a "password" (isPlain_ofList rfl)) hpassword) <|
    .html_quiet (block_literal fun _ => ⟨_, _, rfl, rfl⟩) <|
    .html_cons (block_showIf hremoval a.deletable) <|
    .html_last (block_literal fun _ => ⟨_, _, rfl, rfl⟩)
  rwa [List.append_nil] at hblock

theorem block_accountForm : Block accountForm [.post "/accounts"] := by
  have haccounts : Address "/accounts" "/accounts" := address_plain (isPlain_ofList rfl)
  refine block_blockForm haccounts ?_
  exact .html_quiet (block_literal fun _ => ⟨_, _, rfl, rfl⟩) <|
    .html_quiet (block_literal fun _ => ⟨_, _, rfl, rfl⟩) <|
    .html_last (block_button (isPlain_ofList rfl))

def accountSectionOffers (admin : Bool) (v : AccountsView) : List Offer :=
  v.accounts.flatMap accountOffers ++ if admin then [.post "/accounts"] else []

theorem block_accountSection (admin : Bool) (v : AccountsView) :
    Block (accountSection admin v) (accountSectionOffers admin v) := by
  have hblock : Block (accountSection admin v) (v.accounts.flatMap accountOffers ++
      ((if admin then [.post "/accounts"] else []) ++ [])) :=
    .html_quiet (block_literal fun _ => ⟨_, _, rfl, rfl⟩) <|
    .html_cons (block_each block_accountRow v.accounts) <|
    .html_quiet (block_literal fun _ => ⟨_, _, rfl, rfl⟩) <|
    .html_cons (block_showIf block_accountForm admin) <|
    .html_last (block_literal fun _ => ⟨_, _, rfl, rfl⟩)
  rwa [List.append_nil] at hblock

theorem block_uploadSection {title action label : String} (htitle : IsPlain title)
    (haction : IsPlain action) (hlabel : IsPlain label) :
    Block (uploadSection title action label) [.post action] := by
  have hheading : Block ("<section>\n<h2>" ++ title ++ "</h2>\n") [] := fun _ =>
    ⟨_, leads_around htitle (leads_literal rfl rfl) rfl (leads_literal rfl rfl)⟩
  have hopening : Block ("<form method=\"post\" action=\"" ++ action ++
      "\" enctype=\"multipart/form-data\">\n") [.post action] := by
    refine block_opening (address_plain haction) (fun v => leads_literal rfl rfl) ?_
    rintro w rfl
    exact ⟨_, leads_literal rfl rfl⟩
  exact .html_quiet hheading <|
    .html_cons hopening <|
    .html_quiet (block_literal fun _ => ⟨_, _, rfl, rfl⟩) <|
    .html_quiet (block_confirmation hlabel) <|
    .html_quiet (block_button (isPlain_ofList rfl)) <|
    .html_last (block_literal fun _ => ⟨_, _, rfl, rfl⟩)

theorem block_parameterField (p : ParameterField) : Block (parameterField p) [] :=
  fun _ => ⟨_, _, rfl, rfl⟩

theorem block_boardForm (parameters : List ParameterField) (id : HardwareId) :
    Block (boardForm parameters id) [.post "/hardware"] := by
  have hhardware : Address "/hardware" "/hardware" := address_plain (isPlain_ofList rfl)
  refine block_blockForm hhardware ?_
  exact .html_quoted (fun _ => ⟨_, _, rfl, rfl⟩) <|
    .html_quiet (block_each_quiet block_parameterField parameters) <|
    .html_quiet (block_literal fun _ => ⟨_, _, rfl, rfl⟩) <|
    .html_quiet (block_confirmation (isPlain_ofList rfl)) <|
    .html_last (block_button (isPlain_ofList rfl))

def hardwareOffers (v : HardwareView) : List Offer :=
  .selection :: v.selected.elim [] fun _ => [.post "/hardware"]

theorem block_hardwareSection (v : HardwareView) :
    Block (hardwareSection v) (hardwareOffers v) := by
  have hselect : Block (html [selector "hardware" v.supported, button "Recharger"]) [] :=
    .html_quiet (block_selector (isPlain_ofList rfl) v.supported) <|
      .html_last (block_button (isPlain_ofList rfl))
  have hblock : Block (hardwareSection v)
      ([.selection] ++ ((v.selected.elim [] fun _ => [.post "/hardware"]) ++ [])) :=
    .html_quiet (block_literal fun _ => ⟨_, _, rfl, rfl⟩) <|
    .html_cons (block_selectionForm hselect) <|
    .html_cons (block_showSome (block_boardForm v.parameters) v.selected) <|
    .html_last (block_literal fun _ => ⟨_, _, rfl, rfl⟩)
  rwa [List.append_nil] at hblock

theorem block_rebootSection : Block rebootSection [.link (some "/reboot")] :=
  .html_quiet (block_literal fun _ => ⟨_, _, rfl, rfl⟩) <|
    .html_last (block_literal fun _ => ⟨_, _, rfl, rfl⟩)

def adminOffers (hardware : Option HardwareView) : List Offer :=
  .post "/firmware" :: .post "/certificate" ::
    (hardware.elim [] hardwareOffers ++ [.link (some "/reboot")])

theorem block_adminSections (hardware : Option HardwareView) :
    Block (adminSections hardware) (adminOffers hardware) := by
  have hfirmware : Block firmwareSection [.post "/firmware"] :=
    block_uploadSection (isPlain_ofList rfl) (isPlain_ofList rfl) (isPlain_ofList rfl)
  have hcertificate : Block certificateSection [.post "/certificate"] :=
    block_uploadSection (isPlain_ofList rfl) (isPlain_ofList rfl) (isPlain_ofList rfl)
  exact .html_cons hfirmware <|
    .html_quiet (block_literal fun _ => ⟨_, _, rfl, rfl⟩) <|
    .html_cons hcertificate <|
    .html_quiet (block_literal fun _ => ⟨_, _, rfl, rfl⟩) <|
    .html_cons (block_showSome block_hardwareSection hardware) <|
    .html_quiet (block_literal fun _ => ⟨_, _, rfl, rfl⟩) <|
    .html_last block_rebootSection

theorem block_errorSection (errors : List String) : Block (errorSection errors) [] := by
  have hline : ∀ error, Block (html ["<li>", data error, "</li>\n"]) [] :=
    fun _ _ => ⟨_, _, rfl, rfl⟩
  have hsection : Block (html ["<section class=\"errors\">\n<h2>Erreurs</h2>\n<ul>\n",
      each errors fun error => html ["<li>", data error, "</li>\n"], "\n</ul>\n</section>\n"]) [] :=
    .html_quiet (block_literal fun _ => ⟨_, _, rfl, rfl⟩) <|
    .html_quiet (block_each_quiet hline errors) <|
    .html_last (block_literal fun _ => ⟨_, _, rfl, rfl⟩)
  have hshown := block_showIf hsection (!errors.isEmpty)
  rwa [ite_self] at hshown

def pageOffers (p : Page) : List Offer :=
  (p.override.elim [] fun _ => [.post "/override"]) ++ p.zones.elim [] zoneSectionOffers ++
    p.plannings.elim [] (planningSectionOffers p.slots) ++
    p.accounts.elim [] (accountSectionOffers p.admin) ++
    if p.admin then adminOffers p.hardware else []

theorem block_homeContent (p : Page) : Block (homeContent p) (pageOffers p) := by
  have hstatus := block_showSome block_statusSection p.status
  have hquiet : p.status.elim [] (fun _ => ([] : List Offer)) = [] := by cases p.status <;> rfl
  rw [hquiet] at hstatus
  have hblock : Block (homeContent p) ((p.override.elim [] fun _ => [.post "/override"]) ++
      (p.zones.elim [] zoneSectionOffers ++ (p.plannings.elim [] (planningSectionOffers p.slots) ++
      (p.accounts.elim [] (accountSectionOffers p.admin) ++
      ((if p.admin then adminOffers p.hardware else []) ++ []))))) :=
    .html_quiet (block_literal fun _ => ⟨_, _, rfl, rfl⟩) <|
    .html_quiet (block_errorSection p.errors) <|
    .html_quiet (block_literal fun _ => ⟨_, _, rfl, rfl⟩) <|
    .html_quiet hstatus <|
    .html_quiet (block_literal fun _ => ⟨_, _, rfl, rfl⟩) <|
    .html_cons (block_showSome block_overrideSection p.override) <|
    .html_quiet (block_literal fun _ => ⟨_, _, rfl, rfl⟩) <|
    .html_cons (block_showSome block_zoneSection p.zones) <|
    .html_quiet (block_literal fun _ => ⟨_, _, rfl, rfl⟩) <|
    .html_cons (block_showSome (block_planningSection p.slots) p.plannings) <|
    .html_quiet (block_literal fun _ => ⟨_, _, rfl, rfl⟩) <|
    .html_cons (block_showSome (block_accountSection p.admin) p.accounts) <|
    .html_quiet (block_literal fun _ => ⟨_, _, rfl, rfl⟩) <|
    .html_cons (block_showIf (block_adminSections p.hardware) p.admin) <|
    .html_last (block_literal fun _ => ⟨_, _, rfl, rfl⟩)
  simpa only [pageOffers, List.append_assoc, List.append_nil] using hblock

theorem isPlain_style : ∀ rule ∈ styles, IsPlain (style rule) := by
  have hrules : ∀ rule ∈ styles, IsPlain rule.1 ∧ IsPlain rule.2 := by
    simp only [styles, List.forall_mem_cons, List.not_mem_nil, false_imp_iff, implies_true,
      and_true]
    repeat' with_reducible apply And.intro
    all_goals repeat' with_reducible apply IsPlain.append
    all_goals exact isPlain_ofList rfl
  intro rule hrule
  obtain ⟨hselector, hdeclarations⟩ := hrules rule hrule
  have hopening : IsPlain " \x7b " := isPlain_ofList rfl
  have hclosing : IsPlain " \x7d\n" := isPlain_ofList rfl
  exact ((hselector.append hopening).append hdeclarations).append hclosing

theorem block_layout {title : String} (htitle : IsPlain title) {head content : Html}
    {os : List Offer} (hhead : Block head []) (hcontent : Block content os) :
    Block (layout title head content) os := by
  have htitle : Block ("\n<title>" ++ title ++ "</title>\n") [] :=
    block_raw (fun _ => ⟨_, _, rfl, rfl, rfl⟩) htitle ⟨_, _, rfl, rfl⟩
  have hstyle : Block ("<style>\n" ++ String.join (styles.map style) ++
      "</style>\n</head>\n<body>\n") [] := by
    refine block_raw (fun _ => ⟨_, _, rfl, rfl, rfl⟩) (isPlain_join ?_) ⟨_, _, rfl, rfl⟩
    exact List.forall_mem_map.mpr isPlain_style
  have hblock : Block (layout title head content) (os ++ []) :=
    .html_quiet (block_literal fun _ => ⟨_, _, rfl, rfl⟩) <|
    .html_quiet (block_literal fun _ => ⟨_, _, rfl, rfl⟩) <|
    .html_quiet hhead <|
    .html_quiet htitle <|
    .html_quiet hstyle <|
    .html_cons hcontent <|
    .html_last (block_literal fun _ => ⟨_, _, rfl, rfl⟩)
  rwa [List.append_nil] at hblock

theorem Block.parse {h : Html} {os : List Offer} (hblock : Block h os) :
    ∃ ts, Web.parse h.symbols = some ts ∧ offers (ts.map (Token.map text)) = os := by
  obtain ⟨v, ts, hrun, hos⟩ := hblock []
  refine ⟨(.text v :: ts).reverse, ?_, ?_⟩
  · rw [Web.parse, Reader.start, hrun, Option.bind_some]
    rfl
  · have htext := offered_append ts [.text v]
    rw [hos] at htext
    exact htext.trans (List.append_nil os)

/-- The main page can be read, whatever it shows, and offers what is listed for its sections. -/
theorem parse_homePage (p : Page) : ∃ ts, parse (homePage p).symbols = some ts ∧
    offers (ts.map (Token.map text)) = pageOffers p :=
  (block_layout (isPlain_ofList rfl) .empty (block_homeContent p)).parse

def zonePageOffers (p : ZonePage) : List Offer :=
  (p.zones.elim [] fun v => v.zones.flatMap zoneOffers) ++ [.link (some "/")]

theorem block_zonesContent (p : ZonePage) : Block (zonesContent p) (zonePageOffers p) := by
  have hzones : Block (zonesOrNone p.zones)
      (p.zones.elim [] fun v => v.zones.flatMap zoneOffers) := by
    cases p.zones with
    | none => exact block_literal fun _ => ⟨_, _, rfl, rfl⟩
    | some v => exact block_zoneTable v
  exact .html_quiet (block_literal fun _ => ⟨_, _, rfl, rfl⟩) <|
    .html_quiet (block_errorSection p.errors) <|
    .html_quiet (block_literal fun _ => ⟨_, _, rfl, rfl⟩) <|
    .html_cons hzones.onNewLine <|
    .html_last (block_literal fun _ => ⟨_, _, rfl, rfl⟩)

theorem parse_zonesPage (refreshSeconds : Nat) (p : ZonePage) :
    ∃ ts, parse (zonesPage refreshSeconds p).symbols = some ts ∧
      offers (ts.map (Token.map text)) = zonePageOffers p := by
  have hrefresh : Block (html ["<meta http-equiv=\"refresh\" content=\"",
      data (Text.natText refreshSeconds), "\">"]) [] :=
    fun _ => ⟨_, _, rfl, rfl⟩
  exact (block_layout (isPlain_ofList rfl) hrefresh (block_zonesContent p)).parse

end HeatingControl.Web
