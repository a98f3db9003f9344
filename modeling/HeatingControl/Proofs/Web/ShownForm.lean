import HeatingControl.Proofs.Client.Request
import HeatingControl.Proofs.View.SlotRows
import HeatingControl.Proofs.Web.Inserted
import HeatingControl.Web.HomePage
import HeatingControl.Web.Visit
import Mathlib.Data.List.Infix

/-!
# Forms as they are shown

A form is where it is sent and its controls with what they show. Sent back without a change, a
field sends its value, a selector its marked option and a box, being ticked, that it is. The forms
below stand on the page as they are, and what comes back names the action they are meant for.
-/
namespace HeatingControl.Web

open Dashboard (Action Page)

def Piece.plain : Piece → String
  | .markup s => s
  | .data s => s

def plain (h : Html) : String := String.join (h.map Piece.plain)

inductive Control where
  | hidden (name value : String)
  | text (name value : String)
  | selector (name : String) (choices : List Choice)
  | override (options : List OverrideOption)
  | parameters (fields : List ParameterField)
  | confirmation (label : String)

namespace Control

def html : Control → Html
  | .hidden name value => Web.hidden name value
  | .text name value =>
    Web.html ["<input name=\"" ++ name ++ "\" value=\"", data value, "\">\n"]
  | .selector name choices => Web.selector name choices
  | .override options => Web.html [each options overrideOption, "\n"]
  | .parameters fields => Web.html [each fields parameterField, "\n"]
  | .confirmation label => Web.confirmation label

/-- The fields that come back. A selector without a mark sends its first option, and of several
marks the last one counts. -/
def sent : Control → List (String × String)
  | .hidden name value | .text name value => [(name, value)]
  | .selector name choices =>
    (((choices.filter (·.selected)).getLast?.or choices.head?).map
      fun c => (name, c.value)).toList
  | .override options =>
    ((options.filter (·.checked)).getLast?.map fun o => ("value", o.value)).toList
  | .parameters fields => fields.map fun p => (parameterMark ++ p.id, p.value)
  | .confirmation _ => [("confirm", "on")]

theorem sent_selector {name : String} {choices : List Choice} {c : Choice}
    (h : choices.filter (·.selected) = [c]) : (selector name choices).sent = [(name, c.value)] := by
  simp [sent, h]

theorem sent_override {options : List OverrideOption} {o : OverrideOption}
    (h : options.filter (·.checked) = [o]) : (override options).sent = [("value", o.value)] := by
  simp [sent, h]

end Control

structure ShownForm where
  frame : Html → List Html → Html
  address : Html
  controls : List Control
  /-- What the button says. -/
  label : String

namespace ShownForm

def html (f : ShownForm) : Html :=
  f.frame f.address (f.controls.map Control.html ++ [button f.label])

def fields (f : ShownForm) : List (String × String) := f.controls.flatMap Control.sent

/-- The request that a browser makes of the form as it is shown. -/
def request (f : ShownForm) : Request :=
  ⟨Verb.post.text, plain f.address, some MediaType.form, Utf8.encode (Form.write f.fields)⟩

end ShownForm

def slotForm (planning : PlanningId) (r : SlotRow) : ShownForm :=
  ⟨inlineForm, slotAction planning r.id,
    [.hidden "original_dow" r.shown.day, .hidden "original_hour" r.shown.hour,
     .hidden "original_minute" r.shown.minute, .hidden "original_order" r.shown.order,
     .selector "dow" r.day, .selector "hour" r.hour, .selector "minute" r.minute,
     .selector "order" r.order],
    "Modifier"⟩

def descriptionForm (z : ZoneRow) : ShownForm :=
  ⟨topForm, zoneAction z "description", [.text "description" z.description], "Renommer"⟩

def modeForm (z : ZoneRow) : ShownForm :=
  ⟨topForm, zoneAction z "mode", [.selector "mode" z.modes], "Appliquer"⟩

def overrideForm (v : OverrideView) : ShownForm :=
  ⟨blockForm, "/override", [.override v.options], "Appliquer"⟩

def hardwareForm (parameters : List ParameterField) (id : HardwareId) : ShownForm :=
  ⟨blockForm, "/hardware",
    [.hidden "hardware" id.text, .parameters parameters,
     .confirmation "Je confirme le changement de matériel"],
    "Appliquer"⟩

section Shown

def Within (part whole : Html) : Prop := (render part).toList <:+: (render whole).toList

theorem Within.trans {part middle whole : Html} (h : Within part middle)
    (h' : Within middle whole) : Within part whole :=
  List.IsInfix.trans h h'

theorem within_of_infix {part whole : Html} (h : part <:+: whole) : Within part whole := by
  obtain ⟨front, back, rfl⟩ := h
  refine ⟨(render front).toList, (render back).toList, ?_⟩
  simp only [render_toList, List.flatMap_append]

theorem within_of_render {part whole : Html} (h : (render part).toList = (render whole).toList) :
    Within part whole := by
  rw [Within, h]

theorem within_html {part : Html} {parts : List Html} (h : part ∈ parts) :
    Within part (html parts) := by
  obtain ⟨front, back, rfl⟩ := List.append_of_mem h
  exact within_of_infix ⟨front.flatten, back.flatten, by simp [html]⟩

theorem within_onNewLine (block : Html) : Within block (onNewLine block) :=
  within_of_infix (List.suffix_cons _ _).isInfix

theorem within_each {α : Type} {a : α} {l : List α} (h : a ∈ l) (block : α → Html) :
    Within (block a) (each l block) := by
  have hpart : Within (onNewLine (block a)) (each l block) :=
    within_html (List.mem_map_of_mem (f := fun a => onNewLine (block a)) h)
  exact (within_onNewLine _).trans hpart

theorem within_showSome {α : Type} {v : Option α} {a : α} (h : v = some a) (block : α → Html) :
    Within (block a) (showSome v block) := by
  rw [h]
  exact within_onNewLine _

theorem within_showIf {condition : Bool} (h : condition = true) (block : Html) :
    Within block (showIf condition block) := by
  rw [h]
  exact within_onNewLine _

theorem within_homePage {p : Page} {part : Html} (h : Within part (homeContent p)) :
    Within part (homePage p) :=
  h.trans (within_html (by simp))

variable {p : Page}

theorem slotForm_shown {plannings : PlanningsView} {v : SlotsView}
    (hplannings : p.plannings = some plannings) (hv : p.slots = some v) {row : SlotRow}
    (hrow : row ∈ v.slots) : Within (slotForm v.planning row).html (homePage p) := by
  have hform : Within (slotForm v.planning row).html (slotRow v.planning row) :=
    within_html (by simp [slotForm, ShownForm.html, Control.html])
  have htable : Within (slotRow v.planning row) (slotTable v) :=
    (within_each hrow _).trans (within_html (by simp))
  have hsection : Within (slotTable v) (planningSection p.slots plannings) :=
    (within_showSome hv slotTable).trans (within_html (by simp))
  refine within_homePage (((hform.trans htable).trans hsection).trans ?_)
  exact (within_showSome hplannings _).trans (within_html (by simp))

theorem zoneForms_shown {v : ZonesView} (hv : p.zones = some v) {row : ZoneRow}
    (hrow : row ∈ v.zones) : Within (descriptionForm row).html (homePage p) ∧
      Within (modeForm row).html (homePage p) := by
  have hdescription : Within (descriptionForm row).html (zoneRow row) := by
    refine (within_of_render ?_).trans (within_html (List.mem_of_getElem? (i := 3) rfl))
    simp [render_toList, descriptionForm, ShownForm.html, Control.html, topForm, Web.html,
      Piece.text]
  have hmode : Within (modeForm row).html (zoneRow row) :=
    within_html (by simp [modeForm, ShownForm.html, Control.html])
  have hline : Within (zoneRow row) (homePage p) := by
    have htable : Within (zoneRow row) (zoneTable v) :=
      (within_each hrow _).trans (within_html (by simp))
    have hsection : Within (zoneTable v) (zoneSection v) := within_html (by simp)
    refine within_homePage ((htable.trans hsection).trans ?_)
    exact (within_showSome hv _).trans (within_html (by simp))
  exact ⟨hdescription.trans hline, hmode.trans hline⟩

theorem overrideForm_shown {v : OverrideView} (hv : p.override = some v) :
    Within (overrideForm v).html (homePage p) := by
  have hform : Within (overrideForm v).html (overrideSection v) := by
    refine (within_of_render ?_).trans (within_html (List.mem_of_getElem? (i := 1) rfl))
    simp [render_toList, overrideForm, ShownForm.html, Control.html, blockForm, Web.html]
  refine within_homePage (hform.trans ?_)
  exact (within_showSome hv _).trans (within_html (by simp))

theorem hardwareForm_shown {v : HardwareView} (hadmin : p.admin = true)
    (hv : p.hardware = some v) {board : HardwareId} (hboard : v.selected = some board) :
    Within (hardwareForm v.parameters board).html (homePage p) := by
  have htext : Within (hardwareForm v.parameters board).html (boardForm v.parameters board) := by
    apply within_of_render
    simp [render_toList, hardwareForm, boardForm, ShownForm.html, Control.html, hidden, blockForm,
      Web.html, Piece.text]
  have hform : Within (hardwareForm v.parameters board).html (hardwareSection v) :=
    htext.trans ((within_showSome hboard (boardForm v.parameters)).trans (within_html (by simp)))
  have hsections : Within (hardwareSection v) (adminSections p.hardware) :=
    (within_showSome hv hardwareSection).trans (within_html (by simp))
  refine within_homePage ((hform.trans hsections).trans ?_)
  exact (within_showIf hadmin _).trans (within_html (by simp))

end Shown

section Visits

/-- A request that carries the fields of a form to where the form is sent. -/
structure ShownForm.Posts (f : ShownForm) (r : Request) : Prop where
  method : r.method = Verb.post.text
  target : r.target = plain f.address
  body : r.formBody = .ok f.fields

theorem ShownForm.posts_request {f : ShownForm}
    (h : f.request.body.length ≤ Request.bodyLimit) : f.Posts f.request where
  method := rfl
  target := rfl
  body := (Request.formBody_write ..).trans (Request.sized_of_le h _)

section Visited

variable {f : ShownForm} {r : Request} (h : f.Posts r)
include h

theorem ShownForm.Posts.visit_eq (segments : List String) (place : Place)
    (hwords : ∀ s ∈ segments, IsWord s)
    (haddress : (plain f.address).toList = Target.joined (segments.map String.toList))
    (hplace : place? segments = some place) :
    visit r = (place.form r).getD (.error .methodNotAllowed) := by
  have hchars : ∀ s ∈ segments.map String.toList, ∀ c ∈ s, Target.isIdChar c = true := by
    intro s hs
    obtain ⟨word, hword, rfl⟩ := List.mem_map.mp hs
    exact (hwords word hword).chars
  have htarget : r.target = String.ofList (Target.joined (segments.map String.toList)) := by
    rw [h.target, ← haddress, String.ofList_toList]
  have hmethod := h.method
  obtain ⟨method, target, type, body⟩ := r
  subst htarget hmethod
  have hsegments := Target.segments_joined hchars Verb.post.text type body
  rw [List.map_map] at hsegments
  have hverb := Request.verb?_text .post
    (String.ofList (Target.joined (segments.map String.toList))) type body
  simp only [visit, hsegments, Function.comp_def, String.ofList_toList, List.map_id', hplace,
    hverb, Option.bind_some, Place.visit?]

omit h in
theorem onForm_of_body {names : List String} {fields : List (String × String)}
    (hbody : r.formBody = .ok fields) (h : Form.unrepeated names fields = true) (back : String)
    (action : (String → String) → Action) :
    onForm r names back action = .ok (.act (action fun name => Form.value name fields) back) := by
  simp only [onForm, Request.recordBody, hbody, h, if_true]

theorem ShownForm.Posts.onForm {names : List String}
    (honce : Form.unrepeated names f.fields = true) (back : String)
    (action : (String → String) → Action) :
    onForm r names back action =
      .ok (.act (action fun name => Form.value name f.fields) back) :=
  onForm_of_body h.body honce back action

end Visited

variable {r : Request}

theorem visit_overrideForm {v : OverrideView} {o : OverrideOption}
    (h : v.options.filter (·.checked) = [o]) (hr : (overrideForm v).Posts r) :
    visit r = .ok (.act (.changeOverride o.value) "/") := by
  have hfields : (overrideForm v).fields = [("value", o.value)] := by
    simp [overrideForm, ShownForm.fields, Control.sent_override h]
  have hvisit := hr.visit_eq ["override"] .override (by decide)
    (by simp [overrideForm, plain, Piece.plain, Target.joined]) rfl
  rw [hvisit, Place.form, Option.getD_some, hr.onForm (by rw [hfields]; rfl), hfields]
  rfl

theorem plain_zoneAction (row : ZoneRow) (what : String) : (plain (zoneAction row what)).toList =
    Target.joined (["zones", row.id, what].map String.toList) := by
  simp [zoneAction, html, data, plain, Piece.plain, Target.joined]

theorem visit_modeForm {row : ZoneRow} (hid : IsWord row.id) {c : Choice}
    (h : row.modes.filter (·.selected) = [c]) (hr : (modeForm row).Posts r) :
    visit r = .ok (.act (.changeZoneMode row.id c.value) "/") := by
  have hfields : (modeForm row).fields = [("mode", c.value)] := by
    simp [modeForm, ShownForm.fields, Control.sent_selector h]
  have hwords : ∀ s ∈ ["zones", row.id, "mode"], IsWord s := by
    simp only [List.forall_mem_cons, hid, true_and]
    decide
  have hvisit := hr.visit_eq ["zones", row.id, "mode"] (.zoneMode row.id) hwords
    (plain_zoneAction row "mode") rfl
  rw [hvisit, Place.form, Option.getD_some, Request.textSegment_of_isWord hid]
  simp only [bind, Except.bind]
  rw [hr.onForm (by rw [hfields]; rfl), hfields]
  rfl

theorem visit_descriptionForm {row : ZoneRow} (hid : IsWord row.id)
    (hr : (descriptionForm row).Posts r) :
    visit r = .ok (.act (.renameZone row.id row.description) "/") := by
  have hfields : (descriptionForm row).fields = [("description", row.description)] := rfl
  have hwords : ∀ s ∈ ["zones", row.id, "description"], IsWord s := by
    simp only [List.forall_mem_cons, hid, true_and]
    decide
  have hvisit := hr.visit_eq ["zones", row.id, "description"]
    (.zoneDescription row.id) hwords (plain_zoneAction row "description") rfl
  rw [hvisit, Place.form, Option.getD_some, Request.textSegment_of_isWord hid]
  simp only [bind, Except.bind]
  rw [hr.onForm (by rw [hfields]; rfl), hfields]
  rfl

theorem visit_slotForm (planning : PlanningId) {row : SlotRow} {posted : SlotInput}
    (h : row.Selects posted) (hr : (slotForm planning row).Posts r) : visit r =
      .ok (.act (.editSlot planning row.id row.shown posted) (homeOf planning)) := by
  obtain ⟨day, hour, minute, order, hday, hhour, hminute, horder, rfl⟩ := h
  have hfields : (slotForm planning row).fields =
      [("original_dow", row.shown.day), ("original_hour", row.shown.hour),
       ("original_minute", row.shown.minute), ("original_order", row.shown.order),
       ("dow", day.value), ("hour", hour.value), ("minute", minute.value),
       ("order", order.value)] := by
    simp [slotForm, ShownForm.fields, Control.sent, hday, hhour, hminute, horder]
  have hwords : ∀ s ∈ ["plannings", planning.display, "slots", row.id.display], IsWord s := by
    have hplanning : IsWord planning.display := isWord_natText _
    have hslot : IsWord row.id.display := isWord_natText _
    simp only [List.forall_mem_cons, hplanning, hslot, true_and]
    decide
  have haddress : (plain (slotForm planning row).address).toList = Target.joined
      (["plannings", planning.display, "slots", row.id.display].map String.toList) := by
    simp [slotForm, slotAction, html, data, plain, Piece.plain, Target.joined]
  have hplace : place? ["plannings", planning.display, "slots", row.id.display] =
      some (.slot planning.display row.id.display) :=
    if_neg (hwords row.id.display (by simp)).1
  have howner : Request.numberSegment planning.display = .ok planning.number :=
    Request.numberSegment_natText _
  have hslot : Request.numberSegment row.id.display = .ok row.id.number :=
    Request.numberSegment_natText _
  rw [hr.visit_eq _ _ hwords haddress hplace, Place.form, Option.getD_some,
    howner, hslot]
  simp only [bind, Except.bind]
  rw [hr.onForm (by rw [hfields]; rfl), hfields]
  rfl

section Board

variable (parameters : List ParameterField) (id : HardwareId)

theorem parameterOf_marked (p : ParameterField) :
    parameterOf (parameterMark ++ p.id, p.value) = some (p.id, p.value) := by
  have hafter : Text.afterStart? parameterMark.toList (parameterMark ++ p.id).toList =
      some p.id.toList :=
    Text.afterStart?_eq_some.mpr String.toList_append
  simp only [parameterOf, hafter, Option.map_some, String.ofList_toList]

theorem parameterOf_unmarked {name value : String}
    (h : Text.afterStart? parameterMark.toList name.toList = none) :
    parameterOf (name, value) = none := by
  rw [parameterOf, h]
  rfl

theorem hardwareForm_fields : (hardwareForm parameters id).fields =
    (HardwareSettings.boardField, id.text) ::
      ((parameters.map fun p => (parameterMark ++ p.id, p.value)) ++ [("confirm", "on")]) := by
  simp [hardwareForm, ShownForm.fields, Control.sent, HardwareSettings.boardField]

theorem hardwareForm_board :
    Form.value HardwareSettings.boardField (hardwareForm parameters id).fields = id.text := by
  have hother : ∀ p : ParameterField, parameterMark ++ p.id ≠ HardwareSettings.boardField := by
    intro p hname
    have hmarked := parameterOf_marked p
    rw [hname, parameterOf_unmarked (by decide)] at hmarked
    cases hmarked
  have hskip : (parameters.map fun p => (parameterMark ++ p.id, p.value)).reverse.find?
      (fun f => f.1 = HardwareSettings.boardField) = none := by
    rw [List.find?_eq_none]
    intro f hf hname
    obtain ⟨p, -, rfl⟩ := List.mem_map.mp (List.mem_reverse.mp hf)
    exact hother p (of_decide_eq_true hname)
  have hconfirm : ¬ "confirm" = HardwareSettings.boardField := by decide
  rw [Form.value, hardwareForm_fields, List.reverse_cons, List.reverse_append, List.find?_append,
    List.find?_append, hskip]
  simp [hconfirm]

theorem hardwareForm_parameters :
    (hardwareForm parameters id).fields.filterMap parameterOf =
      parameters.map fun p => (p.id, p.value) := by
  have hboard : parameterOf (HardwareSettings.boardField, id.text) = none :=
    parameterOf_unmarked (by decide)
  have hconfirm : parameterOf ("confirm", "on") = none := parameterOf_unmarked (by decide)
  rw [hardwareForm_fields, List.filterMap_cons_none hboard, List.filterMap_append,
    List.filterMap_cons_none hconfirm, List.filterMap_map]
  simp [parameterOf_marked]

theorem visit_hardwareForm (hr : (hardwareForm parameters id).Posts r) : visit r =
    .ok (.act (.applyHardware id.text (parameters.map fun p => (p.id, p.value)) true)
      (boardHome id.text)) := by
  have hconfirmed : Form.has "confirm" (hardwareForm parameters id).fields = true := by
    simp [hardwareForm_fields, Form.has]
  have hvisit := hr.visit_eq ["hardware"] .hardware (by decide)
    (by simp [hardwareForm, plain, Piece.plain, Target.joined]) rfl
  rw [hvisit, Place.form, Option.getD_some, hr.body]
  simp only [Except.map, onBoard, hardwareForm_board, hardwareForm_parameters, hconfirmed]

end Board

end Visits
end HeatingControl.Web
