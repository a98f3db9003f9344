import HeatingControl.Web.HomePage

/-!
# The strings of a page

What is inserted into a page are the strings of what is shown, with the numbers of its plannings
and slots, in the order in which they stand on the page.
-/
namespace HeatingControl

def Choice.strings (c : Choice) : List String := [c.value, c.label]

def OverrideOption.strings (o : OverrideOption) : List String := [o.colour, o.value, o.name]

/-- The id stands in the first column and in the addresses of both forms. -/
def ZoneRow.strings (z : ZoneRow) : List String :=
  [z.id, z.id, z.description, z.currentColour, z.currentName, z.id] ++
    z.modes.flatMap Choice.strings

def ZonesView.strings (v : ZonesView) : List String := v.zones.flatMap ZoneRow.strings

def PlanningsView.strings (v : PlanningsView) : List String :=
  if v.isEmpty then [PlanningsView.emptyMessage]
  else v.plannings.flatMap Choice.strings ++
    v.selected.elim [] fun id => [id.display, id.display]

def SlotRow.strings (planning : PlanningId) (r : SlotRow) : List String :=
  [planning.display, r.id.display, r.shown.day, r.shown.hour, r.shown.minute, r.shown.order] ++
    (r.day ++ r.hour ++ r.minute ++ r.order).flatMap Choice.strings ++
    [planning.display, r.id.display]

def SlotsView.strings (v : SlotsView) : List String :=
  v.slots.flatMap (SlotRow.strings v.planning) ++ [v.planning.display] ++
    (v.addDay ++ v.addHour ++ v.addMinute ++ v.addOrder).flatMap Choice.strings

/-- Only a deletable account has a second form with its id. -/
def AccountRow.strings (a : AccountRow) : List String :=
  [a.id, a.id] ++ if a.deletable then [a.id] else []

def ParameterField.strings (p : ParameterField) : List String :=
  [p.description, p.inputType, p.id, p.value]

def HardwareView.strings (v : HardwareView) : List String :=
  v.supported.flatMap Choice.strings ++
    v.selected.elim [] fun id => id.text :: v.parameters.flatMap ParameterField.strings

/-- The slots are part of the section of the plannings, and boards are shown to the administrator
only. -/
def Dashboard.Page.strings (p : Dashboard.Page) : List String :=
  p.errors ++ p.status.elim [] (·.lines) ++
    p.override.elim [] (·.options.flatMap OverrideOption.strings) ++
    p.zones.elim [] ZonesView.strings ++
    p.plannings.elim [] (fun v => v.strings ++ p.slots.elim [] SlotsView.strings) ++
    p.accounts.elim [] (·.accounts.flatMap AccountRow.strings) ++
    if p.admin then p.hardware.elim [] HardwareView.strings else []

def Dashboard.ZonePage.strings (p : Dashboard.ZonePage) : List String :=
  p.errors ++ p.zones.elim [] ZonesView.strings

namespace Web

open Dashboard (Page ZonePage)

def Piece.inserted? : Piece → Option String
  | .markup _ => none
  | .data s => some s

def inserted (h : Html) : List String := h.filterMap Piece.inserted?

section Blocks

variable {α : Type}

@[simp] theorem inserted_nil : inserted [] = [] := rfl

@[simp] theorem inserted_append (h h' : Html) : inserted (h ++ h') = inserted h ++ inserted h' :=
  List.filterMap_append

@[simp] theorem inserted_html (parts : List Html) :
    inserted (html parts) = parts.flatMap inserted := by
  rw [inserted, html, List.filterMap_flatten, List.flatMap_def]
  rfl

@[simp] theorem inserted_markup (s : String) (h : Html) :
    inserted (.markup s :: h) = inserted h := rfl

@[simp] theorem inserted_data (s : String) : inserted (data s) = [s] := rfl

@[simp] theorem inserted_onNewLine (h : Html) : inserted (onNewLine h) = inserted h := rfl

@[simp] theorem inserted_each (l : List α) (block : α → Html) :
    inserted (each l block) = l.flatMap fun a => inserted (block a) := by
  simp only [inserted, each, List.filterMap_flatMap]
  rfl

@[simp] theorem inserted_showIf (condition : Bool) (h : Html) :
    inserted (showIf condition h) = if condition then inserted h else [] := by
  cases condition <;> rfl

@[simp] theorem inserted_showSome (v : Option α) (block : α → Html) :
    inserted (showSome v block) = v.elim [] fun a => inserted (block a) := by
  cases v <;> rfl

end Blocks

theorem inserted_option (c : Choice) : inserted (option c) = c.strings := by
  obtain ⟨value, label, selected⟩ := c
  cases selected <;> rfl

@[simp] theorem inserted_selector (name : String) (choices : List Choice) :
    inserted (selector name choices) = choices.flatMap Choice.strings := by
  simp [selector, selectorOf, inserted_option]

@[simp] theorem inserted_plainSelector (name : String) (choices : List Choice) :
    inserted (plainSelector name choices) = choices.flatMap Choice.strings := by
  have hoption : ∀ c, inserted (plainOption c) = c.strings := fun _ => rfl
  simp [plainSelector, selectorOf, hoption]

theorem inserted_overrideOption (o : OverrideOption) :
    inserted (overrideOption o) = o.strings := by
  obtain ⟨value, name, colour, checked⟩ := o
  cases checked <;> rfl

theorem inserted_zoneRow (z : ZoneRow) : inserted (zoneRow z) = z.strings := by
  simp [zoneRow, topForm, zoneAction, button, ZoneRow.strings]

theorem inserted_zoneTable (v : ZonesView) : inserted (zoneTable v) = v.strings := by
  simp [zoneTable, ZonesView.strings, inserted_zoneRow]

theorem inserted_planningList (v : PlanningsView) : inserted (planningList v) = v.strings := by
  unfold planningList PlanningsView.strings
  cases v.isEmpty with
  | true => rfl
  | false =>
    simp [selectionForm, selectedPlanning, inlineForm, planningAction, button]

theorem inserted_slotRow (planning : PlanningId) (r : SlotRow) :
    inserted (slotRow planning r) = r.strings planning := by
  simp [slotRow, inlineForm, slotAction, hidden, button, SlotRow.strings]

theorem inserted_slotTable (v : SlotsView) : inserted (slotTable v) = v.strings := by
  simp [slotTable, blockForm, planningAction, button, SlotsView.strings, inserted_slotRow]

theorem inserted_planningSection (slots : Option SlotsView) (v : PlanningsView) :
    inserted (planningSection slots v) = v.strings ++ slots.elim [] SlotsView.strings := by
  simp [planningSection, blockForm, button, inserted_planningList, inserted_slotTable]

theorem inserted_accountRow (a : AccountRow) : inserted (accountRow a) = a.strings := by
  simp [accountRow, inlineForm, accountAction, button, AccountRow.strings]

theorem inserted_accountSection (admin : Bool) (v : AccountsView) :
    inserted (accountSection admin v) = v.accounts.flatMap AccountRow.strings := by
  simp [accountSection, accountForm, blockForm, button, inserted_accountRow]

theorem inserted_hardwareSection (v : HardwareView) :
    inserted (hardwareSection v) = v.strings := by
  have hfield : ∀ p, inserted (parameterField p) = p.strings := fun _ => rfl
  simp [hardwareSection, selectionForm, boardForm, blockForm, confirmation, button,
    HardwareView.strings, hfield]

theorem inserted_adminSections (hardware : Option HardwareView) :
    inserted (adminSections hardware) = hardware.elim [] HardwareView.strings := by
  simp [adminSections, firmwareSection, certificateSection, uploadSection, rebootSection,
    confirmation, button, inserted_hardwareSection]

theorem inserted_errorSection (errors : List String) : inserted (errorSection errors) = errors := by
  cases errors <;> simp [errorSection]

theorem inserted_homePage (p : Page) : inserted (homePage p) = p.strings := by
  simp [homePage, layout, homeContent, statusSection, overrideSection, blockForm, zoneSection,
    button, Page.strings, inserted_overrideOption, inserted_zoneTable, inserted_planningSection,
    inserted_accountSection, inserted_adminSections, inserted_errorSection]

theorem inserted_zonesPage (refreshSeconds : Nat) (p : ZonePage) :
    inserted (zonesPage refreshSeconds p) = Text.natText refreshSeconds :: p.strings := by
  have hzones : inserted (zonesOrNone p.zones) = p.zones.elim [] ZonesView.strings := by
    cases p.zones with
    | none => rfl
    | some v => exact inserted_zoneTable v
  simp [zonesPage, layout, zonesContent, ZonePage.strings, hzones, inserted_errorSection]

end Web
end HeatingControl
