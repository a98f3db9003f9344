import HeatingControl.Proofs.Web.Offers
import HeatingControl.Proofs.Web.Strings

/-!
# The skeleton of a page

The skeleton of a page is what is left without its texts and the values of its attributes. It is
told by the shape of what is shown: which sections there are, how long the lists are, and what is
marked (`data_is_never_markup`).
-/
namespace HeatingControl

def noText (_ : String) : String := ""

def Choice.shape (c : Choice) : Choice := ⟨"", "", c.selected⟩

def StatusView.shape (v : StatusView) : StatusView := ⟨v.lines.map noText⟩

def OverrideOption.shape (o : OverrideOption) : OverrideOption := ⟨"", "", "", o.checked⟩

def OverrideView.shape (v : OverrideView) : OverrideView := ⟨v.options.map OverrideOption.shape⟩

def ZoneRow.shape (z : ZoneRow) : ZoneRow := ⟨"", "", "", "", z.modes.map Choice.shape⟩

def ZonesView.shape (v : ZonesView) : ZonesView := ⟨v.zones.map ZoneRow.shape⟩

def PlanningsView.shape (v : PlanningsView) : PlanningsView :=
  ⟨v.plannings.map Choice.shape, v.selected.map fun _ => ⟨0⟩⟩

def SlotRow.shape (r : SlotRow) : SlotRow where
  id := ⟨0⟩
  day := r.day.map Choice.shape
  hour := r.hour.map Choice.shape
  minute := r.minute.map Choice.shape
  order := r.order.map Choice.shape
  shown := ⟨"", "", "", ""⟩

def SlotsView.shape (v : SlotsView) : SlotsView where
  planning := ⟨0⟩
  slots := v.slots.map SlotRow.shape
  addDay := v.addDay.map Choice.shape
  addHour := v.addHour.map Choice.shape
  addMinute := v.addMinute.map Choice.shape
  addOrder := v.addOrder.map Choice.shape

def AccountRow.shape (a : AccountRow) : AccountRow := ⟨"", a.deletable⟩

def AccountsView.shape (v : AccountsView) : AccountsView :=
  ⟨v.accounts.map AccountRow.shape, v.admin⟩

def ParameterField.shape (_ : ParameterField) : ParameterField := ⟨"", "", "", ""⟩

def HardwareView.shape (v : HardwareView) : HardwareView where
  supported := v.supported.map Choice.shape
  selected := v.selected.map fun _ => ⟨""⟩
  parameters := v.parameters.map ParameterField.shape

/-- The page with every string emptied and every number at zero. -/
def Dashboard.Page.shape (p : Dashboard.Page) : Dashboard.Page where
  status := p.status.map StatusView.shape
  override := p.override.map OverrideView.shape
  zones := p.zones.map ZonesView.shape
  plannings := p.plannings.map PlanningsView.shape
  slots := p.slots.map SlotsView.shape
  accounts := p.accounts.map AccountsView.shape
  hardware := p.hardware.map HardwareView.shape
  admin := p.admin
  errors := p.errors.map noText

def Dashboard.ZonePage.shape (p : Dashboard.ZonePage) : Dashboard.ZonePage :=
  ⟨p.zones.map ZonesView.shape, p.errors.map noText⟩

namespace Web

open Dashboard (Page ZonePage)

def Piece.blank : Piece → Piece
  | .markup s => .markup s
  | .data _ => .data ""

def blank (h : Html) : Html := h.map Piece.blank

section Blank

variable {α : Type} {block : α → Html}

@[simp] theorem blank_append (h h' : Html) : blank (h ++ h') = blank h ++ blank h' :=
  List.map_append

@[simp] theorem blank_html (parts : List Html) : blank (html parts) = html (parts.map blank) := by
  simp only [blank, html, List.map_flatten]
  rfl

@[simp] theorem blank_markup (s : String) : blank (s : Html) = s := rfl

@[simp] theorem blank_data (s : String) : blank (data s) = data "" := rfl

@[simp] theorem blank_onNewLine (h : Html) : blank (onNewLine h) = onNewLine (blank h) := rfl

@[simp] theorem blank_each (l : List α) (block : α → Html) :
    blank (each l block) = each l fun a => blank (block a) := by
  simp only [each, blank, List.map_flatMap]
  rfl

@[simp] theorem blank_showIf (condition : Bool) (h : Html) :
    blank (showIf condition h) = showIf condition (blank h) := by
  cases condition <;> rfl

@[simp] theorem blank_showSome (v : Option α) (block : α → Html) :
    blank (showSome v block) = showSome v fun a => blank (block a) := by
  cases v <;> rfl

@[simp] theorem each_map {β : Type} (f : β → α) (l : List β) (block : α → Html) :
    each (l.map f) block = each l fun b => block (f b) := by
  simp [each, List.flatMap_map]

@[simp] theorem showSome_map {β : Type} (f : β → α) (v : Option β) (block : α → Html) :
    showSome (v.map f) block = showSome v fun b => block (f b) := by
  cases v <;> rfl

end Blank

theorem blank_option (c : Choice) : blank (option c) = blank (option c.shape) := by
  obtain ⟨value, label, selected⟩ := c
  cases selected <;> rfl

theorem blank_plainOption (c : Choice) : blank (plainOption c) = blank (plainOption c.shape) := rfl

theorem blank_selector (name : String) (choices : List Choice) :
    blank (selector name choices) = blank (selector name (choices.map Choice.shape)) := by
  simp [selector, selectorOf, ← blank_option]

theorem blank_plainSelector (name : String) (choices : List Choice) :
    blank (plainSelector name choices) =
      blank (plainSelector name (choices.map Choice.shape)) := by
  simp [plainSelector, selectorOf, ← blank_plainOption]

theorem blank_overrideOption (o : OverrideOption) :
    blank (overrideOption o) = blank (overrideOption o.shape) := by
  obtain ⟨value, name, colour, checked⟩ := o
  cases checked <;> rfl

theorem blank_zoneRow (z : ZoneRow) : blank (zoneRow z) = blank (zoneRow z.shape) := by
  simp [zoneRow, topForm, zoneAction, ZoneRow.shape, ← blank_selector]

theorem blank_zoneTable (v : ZonesView) : blank (zoneTable v) = blank (zoneTable v.shape) := by
  simp [zoneTable, ZonesView.shape, ← blank_zoneRow]

theorem blank_planningList (v : PlanningsView) :
    blank (planningList v) = blank (planningList v.shape) := by
  have hempty : v.shape.isEmpty = v.isEmpty := by
    simp [PlanningsView.isEmpty, PlanningsView.shape]
  unfold planningList
  rw [hempty]
  cases v.isEmpty with
  | true => rfl
  | false =>
    simp [selectionForm, selectedPlanning, inlineForm, planningAction, PlanningsView.shape,
      ← blank_selector]

theorem blank_slotTable (v : SlotsView) : blank (slotTable v) = blank (slotTable v.shape) := by
  simp [slotTable, slotRow, inlineForm, slotAction, hidden, blockForm, planningAction,
    SlotsView.shape, SlotRow.shape, ← blank_plainSelector, ← blank_selector]

theorem blank_planningSection (slots : Option SlotsView) (v : PlanningsView) :
    blank (planningSection slots v) =
      blank (planningSection (slots.map SlotsView.shape) v.shape) := by
  simp [planningSection, blockForm, ← blank_planningList, ← blank_slotTable]

theorem blank_accountRow (a : AccountRow) : blank (accountRow a) = blank (accountRow a.shape) := by
  simp [accountRow, inlineForm, accountAction, AccountRow.shape]

theorem blank_accountSection (admin : Bool) (v : AccountsView) :
    blank (accountSection admin v) = blank (accountSection admin v.shape) := by
  simp [accountSection, AccountsView.shape, ← blank_accountRow]

theorem blank_hardwareSection (v : HardwareView) :
    blank (hardwareSection v) = blank (hardwareSection v.shape) := by
  simp [hardwareSection, selectionForm, boardForm, blockForm, parameterField, HardwareView.shape,
    ← blank_selector]

theorem blank_adminSections (hardware : Option HardwareView) :
    blank (adminSections hardware) = blank (adminSections (hardware.map HardwareView.shape)) := by
  simp [adminSections, ← blank_hardwareSection]

theorem blank_errorSection (errors : List String) :
    blank (errorSection errors) = blank (errorSection (errors.map noText)) := by
  simp [errorSection]

theorem blank_homePage (p : Page) : blank (homePage p) = blank (homePage p.shape) := by
  simp [homePage, layout, homeContent, statusSection, overrideSection, blockForm, zoneSection,
    Page.shape, StatusView.shape, OverrideView.shape, ← blank_overrideOption, ← blank_zoneTable,
    ← blank_planningSection, ← blank_accountSection, ← blank_adminSections,
    ← blank_errorSection]

theorem blank_zonesPage (refreshSeconds : Nat) (p : ZonePage) :
    blank (zonesPage refreshSeconds p) = blank (zonesPage 0 p.shape) := by
  have hzones : blank (zonesOrNone p.zones) =
      blank (zonesOrNone (p.zones.map ZonesView.shape)) := by
    cases p.zones with
    | none => rfl
    | some v => exact blank_zoneTable v
  simp [zonesPage, layout, zonesContent, ZonePage.shape, ← hzones, ← blank_errorSection]

/-- The tags of a page with the names of their attributes, and where there are texts and values. -/
def skeleton (page : String) : Option (List (Token Unit)) :=
  (read page).map (List.map (Token.map fun _ => ()))

def emptied (_ : String) : List Symbol := [.inserted ""]

theorem symbols_blank (h : Html) : (blank h).symbols = replace emptied h.symbols := by
  have hpiece : ∀ piece : Piece, piece.blank.symbols = replace emptied piece.symbols := by
    intro piece
    cases piece with
    | markup s => exact (replace_of_isChar emptied (isChar_literal s.toList)).symm
    | data s => rfl
  simp only [blank, Html.symbols, replace, List.flatMap_map, List.flatMap_assoc, hpiece]

theorem skeleton_render {h : Html} {ts : List Spelled} (hts : parse h.symbols = some ts) :
    skeleton (render h) = some (ts.map (Token.map fun _ => ())) := by
  rw [skeleton, read_render hts, Option.map_some, List.map_map]
  refine congrArg some (List.map_congr_left fun t _ => ?_)
  exact t.map_map _ _

theorem skeleton_eq_of_blank {h h' : Html} {ts ts' : List Spelled}
    (hts : parse h.symbols = some ts) (hts' : parse h'.symbols = some ts')
    (hblank : blank h = blank h') : skeleton (render h) = skeleton (render h') := by
  have hemptied : ∀ s, ∀ x ∈ emptied s, x.isHarmless = true := by
    intro s x hx
    rw [List.mem_singleton.mp hx]
    rfl
  have htokens : ts.map (Token.map (replace emptied)) = ts'.map (Token.map (replace emptied)) := by
    have hparse := parse_replace hemptied hts
    rw [← symbols_blank, hblank, symbols_blank, parse_replace hemptied hts'] at hparse
    exact (Option.some.inj hparse).symm
  have hforget : ∀ us : List Spelled, us.map (Token.map fun _ => ()) =
      (us.map (Token.map (replace emptied))).map (Token.map fun _ => ()) := by
    intro us
    rw [List.map_map]
    exact List.map_congr_left fun t _ => (t.map_map (fun _ => ()) (replace emptied)).symm
  rw [skeleton_render hts, skeleton_render hts', hforget ts, hforget ts', htokens]

/-- The page is read back in full from its text: token by token what its markup and its data spell,
with the strings that were inserted, which are these, as they are in every text and in every
value. -/
structure ReadsBack (h : Html) (strings : List String) : Prop where
  inserted : inserted h = strings
  tokens : ∃ ts : List Spelled, ts.flatMap Token.written = h.symbols ∧
    read (render h) = some (ts.map (Token.map text))

theorem readsBack_of_parse {h : Html} {ts : List Spelled} {strings : List String}
    (hinserted : inserted h = strings) (hts : parse h.symbols = some ts) : ReadsBack h strings :=
  ⟨hinserted, ts, written_parse hts, read_render hts⟩

/-- Whatever strings are shown, on the main page and on the page of the zones: both are read back
with these strings in their places, and their tags and attributes are those of the page of the same
shape that shows nothing. -/
theorem data_is_never_markup (p : Page) (refreshSeconds : Nat) (z : ZonePage) :
    ReadsBack (homePage p) p.strings ∧
    skeleton (render (homePage p)) = skeleton (render (homePage p.shape)) ∧
    ReadsBack (zonesPage refreshSeconds z) (Text.natText refreshSeconds :: z.strings) ∧
    skeleton (render (zonesPage refreshSeconds z)) = skeleton (render (zonesPage 0 z.shape)) := by
  obtain ⟨ts, hts, -⟩ := parse_homePage p
  obtain ⟨_, hshape, -⟩ := parse_homePage p.shape
  obtain ⟨us, hus, -⟩ := parse_zonesPage refreshSeconds z
  obtain ⟨_, hzoneShape, -⟩ := parse_zonesPage 0 z.shape
  exact ⟨readsBack_of_parse (inserted_homePage p) hts,
    skeleton_eq_of_blank hts hshape (blank_homePage p),
    readsBack_of_parse (inserted_zonesPage refreshSeconds z) hus,
    skeleton_eq_of_blank hus hzoneShape (blank_zonesPage refreshSeconds z)⟩

/-- A parameter whose id closes its attribute and opens a script. -/
example :
    let p : ParameterField := ⟨"a\"><script>", "<b>", "number", "'&'"⟩
    read (render (parameterField p)) = some
      [.text "", .opening "label".toList [], .text "<b>\n",
       .opening "input".toList [("type".toList, some "number"),
         ("name".toList, some "param.a\"><script>"), ("value".toList, some "'&'")],
       .text "\n", .closing "label".toList, .text "\n"] := by
  rfl

end Web
end HeatingControl
