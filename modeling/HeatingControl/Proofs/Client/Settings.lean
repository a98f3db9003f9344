import HeatingControl.Proofs.Client.Request
import HeatingControl.Proofs.Controller.Kinds
import HeatingControl.Proofs.Rest.Calls

/-!
# Settings over the web

Settings that were made of a form travel as a form once more. On the other side they are completed
with the same parameters, and what is stored is what was sent. In the form the board stands among
the parameters, so that a parameter with the name of its field is mistaken for it.
-/
namespace HeatingControl.Client

open HardwareSettings (boardField ofForm)

/-- The settings come with a form. When the parameters of the board are told, the controller is
asked to store these settings. -/
def AskedToStore (settings : HardwareSettings) (parameters : List HardwareParameter) : Prop :=
  ∃ next done, (Rest.Demand.hardwareForm settings.formFields).load.run =
      .ask (.operation (.getHardwareParameters settings.hardware)) next ∧
    next (.ok parameters) = .ask (.operation (.applyHardware settings)) done

theorem askedToStore {settings : HardwareSettings} {parameters : List HardwareParameter}
    (hboard : Rest.boardOf settings.formFields = .ok settings.hardware)
    (hform : ofForm settings.hardware settings.formFields parameters = .ok settings) :
    AskedToStore settings parameters := by
  have hload := Rest.load_hardwareForm settings.formFields
  have happly : Rest.applyForm settings.hardware settings.formFields parameters =
      .ask (.operation (.applyHardware settings)) fun r => .done (r.map fun _ => .empty 204) := by
    simp only [Rest.applyForm, hform]
  rw [hboard] at hload
  exact ⟨_, _, hload, happly⟩

/-- The value of a parameter that is called what the field of the board is. -/
theorem board_overwrites_parameter :
    let board : HardwareId := ⟨"M1E1"⟩
    let parameters : List HardwareParameter := [⟨"hardware", "Carte", .string, .text "v1"⟩]
    let settings : HardwareSettings := ⟨board, [("hardware", .text "v2")]⟩
    Text.trim board.text = board.text ∧ (parameters.map (·.id)).Nodup ∧
    (∀ p ∈ parameters, p.value.kind = p.kind) ∧
    ofForm board [("hardware", "v2")] parameters = .ok settings ∧
    Rest.boardOf settings.formFields = .ok board ∧
    ofForm board settings.formFields parameters = .ok ⟨board, [("hardware", .text "M1E1")]⟩ ∧
    ofForm board settings.formFields parameters ≠ .ok settings := by
  decide +kernel

/-- Settings for a board whose text has no blanks around it are sent as their fields, and come back
from them, unless a parameter is called what the field of the board is: such a parameter is given
what the text of the board stands for. -/
theorem settings_come_back {board : HardwareId}
    (hboard : Text.trim board.text = board.text) {parameters : List HardwareParameter}
    (hn : (parameters.map (·.id)).Nodup) (hkinds : ∀ p ∈ parameters, p.value.kind = p.kind)
    {fields : List (String × String)} {settings : HardwareSettings}
    (h : ofForm board fields parameters = .ok settings) :
    Form.read (bodyOf (.applyHardware settings)).2 = settings.formFields ∧
    ((bodyOf (.applyHardware settings)).2.length ≤ Request.bodyLimit → ∀ c : Client,
      (c.request (.applyHardware settings)).formBody = .ok settings.formFields) ∧
    Rest.boardOf settings.formFields = .ok board ∧
    ((∀ p ∈ parameters, p.id ≠ boardField) →
      ofForm board settings.formFields parameters = .ok settings ∧
        AskedToStore settings parameters) ∧
    (ofForm board settings.formFields parameters = .ok settings ↔
      ∀ p ∈ parameters, p.id = boardField → ∀ value, (p.id, value) ∈ settings.values →
        ParameterValue.parse p.id p.kind board.text = .ok value) := by
  have hkept : ∀ p ∈ parameters, p.Kept :=
    fun p hp => HardwareParameter.kept_iff.mpr (hkinds p hp)
  obtain rfl : settings.hardware = board := by
    obtain ⟨-, rfl⟩ := HardwareSettings.ofForm_ok_iff.mp h
    rfl
  have hread : Rest.boardOf settings.formFields = .ok settings.hardware := by
    rw [Rest.boardOf_formFields, hboard]
  have hbody : ∀ c : Client, (c.request (.applyHardware settings)).formBody =
      Request.sized (bodyOf (.applyHardware settings)).2 settings.formFields :=
    fun c => Request.formBody_write ..
  refine ⟨Form.read_write settings.formFields,
    fun hsize c => (hbody c).trans (Request.sized_of_le hsize _), hread, fun hother => ?_,
    HardwareSettings.ofForm_formFields_iff hn hkept h⟩
  have hform := HardwareSettings.ofForm_formFields hn hother hkept h
  exact ⟨hform, askedToStore hread hform⟩

/-- A number with blanks around it is sent without them, and a text as it is, also one that is
missing in the form. -/
theorem blanks_and_marks_come_back :
    let board : HardwareId := ⟨"Carte é 2"⟩
    let parameters : List HardwareParameter :=
      [⟨"count", "", .number, .integer 3⟩, ⟨"label", "", .string, .text " a&b=c "⟩]
    let settings : HardwareSettings :=
      ⟨board, [("count", .integer (-7)), ("label", .text " a&b=c ")]⟩
    Text.trim board.text = board.text ∧ (parameters.map (·.id)).Nodup ∧
    (∀ p ∈ parameters, p.value.kind = p.kind) ∧ (∀ p ∈ parameters, p.id ≠ boardField) ∧
    ofForm board [("count", " -7 "), ("other", "x")] parameters = .ok settings ∧
    ofForm board settings.formFields parameters = .ok settings ∧
    AskedToStore settings parameters := by
  intro board parameters settings
  have hboard : Text.trim board.text = board.text := by decide +kernel
  have hn : (parameters.map (·.id)).Nodup := by decide
  have hkinds : ∀ p ∈ parameters, p.value.kind = p.kind := by decide
  have hother : ∀ p ∈ parameters, p.id ≠ boardField := by decide
  have hform : ofForm board [("count", " -7 "), ("other", "x")] parameters = .ok settings := by
    decide +kernel
  obtain ⟨-, -, -, hback, -⟩ := settings_come_back hboard hn hkinds hform
  exact ⟨hboard, hn, hkinds, hother, hform, hback hother⟩

end HeatingControl.Client
