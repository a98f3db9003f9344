import HeatingControl.Account
import HeatingControl.Hardware
import HeatingControl.View.Choice

/-!
# The account and hardware sections

The accounts, among which the administrator decides which other sections are offered; a selector
of the supported boards and one form field per parameter of the selected board.
-/
namespace HeatingControl

structure AccountRow where
  id : String
  deletable : Bool
  deriving DecidableEq, Repr

structure AccountsView where
  accounts : List AccountRow
  admin : Bool
  deriving DecidableEq, Repr

def AccountsView.render (accounts : List Account) : AccountsView :=
  ⟨accounts.map fun a => ⟨a.id.text, a.isDeletable⟩, hasAdministrator accounts⟩

structure ParameterField where
  id : String
  description : String
  inputType : String
  value : String
  deriving DecidableEq, Repr

def ParameterField.ofParameter (p : HardwareParameter) : ParameterField :=
  ⟨p.id, p.description, p.kind.inputType, p.value.display⟩

structure HardwareView where
  supported : List Choice
  selected : Option HardwareId
  parameters : List ParameterField
  deriving DecidableEq, Repr

namespace HardwareView

/-- The requested board if it is supported, otherwise the current one. -/
def selection (l : HardwareList) (requested : Option HardwareId) : Option HardwareId :=
  (requested.filter fun id => (l.find? id).isSome).or l.current

def render (l : HardwareList) (selected : Option HardwareId)
    (parameters : List HardwareParameter) : HardwareView :=
  { supported := Choice.list (fun h => h.id.text) (fun h => h.id.text ++ ": " ++ h.description)
      (selected.map HardwareId.text) l.supported
    selected := selected
    parameters := parameters.map ParameterField.ofParameter }

end HardwareView
end HeatingControl
