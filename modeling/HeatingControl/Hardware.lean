import HeatingControl.Error
import HeatingControl.Ident

/-!
# Boards and their parameters

The controller supports several boards, each with parameters that hold a number or a text. A
form gives every parameter of a board its submitted value, or the current one where it has none.
-/
namespace HeatingControl

structure HardwareType where
  id : HardwareId
  description : String
  deriving DecidableEq, Repr

structure HardwareList where
  current : Option HardwareId
  supported : List HardwareType
  deriving DecidableEq, Repr

def HardwareList.find? (l : HardwareList) (id : HardwareId) : Option HardwareType :=
  l.supported.find? fun h => h.id = id

inductive ParameterKind where
  | number
  | string
  deriving DecidableEq, Repr

def ParameterKind.inputType : ParameterKind → String
  | .number => "number"
  | .string => "text"

inductive ParameterValue where
  | integer (value : Int64)
  | text (value : String)
  deriving DecidableEq, Repr

namespace ParameterValue

def display : ParameterValue → String
  | .integer value => Text.intText value.toInt
  | .text value => value

/-- A number may have blanks around it, a text is taken as it is. -/
def parse (id : String) (kind : ParameterKind) (raw : String) :
    Except ValidationError ParameterValue :=
  match kind with
  | .number =>
    match Text.readInt64 (Text.trim raw).toList with
    | .ok value => .ok (.integer value)
    | .error _ => .error (.invalidParameterValue id raw)
  | .string => .ok (.text raw)

end ParameterValue

structure HardwareParameter where
  id : String
  description : String
  kind : ParameterKind
  value : ParameterValue
  deriving DecidableEq, Repr

structure HardwareSettings where
  hardware : HardwareId
  values : List (String × ParameterValue)
  deriving DecidableEq, Repr

namespace HardwareSettings

def boardField : String := "hardware"

def field? (fields : List (String × String)) (name : String) : Option String :=
  (fields.find? fun f => f.1 = name).map (·.2)

def valueFor (fields : List (String × String)) (p : HardwareParameter) :
    Except ValidationError (String × ParameterValue) :=
  match field? fields p.id with
  | none => .ok (p.id, p.value)
  | some raw => (ParameterValue.parse p.id p.kind raw).map fun value => (p.id, value)

/-- The settings that a form stands for; fields that name no parameter are ignored. -/
def ofForm (hardware : HardwareId) (fields : List (String × String))
    (parameters : List HardwareParameter) : Except ValidationError HardwareSettings :=
  (parameters.mapM (valueFor fields)).map fun values => ⟨hardware, values⟩

def formFields (s : HardwareSettings) : List (String × String) :=
  (boardField, s.hardware.text) :: s.values.map fun v => (v.1, v.2.display)

end HardwareSettings
end HeatingControl
