/-!
# JSON values

Objects keep their fields in written order, repeated keys included. A whole number within the
range of 64 bits is told apart from every other number. A value that was read from a text can
also hold marks for what the text lacks.
-/
namespace HeatingControl

inductive Json where
  | null
  | bool (b : Bool)
  /-- A whole number from -2^63 to 2^64 - 1, written without fraction or exponent. -/
  | int (i : Int)
  /-- Any other number, as it is written. -/
  | decimal (text : String)
  | text (s : String)
  | array (items : List Json)
  | object (fields : List (String × Json))
  /-- The text stops being JSON here; nothing follows within the enclosing values. -/
  | torn
  /-- A well-formed string or number that denotes no text or no finite number. -/
  | unreadable
  /-- The value of a field whose key denotes no text. -/
  | unnamed (value : Json)
  deriving Repr, Inhabited

namespace Json

mutual

/-- Whether the text of this value is well formed throughout. -/
def isWhole : Json → Bool
  | .torn => false
  | .array items => allWhole items
  | .object fields => fieldsWhole fields
  | .unnamed value => value.isWhole
  | _ => true

def allWhole : List Json → Bool
  | [] => true
  | j :: rest => j.isWhole && allWhole rest

def fieldsWhole : List (String × Json) → Bool
  | [] => true
  | (_, j) :: rest => j.isWhole && fieldsWhole rest

end

def field? (key : String) : Json → Option Json
  | .object fields => (fields.find? fun f => f.1 = key).map (·.2)
  | _ => none

end Json
end HeatingControl
