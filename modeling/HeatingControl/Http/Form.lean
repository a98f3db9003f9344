import HeatingControl.Http.Percent
import HeatingControl.Text.Blank

/-!
# Forms and queries

A form is a list of named values, joined by `&`, each name cut from its value at the first `=`.
Blanks are written as `+`. Reading never fails: a flaw in the encoding becomes a replacement
character.
-/
namespace HeatingControl.Form

def isWordOctet (b : UInt8) : Bool := Text.isWordChar (Percent.charOf b)

def admits (b : UInt8) : Bool :=
  isWordOctet b || b == 0x2A || b == 0x2D || b == 0x2E || b == 0x5F

def writePart (s : String) : List Char :=
  (Utf8.encode s).flatMap fun b => if b = 0x20 then ['+'] else Percent.encode admits [b]

def writeField (f : String × String) : List Char := writePart f.1 ++ '=' :: writePart f.2

def write (fields : List (String × String)) : String :=
  String.ofList (List.intercalate ['&'] (fields.map writeField))

def readPart (bs : Bytes) : String :=
  Utf8.decodeLossy (Percent.decode (bs.map fun b => if b = 0x2B then 0x20 else b))

def readField (bs : Bytes) : String × String :=
  match Text.cutFirst 0x3D bs with
  | some (name, value) => (readPart name, readPart value)
  | none => (readPart bs, "")

/-- Empty fields are left out. -/
def read (bs : Bytes) : List (String × String) :=
  ((Text.cutAll 0x26 bs).filter fun part => !part.isEmpty).map readField

/-- The last value under a name, or nothing where the name is not given. -/
def value (name : String) (fields : List (String × String)) : String :=
  ((fields.reverse.find? fun f => f.1 = name).map (·.2)).getD ""

def has (name : String) (fields : List (String × String)) : Bool :=
  fields.any fun f => f.1 = name

def unrepeated (names : List String) (fields : List (String × String)) : Bool :=
  names.all fun name => (fields.filter fun f => f.1 = name).length ≤ 1

end HeatingControl.Form
