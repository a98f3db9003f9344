import HeatingControl.Http.MediaType
import HeatingControl.Text.Utf8

/-!
# Multipart forms

The parts of a form that carries files. Each part stands between two delimiters, with header
lines of its own; the last delimiter is marked by two more hyphens, and what follows it is not
read. A body that ends before that is no form.
-/
namespace HeatingControl.Multipart

structure Part where
  name : Option String
  content : Bytes
  deriving DecidableEq, Repr

def lineEnd : Bytes := [0x0D, 0x0A]

def hyphens : Bytes := [0x2D, 0x2D]

def isPad (b : UInt8) : Bool := b == 0x20 || b == 0x09

def maxHeaders : Nat := 32

def isNameOctet (b : UInt8) : Bool := MediaType.isTokenChar (Char.ofNat b.toNat)

def isValueOctet (b : UInt8) : Bool := b == 0x09 || (0x20 ≤ b && b != 0x7F)

def header? (line : Bytes) : Option (String × Bytes) :=
  match Text.cutFirst 0x3A line with
  | none => none
  | some (name, value) =>
    if !name.isEmpty && name.all isNameOctet && value.all isValueOctet then
      let value := ((value.dropWhile isPad).reverse.dropWhile isPad).reverse
      some (Text.lower (Utf8.decodeLossy name), value)
    else none

def unreturned (line : Bytes) : Bytes := (Text.beforeEnd? [0x0D] line).getD line

def headers? (block : Bytes) : Option (List (String × Bytes)) :=
  let lines := (Text.cutAll 0x0A (block ++ lineEnd)).map unreturned
  let lines := lines.takeWhile fun line => !line.isEmpty
  if lines.length ≤ maxHeaders then lines.mapM header? else none

def isSpace (b : UInt8) : Bool :=
  b == 0x20 || b == 0x09 || b == 0x0A || b == 0x0C || b == 0x0D

def afterOctet? (b : UInt8) (bs : Bytes) : Option Bytes :=
  Text.afterStart? [b] (bs.dropWhile isSpace)

def attributeValue (bs : Bytes) : Option Bytes :=
  match afterOctet? 0x22 bs with
  | some rest => (Text.cutFirst 0x22 rest).map (·.1)
  | none => some ((bs.dropWhile isSpace).takeWhile fun b => b != 0x3B && b != 0x20)

/-- The value after a mark, where an equals sign must stand between the two. The first mark counts
that comes at the front, after a blank or a semicolon, or right after another mark. -/
def attribute? (mark : Bytes) : Nat → Bytes → Option Bytes
  | 0, _ => none
  | fuel + 1, bs =>
    match Text.cutMark mark bs with
    | none => none
    | some (before, rest) =>
      if before.getLast?.all fun b => isSpace b || b == 0x3B then
        (afterOctet? 0x3D rest).bind attributeValue
      else attribute? mark fuel rest

/-- The name of a part; of a header that is repeated the last one counts. -/
def partName? (headers : List (String × Bytes)) : Option String := do
  let disposition ← headers.reverse.lookup "content-disposition"
  let name ← attribute? (Utf8.encode "name") (disposition.length + 1) disposition
  Utf8.decode? name

def parts? (delimiter : Bytes) : Nat → Bytes → Option (List Part)
  | 0, _ => none
  | fuel + 1, bs =>
    if (Text.afterStart? hyphens bs).isSome then some []
    else
      match Text.afterStart? lineEnd (bs.dropWhile isPad) with
      | none => none
      | some bs =>
        match Text.cutMark (lineEnd ++ lineEnd) bs with
        | none => none
        | some (block, bs) =>
          match headers? block, Text.cutMark (lineEnd ++ delimiter) bs with
          | some headers, some (content, bs) =>
            (parts? delimiter fuel bs).map fun parts => ⟨partName? headers, content⟩ :: parts
          | _, _ => none

/-- A part of a form as it is sent: a name and a file name, if it has them, and the content. -/
structure Field where
  name : Option String
  fileName : Option String
  content : Bytes
  deriving DecidableEq, Repr

def attributeText (name : String) : Option String → String
  | none => ""
  | some value => "; " ++ name ++ "=\"" ++ value ++ "\""

def disposition (f : Field) : String :=
  "Content-Disposition: form-data" ++ attributeText "name" f.name ++
    attributeText "filename" f.fileName

def writeField (delimiter : Bytes) (f : Field) : Bytes :=
  delimiter ++ lineEnd ++ Utf8.encode (disposition f) ++ lineEnd ++ lineEnd ++ f.content ++
    lineEnd

def write (boundary : String) (fields : List Field) : Bytes :=
  let delimiter := hyphens ++ Utf8.encode boundary
  fields.flatMap (writeField delimiter) ++ delimiter ++ hyphens ++ lineEnd

/-- The parts of a body; what stands before the first delimiter is not read. -/
def read? (boundary : String) (body : Bytes) : Option (List Part) :=
  let delimiter := hyphens ++ Utf8.encode boundary
  match Text.cutMark delimiter body with
  | none => none
  | some (_, bs) => parts? delimiter (body.length + 1) bs

end HeatingControl.Multipart
