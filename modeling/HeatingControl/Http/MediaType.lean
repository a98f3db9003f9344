import HeatingControl.Text.Blank

/-!
# Media types

The type of a body: two names, a suffix that the second may carry, and named parameters.
Everything but the values of parameters is compared without regard to case.
-/
namespace HeatingControl

structure MediaType where
  type : String
  subtype : String
  suffixName : Option String
  parameters : List (String × String)
  deriving DecidableEq, Repr

namespace MediaType

def isTokenChar (c : Char) : Bool :=
  Text.isWordChar c || "!#$%&'*+-.^_`|~".toList.contains c

def isQuotable (c : Char) : Bool := 32 ≤ c.toNat && c.toNat ≠ 127

def lowered (cs : List Char) : String := Text.lower (String.ofList cs)

/-- A quoted value and what follows it. The first character may be anything, the next quote
ends. -/
def quotedValue : List Char → Option (List Char × List Char)
  | [] => none
  | c :: cs =>
    match Text.cutFirst '"' cs with
    | none => none
    | some (value, rest) =>
      if (c :: value).all isQuotable then some (c :: value, rest) else none

def parameterValue : List Char → Option (List Char × List Char)
  | '"' :: cs =>
    match quotedValue cs with
    | none => none
    | some (value, rest) =>
      match rest.dropWhile (· = ' ') with
      | [] => some (value, [])
      | c :: rest => if c = ';' then some (value, rest) else none
  | cs =>
    match Text.cutFirst ';' cs with
    | some (value, rest) =>
      if !value.isEmpty && value.all isTokenChar then some (value, rest) else none
    | none => if cs.all isTokenChar then some (cs, []) else none

def parameters? : Nat → List Char → Option (List (String × String))
  | 0, _ => some []
  | fuel + 1, cs =>
    match cs.dropWhile (· = ' ') with
    | [] => some []
    | cs =>
      match Text.cutFirst '=' cs with
      | none => none
      | some (name, rest) =>
        if !name.isEmpty && name.all isTokenChar then
          match parameterValue rest with
          | none => none
          | some (value, rest) =>
            (parameters? fuel rest).map fun ps => (lowered name, String.ofList value) :: ps
        else none

/-- The second name and its suffix; a plus sign at the front belongs to the name. -/
def subtypeParts (cs : List Char) : String × Option String :=
  match Text.cutLast '+' cs with
  | some (c :: name, ending) => (lowered (c :: name), some (lowered ending))
  | _ => (lowered cs, none)

def make (type subtype : List Char) (parameters : List (String × String)) : Option MediaType :=
  if !type.isEmpty && type.all isTokenChar && subtype.all isTokenChar then
    let (name, ending) := subtypeParts subtype
    some ⟨lowered type, name, ending, parameters⟩
  else none

def parse? (s : String) : Option MediaType :=
  match Text.cutFirst '/' s.toList with
  | none => none
  | some (type, rest) =>
    match Text.cutFirst ';' rest with
    | none => make type rest []
    | some (subtype, rest) =>
      if subtype.isEmpty then none
      else (parameters? (rest.length + 1) rest).bind (make type subtype)

/-- JSON, or a type of its own in the form of JSON. -/
def isJson (m : MediaType) : Bool :=
  m.type = "application" && (m.subtype = "json" || m.suffixName = some "json")

def boundary? (m : MediaType) : Option String :=
  if m.type = "multipart" && m.subtype = "form-data" then m.parameters.lookup "boundary" else none

def json : String := "application/json"
def form : String := "application/x-www-form-urlencoded"
def html : String := "text/html; charset=utf-8"
def plain : String := "text/plain; charset=utf-8"
def binary : String := "application/octet-stream"
def pem : String := "application/x-pem-file"

end MediaType
end HeatingControl
