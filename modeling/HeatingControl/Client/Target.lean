import HeatingControl.Http.Percent
import HeatingControl.Text.Blank

/-!
# Urls and request targets

What is asked for under a url that holds arbitrary text. Blanks at the end and line breaks are
lost, a fragment is not sent, a question mark starts the query, a backslash separates segments as
a slash does, dot segments are resolved, and what an address does not admit is percent-encoded.
Percent signs are sent as they are. A host is taken as it is written.
-/
namespace HeatingControl

namespace Target

def isLineBreak (c : Char) : Bool := c = '\t' || c = '\n' || c = '\r'

def isEdge (c : Char) : Bool := c.toNat ≤ 0x20

def cleaned (s : String) : List Char :=
  ((s.toList.reverse.dropWhile isEdge).reverse).filter fun c => !isLineBreak c

def isPlain (b : UInt8) : Bool := 0x20 < b && b < 0x7F

def pathAdmits (b : UInt8) : Bool :=
  isPlain b && !("\"<>`#?\x7b\x7d".toList.contains (Percent.charOf b))

def queryAdmits (b : UInt8) : Bool :=
  isPlain b && !("\"<>#'".toList.contains (Percent.charOf b))

def encoded (admits : UInt8 → Bool) (cs : List Char) : List Char :=
  Percent.encode admits (Utf8.encode (String.ofList cs))

def dotted : List Char → List Char
  | '%' :: '2' :: e :: cs => if e = 'e' || e = 'E' then '.' :: dotted cs else '%' :: '2' :: e :: cs
  | '.' :: cs => '.' :: dotted cs
  | cs => cs

/-- A segment of a letter and a colon or bar, which is not left upwards. -/
def isDrive : List Char → Bool
  | [c, mark] => Text.isWordChar c && !Text.isDigit c && (mark = ':' || mark = '|')
  | _ => false

/-- The segments above the last one; `above` has the last one first. -/
def parent : List (List Char) → List (List Char)
  | [] => []
  | last :: above => if isDrive last then last :: above else above

/-- Resolves dot segments; `above` has the segments so far, the last one first. -/
def resolve (above : List (List Char)) : List (List Char) → List (List Char)
  | [] => above.reverse
  | segment :: rest =>
    let last := rest.isEmpty
    if dotted segment = ['.'] then
      resolve (if last then [] :: above else above) rest
    else if dotted segment = ['.', '.'] then
      resolve (if last then [] :: parent above else parent above) rest
    else resolve (segment :: above) rest

def pathText (cs : List Char) : List Char :=
  let cs := cs.map fun c => if c = '\\' then '/' else c
  let segments := match Text.cutAll '/' cs with
    | [] :: segments => segments
    | segments => segments
  (resolve [] (segments.map (encoded pathAdmits))).flatMap fun segment => '/' :: segment

def ofChars (cs : List Char) : List Char :=
  match Text.cutFirst '?' cs with
  | none => pathText cs
  | some (before, query) => pathText before ++ '?' :: encoded queryAdmits query

end Target

/-- A url taken apart: the scheme with the host, the path with the query, and the fragment. -/
structure Url where
  origin : List Char
  target : List Char
  fragment : Option (List Char)
  deriving DecidableEq, Repr

namespace Url

def isSlash (c : Char) : Bool := c = '/' || c = '\\'

def endsHost (c : Char) : Bool := isSlash c || c = '?' || c = '#'

def fragmentAdmits (b : UInt8) : Bool :=
  Target.isPlain b && !("\"<>`".toList.contains (Percent.charOf b))

/-- Cuts a url behind its host. It does not matter how many slashes stand before the host. -/
def cutOrigin (cs : List Char) : List Char × List Char :=
  let (scheme, rest) := (Text.cutFirst ':' cs).getD ([], cs)
  let rest := rest.dropWhile isSlash
  (scheme ++ "://".toList ++ rest.takeWhile fun c => !endsHost c,
    rest.dropWhile fun c => !endsHost c)

/-- A path starts with a slash, also where none is written. -/
def ofParts (origin before : List Char) (fragment : Option (List Char)) : Url :=
  { origin
    target := Target.ofChars (if before.head?.any isSlash then before else '/' :: before)
    fragment := fragment.map (Target.encoded fragmentAdmits) }

def read (text : String) : Url :=
  let (origin, rest) := cutOrigin (Target.cleaned text)
  match Text.cutFirst '#' rest with
  | none => ofParts origin rest none
  | some (before, fragment) => ofParts origin before (some fragment)

def chars (u : Url) : List Char :=
  u.origin ++ u.target ++ (u.fragment.map ('#' :: ·)).getD []

/-- The most octets of a url with which a request is sent. -/
def limit : Nat := 65534

end Url
end HeatingControl
