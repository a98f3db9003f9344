import HeatingControl.Json.Value
import HeatingControl.Text.Precision
import HeatingControl.Text.Utf8

/-!
# Reading JSON

The reader never fails: where the text stops being JSON it puts a torn value and stops. A reader
of records can then meet a misfit before the tear, or the tear first, as the text has them.
-/
namespace HeatingControl.Json

/-- A character, or nothing where octets spell none. -/
abbrev Symbol := Option Char

def isSpace : Symbol → Bool
  | some c => c = ' ' || c = '\n' || c = '\t' || c = '\r'
  | none => false

def skipSpace (cs : List Symbol) : List Symbol := cs.dropWhile isSpace

def hexQuad : List Symbol → Option (Nat × List Symbol)
  | some a :: some b :: some c :: some d :: rest => do
    let a ← Text.hexValue? a
    let b ← Text.hexValue? b
    let c ← Text.hexValue? c
    let d ← Text.hexValue? d
    return (((a * 16 + b) * 16 + c) * 16 + d, rest)
  | _ => none

def simpleEscape? : Char → Option Char
  | '"' => some '"'
  | '\\' => some '\\'
  | '/' => some '/'
  | 'b' => some (Char.ofNat 8)
  | 'f' => some (Char.ofNat 12)
  | 'n' => some '\n'
  | 'r' => some '\r'
  | 't' => some '\t'
  | _ => none

/-- The body of a string up to its closing quote, one entry per character and an empty entry for
one that is no character. `pending` is a first surrogate that waits for the second. -/
def stringBody : Nat → Option Nat → List Symbol → Option (List Symbol × List Symbol)
  | 0, _, _ => none
  | fuel + 1, pending, cs =>
    let flush : List Symbol := match pending with
      | none => []
      | some _ => [none]
    match cs with
    | [] => none
    | none :: rest => (stringBody fuel none rest).map fun r => (flush ++ none :: r.1, r.2)
    | some '"' :: rest => some (flush, rest)
    | some '\\' :: some 'u' :: rest =>
      match hexQuad rest with
      | none => none
      | some (n, rest) =>
        if 0xD800 ≤ n ∧ n < 0xDC00 then
          (stringBody fuel (some n) rest).map fun r => (flush ++ r.1, r.2)
        else if 0xDC00 ≤ n ∧ n < 0xE000 then
          let c : List Symbol := match pending with
            | none => [none]
            | some h => [some (Char.ofNat (0x10000 + (h - 0xD800) * 0x400 + (n - 0xDC00)))]
          (stringBody fuel none rest).map fun r => (c ++ r.1, r.2)
        else
          (stringBody fuel none rest).map fun r => (flush ++ some (Char.ofNat n) :: r.1, r.2)
    | some '\\' :: some e :: rest =>
      match simpleEscape? e with
      | none => none
      | some c => (stringBody fuel none rest).map fun r => (flush ++ some c :: r.1, r.2)
    | some '\\' :: _ => none
    | some c :: rest =>
      if c.toNat < 32 then none
      else (stringBody fuel none rest).map fun r => (flush ++ some c :: r.1, r.2)

def textOf? (body : List Symbol) : Option String := (body.mapM id).map String.ofList

def digitsOf (cs : List Symbol) : List Char × List Symbol :=
  let isDigit : Symbol → Bool := fun s => match s with
    | some c => Text.isDigit c
    | none => false
  ((cs.takeWhile isDigit).filterMap id, cs.dropWhile isDigit)

structure NumberText where
  negative : Bool
  whole : List Char
  fraction : Option (List Char)
  /-- The mark, the sign if any, and the digits. -/
  exponent : Option (Char × Option Char × List Char)

def NumberText.chars (n : NumberText) : List Char :=
  (if n.negative then ['-'] else []) ++ n.whole ++
    (match n.fraction with
      | none => []
      | some f => '.' :: f) ++
    (match n.exponent with
      | none => []
      | some (e, sign, ds) => e :: sign.toList ++ ds)

def NumberText.isHuge (n : NumberText) : Bool :=
  let power := match n.exponent with
    | none => 0
    | some (_, sign, ds) => Text.signedValue (sign = some '-') ds
  Text.quicklyOverflows n.whole (n.fraction.getD []) power

/-- A whole number in range is an integer, but a negative zero is not. -/
def NumberText.toJson (n : NumberText) : Json :=
  let whole := Text.valueOf 10 n.whole
  if n.fraction.isNone && n.exponent.isNone &&
      (if n.negative then 0 < whole && whole ≤ Text.int64Bound else whole < UInt64.size) then
    .int (if n.negative then -(whole : Int) else whole)
  else if n.isHuge then .unreadable
  else .decimal (String.ofList n.chars)

def minusSign : List Symbol → Bool × List Symbol
  | some '-' :: rest => (true, rest)
  | cs => (false, cs)

def fractionPart (cs : List Symbol) : Option (Option (List Char) × List Symbol) :=
  match cs with
  | some '.' :: rest =>
    match digitsOf rest with
    | ([], _) => none
    | (ds, rest) => some (some ds, rest)
  | cs => some (none, cs)

def exponentSign : List Symbol → Option Char × List Symbol
  | some '+' :: rest => (some '+', rest)
  | some '-' :: rest => (some '-', rest)
  | rest => (none, rest)

def exponentPart (cs : List Symbol) :
    Option (Option (Char × Option Char × List Char) × List Symbol) :=
  match cs with
  | some mark :: rest =>
    if mark = 'e' || mark = 'E' then
      let (sign, rest) := exponentSign rest
      match digitsOf rest with
      | ([], _) => none
      | (ds, rest) => some (some (mark, sign, ds), rest)
    else some (none, cs)
  | cs => some (none, cs)

def numberText (cs : List Symbol) : Option (NumberText × List Symbol) := do
  let (negative, cs) := minusSign cs
  let (whole, cs) := digitsOf cs
  match whole with
  | [] => none
  | '0' :: _ :: _ => none
  | _ =>
    let (fraction, cs) ← fractionPart cs
    let (exponent, cs) ← exponentPart cs
    return (⟨negative, whole, fraction, exponent⟩, cs)

def afterWord? : List Char → List Symbol → Option (List Symbol)
  | [], cs => some cs
  | w :: ws, some c :: cs => if w = c then afterWord? ws cs else none
  | _ :: _, _ => none

/-- A value and what follows it; nothing follows a value that is torn. -/
abbrev Reading (α : Type) := α × Option (List Symbol)

def named : Option String → Json → String × Json
  | some key, j => (key, j)
  | none, j => ("", .unnamed j)

mutual

def readValue : Nat → List Symbol → Reading Json
  | 0, _ => (.torn, none)
  | fuel + 1, cs =>
    match skipSpace cs with
    | some '"' :: rest =>
      match stringBody (rest.length + 1) none rest with
      | none => (.torn, none)
      | some (body, rest) =>
        match textOf? body with
        | some s => (.text s, some rest)
        | none => (.unreadable, some rest)
    | some '[' :: rest =>
      match skipSpace rest with
      | some ']' :: rest => (.array [], some rest)
      | rest =>
        let (items, rest) := readItems fuel rest
        (.array items, rest)
    | some '\x7b' :: rest =>
      match skipSpace rest with
      | some '\x7d' :: rest => (.object [], some rest)
      | rest =>
        let (fields, rest) := readFields fuel rest
        (.object fields, rest)
    | some 'n' :: rest => readWord ['u', 'l', 'l'] .null rest
    | some 't' :: rest => readWord ['r', 'u', 'e'] (.bool true) rest
    | some 'f' :: rest => readWord ['a', 'l', 's', 'e'] (.bool false) rest
    | cs =>
      match numberText cs with
      | some (n, rest) => (n.toJson, some rest)
      | none => (.torn, none)
where
  readWord (word : List Char) (value : Json) (rest : List Symbol) : Reading Json :=
    match afterWord? word rest with
    | some rest => (value, some rest)
    | none => (.torn, none)

def readItems : Nat → List Symbol → Reading (List Json)
  | 0, _ => ([.torn], none)
  | fuel + 1, cs =>
    match readValue fuel cs with
    | (j, none) => ([j], none)
    | (j, some rest) =>
      match skipSpace rest with
      | some ']' :: rest => ([j], some rest)
      | some ',' :: rest =>
        let (items, rest) := readItems fuel rest
        (j :: items, rest)
      | _ => ([j, .torn], none)

/-- The fields up to the closing brace, one at least. A key must be a string. -/
def readFields : Nat → List Symbol → Reading (List (String × Json))
  | 0, _ => ([("", .torn)], none)
  | fuel + 1, cs =>
    match skipSpace cs with
    | some '"' :: rest =>
      match stringBody (rest.length + 1) none rest with
      | none => ([("", .torn)], none)
      | some (body, rest) =>
        match skipSpace rest with
        | some ':' :: rest =>
          let (j, rest) := readValue fuel rest
          let entry := named (textOf? body) j
          match rest with
          | none => ([entry], none)
          | some rest =>
            match skipSpace rest with
            | some '\x7d' :: rest => ([entry], some rest)
            | some ',' :: rest =>
              let (fields, rest) := readFields fuel rest
              (entry :: fields, rest)
            | _ => ([entry, ("", .torn)], none)
        | _ => ([named (textOf? body) .torn], none)
    | _ => ([("", .torn)], none)

end

structure Document where
  value : Json
  ends : Bool

def readSymbols (cs : List Symbol) : Document :=
  match readValue (cs.length + 1) cs with
  | (j, none) => ⟨j, false⟩
  | (j, some rest) => ⟨j, (skipSpace rest).isEmpty⟩

def read (s : String) : Document := readSymbols (s.toList.map some)

def readBytes (bs : Bytes) : Document := readSymbols (Utf8.symbols bs)

end HeatingControl.Json
