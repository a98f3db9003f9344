import HeatingControl.Text.Precision
import HeatingControl.Toml.Text
import HeatingControl.Toml.Value
import HeatingControl.Week

/-!
# Numbers and moments of configuration texts

Integers have 64 bits and may be written to the base 2, 8, 10 or 16, with single underscores
between digits. Numbers with a fraction must be finite; moments must be on the calendar.
-/
namespace HeatingControl.Toml

def moreDigits (isDigit : Char → Bool) : List Char → List Char × List Char
  | '_' :: c :: cs =>
    if isDigit c then
      let r := moreDigits isDigit cs
      (c :: r.1, r.2)
    else ([], '_' :: c :: cs)
  | c :: cs =>
    if isDigit c then
      let r := moreDigits isDigit cs
      (c :: r.1, r.2)
    else ([], c :: cs)
  | [] => ([], [])

def someDigits (isDigit : Char → Bool) : List Char → Option (List Char × List Char)
  | c :: cs =>
    if isDigit c then
      let r := moreDigits isDigit cs
      some (c :: r.1, r.2)
    else none
  | [] => none

/-- The digits of a decimal number; only zero itself starts with a zero. -/
def wholeDigits : List Char → Option (List Char × List Char)
  | '0' :: cs => some (['0'], cs)
  | cs => someDigits Text.isDigit cs

def sign : List Char → Bool × List Char
  | '-' :: cs => (true, cs)
  | '+' :: cs => (false, cs)
  | cs => (false, cs)

def readFloat (cs : List Char) : Option (Toml × List Char) := do
  let (negative, cs) := sign cs
  let (whole, cs) ← wholeDigits cs
  let (fraction, cs) ← (match cs with
    | '.' :: cs => (someDigits Text.isDigit cs).map fun r => (some r.1, r.2)
    | cs => some (none, cs) : Option (Option (List Char) × List Char))
  let (exponent, cs) ← (match cs with
    | mark :: rest =>
      if mark = 'e' ∨ mark = 'E' then
        let (down, rest) := sign rest
        (someDigits Text.isDigit rest).map fun r => (some (Text.signedValue down r.1), r.2)
      else some (none, cs)
    | [] => some (none, []) : Option (Option Int × List Char))
  let places := fraction.getD []
  let huge := Text.overflows (whole ++ places) (exponent.getD 0 - places.length)
  if (fraction.isNone && exponent.isNone) || (huge && !negative) then none
  else return (.float, cs)

def readSpecial (cs : List Char) : Option (Toml × List Char) :=
  match (sign cs).2 with
  | 'i' :: 'n' :: 'f' :: cs => some (.float, cs)
  | 'n' :: 'a' :: 'n' :: cs => some (.float, cs)
  | _ => none

def readBased (base : Nat) (cs : List Char) : Option (Toml × List Char) := do
  let (ds, cs) ← someDigits (Text.isDigitOf base) cs
  let n := Text.valueOf base ds
  if n < Text.int64Bound then return (.integer n, cs) else none

def readDecimal (cs : List Char) : Option (Toml × List Char) := do
  let (negative, cs) := sign cs
  let (ds, cs) ← wholeDigits cs
  let n := Text.valueOf 10 ds
  if negative then
    if n ≤ Text.int64Bound then return (.integer (-(n : Int)), cs) else none
  else if n < Text.int64Bound then return (.integer n, cs)
  else none

def readInteger : List Char → Option (Toml × List Char)
  | '0' :: 'x' :: cs => readBased 16 cs
  | '0' :: 'o' :: cs => readBased 8 cs
  | '0' :: 'b' :: cs => readBased 2 cs
  | cs => readDecimal cs

def fixedDigits (count : Nat) (cs : List Char) : Option (Nat × List Char) :=
  let ds := cs.take count
  if ds.length = count ∧ ds.all Text.isDigit then some (Text.valueOf 10 ds, cs.drop count) else none

def afterChar? (c : Char) : List Char → Option (List Char)
  | d :: cs => if d = c then some cs else none
  | [] => none

def date? (cs : List Char) : Option (List Char) := do
  let (y, cs) ← fixedDigits 4 cs
  let cs ← afterChar? '-' cs
  let (m, cs) ← fixedDigits 2 cs
  let cs ← afterChar? '-' cs
  let (d, cs) ← fixedDigits 2 cs
  if 1 ≤ m ∧ m ≤ 12 ∧ 1 ≤ d ∧ d ≤ Calendar.daysInMonth y m then some cs else none

/-- A time of day; a minute may have a leap second. -/
def time? (cs : List Char) : Option (List Char) := do
  let (h, cs) ← fixedDigits 2 cs
  let cs ← afterChar? ':' cs
  let (m, cs) ← fixedDigits 2 cs
  let cs ← afterChar? ':' cs
  let (s, cs) ← fixedDigits 2 cs
  if h ≤ 23 ∧ m ≤ 59 ∧ s ≤ 60 then
    match cs with
    | '.' :: c :: rest => if Text.isDigit c then some (rest.dropWhile Text.isDigit) else some cs
    | cs => some cs
  else none

def offset? : List Char → Option (List Char)
  | 'Z' :: cs => some cs
  | 'z' :: cs => some cs
  | c :: cs => do
    if c = '+' ∨ c = '-' then
      let (h, cs) ← fixedDigits 2 cs
      let cs ← afterChar? ':' cs
      let (m, cs) ← fixedDigits 2 cs
      if h ≤ 23 ∧ m ≤ 59 then some cs else none
    else none
  | [] => none

def afterDate : List Char → List Char
  | c :: cs =>
    if c = 'T' ∨ c = 't' ∨ c = ' ' then
      match time? cs with
      | some rest => (offset? rest).getD rest
      | none => c :: cs
    else c :: cs
  | [] => []

def readMoment (cs : List Char) : Option (Toml × List Char) :=
  match date? cs with
  | some rest => some (.moment, afterDate rest)
  | none => (time? cs).map fun rest => (.moment, rest)

def readNumber (cs : List Char) : Option (Toml × List Char) :=
  (readMoment cs).or ((readFloat cs).or ((readSpecial cs).or (readInteger cs)))

end HeatingControl.Toml
