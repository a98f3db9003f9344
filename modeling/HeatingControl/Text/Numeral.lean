import HeatingControl.Text.Blank

/-!
# Decimal numerals

A numeral is read from left to right, with an optional sign, and fails at the first character
that is no digit or as soon as the value leaves its range. Every number has one written form,
without leading zeros, and that form reads back.
-/
namespace HeatingControl.Text

inductive NumeralFault where
  | empty
  | invalidDigit
  | tooLarge
  | tooSmall
  deriving DecidableEq, Repr

def NumeralFault.message : NumeralFault → String
  | .empty => "cannot parse integer from empty string"
  | .invalidDigit => "invalid digit found in string"
  | .tooLarge => "number too large to fit in target type"
  | .tooSmall => "number too small to fit in target type"

/-- Reads digits after `acc`; no value passed through exceeds `limit`. -/
def readDigits (limit : Nat) : Nat → List Char → Except NumeralFault Nat
  | acc, [] => .ok acc
  | acc, c :: cs =>
    if isDigit c then
      let next := acc * 10 + (c.toNat - 48)
      if next ≤ limit then readDigits limit next cs else .error .tooLarge
    else .error .invalidDigit

/-- An unsigned numeral up to `limit`; a plus sign may come first. -/
def readNat (limit : Nat) : List Char → Except NumeralFault Nat
  | [] => .error .empty
  | ['+'] => .error .invalidDigit
  | '+' :: cs => readDigits limit 0 cs
  | cs => readDigits limit 0 cs

def int64Bound : Nat := 9223372036854775808

def readInt64 : List Char → Except NumeralFault Int64
  | [] => .error .empty
  | ['+'] => .error .invalidDigit
  | ['-'] => .error .invalidDigit
  | '-' :: cs =>
    match readDigits int64Bound 0 cs with
    | .ok n => .ok (Int64.ofInt (-(n : Int)))
    | .error .tooLarge => .error .tooSmall
    | .error e => .error e
  | '+' :: cs => (readDigits (int64Bound - 1) 0 cs).map fun n => Int64.ofNat n
  | cs => (readDigits (int64Bound - 1) 0 cs).map fun n => Int64.ofNat n

def readUInt8 (s : String) : Except NumeralFault UInt8 :=
  (readNat (UInt8.size - 1) s.toList).map UInt8.ofNat

def readUInt32 (s : String) : Except NumeralFault UInt32 :=
  (readNat (UInt32.size - 1) s.toList).map UInt32.ofNat

def digitChar (d : Nat) : Char := Char.ofNat (48 + d)

def digits (n : Nat) : List Char :=
  if n < 10 then [digitChar n] else digits (n / 10) ++ [digitChar (n % 10)]

def natText (n : Nat) : String := String.ofList (digits n)

def intDigits (i : Int) : List Char :=
  if i < 0 then '-' :: digits i.natAbs else digits i.natAbs

def intText (i : Int) : String := String.ofList (intDigits i)

def twoDigits (n : Nat) : String := if n < 10 then "0" ++ natText n else natText n

def hexDigit (d : Nat) : Char := if d < 10 then Char.ofNat (48 + d) else Char.ofNat (87 + d)

def hexDigits (n : Nat) : List Char :=
  if n < 16 then [hexDigit n] else hexDigits (n / 16) ++ [hexDigit (n % 16)]

def hexValue? (c : Char) : Option Nat :=
  if isDigit c then some (c.toNat - 48)
  else if 'a' ≤ c && c ≤ 'f' then some (c.toNat - 87)
  else if 'A' ≤ c && c ≤ 'F' then some (c.toNat - 55)
  else none

def isDigitOf (base : Nat) (c : Char) : Bool := (hexValue? c).any fun d => d < base

def valueOf (base : Nat) (ds : List Char) : Nat :=
  ds.foldl (fun n c => n * base + (hexValue? c).getD 0) 0

end HeatingControl.Text
