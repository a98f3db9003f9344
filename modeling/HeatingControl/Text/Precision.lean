import HeatingControl.Text.Numeral

/-!
# Numbers in double precision

Which decimal numbers are too great for double precision. The sharp test rounds the number once.
The quick test takes the leading digits that fit 64 bits, rounds them, and multiplies by a rounded
power of ten; close to the bound it refuses numbers that the sharp test admits.
-/
namespace HeatingControl.Text

/-- The magnitude from which a number rounds to infinity. -/
def overflowBound : Nat := Nat.pow 2 1024 - Nat.pow 2 970

/-- The sharp test for digits times a power of ten. -/
def overflows (ds : List Char) (power : Int) : Bool :=
  let n := valueOf 10 ds
  if n = 0 then false
  else if power ≥ 400 then true
  else if power ≥ 0 then n * Nat.pow 10 power.toNat ≥ overflowBound
  else if ds.length + 400 < power.natAbs then false
  else n ≥ overflowBound * Nat.pow 10 power.natAbs

/-- The nearest number of 53 binary digits, of two the even one. -/
def nearest (n : Nat) : Nat :=
  let unit := Nat.pow 2 (n.log2 + 1 - 53)
  let q := n / unit
  let r := n % unit
  if unit < 2 * r ∨ (2 * r = unit ∧ q % 2 = 1) then (q + 1) * unit else q * unit

def leadingDigits : Nat → List Char → Nat × List Char
  | n, [] => (n, [])
  | n, c :: cs =>
    let next := n * 10 + (hexValue? c).getD 0
    if next < UInt64.size then leadingDigits next cs else (n, c :: cs)

def greatestPower : Nat := 308

/-- The quick test for the digits before and after a point, times a power of ten. Digits before
the point that do not fit count as zeros, those after it not at all. -/
def quicklyOverflows (whole fraction : List Char) (power : Int) : Bool :=
  let (n, left) := leadingDigits 0 whole
  let (n, dropped) := leadingDigits n fraction
  let power := power + left.length - (fraction.length - dropped.length : Nat)
  if n = 0 ∨ power < 0 then false
  else if power > greatestPower then true
  else nearest n * nearest (Nat.pow 10 power.toNat) ≥ overflowBound

def signedValue (negative : Bool) (ds : List Char) : Int :=
  if negative then -(valueOf 10 ds : Int) else valueOf 10 ds

end HeatingControl.Text
