import HeatingControl.Text.Numeral
import HeatingControl.Text.Utf8

/-!
# Percent-encoding

An octet that a place does not admit is written as a percent sign and two hexadecimal digits. A
percent sign that no two digits follow stands for itself.
-/
namespace HeatingControl.Percent

def charOf (b : UInt8) : Char := Char.ofNat b.toNat

def octet? (high low : UInt8) : Option UInt8 := do
  let h ← Text.hexValue? (charOf high)
  let l ← Text.hexValue? (charOf low)
  return UInt8.ofNat (h * 16 + l)

def decode : Bytes → Bytes
  | 0x25 :: high :: low :: rest =>
    match octet? high low with
    | some b => b :: decode rest
    | none => 0x25 :: decode (high :: low :: rest)
  | b :: rest => b :: decode rest
  | [] => []

def capitalDigit (d : Nat) : Char := if d < 10 then Char.ofNat (48 + d) else Char.ofNat (55 + d)

def escaped (b : UInt8) : List Char :=
  ['%', capitalDigit (b.toNat / 16), capitalDigit (b.toNat % 16)]

def encode (admits : UInt8 → Bool) (bs : Bytes) : List Char :=
  bs.flatMap fun b => if admits b then [charOf b] else escaped b

def decodeText? (s : String) : Option String := Utf8.decode? (decode (Utf8.encode s))

end HeatingControl.Percent
