/-!
# Octets and characters

A text is encoded as UTF-8. Reading octets back yields one entry per character, and one empty
entry for each maximal run of octets that starts a character but does not finish it.
-/
namespace HeatingControl

abbrev Bytes := List UInt8

namespace Utf8

def encode (s : String) : Bytes := s.toList.flatMap String.utf8EncodeChar

/-- How many octets follow a first octet, which range the next one lies in, and the bits that the
first one gives. -/
def lead? (b : Nat) : Option (Nat × Nat × Nat × Nat) :=
  if b < 0x80 then some (0, 0x80, 0xBF, b)
  else if 0xC2 ≤ b ∧ b ≤ 0xDF then some (1, 0x80, 0xBF, b - 0xC0)
  else if b = 0xE0 then some (2, 0xA0, 0xBF, 0)
  else if b = 0xED then some (2, 0x80, 0x9F, 0x0D)
  else if 0xE1 ≤ b ∧ b ≤ 0xEF then some (2, 0x80, 0xBF, b - 0xE0)
  else if b = 0xF0 then some (3, 0x90, 0xBF, 0)
  else if b = 0xF4 then some (3, 0x80, 0x8F, 4)
  else if 0xF1 ≤ b ∧ b ≤ 0xF3 then some (3, 0x80, 0xBF, b - 0xF0)
  else none

/-- Reads the octets that follow the first one. An octet out of range is left for the next
character. -/
def finish : Nat → Nat → Nat → Nat → Bytes → Option Char × Bytes
  | 0, _, _, acc, rest => (some (Char.ofNat acc), rest)
  | _ + 1, _, _, _, [] => (none, [])
  | n + 1, lo, hi, acc, b :: rest =>
    if lo ≤ b.toNat ∧ b.toNat ≤ hi then finish n 0x80 0xBF (acc * 64 + (b.toNat - 0x80)) rest
    else (none, b :: rest)

theorem finish_length (n lo hi acc : Nat) (bs : Bytes) :
    (finish n lo hi acc bs).2.length ≤ bs.length := by
  induction n generalizing lo hi acc bs with
  | zero => simp [finish]
  | succ n ih =>
    cases bs with
    | nil => simp [finish]
    | cons b rest =>
      simp only [finish]
      split
      · exact Nat.le_trans (ih ..) (Nat.le_succ _)
      · exact Nat.le_refl _

/-- The characters that the octets spell, with an empty entry for each flaw. -/
def symbols : Bytes → List (Option Char)
  | [] => []
  | b :: rest =>
    match lead? b.toNat with
    | none => none :: symbols rest
    | some (n, lo, hi, acc) =>
      (finish n lo hi acc rest).1 :: symbols (finish n lo hi acc rest).2
termination_by bs => bs.length
decreasing_by
  · simp
  · exact Nat.lt_succ_of_le (finish_length ..)

def decode? (bs : Bytes) : Option String := ((symbols bs).mapM id).map String.ofList

/-- The text with a replacement character for each flaw. -/
def decodeLossy (bs : Bytes) : String :=
  String.ofList ((symbols bs).map fun c => c.getD (Char.ofNat 0xFFFD))

end Utf8
end HeatingControl
