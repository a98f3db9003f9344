import HeatingControl.Text.Blank
import HeatingControl.Text.Numeral

/-!
# Addresses to listen on

A host by its number, of four octets or of eight groups in brackets, and a port. Groups are shown
in the shortest form: the first of the longest runs of zeros is left out.
-/
namespace HeatingControl

inductive HostNumber where
  | octets (l : List Nat)
  /-- The groups, and the zone that they are valid in. -/
  | groups (l : List Nat) (zone : Nat)
  deriving DecidableEq, Repr

structure SocketAddress where
  host : HostNumber
  port : Nat
  deriving DecidableEq, Repr

namespace SocketAddress

def readNumber (base limit : Nat) (cs : List Char) : Option (Nat × List Char) :=
  let ds := cs.takeWhile (Text.isDigitOf base)
  let n := Text.valueOf base ds
  if ds.isEmpty ∨ limit < n then none else some (n, cs.dropWhile (Text.isDigitOf base))

def readOctet (cs : List Char) : Option (Nat × List Char) :=
  let ds := cs.takeWhile Text.isDigit
  if ds.length > 3 ∨ (ds.head? = some '0' ∧ ds.length > 1) then none else readNumber 10 255 cs

def readGroup (cs : List Char) : Option (Nat × List Char) :=
  if (cs.takeWhile (Text.isDigitOf 16)).length > 4 then none else readNumber 16 0xFFFF cs

def readOctets (cs : List Char) : Option (List Nat × List Char) := do
  let (a, cs) ← readOctet cs
  let cs ← Text.afterStart? ['.'] cs
  let (b, cs) ← readOctet cs
  let cs ← Text.afterStart? ['.'] cs
  let (c, cs) ← readOctet cs
  let cs ← Text.afterStart? ['.'] cs
  let (d, cs) ← readOctet cs
  return ([a, b, c, d], cs)

def separated (first : Bool) (cs : List Char) : Option (List Char) :=
  if first then some cs else Text.afterStart? [':'] cs

def readTail (first : Bool) (cs : List Char) : Option (List Nat × List Char) :=
  match (separated first cs).bind readOctets with
  | some ([a, b, c, d], rest) => some ([a * 256 + b, c * 256 + d], rest)
  | _ => none

def readGroups : Nat → Bool → List Char → List Nat × Bool × List Char
  | 0, _, cs => ([], false, cs)
  | room + 1, first, cs =>
    match if room = 0 then none else readTail first cs with
    | some (l, rest) => (l, true, rest)
    | none =>
      match (separated first cs).bind readGroup with
      | some (g, rest) =>
        let r := readGroups room false rest
        (g :: r.1, r.2)
      | none => ([], false, cs)

/-- Eight groups, or fewer with two colons in the place of zeros. -/
def readNetwork (cs : List Char) : Option (List Nat × List Char) :=
  match readGroups 8 true cs with
  | (head, octets, rest) =>
    if head.length = 8 then some (head, rest)
    else if octets then none
    else
      match Text.afterStart? [':', ':'] rest with
      | none => none
      | some rest =>
        let (tail, _, rest) := readGroups (7 - head.length) true rest
        some (head ++ List.replicate (8 - head.length - tail.length) 0 ++ tail, rest)

def readZone (cs : List Char) : Nat × List Char :=
  match (Text.afterStart? ['%'] cs).bind (readNumber 10 (UInt32.size - 1)) with
  | some r => r
  | none => (0, cs)

def readHost (cs : List Char) : Option (HostNumber × List Char) :=
  match cs with
  | '[' :: cs => do
    let (l, cs) ← readNetwork cs
    let (zone, cs) := readZone cs
    let cs ← Text.afterStart? [']'] cs
    return (.groups l zone, cs)
  | cs => (readOctets cs).map fun r => (.octets r.1, r.2)

def parse? (s : String) : Option SocketAddress := do
  let (host, cs) ← readHost s.toList
  let cs ← Text.afterStart? [':'] cs
  let (port, cs) ← readNumber 10 (UInt16.size - 1) cs
  if cs.isEmpty then return ⟨host, port⟩ else none

def zeroRun (l : List Nat) : Nat := (l.takeWhile (· = 0)).length

/-- Where the first of the longest runs of zeros starts, and its length. -/
def longestRun : Nat → List Nat → Nat × Nat
  | _, [] => (0, 0)
  | start, n :: l =>
    let later := longestRun (start + 1) l
    let here := zeroRun (n :: l)
    if here ≥ later.2 then (start, here) else later

def groupChars (l : List Nat) : List Char := List.intercalate [':'] (l.map Text.hexDigits)

def octetChars (l : List Nat) : List Char := List.intercalate ['.'] (l.map Text.digits)

/-- Groups with the first of the longest runs of zeros left out. -/
def shortChars (l : List Nat) : List Char :=
  let (start, length) := longestRun 0 l
  if length > 1 then
    groupChars (l.take start) ++ ':' :: ':' :: groupChars (l.drop (start + length))
  else groupChars l

def networkChars : List Nat → List Char
  | [0, 0, 0, 0, 0, 0xFFFF, a, b] =>
    "::ffff:".toList ++ octetChars [a / 256, a % 256, b / 256, b % 256]
  | l => shortChars l

def hostChars : HostNumber → List Char
  | .octets l => octetChars l
  | .groups l zone =>
    '[' :: networkChars l ++ (if zone = 0 then [] else '%' :: Text.digits zone) ++ [']']

def display (a : SocketAddress) : String :=
  String.ofList (hostChars a.host ++ ':' :: Text.digits a.port)

end SocketAddress
end HeatingControl
