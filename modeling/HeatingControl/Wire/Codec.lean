import HeatingControl.Json.Reader
import HeatingControl.Json.Writer

/-!
# Typed values on the wire

A value of a type is decoded from a JSON value and encoded to one. A text fails either because
it is not JSON or because it is JSON of another shape, whichever the text shows first. A record
is an object, in which unknown keys are skipped and known ones must not be repeated, or an array
of its fields in their order.
-/
namespace HeatingControl

inductive Misfit where
  | notJson
  | otherShape
  deriving DecidableEq, Repr

class Wire (α : Type) where
  encode : α → Json
  decode : Json → Except Misfit α

namespace Wire

def misfit : Json → Misfit
  | .torn => .notJson
  | .unreadable => .notJson
  | _ => .otherShape

def decodeText : Json → Except Misfit String
  | .text s => .ok s
  | j => .error (misfit j)

def decodeNat (limit : Nat) : Json → Except Misfit Nat
  | .int i => if 0 ≤ i ∧ i ≤ limit then .ok i.toNat else .error .otherShape
  | j => .error (misfit j)

def decodeInt64 : Json → Except Misfit Int64
  | .int i => if i < Text.int64Bound then .ok (Int64.ofInt i) else .error .otherShape
  | j => .error (misfit j)

instance : Wire String := ⟨.text, decodeText⟩

instance : Wire UInt8 :=
  ⟨fun n => .int n.toNat, fun j => (decodeNat (UInt8.size - 1) j).map UInt8.ofNat⟩

instance : Wire UInt32 :=
  ⟨fun n => .int n.toNat, fun j => (decodeNat (UInt32.size - 1) j).map UInt32.ofNat⟩

instance : Wire UInt64 :=
  ⟨fun n => .int n.toNat, fun j => (decodeNat (UInt64.size - 1) j).map UInt64.ofNat⟩

/-- The items in their order, up to the first that does not fit. -/
def decodeItems {α : Type} [Wire α] : List Json → Except Misfit (List α)
  | [] => .ok []
  | j :: rest =>
    match decode j with
    | .error e => .error e
    | .ok v =>
      match decodeItems rest with
      | .error e => .error e
      | .ok vs => .ok (v :: vs)

def decodeList {α : Type} [Wire α] : Json → Except Misfit (List α)
  | .array items => decodeItems items
  | j => .error (misfit j)

instance {α : Type} [Wire α] : Wire (List α) := ⟨fun l => .array (l.map encode), decodeList⟩

def decodeNullable {α : Type} [Wire α] : Json → Except Misfit (Option α)
  | .null => .ok none
  | j => (decode j).map some

instance {α : Type} [Wire α] : Wire (Option α) :=
  ⟨fun v => match v with
    | none => .null
    | some v => encode v,
   decodeNullable⟩

structure Field where
  names : List String
  accept : Json → Except Misfit Unit

def field (α : Type) [Wire α] (names : List String) : Field :=
  ⟨names, fun j => (decode j : Except Misfit α).map fun _ => ()⟩

def Field.fits (f : Field) (j : Json) (k : Unit → Except Misfit (List (Option Json))) :
    Except Misfit (List (Option Json)) :=
  match f.accept j with
  | .error e => .error e
  | .ok () => k ()

def place (fields : List Field) : List (Option Json) → List (String × Json) →
    Except Misfit (List (Option Json))
  | places, [] => .ok places
  | _, (_, .unnamed _) :: _ => .error .notJson
  | places, (key, j) :: rest =>
    match fields.findIdx? fun f => f.names.contains key with
    | none => if j.isWhole then place fields places rest else .error .notJson
    | some i =>
      match places[i]?, fields[i]? with
      | some none, some f => f.fits j fun _ => place fields (places.set i (some j)) rest
      | _, _ => .error .otherShape

/-- Puts the items of an array into the places; those at the end may be missing. -/
def placeItems : List Field → List Json → Except Misfit (List (Option Json))
  | [], [] => .ok []
  | [], _ :: _ => .error .notJson
  | f :: fields, j :: rest =>
    f.fits j fun _ => (placeItems fields rest).map fun places => some j :: places
  | fields, [] => .ok (fields.map fun _ => none)

def places (fields : List Field) : Json → Except Misfit (List (Option Json))
  | .object entries => place fields (fields.map fun _ => none) entries
  | .array items => placeItems fields items
  | j => .error (misfit j)

def required {α : Type} [Wire α] (places : List (Option Json)) (i : Nat) : Except Misfit α :=
  match places[i]? with
  | some (some j) => decode j
  | _ => .error .otherShape

/-- The value at a place that may be empty or null. -/
def optional {α : Type} [Wire α] (places : List (Option Json)) (i : Nat) :
    Except Misfit (Option α) :=
  match places[i]? with
  | some (some j) => decodeNullable j
  | _ => .ok none

def present {α : Type} [Wire α] (name : String) : Option α → List (String × Json)
  | none => []
  | some v => [(name, encode v)]

def ofDocument {α : Type} [Wire α] (d : Json.Document) : Except Misfit α :=
  match decode d.value with
  | .error e => .error e
  | .ok v => if d.ends then .ok v else .error .notJson

def ofText {α : Type} [Wire α] (s : String) : Except Misfit α := ofDocument (Json.read s)

def ofBytes {α : Type} [Wire α] (bs : Bytes) : Except Misfit α := ofDocument (Json.readBytes bs)

def toText {α : Type} [Wire α] (v : α) : String := (encode v).write

end Wire
end HeatingControl
