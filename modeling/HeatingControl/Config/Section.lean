import HeatingControl.Text.Utf8
import HeatingControl.Toml.Reader

/-!
# Sections of a configuration file

A file may be missing, and so may every section and every field in it; unknown ones are skipped.
A section may also be an array of its fields in their order. A field that is there must have the
type that is wanted.
-/
namespace HeatingControl.Config

inductive Source where
  | missing
  | unreadable
  | content (entries : Toml.Entries)
  | malformed

def Source.ofFile : Option Bytes → Source
  | none => .missing
  | some bs =>
    match Utf8.decode? bs with
    | none => .unreadable
    | some s =>
      match Toml.read? s with
      | none => .malformed
      | some entries => .content entries

/-- The values of the named fields, or none if the value is no section. -/
def fields (names : List String) : Toml → Option (List (Option Toml))
  | .table _ entries => some (names.map fun name => entries.lookup name)
  | .array items => some ((List.range names.length).map fun i => items[i]?)
  | .tables items =>
    some ((List.range names.length).map fun i => (items[i]?).map (.table .header))
  | .moment => some (names.map fun _ => none)
  | _ => none

def sectionFields (name : String) (names : List String) (entries : Toml.Entries) :
    Option (List (Option Toml)) :=
  match entries.lookup name with
  | none => some (names.map fun _ => none)
  | some v => fields names v

def orElse {α : Type} (read : Toml → Option α) (default : α) : Option (Option Toml) → Option α
  | some (some v) => read v
  | _ => some default

def text? : Toml → Option String
  | .text s => some s
  | _ => none

def natBelow? (bound : Nat) : Toml → Option Nat
  | .integer i => if 0 ≤ i ∧ i < bound then some i.toNat else none
  | _ => none

abbrev Environment := String → Option String

/-- A port as a variable gives it; what is no port changes nothing. -/
def portOr (port : UInt16) (s : String) : UInt16 :=
  match Text.readNat (UInt16.size - 1) s.toList with
  | .ok n => UInt16.ofNat n
  | .error _ => port

def cutHost (s : String) : Option (String × String) :=
  (Text.cutLast ':' s.toList).map fun p => (String.ofList p.1, String.ofList p.2)

def hostAndPort (host : String) (port : UInt16) : String :=
  host ++ ":" ++ Text.natText port.toNat

end HeatingControl.Config
