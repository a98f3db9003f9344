/-!
# Configuration values

What a TOML text holds. Of a number with a fraction and of a moment only the kind is kept. A table
remembers how it came to be, which decides where more may be added to it.
-/
namespace HeatingControl

inductive TableForm where
  /-- A header of its own. -/
  | header
  /-- A longer header that passes through it. -/
  | implied
  /-- A key with dots that passes through it. -/
  | dotted
  /-- Braces; it is complete as it stands. -/
  | inline
  deriving DecidableEq, Repr

inductive Toml where
  | text (s : String)
  | integer (i : Int)
  | float
  | bool (b : Bool)
  | moment
  | array (items : List Toml)
  | table (form : TableForm) (entries : List (String × Toml))
  /-- Tables under a repeated header, one at least. -/
  | tables (items : List (List (String × Toml)))
  deriving Repr, Inhabited

namespace Toml

abbrev Entries := List (String × Toml)

/-- The tables that a key with dots passes, and the name in the last of them. -/
abbrev Key := List String × String

inductive Statement where
  | header (key : Key)
  | repeatedHeader (key : Key)
  | entry (key : Key) (value : Toml)
  deriving Repr

def replace (key : String) (value : Toml) (entries : Entries) : Entries :=
  entries.map fun e => if e.1 = key then (key, value) else e

def within (change : Entries → Option Entries) : List String → Entries → Option Entries
  | [], entries => change entries
  | key :: path, entries =>
    match entries.lookup key with
    | none => (within change path []).map fun sub => entries ++ [(key, .table .implied sub)]
    | some (.table form sub) =>
      if form = .inline then none
      else (within change path sub).map fun sub => replace key (.table form sub) entries
    | some (.tables items) =>
      (items.getLast?.bind (within change path)).map fun last =>
        replace key (.tables (items.dropLast ++ [last])) entries
    | some _ => none

/-- A table gets a header once; before that it may have been passed by longer headers. -/
def openTable (name : String) (entries : Entries) : Option Entries :=
  match entries.lookup name with
  | none => some (entries ++ [(name, .table .header [])])
  | some (.table .implied sub) => some (replace name (.table .header sub) entries)
  | some _ => none

def openRepeated (name : String) (entries : Entries) : Option Entries :=
  match entries.lookup name with
  | none => some (entries ++ [(name, .tables [[]])])
  | some (.tables items) => some (replace name (.tables (items ++ [[]])) entries)
  | some _ => none

/-- Adds an entry below a key with dots. Only the table that the text is in, and tables that
such keys brought about, take entries. -/
def insert (name : String) (value : Toml) : Bool → List String → Entries → Option Entries
  | takes, [], entries =>
    if takes && (entries.lookup name).isNone then some (entries ++ [(name, value)]) else none
  | _, key :: path, entries =>
    match entries.lookup key with
    | none =>
      (insert name value true path []).map fun sub => entries ++ [(key, .table .dotted sub)]
    | some (.table form sub) =>
      if form = .implied ∨ form = .dotted then
        (insert name value (form = .dotted) path sub).map fun sub =>
          replace key (.table form sub) entries
      else none
    | some (.tables items) =>
      (items.getLast?.bind (insert name value false path)).map fun last =>
        replace key (.tables (items.dropLast ++ [last])) entries
    | some _ => none

/-- A text that has been read up to some line: everything so far, and the table it is in. -/
structure Draft where
  entries : Entries
  place : List String

def Draft.add (d : Draft) : Statement → Option Draft
  | .header key =>
    (within (openTable key.2) key.1 d.entries).map fun entries => ⟨entries, key.1 ++ [key.2]⟩
  | .repeatedHeader key =>
    (within (openRepeated key.2) key.1 d.entries).map fun entries => ⟨entries, key.1 ++ [key.2]⟩
  | .entry key value =>
    (within (insert key.2 value true key.1) d.place d.entries).map fun entries =>
      { d with entries := entries }

def ofStatements (l : List Statement) : Option Entries :=
  (l.foldlM Draft.add ⟨[], []⟩).map (·.entries)

def inlineTable (l : List (Key × Toml)) : Option Toml :=
  (l.foldlM (fun entries e => insert e.1.2 e.2 true e.1.1 entries) []).map (.table .inline)

end Toml
end HeatingControl
