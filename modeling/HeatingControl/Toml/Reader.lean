import HeatingControl.Toml.Number

/-!
# Reading configuration texts

A text is read line by line: headers, entries, blank lines and comments. One line that is none of
these, or that contradicts an earlier one, spoils the text.
-/
namespace HeatingControl.Toml

/-- The depth of values, and the number of parts of a key, that is not reached. -/
def depthLimit : Nat := 80

def readKey (cs : List Char) : Option (Key × List Char) := do
  let (parts, cs) ← readKeyParts (cs.length + 1) cs
  let name ← parts.getLast?
  if parts.length < depthLimit then return ((parts.dropLast, name), cs) else none

def readWord (w : List Char) (value : Toml) (cs : List Char) : Option (Toml × List Char) :=
  (Text.afterStart? w cs).map fun rest => (value, rest)

mutual

/-- A value that stands within `depth` others. -/
def readValue : Nat → Nat → List Char → Option (Toml × List Char)
  | 0, _, _ => none
  | fuel + 1, depth, cs =>
    match cs with
    | '"' :: _ | '\'' :: _ => (readString cs).map fun r => (.text r.1, r.2)
    | '[' :: rest =>
      if depth + 1 < depthLimit then
        (readItems fuel (depth + 1) (skipAll rest.length rest)).map fun r => (.array r.1, r.2)
      else none
    | '\x7b' :: rest =>
      if depth + 1 < depthLimit then do
        let (l, rest) ← (match skipGap rest with
          | '\x7d' :: rest => some ([], rest)
          | rest => readEntries fuel (depth + 1) rest :
            Option (List (Key × Toml) × List Char))
        return (← inlineTable l, rest)
      else none
    | 't' :: rest => readWord "rue".toList (.bool true) rest
    | 'f' :: rest => readWord "alse".toList (.bool false) rest
    | cs => readNumber cs

def readItems : Nat → Nat → List Char → Option (List Toml × List Char)
  | 0, _, _ => none
  | fuel + 1, depth, cs =>
    match cs with
    | ']' :: rest => some ([], rest)
    | cs => do
      let (v, cs) ← readValue fuel depth cs
      match skipAll cs.length cs with
      | ']' :: rest => return ([v], rest)
      | ',' :: rest => do
        let (l, rest) ← readItems fuel depth (skipAll rest.length rest)
        return (v :: l, rest)
      | _ => none

def readEntries : Nat → Nat → List Char → Option (List (Key × Toml) × List Char)
  | 0, _, _ => none
  | fuel + 1, depth, cs => do
    let (k, cs) ← readKey cs
    match cs with
    | '=' :: cs => do
      let (v, cs) ← readValue fuel depth (skipGap cs)
      match skipGap cs with
      | '\x7d' :: rest => return ([(k, v)], rest)
      | ',' :: rest => do
        let (l, rest) ← readEntries fuel depth rest
        return ((k, v) :: l, rest)
      | _ => none
    | _ => none

end

def readHeader (closing cs : List Char) : Option (Key × List Char) := do
  let (k, cs) ← readKey cs
  let cs ← Text.afterStart? closing cs
  let cs ← endLine? cs
  return (k, cs)

def readStatement : List Char → Option (Statement × List Char)
  | '[' :: '[' :: cs => (readHeader [']', ']'] cs).map fun r => (.repeatedHeader r.1, r.2)
  | '[' :: cs => (readHeader [']'] cs).map fun r => (.header r.1, r.2)
  | cs => do
    let (k, cs) ← readKey cs
    let cs ← afterChar? '=' cs
    let (v, cs) ← readValue (cs.length + 1) 0 (skipGap cs)
    let cs ← endLine? cs
    return (.entry k v, cs)

def readStatements : Nat → List Char → Option (List Statement)
  | 0, _ => none
  | fuel + 1, cs =>
    match skipGap cs with
    | [] => some []
    | cs =>
      match endLine? cs with
      | some rest => readStatements fuel rest
      | none => do
        let (s, rest) ← readStatement cs
        let l ← readStatements fuel rest
        return s :: l

def unmarked : List Char → List Char
  | c :: cs => if c.toNat = 0xFEFF then cs else c :: cs
  | [] => []

def read? (s : String) : Option Entries :=
  let cs := unmarked s.toList
  (readStatements (cs.length + 1) cs).bind ofStatements

end HeatingControl.Toml
