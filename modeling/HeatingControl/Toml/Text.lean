import HeatingControl.Text.Numeral

/-!
# Blanks, strings and keys of configuration texts

A string stands on one line between single quotes or marks, or on several lines between three of
them. Only what stands between double marks has escapes.
-/
namespace HeatingControl.Toml

def isGap (c : Char) : Bool := c = ' ' || c = '\t'

def skipGap (cs : List Char) : List Char := cs.dropWhile isGap

def isPrintable (c : Char) : Bool := c = '\t' || (32 ≤ c.toNat && c.toNat ≠ 127)

def afterLine? : List Char → Option (List Char)
  | '\n' :: cs => some cs
  | '\r' :: '\n' :: cs => some cs
  | _ => none

def skipComment : List Char → List Char
  | '#' :: cs => cs.dropWhile isPrintable
  | cs => cs

/-- What follows a line on which there is nothing but blanks and a comment. -/
def endLine? (cs : List Char) : Option (List Char) :=
  match skipComment (skipGap cs) with
  | [] => some []
  | cs => afterLine? cs

def skipLines : List Char → List Char
  | ' ' :: cs => skipLines cs
  | '\t' :: cs => skipLines cs
  | '\n' :: cs => skipLines cs
  | '\r' :: '\n' :: cs => skipLines cs
  | cs => cs

/-- Skips blanks, line ends and whole comments, at most `fuel` lines. -/
def skipAll : Nat → List Char → List Char
  | 0, cs => cs
  | fuel + 1, cs =>
    match afterLine? (skipComment (skipGap cs)) with
    | some rest => skipAll fuel rest
    | none => skipGap cs

def readHexChar (count : Nat) (cs : List Char) : Option (Char × List Char) := do
  let ds ← (cs.take count).mapM Text.hexValue?
  let n := ds.foldl (fun n d => n * 16 + d) 0
  if ds.length = count ∧ (n < 0xD800 ∨ (0xE000 ≤ n ∧ n < 0x110000)) then
    return (Char.ofNat n, cs.drop count)
  else none

def readEscape : List Char → Option (Char × List Char)
  | 'b' :: cs => some (Char.ofNat 8, cs)
  | 't' :: cs => some ('\t', cs)
  | 'n' :: cs => some ('\n', cs)
  | 'f' :: cs => some (Char.ofNat 12, cs)
  | 'r' :: cs => some ('\r', cs)
  | '"' :: cs => some ('"', cs)
  | '\\' :: cs => some ('\\', cs)
  | 'u' :: cs => readHexChar 4 cs
  | 'U' :: cs => readHexChar 8 cs
  | _ => none

def readLine (mark : Char) (escapes : Bool) : Nat → List Char → Option (List Char × List Char)
  | 0, _ => none
  | _, [] => none
  | fuel + 1, c :: cs =>
    if c = mark then some ([], cs)
    else if escapes && c = '\\' then do
      let (e, cs) ← readEscape cs
      let (body, cs) ← readLine mark escapes fuel cs
      return (e :: body, cs)
    else if isPrintable c then do
      let (body, cs) ← readLine mark escapes fuel cs
      return (c :: body, cs)
    else none

/-- Whether a backslash stands at the end of its line; if so, what the text goes on with. -/
def continued? (cs : List Char) : Option (List Char) :=
  (afterLine? (skipGap cs)).map skipLines

/-- A string on several lines up to the three marks that close it, of which up to two more may
stand before them. -/
def readBlock (mark : Char) (escapes : Bool) : Nat → List Char → Option (List Char × List Char)
  | 0, _ => none
  | _, [] => none
  | fuel + 1, c :: cs =>
    if c = mark then
      let run := (c :: cs).takeWhile (· = mark)
      if run.length < 3 then do
        let (body, cs) ← readBlock mark escapes fuel (cs.drop (run.length - 1))
        return (run ++ body, cs)
      else
        let extra := min (run.length - 3) 2
        some (List.replicate extra mark, cs.drop (extra + 2))
    else if escapes && c = '\\' then
      match continued? cs with
      | some cs => readBlock mark escapes fuel cs
      | none => do
        let (e, cs) ← readEscape cs
        let (body, cs) ← readBlock mark escapes fuel cs
        return (e :: body, cs)
    else
      match afterLine? (c :: cs) with
      | some cs => do
        let (body, cs) ← readBlock mark escapes fuel cs
        return ('\n' :: body, cs)
      | none =>
        if isPrintable c then do
          let (body, cs) ← readBlock mark escapes fuel cs
          return (c :: body, cs)
        else none

def readLineString : List Char → Option (String × List Char)
  | '"' :: cs => (readLine '"' true (cs.length + 1) cs).map fun r => (String.ofList r.1, r.2)
  | '\'' :: cs => (readLine '\'' false (cs.length + 1) cs).map fun r => (String.ofList r.1, r.2)
  | _ => none

/-- A string on several lines; a line end right after the opening marks is not part of it. -/
def readBlockString (mark : Char) (escapes : Bool) (cs : List Char) : Option (String × List Char) :=
  let cs := (afterLine? cs).getD cs
  (readBlock mark escapes (cs.length + 1) cs).map fun r => (String.ofList r.1, r.2)

def readString : List Char → Option (String × List Char)
  | '"' :: '"' :: '"' :: cs => readBlockString '"' true cs
  | '\'' :: '\'' :: '\'' :: cs => readBlockString '\'' false cs
  | cs => readLineString cs

def isKeyChar (c : Char) : Bool := Text.isWordChar c || c = '-' || c = '_'

def readKeyPart (cs : List Char) : Option (String × List Char) :=
  match cs with
  | [] => none
  | c :: _ =>
    if c = '"' ∨ c = '\'' then readLineString cs
    else
      match cs.takeWhile isKeyChar with
      | [] => none
      | part => some (String.ofList part, cs.dropWhile isKeyChar)

def readKeyParts : Nat → List Char → Option (List String × List Char)
  | 0, _ => none
  | fuel + 1, cs => do
    let (part, cs) ← readKeyPart (skipGap cs)
    match skipGap cs with
    | '.' :: cs => do
      let (parts, cs) ← readKeyParts fuel cs
      return (part :: parts, cs)
    | cs => return ([part], cs)

end HeatingControl.Toml
