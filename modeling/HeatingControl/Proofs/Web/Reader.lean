import HeatingControl.Web.Markup
import Mathlib.Tactic.SplitIfs

/-!
# Reading a page

A page is read from left to right into its tags and the texts between them. The reader makes
nothing good as a browser does: it stops at a tag, an attribute or a reference that is not spelled
out in full. What it accepts can therefore be read in one way only, and nothing is lost in reading
(`written_parse`).
-/
namespace HeatingControl.Web

/-- A character of the markup, or a string that was inserted into it. -/
inductive Symbol where
  | char (c : Char)
  | inserted (s : String)
  deriving DecidableEq, Repr

namespace Symbol

def chars : Symbol → List Char
  | .char c => [c]
  | .inserted s => s.toList

def isChar : Symbol → Bool
  | .char _ => true
  | .inserted _ => false

end Symbol

def text (v : List Symbol) : String := String.ofList (v.flatMap Symbol.chars)

def literal (cs : List Char) : List Symbol := cs.map .char

def Piece.symbols : Piece → List Symbol
  | .markup s => literal s.toList
  | .data s => [.inserted s]

def Html.symbols (h : Html) : List Symbol := h.flatMap Piece.symbols

abbrev Name := List Char

/-- Attributes in their order; one that stands without a value has none. -/
abbrev Attributes (ν : Type) := List (Name × Option ν)

inductive Token (ν : Type) where
  | doctype
  | text (value : ν)
  | opening (tag : Name) (attributes : Attributes ν)
  | closing (tag : Name)
  deriving DecidableEq, Repr

abbrev Spelled := Token (List Symbol)

section Map

variable {ν μ κ : Type}

def Attributes.map (f : ν → μ) (attributes : Attributes ν) : Attributes μ :=
  List.map (fun a => (a.1, a.2.map f)) attributes

def Token.map (f : ν → μ) : Token ν → Token μ
  | .doctype => .doctype
  | .text v => .text (f v)
  | .opening tag attributes => .opening tag (attributes.map f)
  | .closing tag => .closing tag

theorem Attributes.map_map (g : μ → κ) (f : ν → μ) (attributes : Attributes ν) :
    (attributes.map f).map g = attributes.map (g ∘ f) := by
  simp [Attributes.map]

theorem Attributes.names_map (f : ν → μ) (attributes : Attributes ν) :
    List.map Prod.fst (attributes.map f) = List.map Prod.fst attributes := by
  simp [Attributes.map]

theorem Token.map_map (g : μ → κ) (f : ν → μ) (t : Token ν) : (t.map f).map g = t.map (g ∘ f) := by
  cases t with
  | opening tag attributes => exact congrArg (Token.opening tag) (attributes.map_map g f)
  | doctype | text | closing => rfl

end Map

/-- Where the reader is, with what it has read there. -/
inductive Position where
  | text (value : List Symbol)
  /-- Behind the bracket of a tag. -/
  | bracket
  | declaration (name : Name)
  | closing (tag : Name)
  | opening (tag : Name)
  | naming (tag : Name) (attributes : Attributes (List Symbol)) (name : Name)
  /-- Behind the sign of equality. -/
  | assigned (tag : Name) (attributes : Attributes (List Symbol)) (name : Name)
  | value (tag : Name) (attributes : Attributes (List Symbol)) (name : Name)
      (value : List Symbol)
  /-- Behind the closing quote. -/
  | valued (tag : Name) (attributes : Attributes (List Symbol))
  deriving DecidableEq, Repr

def goesOn (name : Name) (c : Char) : Bool :=
  c.isLower || (!name.isEmpty && (c.isDigit || c = '-'))

/-- A name must not be empty, and must not have been given to an attribute of the tag before. -/
def isNew (name : Name) (attributes : Attributes (List Symbol)) : Bool :=
  name ∉ [] :: List.map Prod.fst attributes

def declared : Name := "DOCTYPE html".toList

namespace Position

/-- The token that a character ends, if it ends one, and where the reader is after it. -/
def step : Position → Char → Option (Option Spelled × Position)
  | .text v, c =>
    if c = '<' then some (some (.text v), .bracket) else some (none, .text (v ++ [.char c]))
  | .bracket, c =>
    if c = '/' then some (none, .closing [])
    else if c = '!' then some (none, .declaration [])
    else if goesOn [] c then some (none, .opening [c])
    else none
  | .declaration name, c =>
    if c ≠ '>' then some (none, .declaration (name ++ [c]))
    else if name = declared then some (some .doctype, .text [])
    else none
  | .closing tag, c =>
    if goesOn tag c then some (none, .closing (tag ++ [c]))
    else if c = '>' ∧ tag ≠ [] then some (some (.closing tag), .text [])
    else none
  | .opening tag, c =>
    if goesOn tag c then some (none, .opening (tag ++ [c]))
    else if c = ' ' then some (none, .naming tag [] [])
    else if c = '>' then some (some (.opening tag []), .text [])
    else none
  | .naming tag attributes name, c =>
    if goesOn name c then some (none, .naming tag attributes (name ++ [c]))
    else if ¬isNew name attributes then none
    else if c = '=' then some (none, .assigned tag attributes name)
    else if c = ' ' then some (none, .naming tag (attributes ++ [(name, none)]) [])
    else if c = '>' then some (some (.opening tag (attributes ++ [(name, none)])), .text [])
    else none
  | .assigned tag attributes name, c =>
    if c = '"' then some (none, .value tag attributes name []) else none
  | .value tag attributes name v, c =>
    if c = '"' then some (none, .valued tag (attributes ++ [(name, some v)]))
    else some (none, .value tag attributes name (v ++ [.char c]))
  | .valued tag attributes, c =>
    if c = ' ' then some (none, .naming tag attributes [])
    else if c = '>' then some (some (.opening tag attributes), .text [])
    else none

/-- A text and a quoted value go on; nowhere else can anything be inserted. -/
def extend : Position → List Symbol → Option Position
  | .text v, xs => some (.text (v ++ xs))
  | .value tag attributes name v, xs => some (.value tag attributes name (v ++ xs))
  | _, _ => none

end Position

structure Reader where
  /-- The element whose text is not markup, if the reader is within one. -/
  raw : Option Name
  /-- What has been read, the latest first. -/
  tokens : List Spelled
  position : Position
  deriving DecidableEq, Repr

def rawTags : List Name := ["style".toList, "script".toList, "title".toList, "textarea".toList]

/-- The element whose text is not markup behind a token. Such an element holds one text, into which
nothing was inserted. -/
def rawBehind : Option Name → Spelled → Option (Option Name)
  | none, .opening tag _ => some (if tag ∈ rawTags then some tag else none)
  | none, _ => some none
  | some tag, .text v => if v.all Symbol.isChar then some (some tag) else none
  | some tag, .closing closed => if closed = tag then some none else none
  | some _, _ => none

namespace Reader

def start : Reader := ⟨none, [], .text []⟩

def advance : Reader → Option Spelled × Position → Option Reader
  | ⟨raw, tokens, _⟩, (none, p) => some ⟨raw, tokens, p⟩
  | ⟨raw, tokens, _⟩, (some t, p) => (rawBehind raw t).map fun raw => ⟨raw, t :: tokens, p⟩

def next : Reader → Symbol → Option Reader
  | ⟨raw, tokens, position⟩, .char c =>
    if c = '&' then none else (position.step c).bind (advance ⟨raw, tokens, position⟩)
  | ⟨raw, tokens, position⟩, .inserted s =>
    (position.extend [.inserted s]).map fun p => ⟨raw, tokens, p⟩

def run (r : Reader) : List Symbol → Option Reader
  | [] => some r
  | x :: xs => (r.next x).bind fun r => r.run xs

def finish (r : Reader) : Option (List Spelled) :=
  match r.raw, r.position with
  | none, .text v => some (.text v :: r.tokens).reverse
  | _, _ => none

end Reader

/-- The tokens of a page, with a text before, between and behind the tags. -/
def parse (xs : List Symbol) : Option (List Spelled) := (Reader.start.run xs).bind Reader.finish

def references : List (List Char × Char) :=
  [("amp".toList, '&'), ("lt".toList, '<'), ("gt".toList, '>'), ("quot".toList, '"'),
   ("apos".toList, '\''), ("#x27".toList, '\''), ("#39".toList, '\'')]

def referred? (name : List Char) : Option Char :=
  (references.find? fun r => r.1 = name).map Prod.snd

/-- The symbols of a text: what a reference stands for was inserted, and every other character is
markup. Within a reference its name is held, as far as it has been read. -/
def resolve : Option (List Char) → List Char → Option (List Symbol)
  | none, [] => some []
  | some _, [] => none
  | none, c :: cs =>
    if c = '&' then resolve (some []) cs else (resolve none cs).map (.char c :: ·)
  | some name, c :: cs =>
    if c = ';' then
      (referred? name).bind fun c =>
        (resolve none cs).map (.inserted (String.singleton c) :: ·)
    else resolve (some (name ++ [c])) cs

/-- The tokens of a page that is given as text. -/
def read (page : String) : Option (List (Token String)) :=
  ((resolve none page.toList).bind parse).map (List.map (Token.map text))

def Attributes.written (attributes : Attributes (List Symbol)) : List Symbol :=
  attributes.flatMap fun a =>
    .char ' ' :: literal a.1 ++
      (a.2.map fun v => .char '=' :: .char '"' :: v ++ [.char '"']).getD []

def Token.written : Spelled → List Symbol
  | .doctype => .char '<' :: .char '!' :: literal declared ++ [.char '>']
  | .text v => v
  | .opening tag attributes => .char '<' :: literal tag ++ attributes.written ++ [.char '>']
  | .closing tag => .char '<' :: .char '/' :: literal tag ++ [.char '>']

def Position.written : Position → List Symbol
  | .text v => v
  | .bracket => [.char '<']
  | .declaration name => .char '<' :: .char '!' :: literal name
  | .closing tag => .char '<' :: .char '/' :: literal tag
  | .opening tag => .char '<' :: literal tag
  | .naming tag attributes name =>
    .char '<' :: literal tag ++ attributes.written ++ .char ' ' :: literal name
  | .assigned tag attributes name =>
    .char '<' :: literal tag ++ attributes.written ++ .char ' ' :: literal name ++ [.char '=']
  | .value tag attributes name v =>
    .char '<' :: literal tag ++ attributes.written ++ .char ' ' :: literal name ++
      .char '=' :: .char '"' :: v
  | .valued tag attributes => .char '<' :: literal tag ++ attributes.written

def Reader.written (r : Reader) : List Symbol :=
  r.tokens.reverse.flatMap Token.written ++ r.position.written

@[simp] theorem literal_nil : literal [] = [] := rfl

@[simp] theorem literal_append (cs ds : List Char) :
    literal (cs ++ ds) = literal cs ++ literal ds :=
  List.map_append

@[simp] theorem literal_singleton (c : Char) : literal [c] = [.char c] := rfl

@[simp] theorem Attributes.written_nil : Attributes.written [] = [] := rfl

@[simp] theorem Attributes.written_append (as bs : Attributes (List Symbol)) :
    Attributes.written (as ++ bs) = as.written ++ bs.written :=
  List.flatMap_append

@[simp] theorem Attributes.written_none (name : Name) :
    Attributes.written [(name, none)] = .char ' ' :: literal name := by
  simp [Attributes.written]

@[simp] theorem Attributes.written_some (name : Name) (v : List Symbol) :
    Attributes.written [(name, some v)] =
      .char ' ' :: literal name ++ .char '=' :: .char '"' :: v ++ [.char '"'] := by
  simp [Attributes.written]

theorem Position.written_step {p p' : Position} {c : Char} {t : Option Spelled}
    (h : p.step c = some (t, p')) :
    t.toList.flatMap Token.written ++ p'.written = p.written ++ [.char c] := by
  cases p <;> simp only [step] at h <;> split_ifs at h <;> cases h <;>
    simp_all [Token.written, Position.written]

theorem Position.written_extend {p p' : Position} {xs : List Symbol} (h : p.extend xs = some p') :
    p'.written = p.written ++ xs := by
  cases p <;> cases h <;> simp [Position.written]

namespace Reader

theorem written_advance {r r' : Reader} {t : Option Spelled} {p : Position} {x : Symbol}
    (h : r.advance (t, p) = some r')
    (hp : t.toList.flatMap Token.written ++ p.written = r.position.written ++ [x]) :
    r'.written = r.written ++ [x] := by
  cases t with
  | none =>
    cases h
    simpa [written] using hp
  | some t =>
    obtain ⟨raw, -, rfl⟩ := Option.map_eq_some_iff.mp h
    simpa [written] using hp

theorem written_next {r r' : Reader} {x : Symbol} (h : r.next x = some r') :
    r'.written = r.written ++ [x] := by
  cases x with
  | char c =>
    simp only [next] at h
    split at h
    · cases h
    · obtain ⟨⟨t, p⟩, hstep, hadvance⟩ := Option.bind_eq_some_iff.mp h
      exact written_advance hadvance (Position.written_step hstep)
  | inserted s =>
    obtain ⟨p, hp, rfl⟩ := Option.map_eq_some_iff.mp h
    simp only [written, Position.written_extend hp, List.append_assoc]

theorem written_run {r r' : Reader} {xs : List Symbol} (h : r.run xs = some r') :
    r'.written = r.written ++ xs := by
  induction xs generalizing r with
  | nil =>
    cases h
    exact (List.append_nil _).symm
  | cons x xs ih =>
    obtain ⟨next, hnext, hrun⟩ := Option.bind_eq_some_iff.mp h
    rw [ih hrun, written_next hnext, List.append_assoc, List.singleton_append]

theorem finish_eq_some {r : Reader} {ts : List Spelled} (h : r.finish = some ts) :
    ∃ tokens v, r = ⟨none, tokens, .text v⟩ ∧ ts = (.text v :: tokens).reverse := by
  obtain ⟨raw, tokens, position⟩ := r
  unfold finish at h
  split at h
  next v hraw hposition =>
    cases h
    exact ⟨tokens, v, by simp_all, rfl⟩
  next => cases h

end Reader

/-- What is read is what was written, symbol by symbol. -/
theorem written_parse {xs : List Symbol} {ts : List Spelled} (h : parse xs = some ts) :
    ts.flatMap Token.written = xs := by
  obtain ⟨r, hrun, hfinish⟩ := Option.bind_eq_some_iff.mp h
  obtain ⟨tokens, v, rfl, rfl⟩ := Reader.finish_eq_some hfinish
  have hwritten := Reader.written_run hrun
  simpa [Reader.written, Reader.start, Position.written, Token.written] using hwritten

end HeatingControl.Web
