/-!
# Markup and data

A page is a sequence of pieces: fixed markup, and data that is escaped wherever it stands. Data
can therefore never open a tag or leave an attribute.
-/
namespace HeatingControl.Web

inductive Piece where
  | markup (s : String)
  | data (s : String)
  deriving DecidableEq, Repr

abbrev Html := List Piece

instance : Coe String Html := ⟨fun s => [.markup s]⟩

def data (s : String) : Html := [.data s]

def html (parts : List Html) : Html := parts.flatten

def escapedChar (c : Char) : List Char :=
  if c = '&' then "&amp;".toList
  else if c = '<' then "&lt;".toList
  else if c = '>' then "&gt;".toList
  else if c = '"' then "&quot;".toList
  else if c = '\'' then "&#x27;".toList
  else [c]

def escape (s : String) : String := String.ofList (s.toList.flatMap escapedChar)

def Piece.text : Piece → String
  | .markup s => s
  | .data s => escape s

def render (h : Html) : String := String.join (h.map Piece.text)

def onNewLine (block : Html) : Html := .markup "\n" :: block

def each {α : Type} (l : List α) (block : α → Html) : Html :=
  l.flatMap fun a => onNewLine (block a)

def showIf (condition : Bool) (block : Html) : Html := if condition then onNewLine block else []

def showSome {α : Type} (v : Option α) (block : α → Html) : Html :=
  match v with
  | some a => onNewLine (block a)
  | none => []

end HeatingControl.Web
