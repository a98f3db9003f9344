import HeatingControl.Json.Value
import HeatingControl.Text.Numeral

/-!
# Writing JSON

The compact form: no blanks, fields in their order, a control character escaped and every other
character as it is.
-/
namespace HeatingControl.Json

def escapedChar (c : Char) : List Char :=
  if c = '"' then ['\\', '"']
  else if c = '\\' then ['\\', '\\']
  else if c = '\n' then ['\\', 'n']
  else if c = '\r' then ['\\', 'r']
  else if c = '\t' then ['\\', 't']
  else if c.toNat = 8 then ['\\', 'b']
  else if c.toNat = 12 then ['\\', 'f']
  else if c.toNat < 32 then
    ['\\', 'u', '0', '0', Text.hexDigit (c.toNat / 16), Text.hexDigit (c.toNat % 16)]
  else [c]

def writeText (s : String) : List Char := '"' :: s.toList.flatMap escapedChar ++ ['"']

mutual

def chars : Json → List Char
  | .null => ['n', 'u', 'l', 'l']
  | .bool true => ['t', 'r', 'u', 'e']
  | .bool false => ['f', 'a', 'l', 's', 'e']
  | .int i => Text.intDigits i
  | .decimal s => s.toList
  | .text s => writeText s
  | .array items => '[' :: itemChars items ++ [']']
  | .object fields => '\x7b' :: fieldChars fields ++ ['\x7d']
  | .torn => []
  | .unreadable => []
  | .unnamed _ => []

def itemChars : List Json → List Char
  | [] => []
  | [j] => j.chars
  | j :: rest => j.chars ++ ',' :: itemChars rest

def fieldChars : List (String × Json) → List Char
  | [] => []
  | [(k, j)] => writeText k ++ ':' :: j.chars
  | (k, j) :: rest => writeText k ++ ':' :: j.chars ++ ',' :: fieldChars rest

end

def write (j : Json) : String := String.ofList j.chars

end HeatingControl.Json
