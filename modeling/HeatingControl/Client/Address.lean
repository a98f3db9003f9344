import HeatingControl.Controller.Operation
import HeatingControl.Text.Quoted

/-!
# The address of a controller

Where the requests of a client go: a base address, and a path below it under which the interface is
offered.
-/
namespace HeatingControl

/-- The base has no slash at its end; the root of the paths is empty or starts with one. -/
structure Client where
  base : String
  root : String
  deriving DecidableEq, Repr

/-- A base address that is none of the web. -/
structure InvalidBase where
  text : String
  deriving DecidableEq, Repr

def InvalidBase.message (e : InvalidBase) : String :=
  "invalid controller url " ++ Text.quoted e.text

namespace Client

def withoutSlashes (s : String) : List Char := (s.toList.reverse.dropWhile (· = '/')).reverse

def isWeb (cs : List Char) : Bool :=
  (Text.afterStart? "http://".toList cs).isSome || (Text.afterStart? "https://".toList cs).isSome

def rooted : List Char → List Char
  | [] => []
  | c :: cs => if c = '/' then c :: cs else '/' :: c :: cs

def build (base root : String) : Except InvalidBase Client :=
  let kept := withoutSlashes base
  if isWeb kept then .ok ⟨String.ofList kept, String.ofList (rooted (withoutSlashes root))⟩
  else .error ⟨base⟩

def path (c : Client) (endpoint : String) : String := c.root ++ endpoint

def url (c : Client) (endpoint : String) : String := c.base ++ c.path endpoint

end Client
end HeatingControl
