import HeatingControl.Error
import HeatingControl.Http.Form
import HeatingControl.Http.MediaType
import HeatingControl.Http.Multipart
import HeatingControl.Ident
import HeatingControl.Wire.Codec

/-!
# Requests and responses

What a request carries, the parts of its target, and how its path segments and its body are read
as values. A request that cannot be read is turned away with a status and no body.
-/
namespace HeatingControl

structure Request where
  method : String
  target : String
  contentType : Option String
  body : Bytes
  deriving DecidableEq, Repr

structure Response where
  status : Nat
  location : Option String
  contentType : Option String
  body : String
  deriving DecidableEq, Repr

namespace Response

def empty (status : Nat) : Response := ⟨status, none, none, ""⟩

def withBody (status : Nat) (contentType body : String) : Response :=
  ⟨status, none, some contentType, body⟩

def json (status : Nat) (j : Json) : Response := withBody status MediaType.json j.write

def html (page : String) : Response := withBody 200 MediaType.html page

def healthy : Response := withBody 200 MediaType.plain "OK"

/-- Sends the browser to another page, which it is to get. -/
def seeOther (location : String) : Response := { empty 303 with location := some location }

def bodiless (r : Response) : Response := { r with contentType := none, body := "" }

end Response

inductive Refusal where
  | badRequest
  | notFound
  | methodNotAllowed
  | tooLarge
  | unsupportedType
  | unprocessable
  deriving DecidableEq, Repr

def Refusal.status : Refusal → Nat
  | .badRequest => 400
  | .notFound => 404
  | .methodNotAllowed => 405
  | .tooLarge => 413
  | .unsupportedType => 415
  | .unprocessable => 422

def Refusal.response (r : Refusal) : Response := .empty r.status

namespace Request

/-- The verb that a method stands for; a request for the head alone is one to get. -/
def verb? (r : Request) : Option Verb :=
  if r.method = "HEAD" then some .get
  else [Verb.get, .post, .put, .patch, .delete].find? fun v => v.text = r.method

/-- The target without its fragment, cut into path and query. -/
def parts (r : Request) : List Char × List Char :=
  let target := r.target.toList.takeWhile (· ≠ '#')
  (Text.cutFirst '?' target).getD (target, [])

def segments (r : Request) : List String :=
  match Text.cutAll '/' r.parts.1 with
  | [] :: segments => segments.map String.ofList
  | _ => []

def query (r : Request) : List (String × String) :=
  Form.read (Utf8.encode (String.ofList r.parts.2))

/-- The type of the body, if it is written in visible characters alone. -/
def bodyType? (r : Request) : Option String :=
  r.contentType.filter fun t =>
    t.toList.all fun c => c = '\t' || (0x20 ≤ c.toNat && c.toNat < 0x7F)

/-- The most octets of a body that are read; a longer body is not read at all. -/
def bodyLimit : Nat := 2097152

def wholeBody (r : Request) : Except Refusal Bytes :=
  if r.body.length ≤ bodyLimit then .ok r.body else .error .tooLarge

def jsonBody {α : Type} [Wire α] (r : Request) : Except Refusal α :=
  if (r.bodyType?.bind MediaType.parse?).any MediaType.isJson then
    match r.wholeBody with
    | .error e => .error e
    | .ok body =>
      match Wire.ofBytes body with
      | .ok v => .ok v
      | .error .notJson => .error .badRequest
      | .error .otherShape => .error .unprocessable
  else .error .unsupportedType

def formBody (r : Request) : Except Refusal (List (String × String)) :=
  match r.bodyType? with
  | none => .error .unsupportedType
  | some t =>
    if (Text.afterStart? MediaType.form.toList t.toList).isSome then r.wholeBody.map Form.read
    else .error .unsupportedType

def recordBody (names : List String) (r : Request) : Except Refusal (List (String × String)) :=
  match r.formBody with
  | .error e => .error e
  | .ok fields => if Form.unrepeated names fields then .ok fields else .error .unprocessable

/-- The parts of the body; whatever is wrong with it, the request is a bad one. -/
def multipartBody (r : Request) : Except Refusal (List Multipart.Part) :=
  match (r.bodyType?.bind MediaType.parse?).bind MediaType.boundary?, r.wholeBody with
  | some boundary, .ok body =>
    match Multipart.read? boundary body with
    | none => .error .badRequest
    | some parts => .ok parts
  | _, _ => .error .badRequest

def textSegment (s : String) : Except Refusal String :=
  match Percent.decodeText? s with
  | none => .error .badRequest
  | some t => .ok t

def numberSegment (s : String) : Except Refusal UInt32 :=
  match textSegment s with
  | .error e => .error e
  | .ok t =>
    match Text.readUInt32 t with
    | .error _ => .error .badRequest
    | .ok n => .ok n

end Request
end HeatingControl
