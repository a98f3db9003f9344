import HeatingControl.Client.Address
import HeatingControl.Client.Target
import HeatingControl.Http.Message
import HeatingControl.Wire.Records

/-!
# Operations over the web

Every operation is one request, and the reply to it is read as the answer of the operation or as
a failure. Under a url that is too long there is no request, and so no reply. A body that nothing
is read from may be cut short.
-/
namespace HeatingControl

inductive Reply where
  | unreachable (cause : String)
  /-- An answer; if its body breaks off, there is a cause. -/
  | answered (status : Nat) (body : Bytes) (brokenOff : Option String)
  deriving DecidableEq, Repr

namespace Client

def jsonBody {α : Type} [Wire α] (v : α) : Option String × Bytes :=
  (some MediaType.json, Utf8.encode (Wire.toText v))

/-- What is sent with an operation, and its type. -/
def bodyOf : Operation → Option String × Bytes
  | .putOverride value => jsonBody (Wire.OverrideBody.mk value)
  | .patchZone _ patch => jsonBody patch
  | .createPlanning name | .renamePlanning _ name => jsonBody name
  | .createSlot _ slot => jsonBody slot
  | .patchSlot _ _ patch => jsonBody patch
  | .createAccount account => jsonBody account
  | .resetPassword _ reset => jsonBody reset
  | .uploadFirmware image => (some MediaType.binary, image)
  | .uploadCertificate bundle => (some MediaType.pem, bundle)
  | .applyHardware settings =>
    (some MediaType.form, Utf8.encode (Form.write settings.formFields))
  | .getStatus | .getOrders | .getOverride | .getZones | .getPlannings | .deletePlanning _
  | .getPlanningSlots _ | .deleteSlot _ _ | .getAccounts | .deleteAccount _ | .reboot
  | .getHardware | .getHardwareParameters _ => (none, [])

def urlOf (c : Client) (op : Operation) : Url := Url.read (c.url op.endpoint)

def request (c : Client) (op : Operation) : Request :=
  let (type, body) := bodyOf op
  ⟨op.verb.text, String.ofList (c.urlOf op).target, type, body⟩

/-- The request for an operation; none is sent under a url that is too long. -/
def request? (c : Client) (op : Operation) : Option Request :=
  if (c.urlOf op).chars.length ≤ Url.limit then some (c.request op) else none

def isSuccess (status : Nat) : Bool := 200 ≤ status && status < 300

def bodyText (c : Client) (op : Operation) (body : Bytes) :
    Option String → Except Error Bytes
  | none => .ok body
  | some cause => .error (.network op.verb (c.path op.endpoint) cause)

def misfitCause : Misfit → String
  | .notJson => "not JSON"
  | .otherShape => "JSON of another shape"

def value {α : Type} [Wire α] (c : Client) (op : Operation) (body : Bytes)
    (brokenOff : Option String) : Except Error α :=
  match c.bodyText op body brokenOff with
  | .error e => .error e
  | .ok body =>
    match Wire.ofBytes body with
    | .ok v => .ok v
    | .error e => .error (.decode (c.path op.endpoint) (misfitCause e))

def listing {α : Type} [Wire α] (name : String) (c : Client) (op : Operation) (body : Bytes)
    (brokenOff : Option String) : Except Error (List α) :=
  (c.value op body brokenOff : Except Error (Wire.Listing name α)).map (·.items)

def answer (c : Client) (body : Bytes) (brokenOff : Option String) : (op : Operation) → op.Result
  | .getStatus => c.value .getStatus body brokenOff
  | .getOrders => c.listing "orders" .getOrders body brokenOff
  | .getOverride =>
    (c.value .getOverride body brokenOff : Except Error Wire.OverrideBody).map (·.value)
  | .getZones => c.listing "zones" .getZones body brokenOff
  | .getPlannings => c.listing "plannings" .getPlannings body brokenOff
  | .getPlanningSlots id => c.listing "slots" (.getPlanningSlots id) body brokenOff
  | .getAccounts => c.listing "accounts" .getAccounts body brokenOff
  | .reboot => (c.bodyText .reboot body brokenOff).map Utf8.decodeLossy
  | .getHardware => c.value .getHardware body brokenOff
  | .getHardwareParameters id =>
    c.listing "parameters" (.getHardwareParameters id) body brokenOff
  | .putOverride _ => .ok ()
  | .patchZone _ _ => .ok ()
  | .createPlanning _ => .ok ()
  | .renamePlanning _ _ => .ok ()
  | .deletePlanning _ => .ok ()
  | .createSlot _ _ => .ok ()
  | .patchSlot _ _ _ => .ok ()
  | .deleteSlot _ _ => .ok ()
  | .createAccount _ => .ok ()
  | .deleteAccount _ => .ok ()
  | .resetPassword _ _ => .ok ()
  | .uploadFirmware _ => .ok ()
  | .uploadCertificate _ => .ok ()
  | .applyHardware _ => .ok ()

def read (c : Client) (op : Operation) : Reply → op.Result
  | .unreachable cause => .error (.network op.verb (c.path op.endpoint) cause)
  | .answered status body brokenOff =>
    if isSuccess status then c.answer body brokenOff op
    else .error (.http op.verb (c.path op.endpoint) status)

def exchange (c : Client) (reply : Request → Reply) (op : Operation) : op.Result :=
  c.read op (((c.request? op).map reply).getD (.unreachable "the url is too long"))

end Client
end HeatingControl
