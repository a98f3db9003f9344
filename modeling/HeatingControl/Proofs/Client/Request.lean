import HeatingControl.Proofs.Client.Origin
import HeatingControl.Proofs.Http.Form
import HeatingControl.Proofs.Text.Numeral
import HeatingControl.Proofs.Wire.Records
import HeatingControl.Rest.Resource

/-!
# Requests ask for the operations they were built for

The request for an operation is routed to the resource of the operation, and its ids and its body
are read as they were written, unless the body is too large. Two creations are answered with what
they create, the slots of a planning with its name, and settings arrive as a form.
-/
namespace HeatingControl

/-- A non-empty word of ASCII letters, digits and hyphens. -/
def IsWord (s : String) : Prop := s ≠ "" ∧ s.toList.all Target.isIdChar = true

instance (s : String) : Decidable (IsWord s) := inferInstanceAs (Decidable (_ ∧ _))

theorem IsWord.chars {s : String} (h : IsWord s) : ∀ c ∈ s.toList, Target.isIdChar c = true :=
  List.all_eq_true.mp h.2

theorem isWord_natText (n : Nat) : IsWord (Text.natText n) := by
  constructor
  · intro h
    refine Text.digits_ne_nil n ?_
    rw [← Text.natText_toList, h]
    rfl
  · refine List.all_eq_true.mpr fun c hc => ?_
    rw [Text.natText_toList] at hc
    simp [Target.isIdChar, Text.isWordChar, Text.isDigit_of_mem_digits n c hc]

namespace Operation

def segments : Operation → List String
  | .getStatus => ["status"]
  | .getOrders => ["orders"]
  | .getOverride | .putOverride _ => ["override"]
  | .getZones => ["zones"]
  | .patchZone id _ => ["zones", id.text]
  | .getPlannings | .createPlanning _ => ["plannings"]
  | .renamePlanning id _ | .deletePlanning id | .getPlanningSlots id => ["plannings", id.display]
  | .createSlot planning _ => ["plannings", planning.display, "slots"]
  | .patchSlot planning slot _ | .deleteSlot planning slot =>
    ["plannings", planning.display, "slots", slot.display]
  | .getAccounts | .createAccount _ => ["accounts"]
  | .deleteAccount id | .resetPassword id _ => ["accounts", id.text]
  | .uploadFirmware _ => ["upgrade"]
  | .uploadCertificate _ => ["certificate"]
  | .reboot => ["reboot"]
  | .getHardware | .applyHardware _ => ["hardware"]
  | .getHardwareParameters id => ["hardware", id.text, "parameters"]

theorem path_toList (op : Operation) :
    (root ++ op.endpoint).toList =
      Target.joined (("ofp-api" :: "v1" :: op.segments).map String.toList) := by
  cases op <;> simp [root, endpoint, segments, Target.joined, planningPath, slotPath, accountPath]

def Addressed (op : Operation) : Prop := ∀ s ∈ op.segments, IsWord s

theorem Addressed.chars {op : Operation} (h : op.Addressed) :
    ∀ s ∈ ("ofp-api" :: "v1" :: op.segments).map String.toList,
      ∀ d ∈ s, Target.isIdChar d = true := by
  intro s hs d hd
  obtain ⟨w, hw, rfl⟩ := List.mem_map.mp hs
  have hroot : ∀ w ∈ ["ofp-api", "v1"], IsWord w := by decide
  rcases List.mem_append.mp (show w ∈ ["ofp-api", "v1"] ++ op.segments from hw) with hw | hw
  · exact (hroot w hw).chars d hd
  · exact (h w hw).chars d hd

/-- Overrides and modes are read from their texts as they are. -/
def Legible : Operation → Prop
  | .putOverride value => Override.parse value.display = value
  | .patchZone _ patch => ∀ m, patch.mode = some m → ZoneMode.parse m.display = .ok m
  | _ => True

def demand : Operation → Rest.Demand
  | .createPlanning name => .addPlanning name
  | .createSlot planning slot => .addSlot planning slot
  | .getPlanningSlots id => .planning id
  | .applyHardware settings => .hardwareForm settings.formFields
  | op => .operation op

def resource : Operation → Rest.Resource
  | .getStatus => .status
  | .getOrders => .orders
  | .getOverride | .putOverride _ => .override
  | .getZones => .zones
  | .patchZone id _ => .zone id.text
  | .getPlannings | .createPlanning _ => .plannings
  | .renamePlanning id _ | .deletePlanning id | .getPlanningSlots id => .planning id.display
  | .createSlot planning _ => .slots planning.display
  | .patchSlot planning slot _ | .deleteSlot planning slot => .slot planning.display slot.display
  | .getAccounts | .createAccount _ => .accounts
  | .deleteAccount id | .resetPassword id _ => .account id.text
  | .uploadFirmware _ => .upgrade
  | .uploadCertificate _ => .certificate
  | .reboot => .reboot
  | .getHardware | .applyHardware _ => .hardware
  | .getHardwareParameters id => .parameters id.text

theorem resource?_segments {op : Operation} (h : op.Addressed) :
    Rest.resource? ("ofp-api" :: "v1" :: op.segments) = some op.resource := by
  have hne : ∀ s ∈ op.segments, s ≠ "" := fun s hs => (h s hs).1
  cases op <;> simp_all [segments, Rest.resource?, Rest.below, resource]

end Operation

namespace Request

theorem verb?_text (v : Verb) (target : String) (type : Option String) (body : Bytes) :
    (Request.mk v.text target type body).verb? = some v := by
  cases v <;> rfl

theorem textSegment_of_isWord {s : String} (h : IsWord s) : textSegment s = .ok s := by
  have hplain : ∀ c ∈ s.toList, c.toNat < 128 ∧ c ≠ '%' := fun c hc =>
    ⟨Target.isIdChar_ascii (h.chars c hc),
      Text.ne_of_kind (h.chars c hc) (show Target.isIdChar '%' = false by decide)⟩
  rw [textSegment, Percent.decodeText?_of_plain hplain]

theorem numberSegment_natText (n : UInt32) : numberSegment (Text.natText n.toNat) = .ok n := by
  rw [numberSegment, textSegment_of_isWord (isWord_natText _)]
  simp only [Text.readUInt32_natText]

/-- What is read of a body that is small enough; of a larger one nothing is. -/
def sized {α : Type} (body : Bytes) (v : α) : Except Refusal α :=
  if body.length ≤ bodyLimit then .ok v else .error .tooLarge

theorem sized_of_le {α : Type} {body : Bytes} (h : body.length ≤ bodyLimit) (v : α) :
    sized body v = .ok v :=
  if_pos h

theorem sized_of_lt {α : Type} {body : Bytes} (h : bodyLimit < body.length) (v : α) :
    sized body v = .error .tooLarge :=
  if_neg (Nat.not_le.mpr h)

theorem ok_bind {α β : Type} (v : α) (f : α → Except Refusal β) : (.ok v >>= f) = f v := rfl

/-- What is made of a body that is read, where the body is the last thing to be read. -/
theorem bind_sized {α β : Type} {body : Bytes} {v : α} {f : α → Except Refusal β} {w : β}
    (h : f v = .ok w) : (sized body v >>= f) = sized body w := by
  unfold sized
  split
  · exact h
  · rfl

theorem wholeBody_eq (r : Request) : r.wholeBody = sized r.body r.body := rfl

theorem jsonBody_of_faithful {α : Type} [Wire α] {v : α} (h : Wire.Faithful v)
    (method target : String) :
    (Request.mk method target (some MediaType.json) (Utf8.encode (Wire.toText v))).jsonBody =
      sized (Utf8.encode (Wire.toText v)) v := by
  have htype : ((Request.mk method target (some MediaType.json)
      (Utf8.encode (Wire.toText v))).bodyType?.bind MediaType.parse?).any MediaType.isJson =
      true := by rfl
  rw [jsonBody, if_pos htype, wholeBody_eq, sized, sized]
  by_cases hsize : (Utf8.encode (Wire.toText v)).length ≤ bodyLimit
  · simp only [if_pos hsize, Wire.ofBytes_toText h]
  · simp only [if_neg hsize]

theorem formBody_write (fields : List (String × String)) (method target : String) :
    (Request.mk method target (some MediaType.form) (Utf8.encode (Form.write fields))).formBody =
      sized (Utf8.encode (Form.write fields)) fields := by
  have htype : (Request.mk method target (some MediaType.form)
      (Utf8.encode (Form.write fields))).bodyType? = some MediaType.form := by rfl
  have hstart : (Text.afterStart? MediaType.form.toList MediaType.form.toList).isSome = true := by
    rfl
  simp only [formBody, htype, hstart, if_true, wholeBody, sized]
  split
  · simp only [Except.map, Form.read_write]
  · rfl

end Request

namespace Client

variable {c : Client} {op : Operation}

/-- The controller is reached at an origin, and offers the interface where it always does. -/
structure AtOrigin (c : Client) : Prop where
  origin : Url.IsOrigin c.base
  root : c.root = Operation.root

theorem request?_bind_eq_some_iff {α : Type} {f : Request → Option α} {v : α} :
    (c.request? op).bind f = some v ↔
      (c.urlOf op).chars.length ≤ Url.limit ∧ f (c.request op) = some v := by
  unfold request?
  split
  · rename_i hlength
    simp [hlength]
  · rename_i hlength
    simp [hlength]

theorem exchange_of_lt (hroot : c.root = Operation.root)
    (h : Url.limit < (c.urlOf op).chars.length) : ∃ cause, ∀ reply, c.exchange reply op =
      .error (.network op.verb (Operation.root ++ op.endpoint) cause) := by
  refine ⟨"the url is too long", fun reply => ?_⟩
  rw [exchange, request?, if_neg (Nat.not_le.mpr h), ← hroot]
  rfl

theorem root_of_build {base : String} (h : build base Operation.root = .ok c) :
    c.root = Operation.root := by
  simp only [build] at h
  split at h
  · cases h
    change String.ofList (rooted (withoutSlashes Operation.root)) = Operation.root
    decide
  · cases h

theorem atOrigin_of_build {base : String} (h : build base Operation.root = .ok c)
    (horigin : Url.IsOrigin c.base) : c.AtOrigin :=
  ⟨horigin, root_of_build h⟩

theorem AtOrigin.target (hc : c.AtOrigin) (op : Operation) :
    (c.urlOf op).target = Target.ofPath (c.path op.endpoint) := by
  have hpath : (c.path op.endpoint).toList =
      '/' :: ("ofp-api/v1".toList ++ op.endpoint.toList) := by
    rw [path, hc.root, String.toList_append]
    rfl
  exact Url.read_target hc.origin hpath

theorem AtOrigin.chars (hc : c.AtOrigin) (h : op.Addressed) :
    (c.urlOf op).chars = (c.url op.endpoint).toList := by
  have hpath : c.path op.endpoint = String.ofList
      (Target.joined (("ofp-api" :: "v1" :: op.segments).map String.toList)) := by
    rw [path, hc.root, ← Operation.path_toList, String.ofList_toList]
  rw [urlOf, url, hpath, Url.chars_of_words hc.origin h.chars (by simp), String.toList_append,
    String.toList_ofList]

theorem request_segments (hc : c.AtOrigin) (h : op.Addressed) :
    (c.request op).segments = "ofp-api" :: "v1" :: op.segments := by
  have htarget : (c.urlOf op).target =
      Target.joined (("ofp-api" :: "v1" :: op.segments).map String.toList) := by
    rw [hc.target, path, hc.root, ← String.ofList_toList (s := Operation.root ++ op.endpoint),
      Operation.path_toList, Target.ofPath_joined h.chars]
  rw [request, htarget, Target.segments_joined h.chars, List.map_map]
  simp [Function.comp_def]

theorem request_jsonBody (c : Client) (op : Operation) {α : Type} [Wire α] {v : α}
    (h : Wire.Faithful v) (hbody : bodyOf op = jsonBody v) :
    (c.request op).jsonBody = Request.sized (bodyOf op).2 v := by
  rw [request, hbody]
  exact Request.jsonBody_of_faithful h ..

theorem jsonBody_patchZone (c : Client) {id : ZoneId} {patch : ZonePatch}
    (hlegible : (Operation.patchZone id patch).Legible) :
    (c.request (.patchZone id patch)).jsonBody =
      Request.sized (bodyOf (.patchZone id patch)).2 patch := by
  have hfaithful : Wire.Faithful patch :=
    Wire.faithful_zonePatch fun m hm => Wire.faithful_zoneMode (hlegible m hm)
  exact request_jsonBody c (.patchZone id patch) hfaithful rfl

theorem jsonBody_resetPassword (c : Client) (id : AccountId) (reset : PasswordReset) :
    (c.request (.resetPassword id reset)).jsonBody =
      Request.sized (bodyOf (.resetPassword id reset)).2 reset :=
  request_jsonBody c (.resetPassword id reset) (Wire.faithful_passwordReset reset) rfl

theorem demand_request (hc : c.AtOrigin) (haddressed : op.Addressed) (hlegible : op.Legible) :
    Rest.demand (c.request op) = Request.sized (bodyOf op).2 op.demand := by
  have hverb : (c.request op).verb? = some op.verb := Request.verb?_text ..
  have htext : ∀ s ∈ op.segments, Request.textSegment s = .ok s :=
    fun s hs => Request.textSegment_of_isWord (haddressed s hs)
  have hplanning : ∀ id : PlanningId, Request.numberSegment id.display = .ok id.number :=
    fun id => Request.numberSegment_natText id.number
  have hslot : ∀ id : SlotId, Request.numberSegment id.display = .ok id.number :=
    fun id => Request.numberSegment_natText id.number
  simp only [Rest.demand, request_segments hc haddressed,
    Operation.resource?_segments haddressed, hverb]
  cases op with
  | putOverride value =>
    have hfaithful : Wire.Faithful (Wire.OverrideBody.mk value) :=
      Wire.faithful_overrideBody (Wire.faithful_override hlegible)
    have hbody := request_jsonBody c (.putOverride value) hfaithful rfl
    simp only [Operation.resource, Operation.verb, Rest.Resource.demand, hbody]
    exact Request.bind_sized rfl
  | patchZone id patch =>
    have hbody := jsonBody_patchZone c hlegible
    have hid := htext id.text (by simp [Operation.segments])
    simp only [Operation.resource, Operation.verb, Rest.Resource.demand, hid, Request.ok_bind,
      hbody]
    exact Request.bind_sized rfl
  | createPlanning name =>
    have hbody := request_jsonBody c (.createPlanning name)
      (Wire.faithful_planningName name) rfl
    simp only [Operation.resource, Operation.verb, Rest.Resource.demand, hbody]
    exact Request.bind_sized rfl
  | renamePlanning id name =>
    have hbody := request_jsonBody c (.renamePlanning id name)
      (Wire.faithful_planningName name) rfl
    simp only [Operation.resource, Operation.verb, Rest.Resource.demand, hplanning, Request.ok_bind,
      hbody]
    exact Request.bind_sized rfl
  | createSlot planning slot =>
    have hbody := request_jsonBody c (.createSlot planning slot)
      (Wire.faithful_newSlot slot) rfl
    simp only [Operation.resource, Operation.verb, Rest.Resource.demand, hplanning, Request.ok_bind,
      hbody]
    exact Request.bind_sized rfl
  | patchSlot planning slot patch =>
    have hbody := request_jsonBody c (.patchSlot planning slot patch)
      (Wire.faithful_slotPatch patch) rfl
    simp only [Operation.resource, Operation.verb, Rest.Resource.demand, hplanning, hslot,
      Request.ok_bind, hbody]
    exact Request.bind_sized rfl
  | createAccount account =>
    have hbody := request_jsonBody c (.createAccount account)
      (Wire.faithful_newAccount account) rfl
    simp only [Operation.resource, Operation.verb, Rest.Resource.demand, hbody]
    exact Request.bind_sized rfl
  | resetPassword id reset =>
    have hbody := jsonBody_resetPassword c id reset
    have hid := htext id.text (by simp [Operation.segments])
    simp only [Operation.resource, Operation.verb, Rest.Resource.demand, hid, Request.ok_bind,
      hbody]
    exact Request.bind_sized rfl
  | applyHardware settings =>
    have hbody : (c.request (.applyHardware settings)).formBody =
        Request.sized (bodyOf (.applyHardware settings)).2 settings.formFields :=
      Request.formBody_write ..
    simp only [Operation.resource, Operation.verb, Rest.Resource.demand, hbody]
    exact Request.bind_sized rfl
  | uploadFirmware image | uploadCertificate image =>
    simp only [Operation.resource, Operation.verb, Rest.Resource.demand, Request.wholeBody_eq]
    exact Request.bind_sized rfl
  | deleteAccount id | getHardwareParameters id =>
    have hid := htext id.text (by simp [Operation.segments])
    simp only [Operation.resource, Operation.verb, Rest.Resource.demand, hid]
    rfl
  | deletePlanning id | getPlanningSlots id | deleteSlot planning slot =>
    simp only [Operation.resource, Operation.verb, Rest.Resource.demand, hplanning, hslot]
    rfl
  | _ => rfl

end Client
end HeatingControl
