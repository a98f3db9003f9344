import HeatingControl.Proofs.Client.Segment

/-!
# Ids in a path

The ids of zones, accounts and boards are put into the path of a request as they are. An id
arrives at the operation it was meant for exactly if it is a segment of a path as it stands and
short enough to be sent; other ids are cut, resolved or decoded to something else on the way.
-/
namespace HeatingControl

open Target (IsSegment ClosesPath joined sent pathPart encoded pathAdmits isIdChar)

/-- What an operation names by a text. -/
inductive Record where
  | zone (id : ZoneId)
  | account (id : AccountId)
  | board (id : HardwareId)
  deriving DecidableEq, Repr

namespace Record

def text : Record → String
  | .zone id => id.text
  | .account id => id.text
  | .board id => id.text

def kind : Record → String
  | .zone _ => "zones"
  | .account _ => "accounts"
  | .board _ => "hardware"

def behind : Record → List String
  | .board _ => ["parameters"]
  | _ => []

/-- The id arrives as it is. -/
def Survives : Record → Prop
  | .zone id => ClosesPath id.text
  | .account id => ClosesPath id.text
  | .board id => IsSegment id.text

theorem Survives.isSegment {record : Record} (h : record.Survives) : IsSegment record.text := by
  cases record with
  | zone id => exact ClosesPath.toIsSegment h
  | account id => exact ClosesPath.toIsSegment h
  | board id => exact h

theorem Survives.closesPath {record : Record} (h : record.Survives)
    (hend : record.behind.map String.toList = []) : ClosesPath record.text := by
  cases record with
  | zone id => exact h
  | account id => exact h
  | board id => cases hend

theorem Survives.received {record : Record} (h : record.Survives) :
    Request.textSegment (String.ofList (encoded pathAdmits record.text.toList)) =
      .ok record.text := by
  rw [Request.textSegment, h.isSegment.received]

theorem Survives.sent_nonempty {record : Record} (h : record.Survives)
    (hend : record.behind = []) :
    String.ofList (encoded pathAdmits record.text.toList) ≠ "" := by
  intro hempty
  have hreceived := h.isSegment.received
  rw [hempty, Percent.decodeText?_of_plain (by simp), Option.some.injEq] at hreceived
  exact (h.closesPath (by rw [hend]; rfl)).nonempty hreceived.symm

end Record

namespace Operation

def record? : Operation → Option Record
  | .patchZone id _ => some (.zone id)
  | .deleteAccount id => some (.account id)
  | .resetPassword id _ => some (.account id)
  | .getHardwareParameters id => some (.board id)
  | _ => none

theorem segments_of_record {op : Operation} {record : Record} (h : op.record? = some record) :
    op.segments = record.kind :: record.text :: record.behind := by
  cases op with
  | patchZone id patch =>
    cases h
    rfl
  | deleteAccount id =>
    cases h
    rfl
  | resetPassword id reset =>
    cases h
    rfl
  | getHardwareParameters id =>
    cases h
    rfl
  | _ => cases h

end Operation

namespace Rest

def Resource.record? : Resource → Option Record
  | .zone id => (Request.textSegment id).toOption.map fun t => .zone ⟨t⟩
  | .account id => (Request.textSegment id).toOption.map fun t => .account ⟨t⟩
  | .parameters id => (Request.textSegment id).toOption.map fun t => .board ⟨t⟩
  | _ => none

/-- The verb and the record of the handler that a request comes to. -/
def routed? (r : Request) : Option (Verb × Record) := do
  let resource ← resource? r.segments
  let verb ← r.verb?
  let record ← resource.record?
  return (verb, record)

theorem routed?_eq_some_iff {r : Request} {verb : Verb} {record : Record} :
    routed? r = some (verb, record) ↔
      ∃ resource, resource? r.segments = some resource ∧ r.verb? = some verb ∧
        resource.record? = some record := by
  simp [routed?, Option.bind_eq_some_iff]

theorem Resource.record?_of_demand {r : Request} {verb : Verb} {resource : Resource}
    {op : Operation} {record : Record} (h : resource.demand r verb = .ok (.operation op))
    (hrecord : op.record? = some record) :
    verb = op.verb ∧ resource.record? = some record := by
  cases resource with
  | zone id =>
    cases hid : Request.textSegment id with
    | error e => cases verb <;> simp [Resource.demand, hid, bind, Except.bind] at h
    | ok t =>
      cases verb with
      | patch =>
        simp only [Resource.demand, ask, hid, bind, Except.bind] at h
        split at h
        · cases h
        · cases h
          cases hrecord
          simp [Operation.verb, Resource.record?, hid, Except.toOption]
      | _ => simp [Resource.demand, hid, bind, Except.bind, pure, Except.pure] at h
  | account id =>
    cases hid : Request.textSegment id with
    | error e => cases verb <;> simp [Resource.demand, hid, bind, Except.bind] at h
    | ok t =>
      cases verb with
      | patch =>
        simp only [Resource.demand, ask, hid, bind, Except.bind] at h
        split at h
        · cases h
        · cases h
          cases hrecord
          simp [Operation.verb, Resource.record?, hid, Except.toOption]
      | delete =>
        simp only [Resource.demand, ask, hid, bind, Except.bind] at h
        cases h
        cases hrecord
        simp [Operation.verb, Resource.record?, hid, Except.toOption]
      | _ => simp [Resource.demand] at h
  | parameters id =>
    cases hid : Request.textSegment id with
    | error e => cases verb <;> simp [Resource.demand, hid, bind, Except.bind] at h
    | ok t =>
      cases verb with
      | get =>
        simp only [Resource.demand, ask, hid, bind, Except.bind] at h
        cases h
        cases hrecord
        simp [Operation.verb, Resource.record?, hid, Except.toOption]
      | _ => simp [Resource.demand] at h
  | _ =>
    -- The operations on other resources name no record.
    exfalso
    cases verb <;> simp only [Resource.demand, ask, bind, Except.bind, pure, Except.pure] at h
    all_goals
      repeat' split at h
    all_goals
      cases h
    all_goals
      cases hrecord

theorem routed?_of_demand {r : Request} {op : Operation} {record : Record}
    (h : demand r = .ok (.operation op)) (hrecord : op.record? = some record) :
    routed? r = some (op.verb, record) := by
  rw [routed?_eq_some_iff]
  unfold demand at h
  cases hresource : resource? r.segments with
  | none => simp [hresource] at h
  | some resource =>
    cases hverb : r.verb? with
    | none => simp [hresource, hverb] at h
    | some verb =>
      simp only [hresource, hverb] at h
      obtain ⟨rfl, hnamed⟩ := Resource.record?_of_demand h hrecord
      exact ⟨resource, rfl, rfl, hnamed⟩

theorem segments_of_zone {segments : List String} {s : String}
    (h : resource? segments = some (.zone s)) : s ∈ segments ∧ s ≠ "" := by
  unfold resource? below at h
  repeat' split at h
  all_goals cases h
  rename_i hne
  exact ⟨by simp, hne⟩

theorem segments_of_account {segments : List String} {s : String}
    (h : resource? segments = some (.account s)) : s ∈ segments ∧ s ≠ "" := by
  unfold resource? below at h
  repeat' split at h
  all_goals cases h
  rename_i hne
  exact ⟨by simp, hne⟩

theorem segments_of_parameters {segments : List String} {s : String}
    (h : resource? segments = some (.parameters s)) : s ∈ segments := by
  unfold resource? below at h
  repeat' split at h
  all_goals cases h
  simp

theorem textSegment_of_record {s : String} {record : Record} {f : String → Record}
    (h : (Request.textSegment s).toOption.map f = some record) :
    ∃ t, Request.textSegment s = .ok t ∧ f t = record := by
  cases hs : Request.textSegment s with
  | error e => simp [hs, Except.toOption] at h
  | ok t =>
    rw [hs] at h
    exact ⟨t, rfl, Option.some.inj h⟩

/-- What a path names stands in one of its segments, which is not empty at the end. -/
theorem segment_of_resource? {segments : List String} {resource : Resource} {record : Record}
    (h : resource? segments = some resource) (hrecord : resource.record? = some record) :
    ∃ s ∈ segments, Request.textSegment s = .ok record.text ∧
      (record.behind = [] → s ≠ "") := by
  cases resource with
  | zone s =>
    obtain ⟨hmem, hne⟩ := segments_of_zone h
    obtain ⟨t, hs, rfl⟩ := textSegment_of_record hrecord
    exact ⟨s, hmem, hs, fun _ => hne⟩
  | account s =>
    obtain ⟨hmem, hne⟩ := segments_of_account h
    obtain ⟨t, hs, rfl⟩ := textSegment_of_record hrecord
    exact ⟨s, hmem, hs, fun _ => hne⟩
  | parameters s =>
    obtain ⟨t, hs, rfl⟩ := textSegment_of_record hrecord
    exact ⟨s, segments_of_parameters h, hs, nofun⟩
  | _ => cases hrecord

theorem resource?_zone {s : String} (h : s ≠ "") :
    resource? ["ofp-api", "v1", "zones", s] = some (.zone s) := by
  simp [resource?, below, h]

theorem resource?_account {s : String} (h : s ≠ "") :
    resource? ["ofp-api", "v1", "accounts", s] = some (.account s) := by
  simp [resource?, below, h]

theorem resource?_parameters (s : String) :
    resource? ["ofp-api", "v1", "hardware", s, "parameters"] = some (.parameters s) := rfl

theorem resource?_of_segment {record : Record} {s : String}
    (hs : Request.textSegment s = .ok record.text) (hne : record.behind = [] → s ≠ "") :
    ∃ resource, resource? ("ofp-api" :: "v1" :: record.kind :: s :: record.behind) =
      some resource ∧ resource.record? = some record := by
  cases record with
  | zone id =>
    refine ⟨.zone s, resource?_zone (hne rfl), ?_⟩
    simp [Resource.record?, hs, Except.toOption, Record.text]
  | account id =>
    refine ⟨.account s, resource?_account (hne rfl), ?_⟩
    simp [Resource.record?, hs, Except.toOption, Record.text]
  | board id =>
    refine ⟨.parameters s, resource?_parameters s, ?_⟩
    simp [Resource.record?, hs, Except.toOption, Record.text]

end Rest

namespace Client

variable {c : Client} {op : Operation} {record : Record}

theorem path_of_record (hc : c.AtOrigin) (hrecord : op.record? = some record) :
    (c.path op.endpoint).toList =
      joined (["ofp-api", "v1", record.kind].map String.toList) ++
        '/' :: (record.text.toList ++ joined (record.behind.map String.toList)) := by
  rw [path, hc.root, Operation.path_toList, Operation.segments_of_record hrecord]
  simp [joined]

theorem front_words (record : Record) :
    ∀ w ∈ ["ofp-api", "v1", record.kind].map String.toList, ∀ d ∈ w, isIdChar d = true := by
  have hwords : ∀ kind ∈ ["zones", "accounts", "hardware"], ∀ w ∈ ["ofp-api", "v1", kind],
      IsWord w := by decide
  have hkind : record.kind ∈ ["zones", "accounts", "hardware"] := by
    cases record with
    | zone id => simp [Record.kind]
    | account id => simp [Record.kind]
    | board id => simp [Record.kind]
  intro w hw d hd
  obtain ⟨word, hword, rfl⟩ := List.mem_map.mp hw
  exact (hwords record.kind hkind word hword).chars d hd

theorem behind_words (record : Record) :
    ∀ w ∈ record.behind.map String.toList, ∀ d ∈ w, isIdChar d = true := by
  cases record with
  | zone id => simp [Record.behind]
  | account id => simp [Record.behind]
  | board id =>
    have hword : IsWord "parameters" := by decide
    intro w hw
    obtain rfl := List.mem_singleton.mp hw
    exact hword.chars

theorem request_segments_eq (hc : c.AtOrigin) (op : Operation) :
    (c.request op).segments = (sent (pathPart (c.path op.endpoint))).map String.ofList := by
  rw [request, hc.target]
  exact Target.segments_ofPath ..

theorem segments_of_survives (hc : c.AtOrigin)
    (hrecord : op.record? = some record) (h : record.Survives) :
    (c.request op).segments = "ofp-api" :: "v1" :: record.kind ::
      String.ofList (encoded pathAdmits record.text.toList) :: record.behind := by
  have hsent := h.isSegment.sent_between (h.closesPath ·) (front_words record)
    (behind_words record) (path_of_record hc hrecord)
  rw [request_segments_eq hc, hsent]
  simp [Function.comp_def]

theorem routed?_of_survives (hc : c.AtOrigin)
    (hrecord : op.record? = some record) (h : record.Survives) :
    Rest.routed? (c.request op) = some (op.verb, record) := by
  obtain ⟨resource, hresource, hnamed⟩ := Rest.resource?_of_segment h.received h.sent_nonempty
  rw [Rest.routed?_eq_some_iff]
  refine ⟨resource, ?_, Request.verb?_text .., hnamed⟩
  rw [segments_of_survives hc hrecord h]
  exact hresource

theorem survives_of_routed? (hc : c.AtOrigin)
    (hrecord : op.record? = some record) {verb : Verb}
    (h : Rest.routed? (c.request op) = some (verb, record)) : record.Survives := by
  obtain ⟨resource, hresource, -, hnamed⟩ := Rest.routed?_eq_some_iff.mp h
  obtain ⟨s, hs, htext, hne⟩ := Rest.segment_of_resource? hresource hnamed
  rw [request_segments_eq hc] at hs
  obtain ⟨e, he, rfl⟩ := List.mem_map.mp hs
  -- The segment that was received decodes to the id, so it can only be the one sent for it.
  have hreceived : Percent.decodeText? (String.ofList e) = some record.text := by
    unfold Request.textSegment at htext
    split at htext
    · cases htext
    · rename_i hdecode
      cases htext
      exact hdecode
  have hnonempty : record.behind.map String.toList = [] → e ≠ [] := by
    rintro hnone rfl
    exact hne (List.map_eq_nil_iff.mp hnone) rfl
  obtain ⟨hsegment, hcloses⟩ := Target.isSegment_of_received (front_words record)
    (behind_words record) (path_of_record hc hrecord) he hnonempty hreceived
  cases record with
  | zone id => exact hcloses rfl
  | account id => exact hcloses rfl
  | board id => exact hsegment

theorem demand_of_survives (hc : c.AtOrigin)
    (hrecord : op.record? = some record) (h : record.Survives) (hlegible : op.Legible) :
    Rest.demand (c.request op) = Request.sized (bodyOf op).2 (.operation op) := by
  have hsegments := segments_of_survives hc hrecord h
  have hreceived := h.received
  have hne := h.sent_nonempty
  have hverb : (c.request op).verb? = some op.verb := Request.verb?_text ..
  cases op with
  | patchZone id patch =>
    cases hrecord
    have hbody := jsonBody_patchZone c hlegible
    have hresource : Rest.resource? (c.request (.patchZone id patch)).segments =
        some (.zone (String.ofList (encoded pathAdmits id.text.toList))) := by
      rw [hsegments]
      exact Rest.resource?_zone (hne rfl)
    simp only [Record.text] at hreceived
    simp only [Rest.demand, hresource, hverb, Operation.verb, Rest.Resource.demand, hreceived,
      Request.ok_bind, hbody]
    exact Request.bind_sized rfl
  | deleteAccount id =>
    cases hrecord
    have hresource : Rest.resource? (c.request (.deleteAccount id)).segments =
        some (.account (String.ofList (encoded pathAdmits id.text.toList))) := by
      rw [hsegments]
      exact Rest.resource?_account (hne rfl)
    simp only [Record.text] at hreceived
    simp only [Rest.demand, hresource, hverb, Operation.verb, Rest.Resource.demand, hreceived]
    rfl
  | resetPassword id reset =>
    cases hrecord
    have hbody := jsonBody_resetPassword c id reset
    have hresource : Rest.resource? (c.request (.resetPassword id reset)).segments =
        some (.account (String.ofList (encoded pathAdmits id.text.toList))) := by
      rw [hsegments]
      exact Rest.resource?_account (hne rfl)
    simp only [Record.text] at hreceived
    simp only [Rest.demand, hresource, hverb, Operation.verb, Rest.Resource.demand, hreceived,
      Request.ok_bind, hbody]
    exact Request.bind_sized rfl
  | getHardwareParameters id =>
    cases hrecord
    have hresource : Rest.resource? (c.request (.getHardwareParameters id)).segments =
        some (.parameters (String.ofList (encoded pathAdmits id.text.toList))) := by
      rw [hsegments]
      exact Rest.resource?_parameters _
    simp only [Record.text] at hreceived
    simp only [Rest.demand, hresource, hverb, Operation.verb, Rest.Resource.demand, hreceived]
    rfl
  | _ => cases hrecord

/-- A question mark cuts an id, dot segments lead to a record of another kind, and an escape is
decoded. -/
theorem ids_gone_astray :
    let c : Client := ⟨"http://controller.test", Operation.root⟩
    let routed (op : Operation) := (c.request? op).bind Rest.routed?
    build "http://controller.test" Operation.root = .ok c ∧
    routed (.deleteAccount ⟨"nico?x"⟩) = some (.delete, .account ⟨"nico"⟩) ∧
    (c.request? (.deleteAccount ⟨"../plannings/0"⟩)).map Rest.demand =
      some (.ok (.operation (.deletePlanning ⟨0⟩))) ∧
    routed (.getHardwareParameters ⟨"%45SP32"⟩) = some (.get, .board ⟨"ESP32"⟩) := by
  decide +kernel

/-- Under an origin, an operation on a zone, an account or a board is routed to this operation with
this very id exactly if the id survives the path and the url is not too long; the request then asks
for the operation, unless its body is too large. Under a longer url nothing is sent. Requests for
surviving ids that have one target are for one record. -/
theorem routed_ids {base : String} (hbuild : build base Operation.root = .ok c)
    (horigin : Url.IsOrigin c.base) (hrecord : op.record? = some record) :
    ((c.request? op).bind Rest.routed? = some (op.verb, record) ↔
      record.Survives ∧ (c.urlOf op).chars.length ≤ Url.limit) ∧
    (op.Legible → (bodyOf op).2.length ≤ Request.bodyLimit →
      ((c.request? op).map Rest.demand = some (.ok (.operation op)) ↔
        record.Survives ∧ (c.urlOf op).chars.length ≤ Url.limit)) ∧
    (Url.limit < (c.urlOf op).chars.length → ∃ cause, ∀ reply, c.exchange reply op =
      .error (.network op.verb (Operation.root ++ op.endpoint) cause)) ∧
    ∀ op' record', op'.record? = some record' → record.Survives → record'.Survives →
      (c.request op').target = (c.request op).target → record' = record := by
  have hc := atOrigin_of_build hbuild horigin
  refine ⟨?_, fun hlegible hbody => ?_, c.exchange_of_lt hc.root, ?_⟩
  · rw [request?_bind_eq_some_iff, and_comm (a := record.Survives)]
    exact and_congr_right fun _ =>
      ⟨survives_of_routed? hc hrecord, routed?_of_survives hc hrecord⟩
  · rw [Option.map_eq_bind, request?_bind_eq_some_iff, and_comm (a := record.Survives)]
    refine and_congr_right fun _ => ⟨fun hdemand => ?_, fun hsurvives => ?_⟩
    · have hrouted := Rest.routed?_of_demand (Option.some.inj hdemand) hrecord
      exact survives_of_routed? hc hrecord hrouted
    · rw [Function.comp_apply, demand_of_survives hc hrecord hsurvives hlegible,
        Request.sized_of_le hbody]
  · intro op' record' hrecord' hsurvives hsurvives' htarget
    have hrouted := routed?_of_survives hc hrecord hsurvives
    have hrouted' := routed?_of_survives hc hrecord' hsurvives'
    rw [Rest.routed?_eq_some_iff] at hrouted hrouted'
    obtain ⟨resource, hresource, -, hnamed⟩ := hrouted
    obtain ⟨resource', hresource', -, hnamed'⟩ := hrouted'
    have hsegments : (c.request op').segments = (c.request op).segments := by
      rw [Request.segments, Request.segments, Request.parts, Request.parts, htarget]
    rw [hsegments, hresource, Option.some.injEq] at hresource'
    subst hresource'
    exact Option.some.inj (hnamed'.symm.trans hnamed)

/-- Blanks within an id, accents and a percent sign at its end arrive, and so does a blank that is
no end of a path. A blank at the end of an account id is lost. -/
theorem accents_and_blanks_arrive :
    let c : Client := ⟨"http://controller.test", Operation.root⟩
    let delete : Operation := .deleteAccount ⟨"bébé 100%"⟩
    let read : Operation := .getHardwareParameters ⟨" "⟩
    build "http://controller.test" Operation.root = .ok c ∧ Url.IsOrigin c.base ∧
    (c.request? delete).map Rest.demand = some (.ok (.operation delete)) ∧
    (c.request? read).map Rest.demand = some (.ok (.operation read)) ∧
    (c.request? (.deleteAccount ⟨"nico "⟩)).bind Rest.routed? ≠
      some (.delete, .account ⟨"nico "⟩) := by
  intro c delete read
  have hc : build "http://controller.test" Operation.root = .ok c := by decide +kernel
  have horigin : Url.IsOrigin c.base :=
    ⟨("http", 80), by simp, "controller.test".toList, [],
      .name (by decide +kernel) (by decide +kernel), .inl rfl, by decide⟩
  have haccount : Record.Survives (.account ⟨"bébé 100%"⟩) := by
    constructor
    · exact Target.isSegment_of_all (by decide) (by decide) (by decide)
    · decide
    · intro d hd
      obtain rfl : '%' = d := Option.some.inj hd
      decide
  have hboard : Record.Survives (.board ⟨" "⟩) :=
    Target.isSegment_of_all (by decide) (by decide) (by decide)
  have hlost : ¬ Record.Survives (.account ⟨"nico "⟩) := by
    intro hsurvives
    have hedge := ClosesPath.no_edge hsurvives ' ' rfl
    cases hedge
  have hdelete : delete.record? = some (.account ⟨"bébé 100%"⟩) := rfl
  have hread : read.record? = some (.board ⟨" "⟩) := rfl
  have hblank : (Operation.deleteAccount ⟨"nico "⟩).record? = some (.account ⟨"nico "⟩) := rfl
  refine ⟨hc, horigin, ?_, ?_, ?_⟩
  · exact ((routed_ids hc horigin hdelete).2.1 trivial (by decide)).mpr
      ⟨haccount, by decide +kernel⟩
  · exact ((routed_ids hc horigin hread).2.1 trivial (by decide)).mpr
      ⟨hboard, by decide +kernel⟩
  · intro hrouted
    exact hlost ((routed_ids hc horigin hblank).1.mp hrouted).1

end Client
end HeatingControl
