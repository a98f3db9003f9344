import HeatingControl.Client.Exchange
import HeatingControl.Proofs.Rest.Calls
import HeatingControl.Proofs.Wire.Records

/-!
# Replies are read as what they answer

The response to an operation that succeeded is read as its answer, the response to one that failed
as a failure with its status.
-/
namespace HeatingControl

def Response.reply (r : Response) : Reply := .answered r.status (Utf8.encode r.body) none

def Operation.AnswerLegible : (op : Operation) → op.Answer → Prop
  | .getOverride, value => Override.parse value.display = value
  | .getZones, zones => ∀ z ∈ zones, ZoneMode.parse z.mode.display = .ok z.mode
  | _, _ => True

namespace Client

open Rest (success failure failureStatus planningView)

variable (c : Client)

theorem value_written {α : Type} [Wire α] {v : α} (h : Wire.Faithful v) (op : Operation) :
    c.value op (Utf8.encode (Wire.encode v).write) none = .ok v := by
  have hread : Wire.ofBytes (Utf8.encode (Wire.encode v).write) = .ok v := Wire.ofBytes_toText h
  simp only [value, bodyText, hread]

theorem listing_written {α : Type} [Wire α] {l : List α} (h : ∀ v ∈ l, Wire.Faithful v)
    (name : String) (op : Operation) :
    c.listing name op
      (Utf8.encode (Wire.encode (Wire.Listing.mk l : Wire.Listing name α)).write) none = .ok l := by
  have hlist : Wire.Faithful (Wire.Listing.mk l : Wire.Listing name α) := Wire.faithful_listing h
  rw [listing, value_written c hlist]
  rfl

theorem read_success (op : Operation) {v : op.Answer} (h : op.AnswerLegible v) :
    c.read op (success op v).reply = .ok v := by
  cases op with
  | getStatus => exact value_written c (Wire.faithful_status v) .getStatus
  | getOrders => exact listing_written c (fun o _ => Wire.faithful_order o) "orders" .getOrders
  | getOverride =>
    have hbody := Wire.faithful_overrideBody (b := ⟨v⟩) (Wire.faithful_override h)
    exact congrArg (Except.map Wire.OverrideBody.value) (value_written c hbody .getOverride)
  | getZones =>
    exact listing_written c (fun z hz => Wire.faithful_zone (Wire.faithful_zoneMode (h z hz)))
      "zones" .getZones
  | getPlannings =>
    exact listing_written c (fun p _ => Wire.faithful_planning p) "plannings" .getPlannings
  | getPlanningSlots id =>
    exact listing_written c (fun x _ => Wire.faithful_slot x) "slots" (.getPlanningSlots id)
  | getAccounts =>
    exact listing_written c (fun a _ => Wire.faithful_account a) "accounts" .getAccounts
  | getHardware => exact value_written c (Wire.faithful_hardwareList v) .getHardware
  | getHardwareParameters id =>
    exact listing_written c (fun p _ => Wire.faithful_hardwareParameter p) "parameters"
      (.getHardwareParameters id)
  | reboot => exact congrArg Except.ok (Utf8.decodeLossy_encode v)
  | _ => rfl

theorem read_planningView (id : PlanningId) (name : String) (slots : List Slot) :
    c.read (.getPlanningSlots id) (planningView id name slots).reply = .ok slots := by
  have hslots : Wire.Faithful slots := Wire.faithful_list fun x _ => Wire.faithful_slot x
  have hplain : (Json.object [("id", Wire.encode id), ("name", .text name),
      ("slots", Wire.encode slots)]).Plain :=
    ⟨(Wire.faithful_planningId id).plain, trivial, hslots.plain, trivial⟩
  have hplaces : Wire.places [Wire.field (List Slot) ["slots"]] (.object [("id", Wire.encode id),
      ("name", .text name), ("slots", Wire.encode slots)]) = .ok [some (Wire.encode slots)] := by
    have haccept : (Wire.field (List Slot) ["slots"]).accept (Wire.encode slots) = .ok () := by
      simp [Wire.field, hslots, Except.map]
    rw [Wire.places, Wire.place_unknown (by simp [Wire.field]) hplain.1,
      Wire.place_unknown (by simp [Wire.field]) hplain.2.1]
    exact Wire.place_next [] [] rfl (by simp) (by simp [Wire.field])
      hslots.plain haccept []
  have hread : (Wire.decode (.object [("id", Wire.encode id), ("name", .text name),
      ("slots", Wire.encode slots)]) : Except Misfit (Wire.Listing "slots" Slot)) = .ok ⟨slots⟩ := by
    change (Wire.places _ _ >>= _) = _
    rw [hplaces]
    simp [bind, Except.bind, Wire.required, hslots]
    rfl
  have hbytes : (Wire.ofBytes (Utf8.encode (planningView id name slots).body) :
      Except Misfit (Wire.Listing "slots" Slot)) = .ok ⟨slots⟩ := by
    change Wire.ofDocument (Json.readBytes (Utf8.encode (Json.write _))) = _
    rw [Json.readBytes_encode, Json.read_write hplain, Wire.ofDocument, hread]
    rfl
  change c.listing "slots" (.getPlanningSlots id) _ none = .ok slots
  simp only [listing, value, bodyText, hbytes]
  rfl

theorem read_failure (op : Operation) {e : Error} (h : isSuccess (failureStatus e) = false) :
    c.read op (failure e).reply =
      .error (.http op.verb (c.path op.endpoint) (failureStatus e)) := by
  change (if isSuccess (failureStatus e) then _ else _) = _
  rw [h]
  rfl

end Client
end HeatingControl
