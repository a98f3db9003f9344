import HeatingControl.Proofs.Wire.Records
import HeatingControl.Proofs.Wire.Texts
import HeatingControl.Wire.Kind
import Mathlib

/-!
# The normal form of a text

A value that was decoded is written in one way, however its text was spelled, and the text that is
written is decoded to the same value. Only modes and overrides have values that no text stands
for; those that come from a text have one.
-/
namespace HeatingControl.Wire

theorem ok_of_bind {α β : Type} {x : Except Misfit α} {f : α → Except Misfit β} {b : β}
    (h : (x >>= f) = .ok b) : ∃ a, x = .ok a ∧ f a = .ok b := by
  cases x with
  | error e => cases h
  | ok a => exact ⟨a, rfl, h⟩

section Decoded

variable {α : Type} [Wire α]

theorem decoded_of_required {places : List (Option Json)} {i : Nat} {v : α}
    (h : required places i = .ok v) : ∃ j, decode j = .ok v := by
  unfold required at h
  split at h
  · exact ⟨_, h⟩
  · cases h

theorem decoded_of_nullable {j : Json} {v : α} (h : decodeNullable j = .ok (some v)) :
    decode j = .ok v := by
  unfold decodeNullable at h
  split at h
  · cases h
  · cases hv : (decode j : Except Misfit α) with
    | error e =>
      rw [hv] at h
      cases h
    | ok w =>
      rw [hv] at h
      cases h
      rfl

theorem decoded_of_optional {places : List (Option Json)} {i : Nat} {v : α}
    (h : optional places i = .ok (some v)) : ∃ j, decode j = .ok v := by
  unfold optional at h
  split at h
  · exact ⟨_, decoded_of_nullable h⟩
  · cases h

end Decoded

section Forms

variable {α β ε : Type} [Wire β] {write : α → β} {j : Json} {v : α}

theorem made_of_via {make : β → α} (h : (via write make).decode j = .ok v) : ∃ b, make b = v := by
  change (decode j : Except Misfit β).map make = .ok v at h
  cases hb : (decode j : Except Misfit β) with
  | error e =>
    rw [hb] at h
    cases h
  | ok b =>
    rw [hb] at h
    cases h
    exact ⟨b, rfl⟩

theorem made_of_viaChecked {make : β → Except ε α} (h : (viaChecked write make).decode j = .ok v) :
    ∃ b, make b = .ok v := by
  unfold viaChecked at h
  dsimp only at h
  split at h
  · cases h
  · split at h
    · rename_i hmake
      cases h
      exact ⟨_, hmake⟩
    · cases h

end Forms

theorem faithful_of_decoded_mode {j : Json} {m : ZoneMode} (h : decode j = .ok m) :
    Faithful m := by
  obtain ⟨s, hs⟩ := made_of_viaChecked h
  exact faithful_zoneMode (ZoneMode.parse_display (ZoneMode.written_of_parse hs))

theorem faithful_of_decoded_override {j : Json} {o : Override} (h : decode j = .ok o) :
    Faithful o := by
  obtain ⟨s, rfl⟩ := made_of_via h
  exact faithful_override (Override.parse_display_parse s)

theorem faithful_of_decoded_zone {j : Json} {z : Zone} (h : decode j = .ok z) : Faithful z := by
  obtain ⟨places, -, h⟩ := ok_of_bind h
  obtain ⟨id, -, h⟩ := ok_of_bind h
  obtain ⟨description, -, h⟩ := ok_of_bind h
  obtain ⟨mode, hmode, h⟩ := ok_of_bind h
  obtain ⟨current, -, h⟩ := ok_of_bind h
  cases h
  obtain ⟨j, hj⟩ := decoded_of_required hmode
  exact faithful_zone (faithful_of_decoded_mode hj)

theorem faithful_of_decoded_zonePatch {j : Json} {p : ZonePatch} (h : decode j = .ok p) :
    Faithful p := by
  obtain ⟨places, -, h⟩ := ok_of_bind h
  obtain ⟨description, -, h⟩ := ok_of_bind h
  obtain ⟨mode, hmode, h⟩ := ok_of_bind h
  cases h
  refine faithful_zonePatch fun m hm => ?_
  obtain rfl : mode = some m := hm
  obtain ⟨j, hj⟩ := decoded_of_optional hmode
  exact faithful_of_decoded_mode hj

theorem faithful_of_decoded_overrideBody {j : Json} {b : OverrideBody} (h : decode j = .ok b) :
    Faithful b := by
  obtain ⟨places, -, h⟩ := ok_of_bind h
  obtain ⟨value, hvalue, h⟩ := ok_of_bind h
  cases h
  obtain ⟨j, hj⟩ := decoded_of_required hvalue
  exact faithful_overrideBody (faithful_of_decoded_override hj)

/-- Whatever is decoded is read again from what is written for it. -/
theorem faithful_of_decoded (k : Kind) {j : Json} {v : k.Value} (h : decode j = .ok v) :
    Faithful v := by
  cases k with
  | zoneMode => exact faithful_of_decoded_mode h
  | zone => exact faithful_of_decoded_zone h
  | zonePatch => exact faithful_of_decoded_zonePatch h
  | override => exact faithful_of_decoded_overrideBody h
  | zoneId => exact faithful_zoneId v
  | orderId => exact faithful_orderId v
  | accountId => exact faithful_accountId v
  | hardwareId => exact faithful_hardwareId v
  | planningId => exact faithful_planningId v
  | slotId => exact faithful_slotId v
  | order => exact faithful_order v
  | planning => exact faithful_planning v
  | planningName => exact faithful_planningName v
  | day => exact faithful_day v
  | slot => exact faithful_slot v
  | newSlot => exact faithful_newSlot v
  | slotPatch => exact faithful_slotPatch v
  | account => exact faithful_account v
  | newAccount => exact faithful_newAccount v
  | passwordReset => exact faithful_passwordReset v
  | hardwareType => exact faithful_hardwareType v
  | hardwareList => exact faithful_hardwareList v
  | hardwareParameter => exact faithful_hardwareParameter v
  | status => exact faithful_status v

theorem decoded_of_document {α : Type} [Wire α] {d : Json.Document} {v : α}
    (h : ofDocument d = .ok v) : decode d.value = .ok v := by
  unfold ofDocument at h
  split at h
  · cases h
  · rename_i w hw
    split at h
    · cases h
      exact hw
    · cases h

theorem written_of_document (k : Kind) {d : Json.Document} {v : k.Value}
    (h : ofDocument d = .ok v) :
    ofText (toText v) = .ok v ∧ ofBytes (Utf8.encode (toText v)) = .ok v := by
  have hv : Faithful v := faithful_of_decoded k (decoded_of_document h)
  exact ⟨ofText_toText hv, ofBytes_toText hv⟩

/-- However the text of a value was spelled, the text that is written for the value holds exactly
that value again, and it is written as it is. This is the normal form of the first text. The same
goes for octets. -/
theorem normal_form_settles (k : Kind) :
    (∀ s (v : k.Value), ofText s = .ok v →
      ofText (toText v) = .ok v ∧ k.normalise s = .ok (toText v) ∧
        k.normalise (toText v) = .ok (toText v)) ∧
    ∀ bs (v : k.Value), ofBytes bs = .ok v → ofBytes (Utf8.encode (toText v)) = .ok v := by
  constructor
  · intro s v h
    obtain ⟨hread, -⟩ := written_of_document k h
    refine ⟨hread, ?_, ?_⟩
    · rw [Kind.normalise, h]
      rfl
    · rw [Kind.normalise, hread]
      rfl
  · intro bs v h
    exact (written_of_document k h).2

/-- A zone as an array whose mode has leading zeros, and an override with blanks around it. -/
theorem spellings_settle :
    let z : Zone := ⟨⟨"e1z1"⟩, "salon", .planning ⟨7⟩, ⟨"cozy"⟩⟩
    let b : OverrideBody := ⟨.order ⟨"cozy"⟩⟩
    ofText "[\"e1z1\", \"salon\", \":planning:007\", \"cozy\"]" = .ok z ∧
      ofText (toText z) = .ok z ∧ Kind.zone.normalise (toText z) = .ok (toText z) ∧
      toText z = "\x7b\"id\":\"e1z1\",\"description\":\"salon\",\"mode\":\":planning:7\"," ++
        "\"current\":\"cozy\"\x7d" ∧
      ofBytes (Utf8.encode "\x7b\"override\": \" cozy \"\x7d") = .ok b ∧
      ofBytes (Utf8.encode (toText b)) = .ok b ∧
      toText b = "\x7b\"override\":\"cozy\"\x7d" := by
  intro z b
  have hzone : ofText "[\"e1z1\", \"salon\", \":planning:007\", \"cozy\"]" = .ok z := by
    cbv
  have hoverride : ofBytes (Utf8.encode "\x7b\"override\": \" cozy \"\x7d") = .ok b := by
    rw [ofBytes_encode]
    cbv
  obtain ⟨hagain, -, hnormal⟩ := (normal_form_settles .zone).1 _ z hzone
  have hbytes := (normal_form_settles .override).2 _ b hoverride
  exact ⟨hzone, hagain, hnormal, by cbv, hoverride, hbytes, by cbv⟩

end HeatingControl.Wire
