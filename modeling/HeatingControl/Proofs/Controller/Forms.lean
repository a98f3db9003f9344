import HeatingControl.Proofs.Controller.Boards
import HeatingControl.Proofs.Controller.Frame
import Mathlib.Data.List.Nodup

/-!
# Settings as a form

Settings that come from a form are sent to the controller as a form again, and there come to the
same settings, as long as every value that is kept is the one its text stands for.
-/
namespace HeatingControl

def HardwareParameter.Kept (p : HardwareParameter) : Prop :=
  ParameterValue.parse p.id p.kind p.value.display = .ok p.value

namespace HardwareSettings

variable {fields : List (String × String)} {p : HardwareParameter}

theorem filled_kept (h : Fits fields p) (hp : p.Kept) : (filled fields p).Kept := by
  unfold filled valueFor
  cases hfield : field? fields p.id with
  | none => exact hp
  | some raw =>
    obtain ⟨value, hvalue⟩ := h raw hfield
    simp only [hvalue, Except.map]
    exact ParameterValue.parse_display hvalue _

theorem field?_texts {parameters : List HardwareParameter}
    (value : HardwareParameter → ParameterValue) (hn : (parameters.map (·.id)).Nodup)
    (hp : p ∈ parameters) :
    field? (parameters.map fun q => (q.id, (value q).display)) p.id = some (value p).display := by
  have hparameter := Table.find?_of_mem hn hp
  rw [field?, List.find?_map]
  simp only [Function.comp_def, hparameter, Option.map_some]

theorem ofForm_submitted {board : HardwareId} {parameters : List HardwareParameter}
    {value : HardwareParameter → ParameterValue} {text : HardwareParameter → String}
    (htext : ∀ p ∈ parameters, field? fields p.id = some (text p)) :
    ofForm board fields parameters = .ok ⟨board, parameters.map fun p => (p.id, value p)⟩ ↔
      ∀ p ∈ parameters, ParameterValue.parse p.id p.kind (text p) = .ok (value p) := by
  rw [ofForm_ok_iff]
  constructor
  · rintro ⟨hfits, hsettings⟩ p hp
    have hvalues := List.map_inj_left.mp (HardwareSettings.mk.inj hsettings).2 p hp
    obtain ⟨read, hread⟩ := hfits p hp _ (htext p hp)
    rw [filled_of_submitted (htext p hp) hread] at hvalues
    rw [hread, (Prod.mk.inj hvalues).2]
  · intro hparse
    constructor
    · intro p hp raw hraw
      rw [htext p hp, Option.some.injEq] at hraw
      subst hraw
      exact ⟨value p, hparse p hp⟩
    · congr 1
      refine List.map_congr_left fun p hp => ?_
      rw [filled_of_submitted (htext p hp) (hparse p hp)]

/-- The form of some settings has the board first, and then the text of every value under the id
of its parameter. -/
theorem field?_formFields {parameters : List HardwareParameter} (board : HardwareId)
    (value : HardwareParameter → ParameterValue) (hn : (parameters.map (·.id)).Nodup)
    (hp : p ∈ parameters) :
    field? (formFields ⟨board, parameters.map fun p => (p.id, value p)⟩) p.id =
      some (if p.id = boardField then board.text else (value p).display) := by
  have hrest := field?_texts value hn hp
  rw [field?] at hrest ⊢
  simp only [formFields, List.map_map, Function.comp_def]
  by_cases hid : p.id = boardField
  · rw [if_pos hid, List.find?_cons_of_pos (by simpa using hid.symm)]
    rfl
  · rw [if_neg hid, List.find?_cons_of_neg (by simpa using Ne.symm hid)]
    exact hrest

section Unchanged

variable {parameters : List HardwareParameter} (hn : (parameters.map (·.id)).Nodup)
  (hkept : ∀ p ∈ parameters, p.Kept)

include hn hkept

theorem filled_texts : ∀ p ∈ parameters,
    Fits (parameters.map fun q => (q.id, q.value.display)) p ∧
      filled (parameters.map fun q => (q.id, q.value.display)) p = p := by
  intro p hp
  have hfield := field?_texts HardwareParameter.value hn hp
  refine ⟨?_, filled_of_submitted hfield (hkept p hp)⟩
  intro raw hraw
  rw [hfield, Option.some.injEq] at hraw
  subst hraw
  exact ⟨p.value, hkept p hp⟩

theorem ofForm_texts (board : HardwareId) :
    ofForm board (parameters.map fun q => (q.id, q.value.display)) parameters =
      .ok ⟨board, parameters.map fun p => (p.id, p.value)⟩ :=
  (ofForm_submitted fun _ hp => field?_texts HardwareParameter.value hn hp).mpr hkept

/-- What a form makes of the current values is made of them again by its own form, unless there is
a parameter that is called what the board is: it is given what the text of the board stands for. -/
theorem ofForm_formFields_iff {board : HardwareId} {settings : HardwareSettings}
    (h : ofForm board fields parameters = .ok settings) :
    ofForm board settings.formFields parameters = .ok settings ↔
      ∀ p ∈ parameters, p.id = boardField → ∀ value, (p.id, value) ∈ settings.values →
        ParameterValue.parse p.id p.kind board.text = .ok value := by
  obtain ⟨hfits, rfl⟩ := ofForm_ok_iff.mp h
  have hparse : ∀ p ∈ parameters, ParameterValue.parse p.id p.kind
      (filled fields p).value.display = .ok (filled fields p).value := by
    intro p hp
    have hfilled := filled_kept (hfits p hp) (hkept p hp)
    rwa [← filled_eq] at hfilled
  have hfield : ∀ p ∈ parameters, _ :=
    fun p hp => field?_formFields board (fun p => (filled fields p).value) hn hp
  rw [ofForm_submitted hfield]
  constructor
  · intro hread p hp hid value hvalue
    obtain ⟨q, hq, heq⟩ := List.mem_map.mp hvalue
    obtain ⟨hsame, rfl⟩ := Prod.mk.inj heq
    obtain rfl := List.inj_on_of_nodup_map hn hq hp hsame
    have hboard := hread q hq
    rwa [if_pos hid] at hboard
  · intro hread p hp
    by_cases hid : p.id = boardField
    · rw [if_pos hid]
      exact hread p hp hid _ (List.mem_map_of_mem hp)
    · rw [if_neg hid]
      exact hparse p hp

end Unchanged

theorem ofForm_formFields {board : HardwareId} {parameters : List HardwareParameter}
    {settings : HardwareSettings} (hn : (parameters.map (·.id)).Nodup)
    (hboard : ∀ p ∈ parameters, p.id ≠ boardField) (hkept : ∀ p ∈ parameters, p.Kept)
    (h : ofForm board fields parameters = .ok settings) :
    ofForm board settings.formFields parameters = .ok settings :=
  (ofForm_formFields_iff hn hkept h).mpr fun p hp hid => absurd hid (hboard p hp)

end HardwareSettings

namespace State

/-- Every value that is kept is the one its text stands for. -/
def ValuesKept (s : State) : Prop := ∀ e ∈ s.parameters, ∀ p ∈ e.2, p.Kept

theorem BoardsKept.no_boardField {s : State} (hs : BoardsKept s) {board : HardwareId}
    {parameters : List HardwareParameter} (h : (board, parameters) ∈ s.parameters) :
    ∀ p ∈ parameters, p.id ≠ HardwareSettings.boardField := by
  have hseed : ∀ e ∈ State.schemas Seed.parameters,
      ∀ p ∈ e.2, p.1 ≠ HardwareSettings.boardField := by decide
  have hmem : (board, parameters.map (·.schema)) ∈ State.schemas s.parameters :=
    List.mem_map_of_mem (f := fun e => (e.1, e.2.map (·.schema))) h
  rw [hs.schemas] at hmem
  exact fun p hp => hseed _ hmem p.schema (List.mem_map_of_mem hp)

theorem perform_parameters (s : State) (grace : Nat) (t : Moment) {op : Operation}
    (h : ∀ settings, op ≠ .applyHardware settings) :
    (perform grace t op s).2.parameters = s.parameters := by
  obtain ⟨u, hframe⟩ := perform_frame grace t op s
  rw [hframe]
  cases op with
  | applyHardware settings => exact absurd rfl (h settings)
  | _ => rfl

theorem applyHardware_unchanged {s : State} (hs : BoardsKept s) (hkept : s.ValuesKept)
    {board : HardwareId} {parameters : List HardwareParameter}
    (hcurrent : s.hardware.current = some board)
    (found : Table.get? board s.parameters = some parameters) :
    applyHardware ⟨board, parameters.map fun p => (p.id, p.value)⟩ s = (.ok (), s) := by
  have hentry := Table.mem_of_get? found
  have hn := hs.ids_distinct hentry
  have htexts := HardwareSettings.filled_texts hn (hkept _ hentry)
  have hfilled : parameters.map (HardwareSettings.filled
      (parameters.map fun q => (q.id, q.value.display))) = parameters :=
    (List.map_congr_left fun p hp => (htexts p hp).2).trans (List.map_id _)
  have hvalues : (parameters.map fun p => (p.id, p.value)) = parameters.map fun p =>
      (p.id, (HardwareSettings.filled
        (parameters.map fun q => (q.id, q.value.display)) p).value) :=
    List.map_congr_left fun p hp => by rw [(htexts p hp).2]
  have hfound : Table.get? board s.parameters = some (parameters.map id) := by
    rw [List.map_id]
    exact found
  rw [hvalues, applyHardware_filled hs (fun _ => rfl) hfound (fun p hp => (htexts p hp).1)
    (hs.readable _ hentry), hfilled, withBoard, Table.adjust_const_of_get? hs.keys_distinct found,
    ← hcurrent]

end State
end HeatingControl
