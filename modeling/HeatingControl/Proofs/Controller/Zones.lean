import HeatingControl.Proofs.Controller.Edits
import Mathlib.Data.List.Nodup

/-!
# Zones during a run

No run adds a zone or takes one away, and every description is trimmed and not blank.
-/
namespace HeatingControl

structure Zone.Described (z : Zone) : Prop where
  trimmed : Text.trim z.description = z.description
  filled : z.description ≠ ""

namespace State

structure ZonesKept (s : State) : Prop where
  ids : s.zones.map (·.id) = Seed.zones.map (·.id)
  described : ∀ z ∈ s.zones, z.Described

variable {grace : Nat} {s u : State}

theorem Transition.preserves_zones (h : Transition s u) (hs : ZonesKept s) : ZonesKept u := by
  cases h with
  | zonePatched id description mode known entered =>
    refine ⟨?_, ?_⟩
    · rw [Table.map_updateFirst]
      · exact hs.ids
      · intro z _
        rfl
    · intro z hz
      rcases Table.mem_updateFirst hz with hz | ⟨w, hw, -, rfl⟩
      · exact hs.described z hz
      · cases description with
        | none => exact ⟨(hs.described w hw).trimmed, (hs.described w hw).filled⟩
        | some d => exact ⟨(entered d rfl).1, (entered d rfl).2⟩
  | planningDeleted id listed =>
    refine ⟨?_, ?_⟩
    · rw [List.map_map]
      exact hs.ids
    · intro z hz
      obtain ⟨w, hw, rfl⟩ := List.mem_map.mp hz
      exact ⟨(hs.described w hw).trimmed, (hs.described w hw).filled⟩
  | _ => exact ⟨hs.ids, hs.described⟩

theorem Reachable.zonesKept (h : Reachable grace s) : ZonesKept s := by
  have hdescribed : ∀ z ∈ Seed.zones,
      Text.trim z.description = z.description ∧ z.description ≠ "" := by decide +kernel
  refine (h.invariant (P := ZonesKept) ?_ ?_ fun _ _ _ hu hs => hu.preserves_zones hs).2
  · exact fun _ => ⟨rfl, fun z hz => ⟨(hdescribed z hz).1, (hdescribed z hz).2⟩⟩
  · intro s now hs
    obtain ⟨_, _, _, _, _, hrecords⟩ := boot_records now s
    rw [hrecords]
    exact ⟨hs.ids, hs.described⟩

theorem ZonesKept.distinct (h : ZonesKept s) : (s.zones.map (·.id)).Nodup := by
  rw [h.ids]
  decide +kernel

theorem checkMode_of_known {mode : ZoneMode} (h : s.ModeKnown mode) :
    s.checkMode mode = .ok () := by
  cases mode with
  | fixed order => exact checkOrder_ok_iff.mpr h
  | planning id =>
    have hlisted : s.hasPlanning id = true := h
    simp only [checkMode, hlisted, if_true]

theorem ZonesKept.patchZone_ok (h : ZonesKept s) {z : Zone} (hz : z ∈ s.zones) {patch : ZonePatch}
    (hmode : checkSome s.checkMode patch.mode = .ok ())
    (hdescription : ∀ d, patch.description = some d → Text.allBlank d = false) :
    patchZone z.id patch s = (.ok (), { s with
      zones := s.zones.map fun w => if w.id = z.id then patch.set w else w }) := by
  have hchecked : checkDescription patch.description = .ok (patch.description.map Text.trim) := by
    cases hd : patch.description with
    | none => rfl
    | some d =>
      have hfilled : ¬ Text.allBlank d = true := by simp [hdescription d hd]
      simp only [checkDescription, if_neg hfilled, Option.map_some]
  have hlisted : (s.zones.any fun w => w.id = z.id) = true :=
    List.any_eq_true.mpr ⟨z, hz, decide_eq_true rfl⟩
  simp only [patchZone, hmode, hchecked, hlisted, if_true,
    Table.updateFirst_eq_map _ h.distinct]
  rfl

theorem ZonesKept.patchZone_mode (h : ZonesKept s) {z : Zone} (hz : z ∈ s.zones) {mode : ZoneMode}
    (hmode : s.ModeKnown mode) : patchZone z.id (ZonePatch.ofMode mode) s = (.ok (), { s with
      zones := s.zones.map fun w => if w.id = z.id then { w with mode := mode } else w }) := by
  have hundescribed : ∀ d, (ZonePatch.ofMode mode).description = some d →
      Text.allBlank d = false := by
    intro d hd
    cases hd
  exact h.patchZone_ok hz (checkMode_of_known hmode) hundescribed

theorem ZonesKept.patchZone_description (h : ZonesKept s) {z : Zone} (hz : z ∈ s.zones)
    {description : String} (hfilled : Text.allBlank description = false) :
    patchZone z.id ⟨some description, none⟩ s = (.ok (), { s with
      zones := s.zones.map fun w =>
        if w.id = z.id then { w with description := Text.trim description } else w }) := by
  refine h.patchZone_ok hz rfl ?_
  rintro d ⟨⟩
  exact hfilled

theorem ZonesKept.map_unchanged (h : ZonesKept s) {z : Zone} (hz : z ∈ s.zones) {f : Zone → Zone}
    (hf : f z = z) : (s.zones.map fun w => if w.id = z.id then f w else w) = s.zones := by
  refine (List.map_congr_left fun w hw => ?_).trans (List.map_id _)
  by_cases hid : w.id = z.id
  · obtain rfl := List.inj_on_of_nodup_map h.distinct hw hz hid
    rw [if_pos rfl, hf]
    rfl
  · rw [if_neg hid]
    rfl

end State
end HeatingControl
