import HeatingControl.Proofs.Client.Reply
import HeatingControl.Proofs.Client.Request
import HeatingControl.Proofs.Controller.Kinds
import HeatingControl.Proofs.Controller.Legible

/-!
# Runs of regular operations

An operation is regular when its ids are words and what comes from a text in it was read from one.
In a run of regular operations every text that leaves the controller is read as what it was
written for.
-/
namespace HeatingControl

open Operation (Legible AnswerLegible)

namespace State

def parametersOf (s : State) (board : HardwareId) : List HardwareParameter :=
  (Table.get? board s.parameters).getD []

/-- The ids in the path and the board are words, overrides and modes come from their texts, and
settings from a form over the parameters as they are. Texts within a body may be any. -/
def Regular (s : State) : Operation → Prop
  | .putOverride value => ∃ text, Override.parse text = value
  | .patchZone id patch =>
    IsWord id.text ∧ ∀ m, patch.mode = some m → ∃ text, ZoneMode.parse text = .ok m
  | .deleteAccount id | .resetPassword id _ => IsWord id.text
  | .getHardwareParameters id => IsWord id.text
  | .applyHardware settings =>
    IsWord settings.hardware.text ∧ ∃ fields,
      HardwareSettings.ofForm settings.hardware fields (s.parametersOf settings.hardware) =
        .ok settings
  | _ => True

/-- States of runs of regular operations, at any moments. -/
inductive RegularRun (grace : Nat) : State → Prop where
  | seeded (now : Nat) : RegularRun grace (.seeded now)
  | step {s : State} (t : Moment) (op : Operation) (regular : s.Regular op)
      (h : RegularRun grace s) : RegularRun grace (step grace t (.operation op) s).2

variable {grace : Nat} {s : State}

theorem RegularRun.reachable (h : RegularRun grace s) : Reachable grace s := by
  induction h with
  | seeded now => exact .seeded now
  | step t op _ _ ih => exact .step t _ ih

/-- A form over the current parameters submits values of their kinds. -/
theorem RegularRun.suited (h : RegularRun grace s) : SuitedRun grace s := by
  induction h with
  | seeded now => exact .seeded now
  | @step s t op hop hrun ih =>
    refine .step t _ ?_ ih
    intro settings hsettings parameters found
    obtain rfl : op = .applyHardware settings := Call.operation.inj hsettings
    obtain ⟨-, fields, hform⟩ := hop
    rw [parametersOf, found, Option.getD_some] at hform
    have hmem := Table.mem_of_get? found
    exact HardwareSettings.suits_of_form (hrun.reachable.boards.ids_distinct hmem)
      (ih.kindsKept _ hmem) hform

theorem RegularRun.valuesKept (h : RegularRun grace s) : s.ValuesKept :=
  valuesKept_iff.mpr h.suited.kindsKept

theorem Regular.addressed {op : Operation} (h : s.Regular op) : op.Addressed := by
  have hplanning : ∀ id : PlanningId, IsWord id.display := fun id => isWord_natText _
  have hslot : ∀ id : SlotId, IsWord id.display := fun id => isWord_natText _
  cases op with
  | patchZone id patch =>
    have hid : IsWord id.text := h.1
    simpa [Operation.Addressed, Operation.segments, hid] using by decide
  | deleteAccount id | resetPassword id reset | getHardwareParameters id =>
    have hid : IsWord id.text := h
    simpa [Operation.Addressed, Operation.segments, hid] using by decide
  | renamePlanning id name | deletePlanning id | getPlanningSlots id | createSlot planning slot
  | patchSlot planning slot patch | deleteSlot planning slot =>
    simpa [Operation.Addressed, Operation.segments, hplanning, hslot] using by decide
  | _ =>
    have hall : ∀ w ∈ ["status", "orders", "override", "zones", "plannings", "accounts",
        "upgrade", "certificate", "reboot", "hardware"], IsWord w := by decide
    intro w hw
    exact hall w (by simp_all [Operation.segments])

theorem Regular.legible {op : Operation} (h : s.Regular op) : op.Legible := by
  cases op with
  | putOverride value =>
    obtain ⟨text, rfl⟩ := h
    exact Override.parse_display_parse text
  | patchZone id patch =>
    intro m hm
    obtain ⟨text, htext⟩ := h.2 m hm
    exact ZoneMode.parse_display (ZoneMode.written_of_parse htext)
  | _ => trivial

theorem Integrity.answer_legible (hs : Integrity s) (t : Moment) (op : Operation)
    {v : op.Answer} (h : (perform grace t op s).1 = .ok v) : op.AnswerLegible v := by
  cases op with
  | getOverride =>
    obtain rfl : s.override = v := Except.ok.inj h
    exact hs.override_legible
  | getZones =>
    obtain rfl : s.currentZones t.week = v := Except.ok.inj h
    intro z hz
    obtain ⟨y, hy, rfl⟩ := List.mem_map.mp hz
    exact hs.mode_legible (hs.modes_known y hy)
  | _ => trivial

end State
end HeatingControl
