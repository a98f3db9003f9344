import HeatingControl.Controller.Step

/-!
# What an operation leaves alone

The kind of an operation tells which part of the state it may write, whether it succeeds or fails.
All the rest of the state is framed: it is read off here, and no change has to be opened for it.
-/
namespace HeatingControl

/-- The state `s`, with the part that the operation may write taken from `u`. -/
def Operation.written (s u : State) : Operation → State
  | .putOverride _ => { s with override := u.override }
  | .patchZone _ _ => { s with zones := u.zones }
  | .createPlanning _ => { s with plannings := u.plannings, slots := u.slots }
  | .renamePlanning _ _ => { s with plannings := u.plannings }
  | .deletePlanning _ => { s with zones := u.zones, plannings := u.plannings, slots := u.slots }
  | .createSlot _ _ | .patchSlot _ _ _ | .deleteSlot _ _ => { s with slots := u.slots }
  | .createAccount _ | .deleteAccount _ | .resetPassword _ _ => { s with accounts := u.accounts }
  | .uploadFirmware _ => { s with staged := u.staged }
  | .uploadCertificate _ => { s with certificates := u.certificates }
  | .reboot => { s with rebootingUntil := u.rebootingUntil }
  | .applyHardware _ => { s with hardware := u.hardware, parameters := u.parameters }
  | _ => s

theorem State.perform_frame (grace : Nat) (t : Moment) (op : Operation) (s : State) :
    ∃ u, (perform grace t op s).2 = op.written s u := by
  refine ⟨(perform grace t op s).2, ?_⟩
  cases op with
  | reboot => rfl
  | _ =>
    simp only [perform, drop, read, putOverride, patchZone, createPlanning, renamePlanning,
      deletePlanning, planningSlots, createSlot, patchSlot, deleteSlot, createAccount,
      deleteAccount, resetPassword, uploadFirmware, uploadCertificate, hardwareParameters,
      applyHardware, refuse, missing]
    repeat' split
    all_goals rfl

end HeatingControl
