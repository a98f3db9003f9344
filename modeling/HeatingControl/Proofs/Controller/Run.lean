import HeatingControl.Proofs.Controller.Transition

/-!
# Runs of the controller

A run starts from the seeded state and takes any calls at any moments, those that fail or are
turned away included. Nothing is assumed of the order of the instants.
-/
namespace HeatingControl.State

inductive Reachable (grace : Nat) : State → Prop where
  | seeded (now : Nat) : Reachable grace (.seeded now)
  | step {s : State} (t : Moment) (c : Call) (h : Reachable grace s) :
      Reachable grace (step grace t c s).2

/-- Calls made at this instant are not turned away: no reboot is under way, or it is over. -/
def OnlineAt (s : State) (now : Nat) : Prop := (s.boot now).rebootingUntil = none

instance (s : State) (now : Nat) : Decidable (s.OnlineAt now) :=
  inferInstanceAs (Decidable (_ = _))

/-- A reboot is pending and its time has come. -/
def BootDue (s : State) (now : Nat) : Prop :=
  ∃ ending, s.rebootingUntil = some ending ∧ ending ≤ now

theorem boot_records (now : Nat) (s : State) :
    ∃ bootedAt rebootingUntil wifi firmware staged,
      s.boot now = { s with
        bootedAt := bootedAt
        rebootingUntil := rebootingUntil
        wifi := wifi
        firmware := firmware
        staged := staged } := by
  unfold boot
  split
  · exact ⟨_, _, _, _, _, rfl⟩
  · split
    · exact ⟨_, _, _, _, _, rfl⟩
    · exact ⟨_, _, _, _, _, rfl⟩

theorem boot_parameters (now : Nat) (s : State) : (s.boot now).parameters = s.parameters := by
  obtain ⟨_, _, _, _, _, hrecords⟩ := boot_records now s
  rw [hrecords]

theorem boot_of_not_due {now : Nat} {s : State} (h : ¬ s.BootDue now) : s.boot now = s := by
  unfold boot
  split
  · rfl
  · rename_i ending hpending
    have hlt : now < ending := Nat.lt_of_not_le fun hle => h ⟨ending, hpending, hle⟩
    rw [if_pos hlt]

theorem boot_of_due {now : Nat} {s : State} (h : s.BootDue now) :
    (s.boot now).rebootingUntil = none := by
  obtain ⟨ending, hpending, hle⟩ := h
  simp [boot, hpending, Nat.not_lt.mpr hle]

theorem boot_of_idle {now : Nat} {s : State} (h : s.rebootingUntil = none) : s.boot now = s :=
  boot_of_not_due fun ⟨_, hpending, _⟩ => by simp [h] at hpending

theorem boot_idem (now : Nat) (s : State) : (s.boot now).boot now = s.boot now := by
  by_cases h : s.BootDue now
  · exact boot_of_idle (boot_of_due h)
  · rw [boot_of_not_due h, boot_of_not_due h]

/-- When a reboot that is over is finished makes no difference. -/
theorem boot_boot {now later : Nat} (h : now ≤ later) (s : State) :
    (s.boot now).boot later = s.boot later := by
  by_cases hdue : s.BootDue now
  · rw [boot_of_idle (boot_of_due hdue)]
    obtain ⟨ending, hpending, hle⟩ := hdue
    simp [boot, hpending, Nat.not_lt.mpr hle, Nat.not_lt.mpr (Nat.le_trans hle h)]
  · rw [boot_of_not_due hdue]

theorem onlineAt_of_idle (now : Nat) {s : State} (h : s.rebootingUntil = none) :
    s.OnlineAt now := by
  rw [OnlineAt, boot_of_idle h]
  exact h

variable {grace : Nat} {t : Moment} {s : State}

theorem step_of_online (h : s.OnlineAt t.now) (c : Call) :
    step grace t c s = performCall grace t c (s.boot t.now) := by
  have hidle : (s.boot t.now).rebootingUntil = none := h
  simp [step, hidle]

theorem step_of_idle (h : s.rebootingUntil = none) (c : Call) :
    step grace t c s = performCall grace t c s := by
  rw [step_of_online (onlineAt_of_idle t.now h), boot_of_idle h]

theorem step_of_offline (h : ¬ s.OnlineAt t.now) (c : Call) :
    step grace t c s = (.error (unavailable c), s.boot t.now) := by
  have hbusy : (s.boot t.now).rebootingUntil ≠ none := h
  simp [step, Option.isSome_iff_ne_none, hbusy]

theorem onlineAt_of_ok {c : Call} {v : c.Answer} (h : (step grace t c s).1 = .ok v) :
    s.OnlineAt t.now := by
  by_cases honline : s.OnlineAt t.now
  · exact honline
  · rw [step_of_offline honline] at h
    cases h

/-- A call sees the state as it is once a reboot that is over is finished. -/
theorem step_congr {u : State} (h : s.boot t.now = u.boot t.now) (c : Call) :
    step grace t c s = step grace t c u := by
  simp only [step, h]

theorem step_boot (c : Call) : step grace t c (s.boot t.now) = step grace t c s :=
  step_congr (boot_idem t.now s) c

theorem Reachable.boot (h : Reachable grace s) (now : Nat) : Reachable grace (s.boot now) := by
  let t : Moment := ⟨now, ⟨.sunday, 0, 0⟩⟩
  have hread : (State.step grace t (.operation .getStatus) s).2 = s.boot now := by
    by_cases honline : s.OnlineAt t.now
    · rw [step_of_online honline]
      rfl
    · rw [step_of_offline honline]
  rw [← hread]
  exact .step _ _ h

theorem step_settles (h : s.OnlineAt t.now) (hn : (Table.keys s.slots).Nodup) (c : Call) :
    Settles (s.boot t.now) (step grace t c s) := by
  rw [step_of_online h]
  obtain ⟨_, _, _, _, _, hboot⟩ := boot_records t.now s
  exact performCall_settles _ (by rw [hboot]; exact hn) grace t c

end HeatingControl.State
