import HeatingControl.Proofs.Controller.Integrity

/-!
# Failed calls

A call that fails leaves the state as it found it, whichever check it failed and however many had
passed before. Only a reboot that was over is finished first, as before every call.
-/
namespace HeatingControl.State

variable {grace : Nat} {t : Moment} {s : State}

theorem Settles.error_state {α : Type} {s : State} {r : Except Error α × State} {e : Error}
    (h : Settles s r) (he : r.1 = .error e) : r.2 = s := by
  cases h with
  | refused => rfl
  | missed => rfl
  | accepted => cases he

theorem step_error_state (hs : Integrity s) {c : Call} {e : Error}
    (he : (step grace t c s).1 = .error e) : (step grace t c s).2 = s.boot t.now := by
  by_cases honline : s.OnlineAt t.now
  · exact (step_settles honline hs.slot_keys_distinct c).error_state he
  · rw [step_of_offline honline]

theorem checkValues_error {parameters : List HardwareParameter}
    {values : List (String × ParameterValue)} {v : String × ParameterValue} {e : ValidationError}
    (hv : v ∈ values) (h : checkValue parameters v = .error e) :
    ∃ e, checkValues parameters values = .error e := by
  induction values with
  | nil => simp at hv
  | cons w rest ih =>
    cases hw : checkValue parameters w with
    | error e => exact ⟨e, by simp [checkValues, hw]⟩
    | ok =>
      rcases List.mem_cons.mp hv with rfl | hv
      · rw [hw] at h
        cases h
      · obtain ⟨e, he⟩ := ih hv
        exact ⟨e, by simp [checkValues, hw, he]⟩

theorem applyHardware_error {settings : HardwareSettings} {parameters : List HardwareParameter}
    {v : String × ParameterValue} {e : ValidationError}
    (found : Table.get? settings.hardware s.parameters = some parameters)
    (hv : v ∈ settings.values) (h : checkValue parameters v = .error e) :
    ∃ e, (applyHardware settings s).1 = .error e := by
  obtain ⟨e, he⟩ := checkValues_error hv h
  exact ⟨.validation e, by simp [applyHardware, found, he, refuse]⟩

def PatchRefused (s : State) (patch : ZonePatch) : Prop :=
  (∃ m, patch.mode = some m ∧ ¬ s.ModeKnown m) ∨
    ∃ d, patch.description = some d ∧ Text.allBlank d = true

theorem patchZone_error {id : ZoneId} {patch : ZonePatch} (h : s.PatchRefused patch) :
    ∃ e, (patchZone id patch s).1 = .error e := by
  unfold patchZone
  cases hmode : checkSome s.checkMode patch.mode with
  | error e => exact ⟨.validation e, rfl⟩
  | ok =>
    rcases h with ⟨m, hm, hno⟩ | ⟨d, hd, hblank⟩
    · exact absurd (modeKnown_of_checkMode (checkSome_ok hmode m hm)) hno
    · have hrefused : checkDescription patch.description = .error .emptyName := by
        simp [hd, checkDescription, hblank]
      simp [hrefused, refuse]

/-- An operation that fails on a controller that is online fails on one that is not, too. -/
private theorem step_error_of_perform (grace : Nat) (t : Moment) (s : State) (op : Operation)
    (h : ∃ e, (perform grace t op (s.boot t.now)).1 = .error e) :
    ∃ e, (step grace t (.operation op) s).1 = .error e := by
  by_cases honline : s.OnlineAt t.now
  · rw [step_of_online honline]
    exact h
  · rw [step_of_offline honline]
    exact ⟨_, rfl⟩

/-- A failed call is as if it had not been made: the state is that of before, a reboot that was
over being finished. Settings of which one value does not suit its parameter store none of the
others and do not select the board; a zone patch with one bad field does not change the other. -/
theorem failed_call_keeps_state {grace : Nat} {s : State} (h : Reachable grace s) (t : Moment) :
    (∀ c e, (step grace t c s).1 = .error e →
      (step grace t c s).2 = s.boot t.now ∧
        (¬ s.BootDue t.now → (step grace t c s).2 = s) ∧
        ∃ bootedAt rebootingUntil wifi firmware staged, (step grace t c s).2 = { s with
          bootedAt := bootedAt
          rebootingUntil := rebootingUntil
          wifi := wifi
          firmware := firmware
          staged := staged }) ∧
    (∀ settings parameters v e, Table.get? settings.hardware s.parameters = some parameters →
      v ∈ settings.values → checkValue parameters v = .error e →
      let r := step grace t (.operation (.applyHardware settings)) s
      (∃ e, r.1 = .error e) ∧ r.2.parameters = s.parameters ∧ r.2.hardware = s.hardware) ∧
    ∀ id patch, s.PatchRefused patch →
      let r := step grace t (.operation (.patchZone id patch)) s
      (∃ e, r.1 = .error e) ∧ r.2.zones = s.zones := by
  have hs := h.integrity
  obtain ⟨_, _, _, _, _, hrecords⟩ := boot_records t.now s
  refine ⟨fun c e he => ?_, fun settings parameters v e found hv hbad => ?_,
    fun id patch hrefused => ?_⟩
  · have hstate := step_error_state hs he
    exact ⟨hstate, fun hdue => hstate.trans (boot_of_not_due hdue),
      _, _, _, _, _, hstate.trans hrecords⟩
  · have hfound : Table.get? settings.hardware (s.boot t.now).parameters = some parameters := by
      rw [hrecords]
      exact found
    obtain ⟨e, he⟩ := step_error_of_perform grace t s (.applyHardware settings)
      (applyHardware_error hfound hv hbad)
    have hstate := step_error_state hs he
    exact ⟨⟨e, he⟩, by rw [hstate, hrecords], by rw [hstate, hrecords]⟩
  · have hrefused : (s.boot t.now).PatchRefused patch := by
      rw [hrecords]
      exact hrefused
    obtain ⟨e, he⟩ := step_error_of_perform grace t s (.patchZone id patch)
      (patchZone_error hrefused)
    have hstate := step_error_state hs he
    exact ⟨⟨e, he⟩, by rw [hstate, hrecords]⟩

/-- Of two values for a board that is not selected the second is no number: the first is not
stored and the board is not selected. A good description beside an unknown planning is not kept,
and a deletion that finds nothing leaves everything. -/
theorem bad_second_value_keeps_state :
    let t : Moment := ⟨0, ⟨.monday, 8, 0⟩⟩
    let s := seeded 0
    let settings : HardwareSettings :=
      ⟨⟨"OFP-10Z"⟩, [("dummy2", .text "new"), ("dummy1", .text "many")]⟩
    let patch : ZonePatch := ⟨some "kitchen", some (.planning ⟨9⟩)⟩
    Reachable 10 s ∧
      (step 10 t (.operation (.applyHardware settings)) s).2.parameters = s.parameters ∧
      (step 10 t (.operation (.applyHardware settings)) s).2.hardware = s.hardware ∧
      (step 10 t (.operation (.patchZone ⟨"e1z1"⟩ patch)) s).2.zones = s.zones ∧
      (step 10 t (.operation (.deleteSlot ⟨2⟩ ⟨99⟩)) s).2 = s := by
  intro t s settings patch
  have hrun : Reachable 10 s := .seeded 0
  obtain ⟨hall, hvalues, hpatch⟩ := failed_call_keeps_state hrun t
  have hfound : Table.get? settings.hardware s.parameters =
      some [⟨"dummy1", "dummy number", .number, .integer 69⟩,
        ⟨"dummy2", "dummy string", .string, .text "blah"⟩] := by decide +kernel
  have hbad : checkValue [⟨"dummy1", "dummy number", .number, .integer 69⟩,
      ⟨"dummy2", "dummy string", .string, .text "blah"⟩] ("dummy1", .text "many") =
      .error (.invalidParameterValue "dummy1" "many") := by rfl
  have hmissing : (step 10 t (.operation (.deleteSlot ⟨2⟩ ⟨99⟩)) s).1 =
      .error (.notFound "Slot" (SlotId.display ⟨99⟩)) := by rfl
  have hboard := hvalues settings _ _ _ hfound (by decide) hbad
  have hzone := hpatch ⟨"e1z1"⟩ patch (Or.inl ⟨_, rfl, by decide +kernel⟩)
  have hslot := (hall _ _ hmissing).2.1 (by rintro ⟨_, h, _⟩; cases h)
  exact ⟨hrun, hboard.2.1, hboard.2.2, hzone.2, hslot⟩

end HeatingControl.State
