import HeatingControl.Proofs.Controller.Capacity
import HeatingControl.Proofs.Controller.Merge
import HeatingControl.Proofs.Dashboard.Snapshot

/-!
# Slots edited on a page

A row of the page sends back what it was built from beside what the user has made of it. However
old the row is, only what the user changed is stored.
-/
namespace HeatingControl

theorem SlotInput.parse?_inRange {i : SlotInput} {n : NewSlot} (h : i.parse? = some n) :
    n.InRange := by
  simp only [parse?, Option.bind_eq_bind, Option.bind_eq_some_iff] at h
  obtain ⟨index, -, day, -, hour, -, minute, -, h⟩ := h
  split at h
  · cases h
  · split at h
    · rename_i slot hmake
      cases h
      unfold NewSlot.make at hmake
      split at hmake
      · rename_i htime
        cases hmake
        exact checkTime_ok_iff.mp htime
      · cases hmake
    · cases h

/-- No field is changed by both edits. -/
structure DisjointEdits (shown e f : NewSlot) : Prop where
  day : e.day = shown.day ∨ f.day = shown.day
  hour : e.hour = shown.hour ∨ f.hour = shown.hour
  minute : e.minute = shown.minute ∨ f.minute = shown.minute
  order : e.order = shown.order ∨ f.order = shown.order

/-- Every field that the edit changes has its edited value. -/
structure KeepsEdit (shown edited : NewSlot) (d : Slot) : Prop where
  day : edited.day ≠ shown.day → d.day = edited.day
  hour : edited.hour ≠ shown.hour → d.hour = edited.hour
  minute : edited.minute ≠ shown.minute → d.minute = edited.minute
  order : edited.order ≠ shown.order → d.order = edited.order

theorem mergeField_of_ne {α : Type} [DecidableEq α] {shown edited : α} (h : edited ≠ shown)
    (stored : α) : mergeField shown edited stored = edited :=
  if_neg fun heq => h heq.symm

/-- A value that one edit has stored is left alone by an edit that does not change the field. -/
theorem mergeField_keeps {α : Type} [DecidableEq α] {shown e f stored : α}
    (h : e = shown ∨ f = shown) (hstored : e ≠ shown → stored = e) (hne : e ≠ shown) :
    mergeField shown f stored = e := by
  rcases h with heq | heq
  · exact absurd heq hne
  · exact (if_pos heq.symm).trans (hstored hne)

theorem keepsEdit_merge (shown edited : NewSlot) (c : Slot) :
    KeepsEdit shown edited (c.merge shown edited) := by
  constructor
  · exact fun h => mergeField_of_ne h _
  · exact fun h => mergeField_of_ne h _
  · exact fun h => mergeField_of_ne h _
  · exact fun h => mergeField_of_ne h _

theorem DisjointEdits.keeps {shown e f : NewSlot} (h : DisjointEdits shown e f) {d : Slot}
    (hd : KeepsEdit shown e d) : KeepsEdit shown e (d.merge shown f) := by
  constructor
  · exact mergeField_keeps h.day hd.day
  · exact mergeField_keeps h.hour hd.hour
  · exact mergeField_keeps h.minute hd.minute
  · exact mergeField_keeps h.order hd.order

namespace Dashboard

open HeatingControl.Dashboard.Task

variable {grace : Nat} {week : WeekTime} {s : State} {instants : Nat → Nat} {m : Memory}
  {planning : PlanningId} {c : Slot} {shown edited : SlotInput} {o e : NewSlot}

theorem slotEdit?_eq (slot : SlotId) (ho : shown.parse? = some o) (he : edited.parse? = some e) :
    Action.slotEdit? planning slot shown edited =
      if o = e then none else some (.patchSlot planning slot (.diff o e)) := by
  simp only [Action.slotEdit?, ho, he, Option.bind_eq_bind, Option.bind_some,
    SlotPatch.diff_isEmpty]

theorem editSlot_unchanged (slot : SlotId) (ho : shown.parse? = some o)
    (he : edited.parse? = some o) :
    (Action.editSlot planning slot shown edited).run = pure .skipped := by
  have hrequest : (Action.editSlot planning slot shown edited).request? = none := by
    rw [Action.request?, slotEdit?_eq slot ho he, if_pos rfl]
  have hattempt : (Action.editSlot planning slot shown edited).attempt.run =
      .done (.ok .skipped) := by
    rw [Action.attempt_eq rfl, hrequest]
  unfold Action.run
  rw [hattempt]
  rfl

theorem boot_slot? (now : Nat) (s : State) (planning : PlanningId) (slot : SlotId) :
    (s.boot now).slot? planning slot = s.slot? planning slot := by
  obtain ⟨_, _, _, _, _, hrecords⟩ := State.boot_records now s
  rw [hrecords]
  rfl

theorem boot_hasOrder (now : Nat) (s : State) (id : OrderId) :
    (s.boot now).hasOrder id = s.hasOrder id := by
  obtain ⟨_, _, _, _, _, hrecords⟩ := State.boot_records now s
  rw [hrecords]
  rfl

/-- The order of an edit is the one that was shown, or it is known. -/
def OrderAllowed (s : State) (o e : NewSlot) : Prop :=
  e.order = o.order ∨ s.hasOrder e.order = true

theorem editSlot_request (slot : SlotId) (ho : shown.parse? = some o)
    (he : edited.parse? = some e) (hne : e ≠ o) :
    (Action.editSlot planning slot shown edited).request? =
      some (.patchSlot planning slot (.diff o e)) := by
  rw [Action.request?, slotEdit?_eq slot ho he, if_neg fun heq => hne heq.symm]

def sendRow (grace : Nat) (week : WeekTime) (planning : PlanningId) (slot : SlotId)
    (shown edited : SlotInput) (w : Site × Memory) : Outcome × (Site × Memory) :=
  (Action.editSlot planning slot shown edited).run.runWith (Site.behaviour grace week) w

theorem sendRow_eq (slot : SlotId) (w : Site × Memory) :
    sendRow grace week planning slot shown edited w =
      (Action.editSlot planning slot shown edited).run.runWith (Site.behaviour grace week) w :=
  rfl

-- Otherwise a world after a row is run whenever two such worlds are compared.
attribute [irreducible] sendRow

section Rows

variable {w : Site × Memory} {r : Outcome × (Site × Memory)}

theorem editSlot_merges (h : State.Reachable grace w.1.state)
    (honline : w.1.state.OnlineAt (w.1.instants 0))
    (hc : w.1.state.slot? planning c.id = some c) (ho : shown.parse? = some o)
    (he : edited.parse? = some e) (hne : e ≠ o) (hknown : OrderAllowed w.1.state o e)
    (hr : sendRow grace week planning c.id shown edited w = r) :
    r.1 = .applied ∧
      State.SlotReplaced planning c (c.merge o e) (w.1.state.boot (w.1.instants 0))
        r.2.1.state ∧
      State.Reachable grace r.2.1.state := by
  obtain ⟨⟨s, instants⟩, m⟩ := w
  have hknownBoot : e.order = o.order ∨ (s.boot (instants 0)).hasOrder e.order = true := by
    rw [boot_hasOrder]
    exact hknown
  obtain ⟨hok, hreplaced⟩ := State.patchSlot_merges (h.integrity.boot (instants 0))
    (SlotInput.parse?_inRange he) hknownBoot ((boot_slot? _ s planning c.id).trans hc)
  let op : Operation := .patchSlot planning c.id (.diff o e)
  have hstep : State.step grace ⟨instants 0, week⟩ (.operation op) s =
      State.patchSlot planning c.id (.diff o e) (s.boot (instants 0)) :=
    State.step_of_online honline _
  have hanswer : (State.step grace ⟨instants 0, week⟩ (.operation op) s).1 = .ok () := by
    rw [hstep]
    exact hok
  obtain ⟨happlied, hstate⟩ := run_of_ok (m := m) rfl (editSlot_request c.id ho he hne) hanswer
  rw [← hr, sendRow_eq]
  refine ⟨happlied, ?_, ?_⟩
  · rw [hstate, hstep]
    exact hreplaced
  · rw [hstate]
    exact .step _ _ h

theorem editSlot_refused (honline : w.1.state.OnlineAt (w.1.instants 0)) {slot : SlotId}
    (ho : shown.parse? = some o) (he : edited.parse? = some e)
    (hunknown : ¬ OrderAllowed w.1.state o e)
    (hr : sendRow grace week planning slot shown edited w = r) :
    r.1 = .failed ∧ r.2.1.state = w.1.state.boot (w.1.instants 0) := by
  obtain ⟨⟨s, instants⟩, m⟩ := w
  have hne : e ≠ o := by
    rintro rfl
    exact hunknown (Or.inl rfl)
  have horder : (SlotPatch.diff o e).order = some e.order :=
    if_neg fun heq : o.order = e.order => hunknown (Or.inl heq.symm)
  have hno : ¬ (s.boot (instants 0)).hasOrder e.order = true := by
    rw [boot_hasOrder]
    exact fun hyes => hunknown (Or.inr hyes)
  let op : Operation := .patchSlot planning slot (.diff o e)
  have hstep : State.step grace ⟨instants 0, week⟩ (.operation op) s =
      (.error (.validation (.unknownOrder e.order.text)), s.boot (instants 0)) :=
    (State.step_of_online honline _).trans (State.patchSlot_unknown horder hno)
  have hanswer := congrArg Prod.fst hstep
  obtain ⟨hfailed, hstate⟩ := run_of_error (m := m) rfl (editSlot_request slot ho he hne) hanswer
  rw [← hr, sendRow_eq]
  refine ⟨hfailed, ?_⟩
  rw [hstate, hstep]

/-- The second of two users works on what the first has left. -/
theorem editSlot_twice (h : State.Reachable grace w.1.state)
    (honline : w.1.state.OnlineAt (w.1.instants 0))
    (hc : w.1.state.slot? planning c.id = some c) (ho : shown.parse? = some o)
    {other : SlotInput} {f : NewSlot} (he : edited.parse? = some e) (hf : other.parse? = some f)
    (hne : e ≠ o) (hnf : f ≠ o) (hknown : OrderAllowed w.1.state o e)
    (hfKnown : OrderAllowed w.1.state o f) (hdisjoint : DisjointEdits o e f)
    {r' : Outcome × (Site × Memory)}
    (hr : sendRow grace week planning c.id shown edited w = r)
    (hr' : sendRow grace week planning c.id shown other r.2 = r') :
    r.1 = .applied ∧ r'.1 = .applied ∧
      ∃ d, State.SlotReplaced planning c d (w.1.state.boot (w.1.instants 0)) r'.2.1.state ∧
        KeepsEdit o e d ∧ KeepsEdit o f d := by
  obtain ⟨happlied, hreplaced, hrun⟩ := editSlot_merges h honline hc ho he hne hknown hr
  have hidle : r.2.1.state.rebootingUntil = none := hreplaced.rebootingUntil.trans honline
  have hallowed : OrderAllowed r.2.1.state o f := by
    refine hfKnown.imp_right fun hyes => ?_
    exact (hreplaced.hasOrder f.order).trans ((boot_hasOrder _ _ _).trans hyes)
  obtain ⟨happlied', hreplaced', -⟩ := editSlot_merges (c := c.merge o e) hrun
    (State.onlineAt_of_idle _ hidle) hreplaced.slot? ho hf hnf hallowed hr'
  rw [State.boot_of_idle hidle] at hreplaced'
  refine ⟨happlied, happlied', (c.merge o e).merge o f, hreplaced.trans hreplaced', ?_, ?_⟩
  · exact hdisjoint.keeps (keepsEdit_merge o e c)
  · exact keepsEdit_merge o f _

end Rows

/-- In every state of a run in which the controller is online, an edit merges into the slot as it
is stored, however old the row was that it was made from: a row without a change asks for nothing,
an order that is changed to an unknown one is refused, and everything else is applied, with the
changed fields from the edit and the others as they are stored. So two users who change different
fields of the same row both have their change, whoever comes first. Every stored slot can be
edited so as long as slot numbers are distinct, as they are in runs of few enough creations. -/
theorem slot_edit_merges (h : State.Reachable grace s) (week : WeekTime) (instants : Nat → Nat)
    (honline : s.OnlineAt (instants 0)) (m : Memory) :
    (∀ n, State.CountedRun grace n s → n ≤ State.maxCreations → ∀ planning slots c,
      Table.get? planning s.slots = some slots → c ∈ slots → s.slot? planning c.id = some c) ∧
    ∀ planning c, s.slot? planning c.id = some c → ∀ shown o, shown.parse? = some o →
      (∀ edited, edited.parse? = some o →
        (Action.editSlot planning c.id shown edited).run = pure .skipped) ∧
      (∀ edited e, edited.parse? = some e → ¬ OrderAllowed s o e →
        let r := sendRow grace week planning c.id shown edited (⟨s, instants⟩, m)
        r.1 = .failed ∧ r.2.1.state = s.boot (instants 0)) ∧
      (∀ edited e, edited.parse? = some e → e ≠ o → OrderAllowed s o e →
        let r := sendRow grace week planning c.id shown edited (⟨s, instants⟩, m)
        r.1 = .applied ∧
          State.SlotReplaced planning c (c.merge o e) (s.boot (instants 0)) r.2.1.state) ∧
      ∀ edited e other f, edited.parse? = some e → other.parse? = some f → e ≠ o → f ≠ o →
        OrderAllowed s o e → OrderAllowed s o f → DisjointEdits o e f →
        let r := sendRow grace week planning c.id shown edited (⟨s, instants⟩, m)
        let r' := sendRow grace week planning c.id shown other r.2
        r.1 = .applied ∧ r'.1 = .applied ∧
          ∃ d, State.SlotReplaced planning c d (s.boot (instants 0)) r'.2.1.state ∧
            KeepsEdit o e d ∧ KeepsEdit o f d := by
  refine ⟨?_, ?_⟩
  · intro n hrun hn planning slots c found hc
    have hdistinct := (hrun.numbered hn).slot_ids_distinct _ (Table.mem_of_get? found)
    exact Option.bind_eq_some_iff.mpr ⟨slots, found, Table.find?_of_mem hdistinct hc⟩
  intro planning c hc shown o ho
  refine ⟨?_, ?_, ?_, ?_⟩
  · intro edited he
    exact editSlot_unchanged c.id ho he
  · intro edited e he hunknown
    exact editSlot_refused (w := (⟨s, instants⟩, m)) honline ho he hunknown rfl
  · intro edited e he hne hknown
    obtain ⟨happlied, hreplaced, -⟩ :=
      editSlot_merges (w := (⟨s, instants⟩, m)) h honline hc ho he hne hknown rfl
    exact ⟨happlied, hreplaced⟩
  · intro edited e other f he hf hne hnf hknown hfKnown hdisjoint
    exact editSlot_twice (w := (⟨s, instants⟩, m)) h honline hc ho he hf hne hnf hknown hfKnown
      hdisjoint rfl rfl

/-- A row that shows an hour and an order that the slot has no more comes back unchanged, with an
unknown order, with another minute, and with another hour after that. -/
theorem stale_row_merges :
    let c : Slot := ⟨⟨2⟩, .sunday, 7, 0, ⟨"cozy"⟩⟩
    let shown : SlotInput := ⟨"0", "6", "0", "economy"⟩
    let tropical : SlotInput := ⟨"0", "6", "0", "tropical"⟩
    let later : SlotInput := ⟨"0", "6", " 30", "economy"⟩
    let earlier : SlotInput := ⟨"0", "5", "00", "economy"⟩
    let start : Site × Memory := (⟨.seeded 0, fun n => n⟩, Memory.new 1)
    let send := sendRow 10 ⟨.monday, 8, 0⟩ ⟨0⟩ ⟨2⟩ shown
    (State.seeded 0).slot? ⟨0⟩ ⟨2⟩ = some c ∧
      (Action.editSlot ⟨0⟩ ⟨2⟩ shown shown).run = pure .skipped ∧
      (send tropical start).1 = .failed ∧ (send tropical start).2.1.state = .seeded 0 ∧
      (send later start).1 = .applied ∧
      State.SlotReplaced ⟨0⟩ c ⟨⟨2⟩, .sunday, 7, 30, ⟨"cozy"⟩⟩ (.seeded 0)
        (send later start).2.1.state ∧
      (send earlier (send later start).2).1 = .applied ∧
      ∃ d, State.SlotReplaced ⟨0⟩ c d (.seeded 0) (send earlier (send later start).2).2.1.state ∧
        d.minute = 30 ∧ d.hour = 5 := by
  intro c shown tropical later earlier start send
  let o : NewSlot := ⟨.sunday, 6, 0, ⟨"economy"⟩⟩
  let e : NewSlot := ⟨.sunday, 6, 30, ⟨"economy"⟩⟩
  let f : NewSlot := ⟨.sunday, 5, 0, ⟨"economy"⟩⟩
  have hc : (State.seeded 0).slot? ⟨0⟩ ⟨2⟩ = some c := by decide +kernel
  have ho : shown.parse? = some o := by decide +kernel
  have ht : tropical.parse? = some { o with order := ⟨"tropical"⟩ } := by decide +kernel
  have he : later.parse? = some e := by decide +kernel
  have hf : earlier.parse? = some f := by decide +kernel
  have hunknown : ¬ OrderAllowed (.seeded 0) o { o with order := ⟨"tropical"⟩ } := by
    rintro (h | h)
    · exact absurd h (by decide)
    · exact absurd h (by decide +kernel)
  have hdisjoint : DisjointEdits o e f := ⟨Or.inl rfl, Or.inl rfl, Or.inr rfl, Or.inl rfl⟩
  have honline : State.OnlineAt (.seeded 0) 0 := rfl
  have hstart : State.Reachable 10 (.seeded 0) := .seeded 0
  obtain ⟨-, hedits⟩ :=
    slot_edit_merges hstart ⟨.monday, 8, 0⟩ (fun n => n) honline (Memory.new 1)
  obtain ⟨hskipped, hrefused, happlied, htwice⟩ := hedits ⟨0⟩ c hc shown o ho
  obtain ⟨hfailed, hstate⟩ := hrefused tropical _ ht hunknown
  obtain ⟨hlater, hreplaced⟩ := happlied later e he (by decide) (Or.inl rfl)
  obtain ⟨-, hearlier, d, hd, hminute, hhour⟩ :=
    htwice later e earlier f he hf (by decide) (by decide) (Or.inl rfl) (Or.inl rfl) hdisjoint
  exact ⟨hc, hskipped shown ho, hfailed, hstate, hlater, hreplaced, hearlier, d, hd,
    hminute.minute (by decide), hhour.hour (by decide)⟩

end Dashboard
end HeatingControl
