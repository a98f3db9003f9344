import HeatingControl.Proofs.Dashboard.Site
import HeatingControl.Proofs.Dashboard.Stage

/-!
# Zone sections that are published out of order

Whatever was fetched is published, however long that takes, and nothing compares it with what has
been published meanwhile. So an older section can replace a newer one, but only when it comes from
a load that was under way while the change was made, and of two periodic refreshes the later one
has the last word.
-/
namespace HeatingControl.Dashboard

variable {σ : Type} {n : Nat}

def Deed.loads : Deed → Bool
  | .fetched _ | .published _ => true
  | .changed _ | .other => false

/-- The task neither asks for zones nor publishes any. -/
def Undisturbed (i : Fin n) (events : List (Event n)) : Prop :=
  ∀ event ∈ events, event.task = i → event.deed.loads = false

instance (i : Fin n) (events : List (Event n)) : Decidable (Undisturbed i events) :=
  inferInstanceAs (Decidable (∀ event ∈ events, event.task = i → event.deed.loads = false))

/-- A section is published that shows the zones which the task fetched in this part, and since then
it has neither asked for zones nor published any. -/
def Event.ShowsFetchOf (event : Event n) (part since : List (Event n)) : Prop :=
  ∃ view zones front back, event.deed = .published view ∧
    part = front ++ ⟨event.task, .fetched (some zones)⟩ :: back ∧
    Undisturbed event.task (back ++ since) ∧ ShowsZones view zones

theorem Undisturbed.concat {i : Fin n} {events : List (Event n)} (h : Undisturbed i events)
    {event : Event n} (hevent : event.task = i → event.deed.loads = false) :
    Undisturbed i (events ++ [event]) := by
  intro last hlast htask
  rcases List.mem_append.mp hlast with hold | hnew
  · exact h last hold htask
  · obtain rfl := List.mem_singleton.mp hnew
    exact hevent htask

/-- The mark of a periodic refresh is held by one task at most, and refuses it to others. -/
structure Exclusive (stages : Fin n → Stage) (refreshing : Bool) : Prop where
  mark : ∀ i, (stages i).marked = true → refreshing = true
  alone : ∀ i j, (stages i).marked = true → (stages j).marked = true → i = j

/-- The tasks of a scene at their stages, after these events. -/
structure Staged (errands : Fin n → Errand) (events : List (Event n)) (stages : Fin n → Stage)
    (x : Scene n σ) : Prop where
  leads : ∀ i, (x.tasks i).Leads (errands i).timed (stages i) fun _ u => u.marked = false
  fetched : ∀ i zones, (stages i).held = some zones → ∃ front back,
    events = front ++ ⟨i, .fetched (some zones)⟩ :: back ∧ Undisturbed i back
  exclusive : Exclusive stages x.world.2.refreshing
  timed : ∀ i, (errands i).timed = true → (stages i).held ≠ none → (stages i).marked = true

theorem staged_start (errands : Fin n → Errand) (world : σ × Memory) :
    Staged errands [] (fun _ => .initial) (Scene.start errands world) := by
  refine ⟨fun i => (errands i).leads, ?_, ⟨?_, ?_⟩, ?_⟩
  · rintro i zones ⟨⟩
  · rintro i ⟨⟩
  · rintro i j ⟨⟩
  · exact fun i _ hheld => absurd rfl hheld

section Step

variable {api : Behaviour σ} {timed : Bool} {s : Stage} {e : Effect}

/-- What is held was fetched just now, or before and is still to be published. -/
theorem held_after {r : e.Answer} {zones : List Zone} (h : (s.after e r).held = some zones) :
    Deed.of e r = .fetched (some zones) ∨
      s.held = some zones ∧ (Deed.of e r).loads = false := by
  cases e with
  | ask op =>
    cases op with
    | getZones => exact Or.inl (congrArg Deed.fetched h)
    | _ => first
      | cases h
      | refine Or.inr ⟨h, ?_⟩
        cases r <;> rfl
  | publish | release => cases h
  | note | drain | latest | claim => exact Or.inr ⟨h, rfl⟩

theorem timed_after (hallows : s.Allows timed e)
    (h : timed = true → s.held ≠ none → s.marked = true) (r : e.Answer) :
    timed = true → (s.after e r).held ≠ none → (s.after e r).marked = true := by
  intro htimed hheld
  cases e with
  | ask op =>
    cases op with
    | getZones => exact hallows htimed
    | _ => first
      | exact absurd rfl hheld
      | exact h htimed hheld
  | claim =>
    obtain rfl : s = .initial := hallows
    exact absurd rfl hheld
  | publish | release => exact absurd rfl hheld
  | note | drain | latest => exact h htimed hheld

section Mark

variable {stages : Fin n → Stage} {busy : Bool} {i : Fin n}

theorem Exclusive.kept (h : Exclusive stages busy) {s : Stage}
    (hs : s.marked = (stages i).marked) : Exclusive (Function.update stages i s) busy := by
  have hsame : ∀ j, (Function.update stages i s j).marked = (stages j).marked := by
    intro j
    by_cases hj : j = i
    · rw [hj, Function.update_self]
      exact hs
    · rw [Function.update_of_ne hj]
  refine ⟨fun j hj => ?_, fun j k hj hk => ?_⟩
  · rw [hsame j] at hj
    exact h.mark j hj
  · rw [hsame j] at hj
    rw [hsame k] at hk
    exact h.alone j k hj hk

theorem Exclusive.claimed (h : Exclusive stages false) (s : Stage) :
    Exclusive (Function.update stages i s) true := by
  have honly : ∀ j, (Function.update stages i s j).marked = true → j = i := by
    intro j hj
    by_contra hother
    rw [Function.update_of_ne hother] at hj
    cases h.mark j hj
  exact ⟨fun _ _ => rfl, fun j k hj hk => (honly j hj).trans (honly k hk).symm⟩

theorem Exclusive.released (h : Exclusive stages busy) (hi : (stages i).marked = true) :
    Exclusive (Function.update stages i .initial) false := by
  have hnone : ∀ j, (Function.update stages i .initial j).marked ≠ true := by
    intro j hj
    by_cases hsame : j = i
    · rw [hsame, Function.update_self] at hj
      cases hj
    · rw [Function.update_of_ne hsame] at hj
      exact hsame (h.alone j i hj hi)
  exact ⟨fun j hj => absurd hj (hnone j), fun j _ hj => absurd hj (hnone j)⟩

end Mark

theorem Exclusive.step {stages : Fin n → Stage} {w : σ × Memory}
    (h : Exclusive stages w.2.refreshing) {i : Fin n} (hallows : (stages i).Allows timed e) :
    let r := e.answer api w
    Exclusive (Function.update stages i ((stages i).after e r.1)) r.2.2.refreshing := by
  cases e with
  | ask op => exact h.kept (after_ask_mark op _ _)
  | note | drain | latest | publish => exact h.kept rfl
  | release => exact h.released hallows
  | claim =>
    have hinitial : stages i = .initial := hallows
    cases hflag : w.2.refreshing with
    | false =>
      rw [hflag] at h
      exact h.claimed _
    | true =>
      rw [hflag] at h
      refine h.kept ?_
      rw [hinitial]
      simp [Stage.after, Stage.initial, Effect.answer, hflag]

variable {errands : Fin n → Errand} {events later : List (Event n)} {stages : Fin n → Stage}
  {x y : Scene n σ}

theorem Staged.step (h : Staged errands events stages x) {i : Fin n}
    {next : e.Answer → Task Unit} (htask : x.tasks i = .ask e next) :
    let r := e.answer api x.world
    Staged errands (events ++ [⟨i, .of e r.1⟩])
      (Function.update stages i ((stages i).after e r.1))
      ⟨Function.update x.tasks i (next r.1), r.2⟩ := by
  intro r
  have hleads := h.leads i
  rw [htask] at hleads
  obtain ⟨hallows, hnext⟩ := hleads
  constructor
  · intro j
    by_cases hj : j = i
    · subst hj
      simp only [Function.update_self]
      exact hnext r.1
    · simp only [Function.update_of_ne hj]
      exact h.leads j
  · intro j zones hheld
    -- What was held before is still the last that was fetched, unless this step loads again.
    have hold : (stages j).held = some zones → (i = j → (Deed.of e r.1).loads = false) →
        ∃ front back, events ++ [⟨i, .of e r.1⟩] = front ++ ⟨j, .fetched (some zones)⟩ :: back ∧
          Undisturbed j back := by
      intro hbefore hquiet
      obtain ⟨front, back, hevents, hback⟩ := h.fetched j zones hbefore
      refine ⟨front, back ++ [⟨i, .of e r.1⟩], ?_, hback.concat hquiet⟩
      rw [hevents, List.append_assoc, List.cons_append]
    by_cases hj : j = i
    · subst hj
      rw [Function.update_self] at hheld
      rcases held_after hheld with hdeed | ⟨hbefore, hquiet⟩
      · refine ⟨events, [], by rw [hdeed], ?_⟩
        rintro event ⟨⟩
      · exact hold hbefore fun _ => hquiet
    · rw [Function.update_of_ne hj] at hheld
      exact hold hheld fun heq => absurd heq.symm hj
  · exact h.exclusive.step hallows
  · intro j
    by_cases hj : j = i
    · subst hj
      rw [Function.update_self]
      exact timed_after hallows (h.timed j) r.1
    · rw [Function.update_of_ne hj]
      exact h.timed j

theorem Staged.run (h : Staged errands events stages x) (hrun : Run api x later y) :
    ∃ stages', Staged errands (events ++ later) stages' y := by
  induction later generalizing events stages x with
  | nil =>
    cases hrun
    rw [List.append_nil]
    exact ⟨stages, h⟩
  | cons event later ih =>
    obtain ⟨e, next, htask, hdeed, hrest⟩ := hrun.cons_inv
    obtain ⟨stages', hlast⟩ := ih (h.step htask) hrest
    refine ⟨stages', ?_⟩
    rw [← hdeed, List.append_assoc] at hlast
    exact hlast

end Step

section Loads

variable {api : Behaviour σ} {errands : Fin n → Errand} {events later rest : List (Event n)}
  {stages : Fin n → Stage} {x y : Scene n σ} {event : Event n} {view : ZonesView}

def Deed.Tells : Deed → Effect → Prop
  | .fetched _, e => e = .ask .getZones
  | .changed op, e => e = .ask op ∧ op.changes = true
  | .published view, e => e = .publish view
  | .other, _ => True

theorem Deed.of_tells (e : Effect) (r : e.Answer) : (Deed.of e r).Tells e := by
  cases e with
  | ask op =>
    cases op with
    | getZones => rfl
    | _ => cases r <;> trivial
  | publish view => rfl
  | note | drain | latest | claim | release => trivial

theorem held_of_inFlight {timed : Bool} {t : Task Unit} {s : Stage}
    {final : Unit → Stage → Prop} (h : t.Leads timed s final) (hflight : t.InFlight) :
    ∃ zones, s.held = some zones := by
  induction t generalizing s with
  | done a => exact hflight.elim
  | ask e next ih =>
    obtain ⟨hallows, hnext⟩ := h
    rcases hflight with ⟨view, rfl⟩ | ⟨hother, r, hflight⟩
    · obtain ⟨zones, hheld, -⟩ := hallows
      exact ⟨zones, hheld⟩
    · obtain ⟨zones, hheld⟩ := ih r (hnext r) hflight
      rcases held_after hheld with hdeed | ⟨hbefore, -⟩
      · have htells := Deed.of_tells e r
        rw [hdeed] at htells
        exact absurd htells hother
      · exact ⟨zones, hbefore⟩

theorem held_of_change {op : Operation} (h : op.changes = true) (s : Stage) (r : op.Result) :
    (s.after (.ask op) r).held = none := by
  cases op with
  | _ => first | rfl | cases h

/-- Of two periodic refreshes only one is under way. -/
theorem Staged.inFlight_alone (h : Staged errands events stages x) {i j : Fin n}
    (hi : (errands i).timed = true) (hj : (errands j).timed = true)
    (hiFlight : (x.tasks i).InFlight) (hjFlight : (x.tasks j).InFlight) : i = j := by
  obtain ⟨zones, hiHeld⟩ := held_of_inFlight (h.leads i) hiFlight
  obtain ⟨zones', hjHeld⟩ := held_of_inFlight (h.leads j) hjFlight
  exact h.exclusive.alone i j (h.timed i hi (by simp [hiHeld])) (h.timed j hj (by simp [hjHeld]))

/-- A task that changes something fetches the zones anew before it publishes any. -/
theorem Staged.not_inFlight (h : Staged errands events stages x)
    (hrun : Run api x (event :: rest) y) {op : Operation} (hchange : event.deed = .changed op) :
    ¬ (x.tasks event.task).InFlight := by
  obtain ⟨e, next, htask, hdeed, -⟩ := hrun.cons_inv
  obtain ⟨rfl, hchanges⟩ : e = .ask op ∧ op.changes = true := by
    have htells := Deed.of_tells e (e.answer api x.world).1
    rwa [← hdeed, hchange] at htells
  have hleads := h.leads event.task
  rw [htask] at hleads ⊢
  rintro (⟨view, heq⟩ | ⟨-, r, hflight⟩)
  · cases heq
  · obtain ⟨zones, hheld⟩ := held_of_inFlight (hleads.2 r) hflight
    rw [held_of_change hchanges] at hheld
    cases hheld

theorem inFlight_of_run (hrun : Run api x (later ++ event :: rest) y)
    (hpublished : event.deed = .published view) (hquiet : Undisturbed event.task later) :
    (x.tasks event.task).InFlight := by
  induction later generalizing x with
  | nil =>
    obtain ⟨e, next, htask, hdeed, -⟩ := hrun.cons_inv
    have htells := Deed.of_tells e (e.answer api x.world).1
    rw [← hdeed, hpublished] at htells
    rw [htask]
    exact Or.inl ⟨view, htells⟩
  | cons first later ih =>
    obtain ⟨e, next, htask, hdeed, hrest⟩ := hrun.cons_inv
    have hlater : Undisturbed event.task later :=
      fun last hlast => hquiet last (List.mem_cons_of_mem _ hlast)
    have hflight : (Function.update x.tasks first.task
        (next (e.answer api x.world).1) event.task).InFlight := ih hrest hlater
    by_cases hsame : first.task = event.task
    · have hother : e ≠ .ask .getZones := by
        rintro rfl
        have hloads := hquiet first (List.mem_cons_self ..) hsame
        rw [hdeed] at hloads
        cases hloads
      rw [← hsame, Function.update_self] at hflight
      rw [← hsame, htask]
      exact Or.inr ⟨hother, _, hflight⟩
    · rwa [Function.update_of_ne (Ne.symm hsame)] at hflight

theorem Staged.not_both_timed (h : Staged errands events stages x) {last : Event n}
    {newerView : ZonesView} (hrun : Run api x (event :: later ++ last :: rest) y)
    (hnewer : event.deed = .published newerView) (hlast : last.deed = .published view)
    (hquiet : Undisturbed last.task (event :: later)) :
    ¬ ((errands event.task).timed = true ∧ (errands last.task).timed = true) := by
  rintro ⟨hnewerTimed, hlastTimed⟩
  have hnewerFlight : (x.tasks event.task).InFlight := by
    have hfirst : Run api x ([] ++ event :: (later ++ last :: rest)) y := hrun
    exact inFlight_of_run hfirst hnewer (by rintro other ⟨⟩)
  have hlastFlight : (x.tasks last.task).InFlight := inFlight_of_run hrun hlast hquiet
  have hsame := h.inFlight_alone hnewerTimed hlastTimed hnewerFlight hlastFlight
  have hloads := hquiet event (List.mem_cons_self ..) hsame
  rw [hnewer] at hloads
  cases hloads

/-- What is published was fetched by the same task, and has not been published before. -/
theorem Staged.shows (h : Staged errands events stages x) (hrun : Run api x (event :: rest) y)
    (hpublished : event.deed = .published view) : event.ShowsFetchOf events [] := by
  obtain ⟨e, next, htask, hdeed, -⟩ := hrun.cons_inv
  have htells := Deed.of_tells e (e.answer api x.world).1
  rw [← hdeed, hpublished] at htells
  obtain rfl : e = .publish view := htells
  have hleads := h.leads event.task
  rw [htask] at hleads
  obtain ⟨zones, hheld, hshows⟩ := hleads.1
  obtain ⟨front, back, hevents, hback⟩ := h.fetched event.task zones hheld
  refine ⟨view, zones, front, back, hpublished, hevents, ?_, hshows⟩
  rwa [List.append_nil]

theorem Event.ShowsFetchOf.split {before : List (Event n)} {change : Event n}
    (hchange : change.deed.loads = false)
    (h : event.ShowsFetchOf (before ++ change :: later) []) :
    event.ShowsFetchOf later [] ∨ event.ShowsFetchOf before (change :: later) := by
  obtain ⟨view, zones, front, back, hpublished, hparts, hquiet, hshows⟩ := h
  have hfetch : change ≠ ⟨event.task, .fetched (some zones)⟩ := by
    rintro rfl
    cases hchange
  rw [List.append_nil] at hquiet
  rcases List.append_eq_append_iff.mp hparts with
    ⟨middle, hfront, hlater⟩ | ⟨middle, hbefore, hback⟩
  · cases middle with
    | nil => exact absurd (List.cons.inj hlater).1 hfetch
    | cons first middle =>
      obtain ⟨-, hlater⟩ := List.cons.inj hlater
      exact Or.inl ⟨view, zones, middle, back, hpublished, hlater, by rwa [List.append_nil], hshows⟩
  · cases middle with
    | nil => exact absurd (List.cons.inj hback).1.symm hfetch
    | cons first middle =>
      obtain ⟨rfl, hrest⟩ := List.cons.inj hback
      refine Or.inr ⟨view, zones, front, middle, hpublished, hbefore, ?_, hshows⟩
      rw [hrest] at hquiet
      exact hquiet

end Loads

/-- A run in which a section is published that shows zones fetched since an accepted change, and
another section after it. -/
structure Succession (api : Behaviour σ) (start : Scene n σ) where
  before : List (Event n)
  change : Event n
  between : List (Event n)
  newer : Event n
  later : List (Event n)
  last : Event n
  rest : List (Event n)
  /-- The scene in which the change is made. -/
  scene : Scene n σ
  final : Scene n σ
  reaches : Run api start before scene
  continues : Run api scene (change :: between ++ newer :: later ++ last :: rest) final
  accepted : ∃ op, change.deed = .changed op
  shows : newer.ShowsFetchOf between []
  published : ∃ view, last.deed = .published view

def Succession.since {api : Behaviour σ} {start : Scene n σ} (r : Succession api start) :
    List (Event n) :=
  r.change :: (r.between ++ r.newer :: r.later)

/-- No section is ever followed by one whose zones were fetched before a change that the first one
shows already. -/
def NeverBack (api : Behaviour σ) (start : Scene n σ) : Prop :=
  ∀ r : Succession api start, ¬ r.last.ShowsFetchOf r.before r.since

/-- Zones that were fetched before a change which a published section shows are published after it
by a load alone that was under way when the change was made: that of a task which neither made the
change nor published the newer section, and which is no periodic refresh if that was one. -/
theorem older_sections_come_from_loads_under_way (api : Behaviour σ) (errands : Fin n → Errand)
    (world : σ × Memory) (r : Succession api (Scene.start errands world)) :
    r.last.ShowsFetchOf (r.between ++ r.newer :: r.later) [] ∨
      r.last.ShowsFetchOf r.before r.since ∧
        (r.scene.tasks r.last.task).InFlight ∧
        r.last.task ≠ r.change.task ∧ r.last.task ≠ r.newer.task ∧
        ¬ (errands r.newer.task = .tick ∧ errands r.last.task = .tick) := by
  obtain ⟨op, hchange⟩ := r.accepted
  obtain ⟨view, hlast⟩ := r.published
  obtain ⟨newerView, -, -, -, hnewer, -⟩ := r.shows
  have hquietChange : r.change.deed.loads = false := by rw [hchange]; rfl
  obtain ⟨stages, hscene⟩ := (staged_start errands world).run r.reaches
  rw [List.nil_append] at hscene
  obtain ⟨z, hsince, hrest⟩ := r.continues.split
  obtain ⟨stages', hz⟩ := hscene.run hsince
  have hshows : r.last.ShowsFetchOf (r.before ++ r.since) [] := hz.shows hrest hlast
  rcases hshows.split hquietChange with hnew | hold
  · exact Or.inl hnew
  · refine Or.inr ⟨hold, ?_⟩
    obtain ⟨-, -, -, back, -, -, hquiet, -⟩ := hold
    have hsinceQuiet : Undisturbed r.last.task r.since :=
      fun event hevent => hquiet event (List.mem_append_right _ hevent)
    have hflight : (r.scene.tasks r.last.task).InFlight :=
      inFlight_of_run r.continues hlast hsinceQuiet
    have hother : r.last.task ≠ r.newer.task := by
      intro heq
      have hloads := hsinceQuiet r.newer (by simp [Succession.since]) heq.symm
      rw [hnewer] at hloads
      cases hloads
    refine ⟨hflight, ?_, hother, ?_⟩
    · intro heq
      rw [heq] at hflight
      exact hscene.not_inFlight r.continues hchange hflight
    · obtain ⟨w, hbetween, hfrom⟩ : ∃ w, Run api r.scene (r.change :: r.between) w ∧
          Run api w (r.newer :: r.later ++ r.last :: r.rest) r.final := by
        apply Run.split
        simpa using r.continues
      obtain ⟨stages'', hw⟩ := hscene.run hbetween
      have hlaterQuiet : Undisturbed r.last.task (r.newer :: r.later) := fun event hevent =>
        hsinceQuiet event (List.mem_cons_of_mem _ (List.mem_append_right _ hevent))
      rintro ⟨hnewerTick, hlastTick⟩
      exact hw.not_both_timed hfrom hnewer hlast hlaterQuiet
        ⟨by rw [hnewerTick]; rfl, by rw [hlastTick]; rfl⟩

namespace LateRefresh

abbrev timer : Fin 2 := ⟨0, Nat.zero_lt_two⟩

abbrev visitor : Fin 2 := ⟨1, Nat.one_lt_two⟩

def errands : Fin 2 → Errand := fun i =>
  if i = timer then .tick else .act (.changeZoneMode "e1z2" ":fixed:cozy")

def week : WeekTime := ⟨.monday, 8, 0⟩

def api : Behaviour Site := Site.behaviour 10 week

def start : Scene 2 Site := Scene.start errands (⟨.seeded 0, fun n => n⟩, Memory.new 1)

def halfway : List (Event 2) × Scene 2 Site := play api start (List.replicate 3 timer)

def turns : List (Fin 2) := List.replicate 5 visitor ++ List.replicate 3 timer

def ending : List (Event 2) × Scene 2 Site := play api halfway.2 turns

def operation : Operation := .patchZone ⟨"e1z2"⟩ (ZonePatch.ofMode (.fixed ⟨"cozy"⟩))

def changed : State := (State.step 10 ⟨0, week⟩ (.operation operation) (.seeded 0)).2

def fetch (i : Fin 2) (s : State) : Event 2 := ⟨i, .fetched (some (s.currentZones week))⟩

def shown (s : State) : ZonesView :=
  ZonesView.render s.orders (s.currentZones week) s.plannings

theorem halfway_events : halfway.1 =
    [⟨timer, .other⟩, ⟨timer, .other⟩, fetch timer (.seeded 0)] := by
  decide +kernel

theorem ending_events : ending.1 =
    ⟨visitor, .changed operation⟩ ::
      [⟨visitor, .other⟩, fetch visitor changed, ⟨visitor, .other⟩] ++
      ⟨visitor, .published (shown changed)⟩ :: [⟨timer, .other⟩] ++
      ⟨timer, .published (shown (.seeded 0))⟩ :: [⟨timer, .other⟩] := by
  decide +kernel

def succession : Succession api start where
  before := halfway.1
  change := ⟨visitor, .changed operation⟩
  between := [⟨visitor, .other⟩, fetch visitor changed, ⟨visitor, .other⟩]
  newer := ⟨visitor, .published (shown changed)⟩
  later := [⟨timer, .other⟩]
  last := ⟨timer, .published (shown (.seeded 0))⟩
  rest := [⟨timer, .other⟩]
  scene := halfway.2
  final := ending.2
  reaches := run_play api start (List.replicate 3 timer)
  continues := by
    rw [← ending_events]
    exact run_play api halfway.2 turns
  accepted := ⟨operation, rfl⟩
  shows := ⟨shown changed, changed.currentZones week, [⟨visitor, .other⟩], [⟨visitor, .other⟩],
    rfl, rfl, by decide +kernel, _, _, rfl⟩
  published := ⟨shown (.seeded 0), rfl⟩

end LateRefresh

open LateRefresh in
/-- The refresh shows the zone as it was before, after it has been shown as it is. -/
theorem late_refresh_shows_older_zones : ¬ NeverBack api start := by
  intro h
  refine h succession ⟨shown (.seeded 0), (State.seeded 0).currentZones week,
    [⟨timer, .other⟩, ⟨timer, .other⟩], [], rfl, halfway_events, ?_, _, _, rfl⟩
  decide +kernel

open LateRefresh in
/-- The refresh was under way when the mode was changed, and what it leaves is not what is to be
shown. -/
theorem late_refresh_was_under_way :
    (succession.scene.tasks timer).InFlight ∧
      succession.final.world.2.snapshot = some (shown (.seeded 0)) ∧
      shown succession.final.world.1.state ≠ shown (.seeded 0) := by
  refine ⟨?_, by decide +kernel, by decide +kernel⟩
  rcases older_sections_come_from_loads_under_way api errands
    (⟨.seeded 0, fun n => n⟩, Memory.new 1) succession with hnew | ⟨-, hflight, -⟩
  · obtain ⟨view, zones, front, back, -, hparts, -⟩ := hnew
    have hmem : (⟨timer, .fetched (some zones)⟩ : Event 2) ∈
        succession.between ++ succession.newer :: succession.later := by
      rw [hparts]
      exact List.mem_append_right _ (List.mem_cons_self ..)
    simp [succession, fetch] at hmem
  · exact hflight

end HeatingControl.Dashboard
