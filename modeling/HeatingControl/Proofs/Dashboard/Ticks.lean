import HeatingControl.Proofs.Dashboard.Mark

/-!
# Periodic refreshes do not overlap

Any number of periodic refreshes take turns with other tasks of the dashboard, effect by effect, on
a controller that may answer anything and fail anywhere. The one that holds the mark is the only one
under way; a refresh that begins meanwhile is dropped, and every other one loads the zones once and
leaves the mark free.
-/
namespace HeatingControl.Dashboard

open HeatingControl.Program (Path)

variable {σ : Type} {n : Nat}

/-- Tasks under way on one controller and one memory, with what each of them has done so far. -/
structure Journal (n : Nat) (σ : Type) where
  tasks : Fin n → Task (Option Bool)
  steps : Fin n → List Step
  world : σ × Memory

namespace Journal

def start (errands : Fin n → Errand) (world : σ × Memory) : Journal n σ :=
  ⟨fun i => (errands i).report, fun _ => [], world⟩

def take (x : Journal n σ) (i : Fin n) (e : Effect) (next : e.Answer → Task (Option Bool))
    (r : e.Answer × (σ × Memory)) : Journal n σ :=
  ⟨Function.update x.tasks i (next r.1), Function.update x.steps i (x.steps i ++ [⟨e, r.1⟩]), r.2⟩

def turn (api : Behaviour σ) (x : Journal n σ) (i : Fin n) : Journal n σ :=
  match x.tasks i with
  | .done _ => x
  | .ask e next => x.take i e next (e.answer api x.world)

def play (api : Behaviour σ) (x : Journal n σ) (turns : List (Fin n)) : Journal n σ :=
  turns.foldl (turn api) x

def Refreshing (errands : Fin n → Errand) (x : Journal n σ) (i : Fin n) : Prop :=
  errands i = .tick ∧ x.steps i ≠ [] ∧ (x.tasks i).result? = none

/-- The refresh answers that it was dropped, and has done nothing but ask for the mark: it has not
called the controller, noted or published anything. -/
structure Dropped (x : Journal n σ) (i : Fin n) : Prop where
  answer : x.tasks i = .done (some false)
  steps : x.steps i = [⟨.claim, false⟩]

/-- The refresh answers that it was made: with the mark, by one load and its result, up to the
release of the mark. -/
structure Refreshed (x : Journal n σ) (i : Fin n) : Prop where
  answer : x.tasks i = .done (some true)
  steps : ∃ orders zones plannings, x.steps i =
    ⟨.claim, true⟩ :: (Reading.zones orders zones plannings).refresh ++ [⟨.release, ()⟩]

section Turns

variable (api : Behaviour σ) {x : Journal n σ} {i j : Fin n} {e : Effect}
  {next : e.Answer → Task (Option Bool)} {a : Option Bool}

theorem turn_of_ask (h : x.tasks i = .ask e next) :
    x.turn api i = x.take i e next (e.answer api x.world) := by
  rw [turn, h]

theorem turn_of_done (h : x.tasks i = .done a) : x.turn api i = x := by
  rw [turn, h]

theorem take_other (x : Journal n σ) (next : e.Answer → Task (Option Bool)) (h : j ≠ i)
    (r : e.Answer × (σ × Memory)) :
    (x.take i e next r).tasks j = x.tasks j ∧ (x.take i e next r).steps j = x.steps j :=
  ⟨Function.update_of_ne h .., Function.update_of_ne h ..⟩

theorem take_self (x : Journal n σ) (i : Fin n) (next : e.Answer → Task (Option Bool))
    (r : e.Answer × (σ × Memory)) :
    (x.take i e next r).tasks i = next r.1 ∧
      (x.take i e next r).steps i = x.steps i ++ [⟨e, r.1⟩] :=
  ⟨Function.update_self .., Function.update_self ..⟩

theorem turn_other (x : Journal n σ) (h : j ≠ i) :
    (x.turn api i).tasks j = x.tasks j ∧ (x.turn api i).steps j = x.steps j := by
  cases htask : x.tasks i with
  | done a => simp [turn_of_done api htask]
  | ask e next =>
    rw [turn_of_ask api htask]
    exact take_other x next h _

theorem play_of_done (h : x.tasks i = .done a) (turns : List (Fin n)) :
    (x.play api turns).tasks i = .done a ∧ (x.play api turns).steps i = x.steps i := by
  induction turns generalizing x with
  | nil => exact ⟨h, rfl⟩
  | cons j turns ih =>
    by_cases hj : i = j
    · subst hj
      rw [play, List.foldl_cons, turn_of_done api h]
      exact ih h
    · obtain ⟨htask, hsteps⟩ := turn_other api x hj
      rw [← hsteps]
      exact ih (htask.trans h)

/-- Steps are added to those that were taken, one for each turn as long as the task is not done. -/
theorem steps_play (x : Journal n σ) (i : Fin n) (turns : List (Fin n)) :
    ∃ more, (x.play api turns).steps i = x.steps i ++ more ∧
      (((x.play api turns).tasks i).result? = none → more.length = turns.count i) := by
  induction turns generalizing x with
  | nil => exact ⟨[], (List.append_nil _).symm, fun _ => rfl⟩
  | cons j turns ih =>
    obtain ⟨more, hmore, hlength⟩ := ih (x.turn api j)
    by_cases hj : i = j
    · subst hj
      cases htask : x.tasks i with
      | done a =>
        obtain ⟨hdone, hsteps⟩ := play_of_done api htask (i :: turns)
        refine ⟨[], by rw [hsteps, List.append_nil], fun hopen => ?_⟩
        rw [hdone] at hopen
        cases hopen
      | ask e next =>
        rw [turn_of_ask api htask] at hmore hlength
        refine ⟨⟨e, (e.answer api x.world).1⟩ :: more, ?_, fun hopen => ?_⟩
        · rw [play, List.foldl_cons, turn_of_ask api htask]
          rw [(take_self x i next _).2, List.append_assoc] at hmore
          exact hmore
        · rw [play, List.foldl_cons, turn_of_ask api htask] at hopen
          rw [List.length_cons, hlength hopen, List.count_cons_self]
    · rw [(turn_other api x hj).2] at hmore
      refine ⟨more, hmore, fun hopen => ?_⟩
      rw [hlength hopen, List.count_cons_of_ne (Ne.symm hj)]

end Turns

/-- The tasks stand where their steps have led them, and the mark is held by the periodic refresh
that is under way. -/
structure Sound (errands : Fin n → Errand) (x : Journal n σ) (holder : Option (Fin n)) : Prop where
  paths : ∀ i, Path (errands i).report (x.steps i) (x.tasks i)
  mark : x.world.2.refreshing = holder.isSome
  holds : ∀ i, x.Refreshing errands i ↔ holder = some i

theorem sound_start (errands : Fin n → Errand) {world : σ × Memory}
    (h : world.2.refreshing = false) : (start errands world).Sound errands none := by
  refine ⟨fun i => .refl _, h, fun i => ⟨?_, by rintro ⟨⟩⟩⟩
  rintro ⟨-, hbegun, -⟩
  exact absurd rfl hbegun

namespace Sound

variable {errands : Fin n → Errand} (api : Behaviour σ) {x : Journal n σ}
  {holder holder' : Option (Fin n)} {i : Fin n} {e : Effect}
  {next : e.Answer → Task (Option Bool)}

theorem take (h : x.Sound errands holder) (htask : x.tasks i = .ask e next)
    {r : e.Answer × (σ × Memory)} (hmark : r.2.2.refreshing = holder'.isSome)
    (hself : (x.take i e next r).Refreshing errands i ↔ holder' = some i)
    (hothers : ∀ j, j ≠ i → (holder = some j ↔ holder' = some j)) :
    (x.take i e next r).Sound errands holder' := by
  refine ⟨fun j => ?_, hmark, fun j => ?_⟩
  · by_cases hj : j = i
    · subst hj
      obtain ⟨htasks, hsteps⟩ := take_self x j next r
      rw [htasks, hsteps]
      exact (htask ▸ h.paths j).concat r.1
    · obtain ⟨htasks, hsteps⟩ := take_other x next hj r
      rw [htasks, hsteps]
      exact h.paths j
  · by_cases hj : j = i
    · rw [hj]
      exact hself
    · obtain ⟨htasks, hsteps⟩ := take_other x next hj r
      rw [← hothers j hj, ← h.holds j, Refreshing, Refreshing, htasks, hsteps]

theorem refreshing_take (htick : errands i = .tick) (r : e.Answer × (σ × Memory)) :
    (x.take i e next r).Refreshing errands i ↔ (next r.1).result? = none := by
  obtain ⟨htasks, hsteps⟩ := take_self x i next r
  rw [Refreshing, htasks, hsteps]
  simp [htick]

theorem claim (h : x.Sound errands holder) (htick : errands i = .tick) (hnew : x.steps i = []) :
    x.tasks i = .ask .claim tickRest ∧
      (x.take i .claim tickRest (Effect.answer api .claim x.world)).Sound errands
        (holder.or (some i)) := by
  have htask : x.tasks i = .ask .claim tickRest := by
    have hpath := h.paths i
    rw [htick, hnew, report_tick] at hpath
    exact hpath.of_nil
  refine ⟨htask, ?_⟩
  have hmark := h.mark
  cases holder with
  | none =>
    refine h.take htask rfl ?_ fun j hj => ?_
    · rw [refreshing_take htick, claim_of_free hmark]
      exact iff_of_true tickRest_holding.result? rfl
    · simp [Ne.symm hj]
  | some j =>
    refine h.take htask rfl ?_ fun _ _ => Iff.rfl
    -- The holder has begun, so it is another task than the one that begins now.
    have hother : j ≠ i := by
      rintro rfl
      exact ((h.holds j).mpr rfl).2.1 hnew
    rw [refreshing_take htick, claim_of_held hmark]
    exact iff_of_false (by rintro ⟨⟩) fun hj => hother (Option.some.inj hj)

theorem holding (h : x.Sound errands holder) (htick : errands i = .tick)
    (htask : x.tasks i = .ask e next) (hnew : x.steps i ≠ []) :
    ∃ holder', (x.take i e next (e.answer api x.world)).Sound errands holder' := by
  obtain rfl : holder = some i := (h.holds i).mp ⟨htick, hnew, by rw [htask]; rfl⟩
  have hpath := h.paths i
  rw [htick, htask] at hpath
  -- The next effect is the release, the last one of all, or leaves the mark as it is.
  rcases holding_or_done hpath hnew with (⟨rfl, hend⟩ | ⟨hunmarking, hrest⟩) | ⟨a, ha⟩
  · refine ⟨none, h.take htask rfl ?_ fun j hj => ?_⟩
    · obtain ⟨a, ha⟩ := hend (Effect.answer api .release x.world).1
      rw [refreshing_take htick, ha]
      exact iff_of_false (by rintro ⟨⟩) (by rintro ⟨⟩)
    · simp [Ne.symm hj]
  · refine ⟨some i, h.take htask ?_ ?_ fun _ _ => Iff.rfl⟩
    · rw [hunmarking.refreshing]
      exact h.mark
    · rw [refreshing_take htick]
      exact iff_of_true (hrest _).result? rfl
  · cases ha

theorem other (h : x.Sound errands holder) (hother : errands i ≠ .tick)
    (htask : x.tasks i = .ask e next) :
    (x.take i e next (e.answer api x.world)).Sound errands holder := by
  have honly := (h.paths i).only (Errand.report_unmarking hother)
  rw [htask] at honly
  refine h.take htask ?_ ?_ fun _ _ => Iff.rfl
  · rw [honly.1.refreshing]
    exact h.mark
  · rw [← h.holds i]
    exact iff_of_false (fun hy => hother hy.1) fun hx => hother hx.1

theorem turn (h : x.Sound errands holder) (i : Fin n) :
    ∃ holder', (x.turn api i).Sound errands holder' := by
  cases htask : x.tasks i with
  | done a =>
    rw [turn_of_done api htask]
    exact ⟨holder, h⟩
  | ask e next =>
    by_cases htick : errands i = .tick
    · by_cases hnew : x.steps i = []
      · obtain ⟨hclaim, hnext⟩ := h.claim api htick hnew
        rw [turn_of_ask api hclaim]
        exact ⟨_, hnext⟩
      · rw [turn_of_ask api htask]
        exact h.holding api htick htask hnew
    · rw [turn_of_ask api htask]
      exact ⟨holder, h.other api htick htask⟩

theorem play (h : x.Sound errands holder) (turns : List (Fin n)) :
    ∃ holder', (x.play api turns).Sound errands holder' := by
  induction turns generalizing x holder with
  | nil => exact ⟨holder, h⟩
  | cons i turns ih =>
    obtain ⟨holder', hnext⟩ := h.turn api i
    exact ih hnext

theorem refreshing_iff (h : x.Sound errands holder) :
    x.world.2.refreshing = true ↔ ∃ i, x.Refreshing errands i := by
  rw [h.mark, Option.isSome_iff_exists]
  exact exists_congr fun i => (h.holds i).symm

theorem dropped (h : x.Sound errands holder) (htick : errands i = .tick) (hnew : x.steps i = [])
    (hmark : x.world.2.refreshing = true) :
    (x.turn api i).world = x.world ∧ (x.turn api i).Dropped i := by
  rw [turn_of_ask api (h.claim api htick hnew).1, claim_of_held hmark]
  obtain ⟨htasks, hsteps⟩ := take_self (e := .claim) x i tickRest (false, x.world)
  rw [hnew] at hsteps
  exact ⟨rfl, htasks, hsteps⟩

theorem begun (h : x.Sound errands holder) (htick : errands i = .tick) (hnew : x.steps i = [])
    (hmark : x.world.2.refreshing = false) : (x.turn api i).steps i = [⟨.claim, true⟩] := by
  rw [turn_of_ask api (h.claim api htick hnew).1]
  obtain ⟨-, hsteps⟩ := take_self (e := .claim) x i tickRest (Effect.answer api .claim x.world)
  rw [hnew, claim_of_free hmark] at hsteps
  exact hsteps

/-- A periodic refresh that was given the mark has answered, or it is under way and has taken fewer
than six steps. -/
theorem refreshed (h : x.Sound errands holder) (htick : errands i = .tick) {more : List Step}
    (hsteps : x.steps i = ⟨.claim, true⟩ :: more) :
    x.Refreshed i ∨ x.Refreshing errands i ∧ more.length < 5 := by
  have hpath := h.paths i
  rw [htick, hsteps] at hpath
  cases htask : x.tasks i with
  | done a =>
    rw [htask] at hpath
    obtain ⟨rfl, orders, zones, plannings, rfl⟩ := tick_refreshed hpath
    exact Or.inl ⟨htask, orders, zones, plannings, hsteps⟩
  | ask e next =>
    rw [htask] at hpath
    have hlength := hpath.length_lt report_tick_within
    refine Or.inr ⟨⟨htick, by simp [hsteps], by rw [htask]; rfl⟩, ?_⟩
    exact Nat.lt_of_succ_lt_succ hlength

end Sound
end Journal

open Journal in
/-- Whatever the turns and whatever fails: at most one periodic refresh is under way, and the mark
is there exactly while one is. One that begins meanwhile is dropped and changes nothing; any other
one loads the zones once and says so, after five more turns of its own at the latest. -/
theorem periodic_refreshes_never_overlap (api : Behaviour σ) (errands : Fin n → Errand)
    {world : σ × Memory} (hfree : world.2.refreshing = false) (turns : List (Fin n)) :
    let x := (start errands world).play api turns
    (∀ i j, x.Refreshing errands i → x.Refreshing errands j → i = j) ∧
    (x.world.2.refreshing = true ↔ ∃ i, x.Refreshing errands i) ∧
    ∀ i, errands i = .tick → x.steps i = [] → ∀ later : List (Fin n),
      let y := x.turn api i
      let z := y.play api later
      ((∃ j, x.Refreshing errands j) → y.world = x.world ∧ z.Dropped i) ∧
      ((∀ j, ¬ x.Refreshing errands j) →
        z.Refreshed i ∨ z.Refreshing errands i ∧ later.count i < 5) := by
  intro x
  obtain ⟨holder, hx⟩ := (sound_start errands hfree).play api turns
  refine ⟨fun i j hi hj => ?_, hx.refreshing_iff, fun i htick hnew later => ⟨?_, ?_⟩⟩
  · have hholder := (hx.holds i).mp hi
    exact Option.some.inj (hholder.symm.trans ((hx.holds j).mp hj))
  · rintro hbusy
    obtain ⟨hworld, hdropped⟩ := hx.dropped api htick hnew (hx.refreshing_iff.mpr hbusy)
    obtain ⟨htask, hsteps⟩ := play_of_done api hdropped.answer later
    exact ⟨hworld, htask, hsteps.trans hdropped.steps⟩
  · intro hfree
    have hmark : x.world.2.refreshing = false := by
      rw [← Bool.not_eq_true, hx.refreshing_iff]
      rintro ⟨j, hj⟩
      exact hfree j hj
    obtain ⟨_, hy⟩ := hx.turn api i
    obtain ⟨_, hz⟩ := hy.play api later
    obtain ⟨more, hmore, hlength⟩ := steps_play api (x.turn api i) i later
    rw [hx.begun api htick hnew hmark] at hmore
    refine (hz.refreshed htick hmore).imp_right fun ⟨hrefreshing, hfew⟩ => ⟨hrefreshing, ?_⟩
    rwa [← hlength hrefreshing.2.2]

def unreachable : Behaviour Unit := fun op s =>
  (.error (.network op.verb Operation.root "timed out"), s)

def threeRefreshes : Fin 3 → Errand := fun i => if i = 2 then .refresh else .tick

open Journal in
/-- The second refresh is dropped while the first one waits and the third one fails; the first one
fails too, and leaves the mark free. -/
theorem refresh_dropped_while_others_fail :
    let first := start threeRefreshes ((), Memory.new 1)
    let x := first.play unreachable [0, 2]
    let later : List (Fin 3) := [2, 0, 1, 0, 0, 0, 0]
    x.Refreshing threeRefreshes 0 ∧ x.steps 1 = [] ∧
      ((x.turn unreachable 1).play unreachable later).Dropped 1 ∧
      ((first.turn unreachable 0).play unreachable later).Refreshed 0 ∧
      ((first.turn unreachable 0).play unreachable later).world.2.refreshing = false := by
  intro first x later
  have hbusy : x.Refreshing threeRefreshes 0 := ⟨rfl, List.cons_ne_nil _ _, rfl⟩
  have hfree : first.world.2.refreshing = false := rfl
  obtain ⟨-, -, hsecond⟩ :=
    periodic_refreshes_never_overlap unreachable threeRefreshes hfree [0, 2]
  obtain ⟨-, -, hfirst⟩ := periodic_refreshes_never_overlap unreachable threeRefreshes hfree []
  refine ⟨hbusy, rfl, ((hsecond 1 rfl rfl later).1 ⟨0, hbusy⟩).2, ?_, rfl⟩
  rcases (hfirst 0 rfl rfl later).2 fun j hj => hj.2.1 rfl with hdone | ⟨-, hfew⟩
  · exact hdone
  · exact absurd hfew (by decide)

end HeatingControl.Dashboard
