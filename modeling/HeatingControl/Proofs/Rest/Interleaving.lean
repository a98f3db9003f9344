import HeatingControl.Proofs.Rest.Calls
import Mathlib.Data.List.FinRange
import Mathlib.Logic.Function.Basic

/-!
# Interleaved requests

Requests that are answered at the same time take turns at the controller: a turn is one call, and
calls are atomic, requests are not. A serial order answers each request whole. Requests of one
call are their own serial order; a request of two calls reads first, and it is safe as long as it
would still read the same when it comes back.
-/
namespace HeatingControl.Rest

variable {n : Nat} {grace : Nat}

structure Turn (n : Nat) where
  task : Fin n
  moment : Moment

/-- Requests under way and the state that they share. -/
structure Scene (n : Nat) where
  tasks : Fin n → Task Response
  state : State

abbrev Act := Moment → Task Response → State → Task Response × State

def oneCall (grace : Nat) : Act := fun t p s => p.advance (State.step grace t) s

def allCalls (grace : Nat) : Act := fun t p s =>
  let r := p.run (State.step grace t) s
  (.done r.1, r.2)

namespace Scene

def take (act : Act) (x : Scene n) (turn : Turn n) : Scene n :=
  let r := act turn.moment (x.tasks turn.task) x.state
  ⟨Function.update x.tasks turn.task r.1, r.2⟩

def interleave (grace : Nat) (x : Scene n) (turns : List (Turn n)) : Scene n :=
  turns.foldl (take (oneCall grace)) x

def serve (grace : Nat) (x : Scene n) (order : List (Turn n)) : Scene n :=
  order.foldl (take (allCalls grace)) x

def start (requests : Fin n → Request) (s : State) : Scene n :=
  ⟨fun i => respond (requests i), s⟩

def Complete (x : Scene n) : Prop := ∀ i, (x.tasks i).result?.isSome = true

end Scene

def Chronological (turns : List (Turn n)) : Prop :=
  turns.Pairwise fun a b => a.moment.now ≤ b.moment.now

/-- Some serial order of all the requests gives the same answers and the same state. -/
def Serializable (grace : Nat) (x : Scene n) (turns : List (Turn n)) : Prop :=
  ∃ order : List (Turn n), (order.map (·.task)).Perm (List.finRange n) ∧ Chronological order ∧
    x.serve grace order = x.interleave grace turns

/-- The request of this turn has not begun, or it has its answer already, or it would go on in the
same way if it began again now. -/
def Fresh (grace : Nat) (start : Fin n → Task Response) (x : Scene n) (turn : Turn n) : Prop :=
  x.tasks turn.task = start turn.task ∨ (x.tasks turn.task).result?.isSome = true ∨
    (oneCall grace turn.moment (start turn.task) x.state).1 = x.tasks turn.task

/-- No request comes back to a controller that it would see with other eyes. -/
def UpToDate (grace : Nat) (start : Fin n → Task Response) (x : Scene n)
    (turns : List (Turn n)) : Prop :=
  ∀ before turn after, turns = before ++ turn :: after →
    Fresh grace start (x.interleave grace before) turn

/-- At most one call, or a quiet one and at most one more. -/
def Short {α : Type} (p : Task α) : Prop :=
  p.Within 1 ∨ ∃ c next, p = .ask c next ∧ Quiet c ∧ ∀ r, (next r).Within 1

theorem Short.bind {α β : Type} {p : Task α} {f : α → Task β} (h : Short p)
    (hf : ∀ a, (f a).Within 0) : Short (p.bind f) := by
  rcases h with h | ⟨c, next, rfl, hquiet, hnext⟩
  · exact Or.inl (h.bind hf)
  · exact Or.inr ⟨c, fun r => (next r).bind f, rfl, hquiet, fun r => (hnext r).bind hf⟩

theorem applyForm_within (board : HardwareId) (fields : List (String × String))
    (parameters : List HardwareParameter) : (applyForm board fields parameters).Within 1 := by
  unfold applyForm
  cases HardwareSettings.ofForm board fields parameters with
  | error e => trivial
  | ok settings => exact fun r => trivial

theorem load_short (d : Demand) : Short d.load.run := by
  cases d with
  | health => exact Or.inl trivial
  | operation op =>
    rw [load_operation]
    exact Or.inl fun r => trivial
  | zone id =>
    rw [load_zone]
    exact Or.inl fun r => trivial
  | planning id =>
    rw [load_planning]
    refine Or.inr ⟨_, _, rfl, quiet_planningSlots id, fun r => ?_⟩
    cases r with
    | error e => trivial
    | ok slots => exact fun r => trivial
  | addPlanning name =>
    rw [load_addPlanning]
    exact Or.inl fun r => trivial
  | addSlot id slot =>
    rw [load_addSlot]
    exact Or.inl fun r => trivial
  | hardwareForm fields =>
    rw [load_hardwareForm]
    cases boardOf fields with
    | error e => exact Or.inl trivial
    | ok board =>
      refine Or.inr ⟨_, _, rfl, quiet_hardwareParameters board, fun r => ?_⟩
      cases r with
      | error e => trivial
      | ok parameters => exact applyForm_within board fields parameters

theorem respond_short (r : Request) : Short (respond r) := by
  rw [respond_eq]
  refine Short.bind ?_ fun response => trivial
  cases demand r with
  | error refusal => exact Or.inl trivial
  | ok d => exact (load_short d).bind fun result => trivial

/-- A scene of turns beside the scene that serves the finished requests whole, in `order`. -/
structure Matched (start : Fin n → Task Response) (now : Nat) (x y : Scene n)
    (order : List (Turn n)) : Prop where
  /-- The states differ in no more than a reboot that is over. -/
  state : ∀ later, now ≤ later → x.state.boot later = y.state.boot later
  finished : ∀ i, i ∈ order.map (·.task) →
    x.tasks i = y.tasks i ∧ (x.tasks i).result?.isSome = true
  waiting : ∀ i, i ∉ order.map (·.task) →
    y.tasks i = start i ∧ (x.tasks i).result? = none ∧
      (x.tasks i = start i ∨ (x.tasks i).Within 1)
  /-- They do not differ at all while no request stands between its calls. -/
  settled : (∀ i, x.tasks i = start i ∨ (x.tasks i).result?.isSome = true) → x.state = y.state
  distinct : (order.map (·.task)).Nodup
  chronological : Chronological order
  past : ∀ a ∈ order, a.moment.now ≤ now

theorem take_of_finished {x : Scene n} {turn : Turn n}
    (h : (x.tasks turn.task).result?.isSome = true) : x.take (oneCall grace) turn = x := by
  obtain ⟨a, ha⟩ := Option.isSome_iff_exists.mp h
  have hdone := Program.result?_eq_some ha
  simp only [Scene.take, oneCall, hdone, Program.advance]
  rw [← hdone, Function.update_eq_self]

variable {start : Fin n → Task Response} {now : Nat} {x y : Scene n} {order : List (Turn n)}
  {turn : Turn n}

theorem Matched.later (hm : Matched start now x y order) (hle : now ≤ turn.moment.now) :
    Matched start turn.moment.now x y order :=
  { hm with
    state := fun later h => hm.state later (Nat.le_trans hle h)
    past := fun a ha => Nat.le_trans (hm.past a ha) hle }

theorem Matched.finish (hm : Matched start now x y order) (hle : now ≤ turn.moment.now)
    (hi : turn.task ∉ order.map (·.task))
    (hserve : allCalls grace turn.moment (y.tasks turn.task) y.state =
      oneCall grace turn.moment (x.tasks turn.task) x.state) :
    Matched start turn.moment.now (x.take (oneCall grace) turn) (y.take (allCalls grace) turn)
      (order ++ [turn]) := by
  have hstate : (x.take (oneCall grace) turn).state = (y.take (allCalls grace) turn).state :=
    (congrArg Prod.snd hserve).symm
  have hmap : (order ++ [turn]).map (·.task) = order.map (·.task) ++ [turn.task] := by simp
  refine ⟨fun later _ => by rw [hstate], fun i hmem => ?_, fun i hmem => ?_, fun _ => hstate,
    ?_, ?_, fun a ha => ?_⟩
  · by_cases heq : i = turn.task
    · subst heq
      have htask := (congrArg Prod.fst hserve).symm
      simp only [Scene.take, Function.update_self, htask]
      exact ⟨trivial, rfl⟩
    · have hold : i ∈ order.map (·.task) := by
        rw [hmap, List.mem_append, List.mem_singleton] at hmem
        exact hmem.resolve_right heq
      simpa only [Scene.take, Function.update_of_ne heq] using hm.finished i hold
  · rw [hmap, List.mem_append, List.mem_singleton, not_or] at hmem
    simpa only [Scene.take, Function.update_of_ne hmem.2] using hm.waiting i hmem.1
  · rw [hmap, List.nodup_append]
    refine ⟨hm.distinct, List.nodup_singleton _, fun a ha b hb => ?_⟩
    rintro rfl
    exact hi (List.mem_singleton.mp hb ▸ ha)
  · refine List.pairwise_append.mpr ⟨hm.chronological, List.pairwise_singleton _ _, ?_⟩
    intro a ha b hb
    rw [List.mem_singleton.mp hb]
    exact Nat.le_trans (hm.past a ha) hle
  · rcases List.mem_append.mp ha with ha | ha
    · exact Nat.le_trans (hm.past a ha) hle
    · rw [List.mem_singleton.mp ha]

theorem Matched.begin {c : Call} {next : c.Result → Task Response}
    (hm : Matched start now x y order) (hle : now ≤ turn.moment.now)
    (hi : turn.task ∉ order.map (·.task)) (hx : x.tasks turn.task = start turn.task)
    (hask : start turn.task = .ask c next) (hquiet : Quiet c) (hnext : ∀ r, (next r).Within 1)
    (hopen : (oneCall grace turn.moment (x.tasks turn.task) x.state).1.result? = none) :
    Matched start turn.moment.now (x.take (oneCall grace) turn) y order := by
  have hcall : oneCall grace turn.moment (x.tasks turn.task) x.state =
      (next (State.step grace turn.moment c x.state).1, x.state.boot turn.moment.now) := by
    rw [hx, hask, oneCall, Program.advance, hquiet]
  have hother : ∀ i ∈ order.map (·.task), i ≠ turn.task := by
    rintro i hmem rfl
    exact hi hmem
  rw [hcall] at hopen
  refine ⟨fun later hlater => ?_, fun i hmem => ?_, fun i hmem => ?_, fun hall => ?_,
    hm.distinct, hm.chronological, fun a ha => Nat.le_trans (hm.past a ha) hle⟩
  · simp only [Scene.take, hcall]
    rw [State.boot_boot hlater]
    exact hm.state later (Nat.le_trans hle hlater)
  · simpa only [Scene.take, Function.update_of_ne (hother i hmem)] using hm.finished i hmem
  · by_cases heq : i = turn.task
    · subst heq
      simp only [Scene.take, hcall, Function.update_self]
      exact ⟨(hm.waiting _ hmem).1, hopen, Or.inr (hnext _)⟩
    · simpa only [Scene.take, Function.update_of_ne heq] using hm.waiting i hmem
  · have hself := hall turn.task
    simp only [Scene.take, hcall, Function.update_self, hask, hopen] at hself
    rcases hself with hback | hdone
    · exact absurd hback (Program.next_ne_ask _)
    · cases hdone

/-- Every turn is matched by a serial answer, or by none. -/
theorem Matched.step (hshort : ∀ i, Short (start i)) (hm : Matched start now x y order)
    (hle : now ≤ turn.moment.now) (hfresh : Fresh grace start x turn) :
    ∃ more, Matched start turn.moment.now (x.take (oneCall grace) turn) (y.serve grace more)
      (order ++ more) := by
  by_cases hi : turn.task ∈ order.map (·.task)
  · refine ⟨[], ?_⟩
    rw [take_of_finished (hm.finished _ hi).2, List.append_nil]
    exact hm.later hle
  obtain ⟨hy, hopen, hwait⟩ := hm.waiting _ hi
  have hboot := hm.state _ hle
  have hcongr : ∀ c, State.step grace turn.moment c y.state =
      State.step grace turn.moment c x.state := fun c => State.step_congr hboot.symm c
  by_cases hx : x.tasks turn.task = start turn.task
  · -- The request begins: it ends at once, or its first call was a quiet one.
    obtain ⟨c, next, hask⟩ := Program.result?_eq_none (hx ▸ hopen)
    cases hres : (next (State.step grace turn.moment c x.state).1).result? with
    | some a =>
      refine ⟨[turn], hm.finish hle hi ?_⟩
      rw [hy, hx, hask]
      simp only [allCalls, oneCall, Program.run, Program.advance, hcongr,
        Program.result?_eq_some hres]
    | none =>
      rcases hshort turn.task with hone | ⟨c', next', hask', hquiet, hnext⟩
      · rw [hask] at hone
        obtain ⟨a, ha⟩ := Program.result?_of_within (hone (State.step grace turn.moment c x.state).1)
        rw [hres] at ha
        cases ha
      · refine ⟨[], ?_⟩
        rw [List.append_nil]
        refine hm.begin hle hi hx hask' hquiet hnext ?_
        rw [hask] at hask'
        cases hask'
        rw [hx, hask]
        exact hres
  · -- The request comes back, and would read the same again.
    have hlast := hwait.resolve_left hx
    have hagain : (oneCall grace turn.moment (start turn.task) x.state).1 = x.tasks turn.task := by
      rcases hfresh with h | h | h
      · exact absurd h hx
      · rw [hopen] at h
        cases h
      · exact h
    obtain ⟨c', next', hask'⟩ := Program.result?_eq_none hopen
    rw [hask'] at hlast
    obtain ⟨a, ha⟩ := Program.result?_of_within
      (hlast (State.step grace turn.moment c' x.state).1)
    refine ⟨[turn], hm.finish hle hi ?_⟩
    rcases hshort turn.task with hone | ⟨c, next, hask, hquiet, -⟩
    · obtain ⟨b, hb⟩ := Program.result?_of_within
        (hone.advance (State.step grace turn.moment) x.state)
      exact absurd ((congrArg Program.result? hagain).symm.trans hb) (by simp [hopen])
    · rw [hask] at hagain
      rw [hy, hask, hask']
      have hnext : next (State.step grace turn.moment c x.state).1 = .ask c' next' :=
        hagain.trans hask'
      simp only [allCalls, oneCall, Program.run, Program.advance, hcongr, hnext]
      rw [hquiet, State.step_boot]
      simp only [Program.result?_eq_some ha, Program.run]

/-- A run of turns leads to a serial order of the finished requests. -/
theorem Matched.run (hshort : ∀ i, Short (start i)) {turns : List (Turn n)}
    (hm : Matched start now x y order) (hchron : Chronological turns)
    (hlater : ∀ turn ∈ turns, now ≤ turn.moment.now) (hfresh : UpToDate grace start x turns) :
    ∃ later more, Matched start later (x.interleave grace turns) (y.serve grace more)
      (order ++ more) := by
  induction turns generalizing now x y order with
  | nil => exact ⟨now, [], by rw [List.append_nil]; exact hm⟩
  | cons turn turns ih =>
    have hturn : Fresh grace start x turn := hfresh [] turn turns rfl
    obtain ⟨more, hstep⟩ := hm.step hshort (hlater turn (List.mem_cons_self ..)) hturn
    obtain ⟨hfirst, hchron⟩ := List.pairwise_cons.mp hchron
    obtain ⟨later, rest, hrun⟩ := ih hstep hchron hfirst fun before turn' after h =>
      hfresh (turn :: before) turn' after (by rw [h, List.cons_append])
    refine ⟨later, more ++ rest, ?_⟩
    rw [Scene.serve, List.foldl_append, ← List.append_assoc]
    exact hrun

theorem serve_of_finished {order : List (Turn n)}
    (h : ∀ a ∈ order, (x.tasks a.task).result?.isSome = true) : x.serve grace order = x := by
  induction order with
  | nil => rfl
  | cons a order ih =>
    obtain ⟨b, hb⟩ := Option.isSome_iff_exists.mp (h a (List.mem_cons_self ..))
    have hdone := Program.result?_eq_some hb
    have hkeep : x.take (allCalls grace) a = x := by
      simp only [Scene.take, allCalls, hdone, Program.run]
      rw [← hdone, Function.update_eq_self]
    rw [Scene.serve, List.foldl_cons, hkeep]
    exact ih fun a' ha' => h a' (List.mem_cons_of_mem _ ha')

private def silent (x : Scene n) : List (Turn n) :=
  ((List.finRange n).filter fun i => (x.tasks i).result?.isSome).map fun i =>
    ⟨i, ⟨0, ⟨.monday, 0, 0⟩⟩⟩

private theorem matched_silent : Matched x.tasks 0 x x (silent x) := by
  have hmap : (silent x).map (·.task) =
      (List.finRange n).filter fun i => (x.tasks i).result?.isSome := by
    simp [silent, Function.comp_def]
  have hmem : ∀ i, i ∈ (silent x).map (·.task) ↔ (x.tasks i).result?.isSome = true := by
    intro i
    rw [hmap]
    simp
  refine ⟨fun _ _ => rfl, fun i hi => ⟨rfl, (hmem i).mp hi⟩, fun i hi => ⟨rfl, ?_, Or.inl rfl⟩,
    fun _ => rfl, ?_, ?_, fun a ha => ?_⟩
  · rw [hmem, Bool.not_eq_true, Option.isSome_eq_false_iff, Option.isNone_iff_eq_none] at hi
    exact hi
  · rw [hmap]
    exact (List.nodup_finRange n).filter _
  · exact List.pairwise_map.mpr (List.pairwise_of_forall fun _ _ => Nat.le_refl _)
  · obtain ⟨i, -, rfl⟩ := List.mem_map.mp ha
    exact Nat.le_refl _

/-- Turns by short requests that are up to date come to a serial order. -/
theorem serializable_of_upToDate (hshort : ∀ i, Short (x.tasks i)) {turns : List (Turn n)}
    (hchron : Chronological turns) (hcomplete : (x.interleave grace turns).Complete)
    (hfresh : UpToDate grace x.tasks x turns) : Serializable grace x turns := by
  obtain ⟨later, more, hm⟩ :=
    matched_silent.run hshort hchron (fun _ _ => Nat.zero_le _) hfresh
  have hall : ∀ i, i ∈ ((silent x ++ more).map (·.task)) := by
    intro i
    by_contra hi
    have hopen := (hm.waiting i hi).2.1
    have hdone := hcomplete i
    rw [hopen] at hdone
    cases hdone
  refine ⟨silent x ++ more, ?_, hm.chronological, ?_⟩
  · refine (List.perm_ext_iff_of_nodup hm.distinct (List.nodup_finRange n)).mpr fun i => ?_
    exact iff_of_true (hall i) (List.mem_finRange i)
  · have hsilent : x.serve grace (silent x) = x := by
      refine serve_of_finished fun a ha => (matched_silent.finished a.task ?_).2
      exact List.mem_map_of_mem ha
    have hserve : x.serve grace (silent x ++ more) = x.serve grace more := by
      rw [Scene.serve, List.foldl_append]
      exact congrArg (Scene.serve grace · more) hsilent
    rw [hserve]
    have htasks := funext fun i => (hm.finished i (hall i)).1
    have hstate := hm.settled fun i => Or.inr (hcomplete i)
    generalize x.serve grace more = u at htasks hstate
    generalize x.interleave grace turns = v at htasks hstate
    cases u
    cases v
    simp_all

end HeatingControl.Rest
