import HeatingControl.Proofs.Dashboard.Tasks
import Mathlib.Logic.Function.Basic

/-!
# Interleaved tasks

Tasks that are under way at the same time take turns: a turn is one effect, a call of the
controller or a step on the memory that they share. Nothing is assumed of the order of the turns,
and nothing of the answers of the controller, so that others may call it between any two of them.
-/
namespace HeatingControl.Dashboard

variable {σ α : Type} {n : Nat}

inductive Errand where
  | tick
  | refresh
  | act (a : Action)
  | bootstrap (selection : Selection)
  | zonePage
  | reboot
  deriving DecidableEq

namespace Errand

def task : Errand → Task Unit
  | .tick => do let _ ← Dashboard.tick
  | .refresh => refreshNow
  | .act a => do let _ ← a.run
  | .bootstrap selection => do let _ ← Dashboard.bootstrap selection
  | .zonePage => do let _ ← Dashboard.zonePage
  | .reboot => do let _ ← Dashboard.reboot

end Errand

/-- What an effect has done, as far as it bears on the latest zone section. -/
inductive Deed where
  /-- The zones were asked for, and came unless that failed. -/
  | fetched (zones : Option (List Zone))
  /-- The controller has accepted a change. -/
  | changed (op : Operation)
  | published (view : ZonesView)
  | other
  deriving DecidableEq

def Deed.of : (e : Effect) → e.Answer → Deed
  | .ask .getZones, r => .fetched r.toOption
  | .ask op, .ok _ => if op.changes then .changed op else .other
  | .publish view, _ => .published view
  | _, _ => .other

structure Event (n : Nat) where
  task : Fin n
  deed : Deed
  deriving DecidableEq

/-- Tasks under way, on one controller and one memory. -/
structure Scene (n : Nat) (σ : Type) where
  tasks : Fin n → Task Unit
  world : σ × Memory

namespace Scene

def start (errands : Fin n → Errand) (world : σ × Memory) : Scene n σ :=
  ⟨fun i => (errands i).task, world⟩

def after (api : Behaviour σ) (x : Scene n σ) (i : Fin n) : Scene n σ :=
  let r := (x.tasks i).advance (Effect.answer api) x.world
  ⟨Function.update x.tasks i r.1, r.2⟩

def event? (api : Behaviour σ) (x : Scene n σ) (i : Fin n) : Option (Event n) :=
  match x.tasks i with
  | .done _ => none
  | .ask e _ => some ⟨i, .of e (e.answer api x.world).1⟩

end Scene

/-- The events of a number of turns, each taken by a task that is not done. -/
inductive Run (api : Behaviour σ) : Scene n σ → List (Event n) → Scene n σ → Prop
  | nil (x : Scene n σ) : Run api x [] x
  | cons {x y : Scene n σ} {i : Fin n} {event : Event n} {events : List (Event n)}
      (h : x.event? api i = some event) (hrest : Run api (x.after api i) events y) :
      Run api x (event :: events) y

section Runs

variable {api : Behaviour σ} {x y z : Scene n σ} {events later : List (Event n)}

theorem Scene.event?_eq_some {i : Fin n} {event : Event n} :
    x.event? api i = some event ↔ ∃ e next, x.tasks i = .ask e next ∧
      event = ⟨i, .of e (e.answer api x.world).1⟩ := by
  unfold event?
  cases x.tasks i with
  | done a => simp
  | ask e next =>
    constructor
    · intro h
      exact ⟨e, next, rfl, (Option.some.inj h).symm⟩
    · rintro ⟨e', next', heq, rfl⟩
      cases heq
      rfl

theorem Run.cons_inv {event : Event n} (h : Run api x (event :: events) y) :
    ∃ e next, x.tasks event.task = .ask e next ∧
      event.deed = .of e (e.answer api x.world).1 ∧
      Run api ⟨Function.update x.tasks event.task (next (e.answer api x.world).1),
        (e.answer api x.world).2⟩ events y := by
  cases h with
  | cons hevent hrest =>
    obtain ⟨e, next, htask, rfl⟩ := Scene.event?_eq_some.mp hevent
    refine ⟨e, next, htask, rfl, ?_⟩
    rw [Scene.after, htask] at hrest
    exact hrest

theorem Run.split (h : Run api x (events ++ later) z) :
    ∃ y, Run api x events y ∧ Run api y later z := by
  induction events generalizing x with
  | nil => exact ⟨x, .nil x, h⟩
  | cons event events ih =>
    cases h with
    | cons hevent hrest =>
      obtain ⟨y, hfirst, hlater⟩ := ih hrest
      exact ⟨y, .cons hevent hfirst, hlater⟩

/-- The events of turns in this order, those of tasks that are done being left out. -/
def play (api : Behaviour σ) : Scene n σ → List (Fin n) → List (Event n) × Scene n σ
  | x, [] => ([], x)
  | x, i :: turns =>
    let r := play api (x.after api i) turns
    (((x.event? api i).toList ++ r.1), r.2)

theorem Scene.after_of_done {i : Fin n} (h : x.event? api i = none) : x.after api i = x := by
  unfold event? at h
  cases htask : x.tasks i with
  | ask e next => simp [htask] at h
  | done a =>
    rw [after, htask]
    simp only [Program.advance]
    rw [← htask, Function.update_eq_self]

theorem run_play (api : Behaviour σ) (x : Scene n σ) (turns : List (Fin n)) :
    Run api x (play api x turns).1 (play api x turns).2 := by
  induction turns generalizing x with
  | nil => exact .nil x
  | cons i turns ih =>
    cases hevent : x.event? api i with
    | none =>
      simp only [play, hevent, Option.toList_none, List.nil_append, Scene.after_of_done hevent]
      exact ih x
    | some event =>
      simp only [play, hevent, Option.toList_some]
      exact .cons hevent (ih _)

end Runs
end HeatingControl.Dashboard
