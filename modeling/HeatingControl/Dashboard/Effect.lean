import HeatingControl.Controller.Operation
import HeatingControl.Program
import HeatingControl.View.Zones

/-!
# Tasks of the dashboard

A task talks to the controller and to the memory that all tasks share: the error panel, the
latest zone section, and the mark of a periodic refresh in progress. Every effect is one step, so
tasks can be interleaved between any two of them. The panel is a bounded log of messages that are
shown once; when it is full, the oldest message makes room.
-/
namespace HeatingControl

structure Panel where
  capacity : Nat
  messages : List String
  deriving DecidableEq, Repr

namespace Panel

def defaultCapacity : Nat := 64

/-- A panel without messages; it has room for one message at least. -/
def new (capacity : Nat) : Panel := ⟨max capacity 1, []⟩

def push (p : Panel) (message : String) : Panel :=
  if p.messages.length = p.capacity then { p with messages := p.messages.drop 1 ++ [message] }
  else { p with messages := p.messages ++ [message] }

def log (p : Panel) (e : Error) : Panel := p.push e.message

def drain (p : Panel) : List String × Panel := (p.messages, { p with messages := [] })

def isEmpty (p : Panel) : Bool := p.messages.isEmpty

end Panel

namespace Dashboard

inductive Effect where
  | ask (op : Operation)
  | note (message : String)
  | drain
  | latest
  | publish (view : ZonesView)
  /-- Marks a periodic refresh as in progress, unless one is. -/
  | claim
  /-- Takes the mark away. -/
  | release
  deriving DecidableEq, Repr

abbrev Effect.Answer : Effect → Type
  | .ask op => op.Result
  | .drain => List String
  | .latest => Option ZonesView
  | .claim => Bool
  | _ => Unit

structure Memory where
  panel : Panel
  snapshot : Option ZonesView
  refreshing : Bool
  deriving DecidableEq, Repr

def Memory.new (capacity : Nat) : Memory := ⟨Panel.new capacity, none, false⟩

abbrev Behaviour (σ : Type) := (op : Operation) → σ → op.Result × σ

def Effect.answer {σ : Type} (api : Behaviour σ) :
    (e : Effect) → σ × Memory → e.Answer × (σ × Memory)
  | .ask op, (s, m) => ((api op s).1, ((api op s).2, m))
  | .note message, (s, m) => ((), (s, { m with panel := m.panel.push message }))
  | .drain, (s, m) => (m.panel.drain.1, (s, { m with panel := m.panel.drain.2 }))
  | .latest, (s, m) => (m.snapshot, (s, m))
  | .publish view, (s, m) => ((), (s, { m with snapshot := some view }))
  | .claim, (s, m) => (!m.refreshing, (s, { m with refreshing := true }))
  | .release, (s, m) => ((), (s, { m with refreshing := false }))

abbrev Task (α : Type) := Program Effect Effect.Answer α

abbrev Load (α : Type) := ExceptT Error (Program Effect Effect.Answer) α

def call (op : Operation) : Load op.Answer := ExceptT.mk (Program.question (Effect.ask op))

def perform (e : Effect) : Task e.Answer := Program.question e

def Task.runWith {σ α : Type} (t : Task α) (api : Behaviour σ) (s : σ × Memory) :
    α × (σ × Memory) :=
  t.run (Effect.answer api) s

end Dashboard
end HeatingControl
