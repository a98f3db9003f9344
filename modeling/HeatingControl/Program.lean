/-!
# Programs over calls

A program asks questions one after the other and continues with each answer. It says nothing of
who answers, so that one program can be run against any behaviour, stopped before a question, or
interleaved with others.
-/
namespace HeatingControl

inductive Program (Call : Type) (Answer : Call → Type) (α : Type) where
  | done (value : α)
  | ask (call : Call) (next : Answer call → Program Call Answer α)

namespace Program

variable {Call : Type} {Answer : Call → Type} {α β γ σ : Type}

def bind : Program Call Answer α → (α → Program Call Answer β) → Program Call Answer β
  | .done a, f => f a
  | .ask c next, f => .ask c fun r => (next r).bind f

instance : Monad (Program Call Answer) where
  pure := .done
  bind := bind

def question (c : Call) : Program Call Answer (Answer c) := .ask c .done

def run (answer : (c : Call) → σ → Answer c × σ) : Program Call Answer α → σ → α × σ
  | .done a, s => (a, s)
  | .ask c next, s => (next (answer c s).1).run answer (answer c s).2

def advance (answer : (c : Call) → σ → Answer c × σ) :
    Program Call Answer α → σ → Program Call Answer α × σ
  | .done a, s => (.done a, s)
  | .ask c next, s => (next (answer c s).1, (answer c s).2)

/-- Runs up to the first question of a kind and leaves the program that still has to ask it. -/
def runUntil (stop : Call → Bool) (answer : (c : Call) → σ → Answer c × σ) :
    Program Call Answer α → σ → Program Call Answer α × σ
  | .done a, s => (.done a, s)
  | .ask c next, s =>
    if stop c then (.ask c next, s)
    else (next (answer c s).1).runUntil stop answer (answer c s).2

def result? : Program Call Answer α → Option α
  | .done a => some a
  | .ask _ _ => none

/-- Asks at most so many questions, whatever the answers. -/
def Within : Nat → Program Call Answer α → Prop
  | _, .done _ => True
  | 0, .ask _ _ => False
  | n + 1, .ask _ next => ∀ r, (next r).Within n

/-- Asks only questions of a kind, whatever the answers. -/
def Only (admitted : Call → Prop) : Program Call Answer α → Prop
  | .done _ => True
  | .ask c next => admitted c ∧ ∀ r, (next r).Only admitted

theorem result?_eq_none {p : Program Call Answer α} (h : p.result? = none) :
    ∃ c next, p = .ask c next := by
  cases p with
  | done a => cases h
  | ask c next => exact ⟨c, next, rfl⟩

theorem result?_eq_some {p : Program Call Answer α} {a : α} (h : p.result? = some a) :
    p = .done a := by
  cases p with
  | done b => rw [Option.some.inj h]
  | ask c next => cases h

theorem result?_of_within {p : Program Call Answer α} (h : p.Within 0) :
    ∃ a, p.result? = some a := by
  cases p with
  | done a => exact ⟨a, rfl⟩
  | ask c next => exact h.elim

theorem Within.advance {p : Program Call Answer α} {n : Nat} (h : p.Within (n + 1))
    (answer : (c : Call) → σ → Answer c × σ) (s : σ) : (p.advance answer s).1.Within n := by
  cases p with
  | done a => cases n <;> trivial
  | ask c next => exact h _

theorem Within.mono {p : Program Call Answer α} {n m : Nat} (h : p.Within n) (hle : n ≤ m) :
    p.Within m := by
  induction p generalizing n m with
  | done a => cases m <;> trivial
  | ask c next ih =>
    cases n with
    | zero => exact h.elim
    | succ n =>
      obtain ⟨m, rfl⟩ : ∃ k, m = k + 1 := ⟨m - 1, by omega⟩
      exact fun r => ih r (h r) (Nat.le_of_succ_le_succ hle)

theorem Within.bind {p : Program Call Answer α} {f : α → Program Call Answer β} {n m : Nat}
    (hp : p.Within n) (hf : ∀ a, (f a).Within m) : (p.bind f).Within (n + m) := by
  induction p generalizing n with
  | done a => exact (hf a).mono (Nat.le_add_left m n)
  | ask c next ih =>
    cases n with
    | zero => exact hp.elim
    | succ n =>
      rw [Nat.succ_add]
      exact fun r => ih r (hp r)

theorem Only.bind {admitted : Call → Prop} {p : Program Call Answer α}
    {f : α → Program Call Answer β} (h : p.Only admitted) (hf : ∀ a, (f a).Only admitted) :
    (p.bind f).Only admitted := by
  induction p with
  | done a => exact hf a
  | ask c next ih =>
    obtain ⟨hc, hnext⟩ := h
    exact ⟨hc, fun r => ih r (hnext r)⟩

/-- What every admitted question keeps is kept by a program that asks no other. -/
theorem Only.run_keeps {admitted : Call → Prop} {kept : σ → Prop}
    {answer : (c : Call) → σ → Answer c × σ}
    (hkept : ∀ c, admitted c → ∀ s, kept s → kept (answer c s).2)
    {p : Program Call Answer α} (h : p.Only admitted) {s : σ} (hs : kept s) :
    kept (p.run answer s).2 := by
  induction p generalizing s with
  | done a => exact hs
  | ask c next ih =>
    obtain ⟨hc, hnext⟩ := h
    exact ih _ (hnext _) (hkept c hc s hs)

/-- A program never comes back to where it was. -/
theorem next_ne_ask {c : Call} {next : Answer c → Program Call Answer α} (r : Answer c) :
    next r ≠ .ask c next := by
  have hchild : ∀ p : Program Call Answer α, ∀ c next r, p = .ask c next → next r ≠ p := by
    intro p
    induction p with
    | done a => intro c next r h; cases h
    | ask c next ih =>
      intro c' next' r h
      cases h
      intro hback
      exact ih r c next r hback rfl
  exact hchild _ c next r rfl

theorem bind_done (p : Program Call Answer α) : p.bind .done = p := by
  induction p with
  | done a => rfl
  | ask c next ih => exact congrArg (ask c) (funext ih)

theorem bind_assoc (p : Program Call Answer α) (f : α → Program Call Answer β)
    (g : β → Program Call Answer γ) : (p.bind f).bind g = p.bind fun a => (f a).bind g := by
  induction p with
  | done a => rfl
  | ask c next ih => exact congrArg (ask c) (funext ih)

theorem run_bind (answer : (c : Call) → σ → Answer c × σ) (p : Program Call Answer α)
    (f : α → Program Call Answer β) (s : σ) :
    (p.bind f).run answer s = (f (p.run answer s).1).run answer (p.run answer s).2 := by
  induction p generalizing s with
  | done a => rfl
  | ask c next ih => exact ih _ _

theorem run_advance (answer : (c : Call) → σ → Answer c × σ) (p : Program Call Answer α) (s : σ) :
    (p.advance answer s).1.run answer (p.advance answer s).2 = p.run answer s := by
  cases p with
  | done a => rfl
  | ask c next => rfl

end Program
end HeatingControl
