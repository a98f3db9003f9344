import HeatingControl.Program

/-!
# Where a program has got to

The questions that a program has asked so far, with their answers, tell where it stands, whoever
has answered them and whatever happened in between.
-/
namespace HeatingControl.Program

variable {Call : Type} {Answer : Call → Type} {α β : Type}

/-- With these answers the first program becomes the second. -/
inductive Path : Program Call Answer α → List ((c : Call) × Answer c) → Program Call Answer α → Prop
  | refl (p : Program Call Answer α) : Path p [] p
  | ask {c : Call} {next : Answer c → Program Call Answer α} {r : Answer c}
    {steps : List ((c : Call) × Answer c)} {q : Program Call Answer α}
    (h : Path (next r) steps q) : Path (.ask c next) (⟨c, r⟩ :: steps) q

section Paths

variable {p q : Program Call Answer α} {steps : List ((c : Call) × Answer c)} {n : Nat}

theorem Path.concat {c : Call} {next : Answer c → Program Call Answer α}
    (h : Path p steps (.ask c next)) (r : Answer c) : Path p (steps ++ [⟨c, r⟩]) (next r) := by
  generalize hlast : Program.ask c next = last at h
  induction h with
  | refl p =>
    subst hlast
    exact .ask (.refl _)
  | ask h ih => exact .ask (ih hlast)

theorem Path.of_nil (h : Path p [] q) : q = p := by
  cases h with
  | refl => rfl

theorem Path.of_done {a : α} (h : Path (.done a) steps q) : steps = [] ∧ q = .done a := by
  cases h with
  | refl => exact ⟨rfl, rfl⟩

/-- A program that has still something to ask has asked less than it may at most. -/
theorem Path.length_lt {c : Call} {next : Answer c → Program Call Answer α}
    (h : Path p steps (.ask c next)) (hp : p.Within n) : steps.length < n := by
  generalize hlast : Program.ask c next = last at h
  induction h generalizing n with
  | refl p =>
    subst hlast
    cases n with
    | zero => exact hp.elim
    | succ n => exact Nat.succ_pos n
  | ask h ih =>
    cases n with
    | zero => exact hp.elim
    | succ n => exact Nat.succ_lt_succ (ih (hp _) hlast)

theorem Path.only {admitted : Call → Prop} (h : Path p steps q) (hp : p.Only admitted) :
    q.Only admitted := by
  induction h with
  | refl p => exact hp
  | ask h ih => exact ih (hp.2 _)

theorem Path.of_bind {f : α → Program Call Answer β} {b : β} (h : Path (p.bind f) steps (.done b)) :
    ∃ a front back, steps = front ++ back ∧ Path p front (.done a) ∧
      Path (f a) back (.done b) := by
  induction p generalizing steps with
  | done a => exact ⟨a, [], steps, rfl, .refl _, h⟩
  | ask c next ih =>
    cases h with
    | @ask _ _ r _ _ h =>
      obtain ⟨a, front, back, rfl, hfront, hback⟩ := ih r h
      exact ⟨a, _, back, rfl, .ask hfront, hback⟩

end Paths
end HeatingControl.Program
