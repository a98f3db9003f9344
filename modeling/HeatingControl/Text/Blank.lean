/-!
# Blanks and separators

White space is the Unicode property White_Space. A text is trimmed of it at both ends, and cut
at a separator either once or everywhere; cutting loses nothing but the separators.
-/
namespace HeatingControl.Text

/-- The characters with the Unicode property White_Space. -/
def isBlank (c : Char) : Bool :=
  let n := c.toNat
  (9 ≤ n && n ≤ 13) || n == 0x20 || n == 0x85 || n == 0xA0 || n == 0x1680 ||
    (0x2000 ≤ n && n ≤ 0x200A) || n == 0x2028 || n == 0x2029 || n == 0x202F || n == 0x205F ||
    n == 0x3000

def trimChars (cs : List Char) : List Char :=
  ((cs.dropWhile isBlank).reverse.dropWhile isBlank).reverse

def trim (s : String) : String := String.ofList (trimChars s.toList)

def allBlank (s : String) : Bool := s.toList.all isBlank

section Cutting

variable {α : Type} [DecidableEq α]

def cutFirst (sep : α) : List α → Option (List α × List α)
  | [] => none
  | c :: cs => if c = sep then some ([], cs) else (cutFirst sep cs).map fun p => (c :: p.1, p.2)

def cutLast (sep : α) (cs : List α) : Option (List α × List α) :=
  (cutFirst sep cs.reverse).map fun p => (p.2.reverse, p.1.reverse)

/-- The parts between the separators, one more than there are separators. -/
def cutAll (sep : α) : List α → List (List α)
  | [] => [[]]
  | c :: cs =>
    if c = sep then [] :: cutAll sep cs
    else match cutAll sep cs with
      | [] => [[c]]
      | part :: parts => (c :: part) :: parts

def afterStart? : List α → List α → Option (List α)
  | [], cs => some cs
  | _ :: _, [] => none
  | w :: ws, c :: cs => if w = c then afterStart? ws cs else none

def beforeEnd? (ending cs : List α) : Option (List α) :=
  (afterStart? ending.reverse cs.reverse).map List.reverse

def cutMark (mark : List α) : List α → Option (List α × List α)
  | [] => (afterStart? mark []).map fun rest => ([], rest)
  | c :: cs =>
    match afterStart? mark (c :: cs) with
    | some rest => some ([], rest)
    | none => (cutMark mark cs).map fun p => (c :: p.1, p.2)

end Cutting

def isDigit (c : Char) : Bool := '0' ≤ c && c ≤ '9'

def isWordChar (c : Char) : Bool :=
  isDigit c || ('a' ≤ c && c ≤ 'z') || ('A' ≤ c && c ≤ 'Z')

def lowerChar (c : Char) : Char :=
  if 'A' ≤ c && c ≤ 'Z' then Char.ofNat (c.toNat + 32) else c

def lower (s : String) : String := String.ofList (s.toList.map lowerChar)

/-- What is of a kind is none of what is not. -/
theorem ne_of_kind {α : Type} {p : α → Bool} {a b : α} (ha : p a = true) (hb : p b = false) :
    a ≠ b := by
  rintro rfl
  rw [ha] at hb
  cases hb

theorem cutFirst_eq {α : Type} [DecidableEq α] {sep : α} {cs l r : List α}
    (h : cutFirst sep cs = some (l, r)) :
    cs = l ++ sep :: r ∧ sep ∉ l := by
  induction cs generalizing l with
  | nil => simp [cutFirst] at h
  | cons c cs ih =>
    by_cases hc : c = sep
    · simp only [cutFirst, if_pos hc, Option.some.injEq, Prod.mk.injEq] at h
      obtain ⟨rfl, rfl⟩ := h
      simp [hc]
    · simp only [cutFirst, if_neg hc, Option.map_eq_some_iff, Prod.mk.injEq, Prod.exists] at h
      obtain ⟨a, b, hab, rfl, rfl⟩ := h
      obtain ⟨rfl, hn⟩ := ih hab
      simp [Ne.symm hc, hn]

end HeatingControl.Text
