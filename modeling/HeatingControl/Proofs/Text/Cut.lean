import HeatingControl.Text.Blank
import Mathlib.Data.List.DropRight
import Mathlib.Tactic.ByContra

/-!
# Joined parts are cut again

Parts without a separator come back when what was joined with it is cut. A text that was trimmed
has nothing left to lose.
-/
namespace HeatingControl.Text

section Trimming

theorem trimChars_eq (cs : List Char) :
    trimChars cs = (cs.dropWhile isBlank).rdropWhile isBlank := rfl

theorem trimChars_of_no_blank {cs : List Char} (h : ∀ c ∈ cs, isBlank c = false) :
    trimChars cs = cs := by
  have hfront : cs.dropWhile isBlank = cs := by
    rw [List.dropWhile_eq_self_iff]
    intro hpos
    simp [h _ (List.getElem_mem hpos)]
  rw [trimChars_eq, hfront, List.rdropWhile_eq_self_iff]
  intro hne
  simp [h _ (List.getLast_mem hne)]

theorem trim_of_no_blank {s : String} (h : ∀ c ∈ s.toList, isBlank c = false) : trim s = s := by
  rw [trim, trimChars_of_no_blank h, String.ofList_toList]

theorem trimChars_trimChars (cs : List Char) : trimChars (trimChars cs) = trimChars cs := by
  -- Cutting the end off leaves the front as it is, which does not start with a blank.
  have hfront : (trimChars cs).dropWhile isBlank = trimChars cs := by
    rw [List.dropWhile_eq_self_iff]
    intro hpos
    have hinitial : trimChars cs <+: cs.dropWhile isBlank := List.rdropWhile_prefix ..
    rw [hinitial.getElem hpos]
    exact List.dropWhile_get_zero_not isBlank cs (Nat.lt_of_lt_of_le hpos hinitial.length_le)
  rw [trimChars_eq (trimChars cs), hfront]
  exact List.rdropWhile_idempotent isBlank _

theorem trim_trim (s : String) : trim (trim s) = trim s := by
  rw [trim, trim, String.toList_ofList, trimChars_trimChars]

theorem trim_eq_empty {s : String} : trim s = "" ↔ allBlank s = true := by
  have hchars : trimChars s.toList = [] ↔ ∀ c ∈ s.toList, isBlank c = true := by
    rw [trimChars_eq, List.rdropWhile_eq_nil_iff]
    constructor
    · intro hrest
      apply List.dropWhile_eq_nil_iff.mp
      by_contra hne
      have hpos := List.length_pos_iff.mpr hne
      exact List.dropWhile_get_zero_not isBlank s.toList hpos (hrest _ (List.getElem_mem hpos))
    · intro h c hc
      exact h c ((List.dropWhile_sublist isBlank).subset hc)
  rw [allBlank, List.all_eq_true, ← hchars, trim]
  exact String.ofList_eq_empty_iff

end Trimming

section Joining

variable {α β : Type}

theorem mem_intercalate {sep c : α} {parts : List (List α)}
    (h : c ∈ List.intercalate [sep] parts) : c = sep ∨ ∃ p ∈ parts, c ∈ p := by
  induction parts with
  | nil => simp at h
  | cons p parts ih =>
    cases parts with
    | nil => exact Or.inr ⟨p, by simp, by simpa using h⟩
    | cons q parts =>
      rw [List.intercalate_cons_cons, List.append_assoc] at h
      rcases List.mem_append.mp h with h | h
      · exact Or.inr ⟨p, by simp, h⟩
      rcases List.mem_cons.mp h with h | h
      · exact Or.inl h
      rcases ih h with h | ⟨r, hr, h⟩
      · exact Or.inl h
      · exact Or.inr ⟨r, List.mem_cons_of_mem _ hr, h⟩

theorem infix_intercalate {sep : List α} {parts : List (List α)} {p : List α} (h : p ∈ parts) :
    p <:+: List.intercalate sep parts := by
  induction parts with
  | nil => cases h
  | cons q parts ih =>
    cases parts with
    | nil =>
      obtain rfl := List.mem_singleton.mp h
      simp
    | cons r parts =>
      rw [List.intercalate_cons_cons]
      rcases List.mem_cons.mp h with rfl | h
      · exact ((List.prefix_append p sep).trans (List.prefix_append _ _)).isInfix
      · exact (ih h).trans (List.suffix_append _ _).isInfix

theorem map_intercalate (f : α → β) (sep : α) (parts : List (List α)) :
    (List.intercalate [sep] parts).map f = List.intercalate [f sep] (parts.map (List.map f)) := by
  induction parts with
  | nil => rfl
  | cons p parts ih =>
    cases parts with
    | nil => simp
    | cons q parts =>
      rw [List.map_cons] at ih
      simp only [List.intercalate_cons_cons, List.map_append, List.map_cons, List.map_nil, ih]

variable [DecidableEq α] {sep : α}

theorem afterStart?_eq_some {start cs rest : List α} :
    afterStart? start cs = some rest ↔ cs = start ++ rest := by
  induction start generalizing cs with
  | nil => simp [afterStart?]
  | cons w ws ih =>
    cases cs with
    | nil => simp [afterStart?]
    | cons c cs =>
      by_cases hc : w = c
      · simp [afterStart?, hc, ih]
      · simp [afterStart?, hc, Ne.symm hc]

theorem beforeEnd?_eq_some {ending cs front : List α} :
    beforeEnd? ending cs = some front ↔ cs = front ++ ending := by
  rw [beforeEnd?, Option.map_eq_some_iff]
  constructor
  · rintro ⟨rest, hrest, rfl⟩
    rw [afterStart?_eq_some] at hrest
    rw [← List.reverse_inj, hrest, List.reverse_append, List.reverse_reverse]
  · rintro rfl
    exact ⟨front.reverse, afterStart?_eq_some.mpr List.reverse_append, List.reverse_reverse front⟩

theorem cutFirst_eq_none {cs : List α} (h : sep ∉ cs) : cutFirst sep cs = none := by
  cases hcut : cutFirst sep cs with
  | none => rfl
  | some p =>
    obtain ⟨rfl, -⟩ := cutFirst_eq hcut
    exact absurd (List.mem_append_right _ (List.mem_cons_self ..)) h

theorem takeWhile_eq_cutFirst (cs : List α) :
    cs.takeWhile (fun c => c ≠ sep) = ((cutFirst sep cs).map Prod.fst).getD cs := by
  induction cs with
  | nil => rfl
  | cons c cs ih =>
    by_cases hc : c = sep
    · simp [cutFirst, hc]
    · rw [List.takeWhile_cons_of_pos (by simpa using hc), ih, cutFirst, if_neg hc]
      cases cutFirst sep cs with
      | none => rfl
      | some p => rfl

theorem cutFirst_append {l : List α} (h : sep ∉ l) (r : List α) :
    cutFirst sep (l ++ sep :: r) = some (l, r) := by
  induction l with
  | nil => simp [cutFirst]
  | cons c l ih =>
    obtain ⟨hc, hl⟩ := not_or.mp (fun hmem => h (List.mem_cons.mpr hmem))
    rw [List.cons_append, cutFirst, if_neg (Ne.symm hc), ih hl]
    rfl

theorem cutAll_single {l : List α} (h : sep ∉ l) : cutAll sep l = [l] := by
  induction l with
  | nil => rfl
  | cons c l ih =>
    obtain ⟨hc, hl⟩ := not_or.mp (fun hmem => h (List.mem_cons.mpr hmem))
    rw [cutAll, if_neg (Ne.symm hc), ih hl]

theorem cutAll_ne_nil (l : List α) : cutAll sep l ≠ [] := by
  induction l with
  | nil => simp [cutAll]
  | cons c l ih =>
    rw [cutAll]
    split
    · simp
    · split
      · simp
      · simp

theorem cutAll_append (l r : List α) :
    cutAll sep (l ++ sep :: r) = cutAll sep l ++ cutAll sep r := by
  induction l with
  | nil => simp [cutAll]
  | cons c l ih =>
    by_cases hc : c = sep
    · rw [List.cons_append, cutAll, if_pos hc, ih, cutAll, if_pos hc, List.cons_append]
    · rw [List.cons_append, cutAll, if_neg hc, ih, cutAll, if_neg hc]
      cases hparts : cutAll sep l with
      | nil => exact absurd hparts (cutAll_ne_nil l)
      | cons part parts => rfl

theorem mem_or_mem_cutAll (sep : α) {c : α} {cs : List α} (h : c ∈ cs) :
    c = sep ∨ ∃ part ∈ cutAll sep cs, c ∈ part := by
  induction cs with
  | nil => cases h
  | cons d cs ih =>
    by_cases hd : d = sep
    · rcases List.mem_cons.mp h with rfl | hmem
      · exact Or.inl hd
      · rw [cutAll, if_pos hd]
        rcases ih hmem with hsep | ⟨part, hpart, hc⟩
        · exact Or.inl hsep
        · exact Or.inr ⟨part, List.mem_cons_of_mem _ hpart, hc⟩
    · rw [cutAll, if_neg hd]
      cases hcut : cutAll sep cs with
      | nil => exact absurd hcut (cutAll_ne_nil cs)
      | cons first parts =>
        rw [hcut] at ih
        rcases List.mem_cons.mp h with rfl | hmem
        · exact Or.inr ⟨c :: first, by simp, by simp⟩
        · rcases ih hmem with hsep | ⟨part, hpart, hc⟩
          · exact Or.inl hsep
          · rcases List.mem_cons.mp hpart with rfl | hpart
            · exact Or.inr ⟨d :: part, by simp, by simp [hc]⟩
            · exact Or.inr ⟨part, by simp [hpart], hc⟩

theorem sublist_of_mem_cutAll {l part : List α} (h : part ∈ cutAll sep l) :
    part.Sublist (l.filter fun c => c ≠ sep) := by
  induction l generalizing part with
  | nil =>
    obtain rfl := List.mem_singleton.mp h
    exact List.Sublist.refl _
  | cons c l ih =>
    by_cases hc : c = sep
    · rw [cutAll, if_pos hc] at h
      rw [List.filter_cons_of_neg (by simpa using hc)]
      rcases List.mem_cons.mp h with rfl | h
      · exact List.nil_sublist _
      · exact ih h
    · rw [cutAll, if_neg hc] at h
      rw [List.filter_cons_of_pos (by simpa using hc)]
      cases hparts : cutAll sep l with
      | nil => exact absurd hparts (cutAll_ne_nil l)
      | cons first parts =>
        rw [hparts] at h
        rcases List.mem_cons.mp h with rfl | h
        · apply List.Sublist.cons_cons
          exact ih (by simp [hparts])
        · apply List.Sublist.cons
          exact ih (by simp [hparts, h])

/-- Parts that each stand behind a separator; an empty part stands before the first one. -/
theorem cutAll_flatMap {parts : List (List α)} (h : ∀ p ∈ parts, sep ∉ p) :
    cutAll sep (parts.flatMap fun p => sep :: p) = [] :: parts := by
  have hbehind : ∀ parts : List (List α), (∀ p ∈ parts, sep ∉ p) → ∀ l, sep ∉ l →
      cutAll sep (l ++ parts.flatMap fun p => sep :: p) = l :: parts := by
    intro parts
    induction parts with
    | nil =>
      intro _ l hl
      rw [List.flatMap_nil, List.append_nil, cutAll_single hl]
    | cons p parts ih =>
      intro hparts l hl
      obtain ⟨hp, hrest⟩ := List.forall_mem_cons.mp hparts
      rw [List.flatMap_cons, List.cons_append, cutAll_append, cutAll_single hl, ih hrest p hp,
        List.singleton_append]
  exact hbehind parts h [] (by simp)

theorem cutAll_intercalate {parts : List (List α)} (h : ∀ p ∈ parts, sep ∉ p)
    (hne : parts ≠ []) : cutAll sep (List.intercalate [sep] parts) = parts := by
  induction parts with
  | nil => exact absurd rfl hne
  | cons p parts ih =>
    obtain ⟨hp, hrest⟩ := List.forall_mem_cons.mp h
    cases parts with
    | nil => simpa using cutAll_single hp
    | cons q parts =>
      rw [List.intercalate_cons_cons, List.append_assoc, List.singleton_append,
        cutAll_append, cutAll_single hp, ih hrest (by simp), List.singleton_append]

end Joining

end HeatingControl.Text
