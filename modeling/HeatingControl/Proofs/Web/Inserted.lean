import HeatingControl.Proofs.Web.Reader

/-!
# What is inserted into a page

What is inserted into a page can be replaced without a change to its tags (`parse_replace`). A page
that is read with its data apart is therefore read in the same way from its text, where the data
comes back as it was before it was escaped (`read_render`).
-/
namespace HeatingControl.Web

def Symbol.replace (f : String → List Symbol) : Symbol → List Symbol
  | .char c => [.char c]
  | .inserted s => f s

def replace (f : String → List Symbol) (v : List Symbol) : List Symbol :=
  v.flatMap (Symbol.replace f)

/-- Neither a text nor a quoted value ends at the symbol. -/
def Symbol.isHarmless : Symbol → Bool
  | .char c => c ≠ '&' && c ≠ '<' && c ≠ '"'
  | .inserted _ => true

theorem Symbol.isHarmless_char {c : Char} :
    (Symbol.char c).isHarmless = true ↔ c ≠ '&' ∧ c ≠ '<' ∧ c ≠ '"' := by
  simp [isHarmless, and_assoc]

section Replace

variable (f : String → List Symbol)

@[simp] theorem replace_nil : replace f [] = [] := rfl

@[simp] theorem replace_append (v w : List Symbol) :
    replace f (v ++ w) = replace f v ++ replace f w :=
  List.flatMap_append

@[simp] theorem replace_char (c : Char) : replace f [.char c] = [.char c] := rfl

@[simp] theorem replace_inserted (s : String) : replace f [.inserted s] = f s :=
  List.append_nil _

theorem replace_of_isChar {v : List Symbol} (h : v.all Symbol.isChar = true) :
    replace f v = v := by
  induction v with
  | nil => rfl
  | cons x v ih =>
    simp only [List.all_cons, Bool.and_eq_true] at h
    cases x with
    | char c => exact congrArg (Symbol.char c :: ·) (ih h.2)
    | inserted s => cases h.1

def Position.replace : Position → Position
  | .text v => .text (Web.replace f v)
  | .naming tag attributes name => .naming tag (attributes.map (Web.replace f)) name
  | .assigned tag attributes name => .assigned tag (attributes.map (Web.replace f)) name
  | .value tag attributes name v =>
    .value tag (attributes.map (Web.replace f)) name (Web.replace f v)
  | .valued tag attributes => .valued tag (attributes.map (Web.replace f))
  | p => p

def Reader.replace (r : Reader) : Reader :=
  ⟨r.raw, r.tokens.map (Token.map (Web.replace f)), r.position.replace f⟩

theorem isNew_map (name : Name) (attributes : Attributes (List Symbol)) :
    isNew name (attributes.map (replace f)) = isNew name attributes := by
  simp only [isNew, Attributes.names_map]

theorem Position.step_replace (p : Position) (c : Char) :
    (p.replace f).step c =
      (p.step c).map (Prod.map (Option.map (Token.map (Web.replace f))) (Position.replace f)) := by
  cases p <;> simp only [step, Position.replace, isNew_map] <;> split_ifs <;>
    simp [Position.replace, Token.map, Attributes.map]

theorem rawBehind_map {raw raw' : Option Name} {t : Spelled} (h : rawBehind raw t = some raw') :
    rawBehind raw (t.map (replace f)) = some raw' := by
  cases raw with
  | none => cases t <;> exact h
  | some tag =>
    cases t with
    | text v =>
      simp only [rawBehind] at h
      split at h
      next hv => simp only [Token.map, rawBehind, replace_of_isChar f hv, if_pos hv, h]
      next => cases h
    | doctype | opening | closing => exact h

theorem Reader.advance_replace {r r' : Reader} {t : Option Spelled} {p : Position}
    (h : r.advance (t, p) = some r') :
    (r.replace f).advance (t.map (Token.map (Web.replace f)), p.replace f) =
      some (r'.replace f) := by
  cases t with
  | none =>
    cases h
    rfl
  | some t =>
    obtain ⟨raw, hraw, rfl⟩ := Option.map_eq_some_iff.mp h
    have hmapped := rawBehind_map f hraw
    simp only [advance, Option.map_some, Reader.replace, hmapped, List.map_cons]

theorem Position.extend_replace {p p' : Position} {v : List Symbol} (h : p.extend v = some p') :
    (p.replace f).extend (Web.replace f v) = some (p'.replace f) := by
  cases p <;> cases h <;> simp [extend, Position.replace]

end Replace

theorem Position.extend_nil {p p' : Position} (h : p.extend [] = some p') : p' = p := by
  cases p <;> cases h <;> simp

theorem Position.extend_cons {p p' : Position} {x : Symbol} {xs : List Symbol}
    (h : p.extend (x :: xs) = some p') :
    ∃ between, p.extend [x] = some between ∧ between.extend xs = some p' := by
  cases p <;> cases h <;> exact ⟨_, rfl, by simp [extend]⟩

theorem Position.step_harmless {p p' : Position} {c : Char}
    (hc : (Symbol.char c).isHarmless = true) (h : p.extend [.char c] = some p') :
    p.step c = some (none, p') := by
  obtain ⟨-, hbracket, hquote⟩ := Symbol.isHarmless_char.mp hc
  cases p <;> cases h <;> simp [step, hbracket, hquote]

theorem Reader.next_harmless {r : Reader} {x : Symbol} {p : Position} (hx : x.isHarmless = true)
    (hp : r.position.extend [x] = some p) : r.next x = some { r with position := p } := by
  cases x with
  | char c =>
    have hampersand := (Symbol.isHarmless_char.mp hx).1
    simp only [next, if_neg hampersand, Position.step_harmless hx hp, Option.bind_some, advance]
  | inserted s => simp only [next, hp, Option.map_some]

theorem Reader.run_harmless {r : Reader} {xs : List Symbol} {p : Position}
    (hxs : ∀ x ∈ xs, x.isHarmless = true) (hp : r.position.extend xs = some p) :
    r.run xs = some { r with position := p } := by
  induction xs generalizing r with
  | nil => rw [Position.extend_nil hp, run]
  | cons x xs ih =>
    obtain ⟨between, hx, hrest⟩ := Position.extend_cons hp
    rw [run, next_harmless (hxs x List.mem_cons_self) hx, Option.bind_some]
    exact ih (fun y hy => hxs y (List.mem_cons_of_mem _ hy)) hrest

theorem Reader.run_append (r : Reader) (xs ys : List Symbol) :
    r.run (xs ++ ys) = (r.run xs).bind fun r => r.run ys := by
  induction xs generalizing r with
  | nil => rfl
  | cons x xs ih => simp only [List.cons_append, run, ih, Option.bind_assoc]

section Replaced

variable {f : String → List Symbol} (hf : ∀ s, ∀ x ∈ f s, x.isHarmless = true)

include hf

theorem Reader.next_replace {r r' : Reader} {x : Symbol} (h : r.next x = some r') :
    (r.replace f).run (x.replace f) = some (r'.replace f) := by
  cases x with
  | char c =>
    simp only [next] at h
    split at h
    · cases h
    next hc =>
      obtain ⟨⟨t, p⟩, hstep, hadvance⟩ := Option.bind_eq_some_iff.mp h
      have hreplaced : (r.replace f).position.step c =
          some (t.map (Token.map (Web.replace f)), p.replace f) := by
        rw [Reader.replace, Position.step_replace, hstep, Option.map_some, Prod.map_apply]
      simp only [Symbol.replace, run, next, if_neg hc, hreplaced, Option.bind_some,
        advance_replace f hadvance]
  | inserted s =>
    obtain ⟨p, hp, rfl⟩ := Option.map_eq_some_iff.mp h
    have hextended := Position.extend_replace f hp
    rw [replace_inserted] at hextended
    exact run_harmless (hf s) hextended

theorem Reader.run_replace {r r' : Reader} {xs : List Symbol} (h : r.run xs = some r') :
    (r.replace f).run (Web.replace f xs) = some (r'.replace f) := by
  induction xs generalizing r with
  | nil =>
    cases h
    rfl
  | cons x xs ih =>
    obtain ⟨between, hnext, hrun⟩ := Option.bind_eq_some_iff.mp h
    rw [Web.replace, List.flatMap_cons, run_append, next_replace hf hnext, Option.bind_some]
    exact ih hrun

/-- What stands in the place of the inserted strings is read where they are, and nothing else of
the reading changes. -/
theorem parse_replace {xs : List Symbol} {ts : List Spelled} (h : parse xs = some ts) :
    parse (replace f xs) = some (ts.map (Token.map (replace f))) := by
  obtain ⟨r, hrun, hfinish⟩ := Option.bind_eq_some_iff.mp h
  obtain ⟨tokens, v, rfl, rfl⟩ := Reader.finish_eq_some hfinish
  have hreplaced := Reader.run_replace hf hrun
  have hstart : Reader.start.replace f = Reader.start := rfl
  rw [hstart] at hreplaced
  rw [parse, hreplaced, Option.bind_some, List.map_reverse]
  rfl

end Replaced

def resolved (c : Char) : Symbol :=
  if escapedChar c = [c] then .char c else .inserted (String.singleton c)

theorem resolved_harmless (c : Char) : (resolved c).isHarmless = true := by
  unfold resolved
  split
  next hc =>
    refine Symbol.isHarmless_char.mpr ⟨?_, ?_, ?_⟩ <;> rintro rfl <;> revert hc <;> decide
  next => rfl

theorem chars_resolved (c : Char) : (resolved c).chars = [c] := by
  unfold resolved
  split
  · rfl
  · exact String.toList_singleton c

theorem resolve_cons {c : Char} (hc : c ≠ '&') (cs : List Char) :
    resolve none (c :: cs) = (resolve none cs).map (.char c :: ·) :=
  if_neg hc

theorem resolve_escapedChar (c : Char) (cs : List Char) :
    resolve none (escapedChar c ++ cs) = (resolve none cs).map (resolved c :: ·) := by
  by_cases hplain : escapedChar c = [c]
  · have hc : c ≠ '&' := by
      rintro rfl
      exact absurd hplain (by decide)
    rw [hplain, resolved, if_pos hplain]
    exact resolve_cons hc cs
  · -- One of the five characters that stand as references.
    unfold escapedChar at hplain ⊢
    split_ifs at hplain ⊢ with hamp hlt hgt hquot hapos
    · exact hamp ▸ rfl
    · exact hlt ▸ rfl
    · exact hgt ▸ rfl
    · exact hquot ▸ rfl
    · exact hapos ▸ rfl
    · exact absurd rfl hplain

def Symbol.unescaped (s : String) : List Symbol := s.toList.map resolved

theorem resolve_escape (s : String) (cs : List Char) :
    resolve none ((escape s).toList ++ cs) =
      (resolve none cs).map (Symbol.unescaped s ++ ·) := by
  rw [escape, String.toList_ofList, Symbol.unescaped]
  induction s.toList with
  | nil => simp
  | cons c rest ih =>
    rw [List.flatMap_cons, List.append_assoc, resolve_escapedChar, ih, Option.map_map]
    rfl

theorem resolve_literal {markup : List Char} (h : '&' ∉ markup) (cs : List Char) :
    resolve none (markup ++ cs) = (resolve none cs).map (literal markup ++ ·) := by
  induction markup with
  | nil => simp
  | cons c rest ih =>
    obtain ⟨hc, hrest⟩ := not_or.mp (mt List.mem_cons.mpr h)
    rw [List.cons_append, resolve_cons (Ne.symm hc), ih hrest, Option.map_map]
    rfl

theorem Reader.next_ne_ampersand {r r' : Reader} {x : Symbol} (h : r.next x = some r') :
    x ≠ .char '&' := by
  rintro rfl
  cases h

theorem Reader.run_ne_ampersand {r r' : Reader} {xs : List Symbol} (h : r.run xs = some r') :
    Symbol.char '&' ∉ xs := by
  induction xs generalizing r with
  | nil => exact List.not_mem_nil
  | cons x xs ih =>
    obtain ⟨between, hnext, hrun⟩ := Option.bind_eq_some_iff.mp h
    exact mt List.mem_cons.mp (not_or.mpr ⟨(next_ne_ampersand hnext).symm, ih hrun⟩)

theorem render_toList (h : Html) : (render h).toList = h.flatMap fun p => p.text.toList := by
  rw [render, String.toList_join, List.flatMap_map]

/-- The text of a page without references in its markup is its symbols, each string character by
character. -/
theorem resolve_render {h : Html} (hmarkup : Symbol.char '&' ∉ h.symbols) :
    resolve none (render h).toList = some (replace Symbol.unescaped h.symbols) := by
  rw [render_toList]
  induction h with
  | nil => rfl
  | cons piece rest ih =>
    rw [Html.symbols, List.flatMap_cons, List.mem_append, not_or] at hmarkup
    rw [List.flatMap_cons, Html.symbols, List.flatMap_cons, replace_append]
    cases piece with
    | markup s =>
      have hs : '&' ∉ s.toList := fun hmem => hmarkup.1 (List.mem_map_of_mem hmem)
      have hliteral : replace Symbol.unescaped (literal s.toList) = literal s.toList := by
        apply replace_of_isChar
        simp [literal, Symbol.isChar]
      rw [Piece.text, resolve_literal hs, ih hmarkup.2, Piece.symbols, hliteral]
      rfl
    | data s =>
      rw [Piece.text, resolve_escape, ih hmarkup.2, Piece.symbols, replace_inserted]
      rfl

theorem text_unescaped (v : List Symbol) : text (replace Symbol.unescaped v) = text v := by
  have hchars : ∀ x : Symbol, (x.replace Symbol.unescaped).flatMap Symbol.chars = x.chars := by
    intro x
    cases x with
    | char c => rfl
    | inserted s =>
      have hall : ∀ cs : List Char, (cs.map resolved).flatMap Symbol.chars = cs := by
        intro cs
        rw [List.flatMap_map]
        simp [chars_resolved]
      exact hall s.toList
  rw [text, text, replace, List.flatMap_assoc]
  simp only [hchars]

/-- A page that is read with its data apart is read in the same way from its text: every text and
every value is there, with the strings that were inserted into it as they are. -/
theorem read_render {h : Html} {ts : List Spelled} (hts : parse h.symbols = some ts) :
    read (render h) = some (ts.map (Token.map text)) := by
  obtain ⟨r, hrun, -⟩ := Option.bind_eq_some_iff.mp hts
  have hunescaped : ∀ s, ∀ x ∈ Symbol.unescaped s, x.isHarmless = true := by
    intro s x hx
    obtain ⟨c, -, rfl⟩ := List.mem_map.mp hx
    exact resolved_harmless c
  rw [read, resolve_render (Reader.run_ne_ampersand hrun), Option.bind_some,
    parse_replace hunescaped hts, Option.map_some, List.map_map]
  refine congrArg some (List.map_congr_left fun t _ => ?_)
  have htext : text ∘ replace Symbol.unescaped = text := funext text_unescaped
  rw [Function.comp_apply, Token.map_map, htext]

example : read (render (html ["<li class=\"", data "\"x\"", "\">", data "a < b", "</li>"])) =
    some [.text "", .opening "li".toList [("class".toList, some "\"x\"")], .text "a < b",
      .closing "li".toList, .text ""] := by
  decide +kernel

/-- The same as markup is no page. -/
example : read (render (html ["<li class=\"", "\"x\"", "\">", "a < b", "</li>"])) = none := by
  decide +kernel

end HeatingControl.Web
