import HeatingControl.Proofs.Web.Inserted
import HeatingControl.Web.Control

/-!
# Blocks of a page

A part of a page leads the reader from one position to another, past the forms and links that it
offers. Parts are put together one after the other (`Leads.append`); a block is a part that begins
and ends between tags, and the ways in which blocks are made into blocks are those in which pages
are made.
-/
namespace HeatingControl.Web

/-- A form, with the method and the address it is sent with, or a link. -/
inductive Offer where
  | form (method action : Option String)
  | link (target : Option String)
  deriving DecidableEq, Repr

def valueOf (name : Name) (attributes : Attributes String) : Option String :=
  (attributes.find? fun a => a.1 = name).bind Prod.snd

def Token.offer? : Token String → Option Offer
  | .opening tag attributes =>
    if tag = "form".toList then
      some (.form (valueOf "method".toList attributes) (valueOf "action".toList attributes))
    else if tag = "a".toList then some (.link (valueOf "href".toList attributes))
    else none
  | _ => none

def offers (ts : List (Token String)) : List Offer := ts.filterMap Token.offer?

def offered (ts : List Spelled) : List Offer := offers (ts.reverse.map (Token.map text))

/-- The reader is led from the one position to the other, past these offers. -/
def Leads (p : Position) (h : Html) (p' : Position) (os : List Offer) : Prop :=
  ∃ ts, Reader.run ⟨none, [], p⟩ h.symbols = some ⟨none, ts, p'⟩ ∧ offered ts = os

/-- A part that begins and ends between tags. -/
def Block (h : Html) (os : List Offer) : Prop := ∀ v, ∃ v', Leads (.text v) h (.text v') os

section Composition

variable {p p' q : Position} {h h' : Html} {os os' : List Offer}

theorem Html.symbols_append (h h' : Html) :
    Html.symbols (h ++ h') = h.symbols ++ h'.symbols :=
  List.flatMap_append

namespace Reader

def behind (ts : List Spelled) (r : Reader) : Reader := { r with tokens := r.tokens ++ ts }

theorem advance_behind (ts : List Spelled) (r : Reader) (x : Option Spelled × Position) :
    (r.behind ts).advance x = (r.advance x).map (behind ts) := by
  obtain ⟨t, p⟩ := x
  cases t with
  | none => rfl
  | some t =>
    simp only [advance, behind, Option.map_map]
    refine congrFun (congrArg Option.map (funext fun raw => ?_)) _
    simp only [Function.comp_apply, behind, List.cons_append]

theorem next_behind (ts : List Spelled) (r : Reader) (x : Symbol) :
    (r.behind ts).next x = (r.next x).map (behind ts) := by
  cases x with
  | char c =>
    simp only [next]
    split
    · rfl
    · rw [Option.map_bind]
      exact congrArg _ (funext fun x => advance_behind ts r x)
  | inserted s =>
    simp only [next, Option.map_map]
    rfl

theorem run_behind (ts : List Spelled) (r : Reader) (xs : List Symbol) :
    (r.behind ts).run xs = (r.run xs).map (behind ts) := by
  induction xs generalizing r with
  | nil => rfl
  | cons x xs ih => simp only [run, next_behind, Option.bind_map, Option.map_bind,
      Function.comp_def, ih]

theorem run_after {raw raw' : Option Name} {ts : List Spelled} {p p' : Position}
    {xs : List Symbol} (h : run ⟨raw, [], p⟩ xs = some ⟨raw', ts, p'⟩) (before : List Spelled) :
    run ⟨raw, before, p⟩ xs = some ⟨raw', ts ++ before, p'⟩ := by
  have hbehind := run_behind before ⟨raw, [], p⟩ xs
  simp only [behind, List.nil_append, h, Option.map_some] at hbehind
  exact hbehind

end Reader

theorem offered_append (ts ts' : List Spelled) :
    offered (ts' ++ ts) = offered ts ++ offered ts' := by
  simp only [offered, offers, List.reverse_append, List.map_append, List.filterMap_append]

theorem Leads.append (first : Leads p h q os) (second : Leads q h' p' os') :
    Leads p (h ++ h') p' (os ++ os') := by
  obtain ⟨ts, hrun, rfl⟩ := first
  obtain ⟨ts', hrun', rfl⟩ := second
  refine ⟨ts' ++ ts, ?_, offered_append ts ts'⟩
  rw [Html.symbols_append, Reader.run_append, hrun, Option.bind_some, Reader.run_after hrun']

theorem Block.append (first : Block h os) (second : Block h' os') :
    Block (h ++ h') (os ++ os') := by
  intro v
  obtain ⟨between, hfirst⟩ := first v
  obtain ⟨v', hsecond⟩ := second between
  exact ⟨v', hfirst.append hsecond⟩

theorem Block.empty : Block [] [] := fun v => ⟨v, [], rfl, rfl⟩

theorem Block.html_last (last : Block h os) : Block (html [h]) os := by
  rwa [html, List.flatten_singleton]

theorem Block.html_cons {parts : List Html} (first : Block h os) (rest : Block (html parts) os') :
    Block (html (h :: parts)) (os ++ os') :=
  first.append rest

theorem Block.html_quiet {parts : List Html} (first : Block h []) (rest : Block (html parts) os) :
    Block (html (h :: parts)) os :=
  first.append rest

end Composition

theorem symbols_markup (s : String) : Html.symbols (s : Html) = literal s.toList :=
  List.append_nil _

theorem leads_literal {p p' : Position} {cs : List Char} {ts : List Spelled} {os : List Offer}
    (hrun : Reader.run ⟨none, [], p⟩ (literal cs) = some ⟨none, ts, p'⟩)
    (hos : offered ts = os) :
    Leads p (String.ofList cs : Html) p' os := by
  refine ⟨ts, ?_, hos⟩
  rw [symbols_markup, String.toList_ofList, hrun]

theorem block_literal {cs : List Char} {os : List Offer}
    (h : ∀ v, ∃ ts v', Reader.run ⟨none, [], .text v⟩ (literal cs) = some ⟨none, ts, .text v'⟩ ∧
      offered ts = os) :
    Block (String.ofList cs : Html) os := by
  intro v
  obtain ⟨ts, v', hrun, hos⟩ := h v
  exact ⟨v', leads_literal hrun hos⟩

theorem leads_harmless {p p' : Position} {h : Html}
    (hharmless : h.symbols.all Symbol.isHarmless = true) (hp : p.extend h.symbols = some p') :
    Leads p h p' [] :=
  ⟨[], Reader.run_harmless (r := ⟨none, [], p⟩) (List.all_eq_true.mp hharmless) hp, rfl⟩

theorem leads_data {p p' : Position} {s : String} (hp : p.extend [.inserted s] = some p') :
    Leads p (data s) p' [] :=
  leads_harmless rfl hp

theorem block_data (s : String) : Block (data s) [] := fun _ => ⟨_, leads_data rfl⟩

theorem Block.html_quoted {front s back : String} {parts : List Html} {os : List Offer}
    (hquoted : Block (html [front, data s, back]) []) (rest : Block (html parts) os) :
    Block (html (front :: data s :: back :: parts)) os :=
  hquoted.append rest

def IsPlain (s : String) : Prop := (literal s.toList).all Symbol.isHarmless = true

theorem isPlain_ofList {cs : List Char} (h : (literal cs).all Symbol.isHarmless = true) :
    IsPlain (String.ofList cs) := by
  rwa [IsPlain, String.toList_ofList]

theorem IsPlain.append {s t : String} (hs : IsPlain s) (ht : IsPlain t) : IsPlain (s ++ t) := by
  unfold IsPlain at *
  rw [String.toList_append, literal_append, List.all_append, hs, ht, Bool.and_self]

theorem isPlain_join {l : List String} (h : ∀ s ∈ l, IsPlain s) : IsPlain (String.join l) := by
  unfold IsPlain at *
  rw [String.toList_join]
  induction l with
  | nil => rfl
  | cons s l ih =>
    obtain ⟨hs, hl⟩ := List.forall_mem_cons.mp h
    rw [List.flatMap_cons, literal_append, List.all_append, hs, ih hl, Bool.and_self]

theorem leads_plain {p p' : Position} {s : String} (hs : IsPlain s)
    (hp : p.extend (literal s.toList) = some p') : Leads p (s : Html) p' [] :=
  leads_harmless (by rwa [symbols_markup]) (by rwa [symbols_markup])

theorem leads_around {p p' q q' : Position} {front back : List Char} {s : String}
    (hs : IsPlain s) (hfront : Leads p (String.ofList front : Html) q [])
    (hq : q.extend (literal s.toList) = some q')
    (hback : Leads q' (String.ofList back : Html) p' []) :
    Leads p ((String.ofList front : Html) ++ (s : Html) ++ (String.ofList back : Html)) p' [] :=
  (hfront.append (leads_plain hs hq)).append hback

theorem isChar_literal (cs : List Char) : (literal cs).all Symbol.isChar = true := by
  simp [literal, Symbol.isChar]

theorem Reader.next_raw {tag : Name} {v : List Symbol} (hv : v.all Symbol.isChar = true)
    (ts : List Spelled) :
    Reader.next ⟨some tag, ts, .text v⟩ (.char '<') =
      some ⟨some tag, .text v :: ts, .bracket⟩ := by
  have hraw : rawBehind (some tag) (.text v) = some (some tag) := if_pos hv
  have hstep : Reader.next ⟨some tag, ts, .text v⟩ (.char '<') =
      (rawBehind (some tag) (.text v)).map fun raw => ⟨raw, .text v :: ts, .bracket⟩ := rfl
  rw [hstep, hraw, Option.map_some]

theorem block_raw {front back : List Char} {tag : Name} {content : String}
    (hfront : ∀ v, ∃ ts w, w.all Symbol.isChar = true ∧ offered ts = [] ∧
      Reader.run ⟨none, [], .text v⟩ (literal front) = some ⟨some tag, ts, .text w⟩)
    (hcontent : IsPlain content)
    (hback : ∃ ts v, offered ts = [] ∧
      Reader.run ⟨some tag, [], .bracket⟩ (literal back) = some ⟨none, ts, .text v⟩) :
    Block ((String.ofList front : Html) ++ (content : Html) ++ (String.ofList ('<' :: back) : Html))
      [] := by
  intro v
  obtain ⟨opened, w, hw, hopened, hfront⟩ := hfront v
  obtain ⟨closed, v', hclosed, hback⟩ := hback
  have hsymbols : Html.symbols ((String.ofList front : Html) ++ (content : Html) ++
      (String.ofList ('<' :: back) : Html)) =
      literal front ++ (literal content.toList ++ .char '<' :: literal back) := by
    rw [Html.symbols_append, Html.symbols_append, symbols_markup, symbols_markup, symbols_markup,
      String.toList_ofList, String.toList_ofList, List.append_assoc]
    rfl
  have hinside : Reader.run ⟨some tag, opened, .text w⟩ (literal content.toList) =
      some ⟨some tag, opened, .text (w ++ literal content.toList)⟩ :=
    Reader.run_harmless (List.all_eq_true.mp hcontent) rfl
  have hchars : (w ++ literal content.toList).all Symbol.isChar = true := by
    rw [List.all_append, hw, isChar_literal, Bool.and_self]
  refine ⟨v', closed ++ ([.text (w ++ literal content.toList)] ++ opened), ?_, ?_⟩
  · rw [hsymbols, Reader.run_append, hfront, Option.bind_some, Reader.run_append, hinside,
      Option.bind_some, Reader.run, Reader.next_raw hchars, Option.bind_some,
      Reader.run_after hback]
    rfl
  · rw [offered_append, offered_append, hopened, hclosed]
    rfl

section Combinators

variable {α : Type} {h : Html} {os : List Offer} {block : α → Html}

theorem Block.onNewLine (hblock : Block h os) : Block (onNewLine h) os :=
  Block.append (block_literal fun _ => ⟨[], _, rfl, rfl⟩) hblock

theorem block_each {offered : α → List Offer} (hblock : ∀ a, Block (block a) (offered a))
    (l : List α) : Block (each l block) (l.flatMap offered) := by
  induction l with
  | nil => exact .empty
  | cons a l ih => exact (hblock a).onNewLine.append ih

theorem block_each_quiet (hblock : ∀ a, Block (block a) []) (l : List α) :
    Block (each l block) [] := by
  have hquiet := block_each hblock l
  rwa [List.flatMap_eq_nil_iff.mpr fun _ _ => rfl] at hquiet

theorem block_showIf (hblock : Block h os) (condition : Bool) :
    Block (showIf condition h) (if condition then os else []) := by
  cases condition with
  | false => exact .empty
  | true => exact hblock.onNewLine

theorem block_showSome {offered : α → List Offer} (hblock : ∀ a, Block (block a) (offered a))
    (v : Option α) : Block (showSome v block) (v.elim [] offered) := by
  cases v with
  | none => exact .empty
  | some a => exact (hblock a).onNewLine

end Combinators

theorem block_option (c : Choice) : Block (option c) [] := by
  intro v
  obtain ⟨value, label, selected⟩ := c
  cases selected <;> exact ⟨_, _, rfl, rfl⟩

theorem block_plainOption (c : Choice) : Block (plainOption c) [] :=
  fun _ => ⟨_, _, rfl, rfl⟩

theorem block_selectorOf {line : Choice → Html} (hline : ∀ c, Block (line c) []) {name : String}
    (hname : IsPlain name) (choices : List Choice) : Block (selectorOf line name choices) [] := by
  have hopening : Block ("<select name=\"" ++ name ++ "\">\n") [] := fun v =>
    ⟨_, leads_around hname (leads_literal rfl rfl) rfl (leads_literal rfl rfl)⟩
  have hclosing : Block "\n</select>\n" [] := block_literal fun _ => ⟨_, _, rfl, rfl⟩
  exact .html_quiet hopening <| .html_quiet (block_each_quiet hline choices) <|
    .html_last hclosing

theorem block_selector {name : String} (hname : IsPlain name) (choices : List Choice) :
    Block (selector name choices) [] :=
  block_selectorOf block_option hname choices

theorem block_plainSelector {name : String} (hname : IsPlain name) (choices : List Choice) :
    Block (plainSelector name choices) [] :=
  block_selectorOf block_plainOption hname choices

theorem block_button {label : String} (hlabel : IsPlain label) : Block (button label) [] :=
  fun _ => ⟨_, leads_around hlabel (leads_literal rfl rfl) rfl (leads_literal rfl rfl)⟩

theorem block_confirmation {label : String} (hlabel : IsPlain label) :
    Block (confirmation label) [] :=
  fun _ => ⟨_, leads_around hlabel (leads_literal rfl rfl) rfl (leads_literal rfl rfl)⟩

@[simp] theorem text_append (v w : List Symbol) : text (v ++ w) = text v ++ text w := by
  simp [text, String.ofList_append]

@[simp] theorem text_literal (s : String) : text (literal s.toList) = s := by
  simp [text, literal, Symbol.chars, List.flatMap_map]

@[simp] theorem text_inserted (s : String) : text [.inserted s] = s := by
  simp [text, Symbol.chars]

/-- What stands between the quotes for an address. -/
structure Address (action : Html) (address : String) : Prop where
  harmless : action.symbols.all Symbol.isHarmless = true
  text : text action.symbols = address

theorem address_data (s : String) : Address (data s) s := ⟨rfl, text_inserted s⟩

theorem address_plain {s : String} (h : IsPlain s) : Address s s where
  harmless := by rwa [symbols_markup]
  text := by rw [symbols_markup, text_literal]

theorem Address.append {action action' : Html} {address address' : String}
    (first : Address action address) (second : Address action' address') :
    Address (action ++ action') (address ++ address') where
  harmless := by
    rw [Html.symbols_append, List.all_append, first.harmless, second.harmless, Bool.and_self]
  text := by rw [Html.symbols_append, text_append, first.text, second.text]

theorem Address.html_cons {action : Html} {parts : List Html} {address address' : String}
    (first : Address action address) (rest : Address (html parts) address') :
    Address (html (action :: parts)) (address ++ address') :=
  first.append rest

theorem Address.html_last {action : Html} {address : String} (h : Address action address) :
    Address (html [action]) address := by
  rwa [html, List.flatten_singleton]

def Offer.post (address : String) : Offer := .form (some "post") (some address)

def Offer.selection : Offer := .form (some "get") (some "/")

section Forms

variable {action : Html} {address : String} {fields : List Html}

theorem block_opening {front back : List Char} {attributes : Attributes (List Symbol)}
    (haction : Address action address)
    (hfront : ∀ v, Leads (.text v) (String.ofList front : Html)
      (.value "form".toList attributes "action".toList []) [])
    (hback : ∀ w, text w = address → ∃ v, Leads
      (.value "form".toList attributes "action".toList w) (String.ofList back : Html) (.text v)
      [.post address]) :
    Block ((String.ofList front : Html) ++ action ++ (String.ofList back : Html))
      [.post address] := by
  intro v
  obtain ⟨v', hopened⟩ := hback _ haction.text
  have haddress : Leads (.value "form".toList attributes "action".toList []) action
      (.value "form".toList attributes "action".toList action.symbols) [] :=
    leads_harmless haction.harmless rfl
  exact ⟨v', ((hfront v).append haddress).append hopened⟩

theorem block_form {front back : Html}
    (hopening : Block (front ++ action ++ back) [.post address])
    (hfields : Block (html fields) []) :
    Block (html [front, action, back, html fields, "</form>\n"]) [.post address] := by
  have hclosing : Block "</form>\n" [] := block_literal fun _ => ⟨_, _, rfl, rfl⟩
  have hform : html [front, action, back, html fields, "</form>\n"] =
      html [front ++ action ++ back, html fields, "</form>\n"] := by
    simp only [html, List.flatten_cons, List.append_assoc]
  rw [hform]
  exact .html_cons hopening <| .html_quiet hfields <| .html_last hclosing

variable (haction : Address action address) (hfields : Block (html fields) [])

include haction hfields

theorem block_inlineForm : Block (inlineForm action fields) [.post address] := by
  refine block_form (block_opening haction (fun v => leads_literal rfl rfl) ?_) hfields
  rintro w rfl
  exact ⟨_, leads_literal rfl rfl⟩

theorem block_topForm : Block (topForm action fields) [.post address] := by
  refine block_form (block_opening haction (fun v => leads_literal rfl rfl) ?_) hfields
  rintro w rfl
  exact ⟨_, leads_literal rfl rfl⟩

theorem block_blockForm : Block (blockForm action fields) [.post address] := by
  refine block_form (block_opening haction (fun v => leads_literal rfl rfl) ?_) hfields
  rintro w rfl
  exact ⟨_, leads_literal rfl rfl⟩

omit haction

theorem block_selectionForm : Block (selectionForm fields) [.selection] := by
  have hopening : Block "<form method=\"get\" action=\"/\">\n" [.selection] :=
    block_literal fun _ => ⟨_, _, rfl, rfl⟩
  have hclosing : Block "</form>\n" [] := block_literal fun _ => ⟨_, _, rfl, rfl⟩
  exact .html_cons hopening <| .html_quiet hfields <| .html_last hclosing

end Forms
end HeatingControl.Web
