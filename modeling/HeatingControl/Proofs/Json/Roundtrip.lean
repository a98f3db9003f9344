import HeatingControl.Json.Reader
import HeatingControl.Json.Writer
import HeatingControl.Proofs.Text.Numeral
import HeatingControl.Proofs.Text.Utf8

/-!
# Written JSON reads back

A value that has a written form is read again from it, whatever stands behind it that does not
make a number longer.
-/
namespace HeatingControl.Json

mutual

/-- The value was not marked by a reader, and its numbers are whole and in range. -/
def Plain : Json → Prop
  | .null | .bool _ | .text _ => True
  | .int i => -(Text.int64Bound : Int) ≤ i ∧ i < (UInt64.size : Int)
  | .array items => PlainItems items
  | .object fields => PlainFields fields
  | .decimal _ | .torn | .unreadable | .unnamed _ => False

def PlainItems : List Json → Prop
  | [] => True
  | j :: rest => j.Plain ∧ PlainItems rest

def PlainFields : List (String × Json) → Prop
  | [] => True
  | (_, j) :: rest => j.Plain ∧ PlainFields rest

end

mutual

theorem Plain.isWhole : ∀ {j : Json}, j.Plain → j.isWhole = true
  | .null, _ | .bool _, _ | .text _, _ | .int _, _ => rfl
  | .array _, h => PlainItems.allWhole h
  | .object _, h => PlainFields.fieldsWhole h

theorem PlainItems.allWhole : ∀ {items : List Json}, PlainItems items → allWhole items = true
  | [], _ => rfl
  | j :: rest, h => by rw [Json.allWhole, Plain.isWhole h.1, PlainItems.allWhole h.2]; rfl

theorem PlainFields.fieldsWhole : ∀ {fields : List (String × Json)}, PlainFields fields →
    fieldsWhole fields = true
  | [], _ => rfl
  | (_, j) :: rest, h => by
    rw [Json.fieldsWhole, Plain.isWhole h.1, PlainFields.fieldsWhole h.2]
    rfl

end

theorem hexValue?_hexDigit {d : Nat} (h : d < 16) : Text.hexValue? (Text.hexDigit d) = some d := by
  have hall : ∀ d < 16, Text.hexValue? (Text.hexDigit d) = some d := by decide
  exact hall d h

theorem hexQuad_low {n : Nat} (h : n < 32) (rest : List Symbol) :
    hexQuad (some '0' :: some '0' :: some (Text.hexDigit (n / 16)) ::
      some (Text.hexDigit (n % 16)) :: rest) = some (n, rest) := by
  have h0 : Text.hexValue? '0' = some 0 := by decide
  simp only [hexQuad, h0, hexValue?_hexDigit (show n / 16 < 16 by omega),
    hexValue?_hexDigit (show n % 16 < 16 by omega)]
  simp only [bind, pure, Option.bind]
  congr 2
  omega

theorem stringBody_escapedChar (fuel : Nat) (c : Char) (rest : List Symbol) :
    stringBody (fuel + 1) none ((escapedChar c).map some ++ rest) =
      (stringBody fuel none rest).map fun r => (some c :: r.1, r.2) := by
  unfold escapedChar
  split
  · rename_i h
    simp [stringBody, simpleEscape?, h]
  split
  · rename_i h
    simp [stringBody, simpleEscape?, h]
  split
  · rename_i h
    simp [stringBody, simpleEscape?, h]
  split
  · rename_i h
    simp [stringBody, simpleEscape?, h]
  split
  · rename_i h
    simp [stringBody, simpleEscape?, h]
  split
  · rename_i h
    obtain rfl : c = Char.ofNat 8 := by rw [← h, Char.ofNat_toNat]
    simp [stringBody, simpleEscape?]
  split
  · rename_i h
    obtain rfl : c = Char.ofNat 12 := by rw [← h, Char.ofNat_toNat]
    simp [stringBody, simpleEscape?]
  split
  · rename_i h
    have hn : ¬ (0xD800 ≤ c.toNat ∧ c.toNat < 0xDC00) := by omega
    have hn' : ¬ (0xDC00 ≤ c.toNat ∧ c.toNat < 0xE000) := by omega
    simp only [List.map_cons, List.map_nil, List.cons_append, List.nil_append, stringBody,
      hexQuad_low h, if_neg hn, if_neg hn', Char.ofNat_toNat]
  · rename_i hquote hslash _ _ _ _ _ hlow
    rw [List.map_singleton, List.singleton_append, stringBody]
    · simp only [if_neg hlow, List.nil_append]
    all_goals simp_all

theorem stringBody_escaped (fuel : Nat) (cs : List Char) (rest : List Symbol)
    (h : cs.length < fuel) :
    stringBody fuel none ((cs.flatMap escapedChar).map some ++ some '"' :: rest) =
      some (cs.map some, rest) := by
  induction cs generalizing fuel with
  | nil =>
    obtain ⟨fuel, rfl⟩ := Nat.exists_eq_add_of_lt h
    simp [stringBody]
  | cons c cs ih =>
    cases fuel with
    | zero => simp at h
    | succ fuel =>
      rw [List.flatMap_cons, List.map_append, List.append_assoc, stringBody_escapedChar,
        ih fuel (by simpa using h)]
      rfl

theorem textOf?_map_some (cs : List Char) : textOf? (cs.map some) = some (String.ofList cs) := by
  rw [textOf?, Utf8.mapM_id_map_some]
  rfl

theorem length_le_escaped (cs : List Char) : cs.length ≤ (cs.flatMap escapedChar).length := by
  have hpos : ∀ c, 0 < (escapedChar c).length := by
    intro c
    unfold escapedChar
    grind
  induction cs with
  | nil => simp
  | cons c cs ih =>
    have := hpos c
    rw [List.flatMap_cons, List.length_append, List.length_cons]
    omega

theorem stringBody_writeText (s : String) (rest : List Symbol) :
    stringBody
        (((s.toList.flatMap escapedChar).map some ++ some '"' :: rest : List Symbol).length + 1) none
        ((s.toList.flatMap escapedChar).map some ++ some '"' :: rest) =
      some (s.toList.map some, rest) := by
  refine stringBody_escaped _ _ _ ?_
  have := length_le_escaped s.toList
  simp only [List.length_append, List.length_map, List.length_cons]
  omega

def NumberEnds (rest : List Symbol) : Prop :=
  ∀ c tail, rest = some c :: tail → Text.isDigit c = false ∧ c ≠ '.' ∧ c ≠ 'e' ∧ c ≠ 'E'

theorem digitsOf_append {ds : List Char} (hds : ∀ c ∈ ds, Text.isDigit c = true)
    {rest : List Symbol} (hrest : NumberEnds rest) :
    digitsOf (ds.map some ++ rest) = (ds, rest) := by
  induction ds with
  | nil =>
    rcases rest with _ | ⟨_ | c, tail⟩
    · rfl
    · simp [digitsOf]
    · simp [digitsOf, (hrest c tail rfl).1]
  | cons d ds ih =>
    obtain ⟨hd, hds⟩ := List.forall_mem_cons.mp hds
    have hrun := ih hds
    simp only [digitsOf, Prod.mk.injEq] at hrun ⊢
    rw [List.map_cons, List.cons_append]
    constructor
    · rw [List.takeWhile_cons_of_pos (by exact hd)]
      exact congrArg (d :: ·) hrun.1
    · rw [List.dropWhile_cons_of_pos (by exact hd), hrun.2]

theorem valueOf_digits (n : Nat) : Text.valueOf 10 (Text.digits n) = n := by
  have hvalue : ∀ d < 10, (Text.hexValue? (Text.digitChar d)).getD 0 = d := by decide
  induction n using Text.digits.induct with
  | case1 n h =>
    rw [Text.digits, if_pos h]
    simp [Text.valueOf, hvalue n h]
  | case2 n h ih =>
    rw [Text.digits, if_neg h, Text.valueOf, List.foldl_append]
    rw [Text.valueOf] at ih
    simp only [ih, List.foldl_cons, List.foldl_nil, hvalue (n % 10) (by omega)]
    omega

theorem digits_head {n : Nat} {ds : List Char} (h : Text.digits n = '0' :: ds) : ds = [] := by
  induction n using Text.digits.induct generalizing ds with
  | case1 n hn =>
    rw [Text.digits, if_pos hn] at h
    exact (List.cons.inj h).2.symm
  | case2 n hn ih =>
    rw [Text.digits, if_neg hn] at h
    cases hfirst : Text.digits (n / 10) with
    | nil => exact absurd hfirst (Text.digits_ne_nil _)
    | cons d front =>
      rw [hfirst, List.cons_append, List.cons.injEq] at h
      obtain ⟨rfl, -⟩ := h
      have hzero := valueOf_digits (n / 10)
      rw [hfirst, ih hfirst] at hzero
      have : Text.valueOf 10 ['0'] = 0 := by decide
      omega

theorem fractionPart_ends {rest : List Symbol} (h : NumberEnds rest) :
    fractionPart rest = some (none, rest) := by
  unfold fractionPart
  split
  · rename_i tail
    exact absurd rfl (h '.' tail rfl).2.1
  · rfl

theorem exponentPart_ends {rest : List Symbol} (h : NumberEnds rest) :
    exponentPart rest = some (none, rest) := by
  unfold exponentPart
  split
  · rename_i c tail
    obtain ⟨-, -, hsmall, hcapital⟩ := h c tail rfl
    simp [hsmall, hcapital]
  · rfl

theorem numberText_intDigits (i : Int) {rest : List Symbol} (hrest : NumberEnds rest) :
    numberText ((Text.intDigits i).map some ++ rest) =
      some (⟨decide (i < 0), Text.digits i.natAbs, none, none⟩, rest) := by
  have hread := digitsOf_append (Text.isDigit_of_mem_digits i.natAbs) hrest
  have hsign : minusSign ((Text.intDigits i).map some ++ rest) =
      (decide (i < 0), (Text.digits i.natAbs).map some ++ rest) := by
    by_cases hneg : i < 0
    · simp [Text.intDigits, hneg, minusSign]
    · rw [Text.intDigits, if_neg hneg, decide_eq_false hneg, minusSign]
      intro tail h
      cases hds : Text.digits i.natAbs with
      | nil => exact Text.digits_ne_nil _ hds
      | cons d ds =>
        rw [hds] at h
        obtain rfl : d = '-' := by simpa using (List.cons.inj h).1
        exact Text.ne_of_kind (Text.isDigit_head hds) (by decide) rfl
  simp only [numberText, hsign, hread, fractionPart_ends hrest]
  split
  · rename_i hnil
    exact absurd hnil (Text.digits_ne_nil _)
  · rename_i d ds hzero
    exact absurd (digits_head hzero) (by simp)
  · simp only [Option.bind_eq_bind, Option.bind_some, exponentPart_ends hrest]
    rfl

theorem toJson_int {i : Int} (h : (Json.int i).Plain) :
    NumberText.toJson ⟨decide (i < 0), Text.digits i.natAbs, none, none⟩ = .int i := by
  obtain ⟨hlow, hhigh⟩ := h
  simp only [NumberText.toJson, valueOf_digits]
  by_cases hneg : i < 0
  · have hrange : 0 < i.natAbs ∧ i.natAbs ≤ Text.int64Bound := by omega
    have hvalue : -(i.natAbs : Int) = i := by omega
    rw [hvalue]
    simp [hneg, hrange]
  · have hrange : i.natAbs < UInt64.size := by omega
    have hvalue : (i.natAbs : Int) = i := by omega
    rw [hvalue]
    simp [hneg, hrange]

theorem numberEnds_nil : NumberEnds [] := by
  rintro c tail h
  cases h

theorem numberEnds_cons {c : Char} {rest : List Symbol}
    (h : Text.isDigit c = false ∧ c ≠ '.' ∧ c ≠ 'e' ∧ c ≠ 'E') : NumberEnds (some c :: rest) := by
  rintro d tail heq
  obtain rfl : c = d := by simpa using (List.cons.inj heq).1
  exact h

theorem skipSpace_cons {c : Char} (h : isSpace (some c) = false) (rest : List Symbol) :
    skipSpace (some c :: rest) = some c :: rest := by
  simp [skipSpace, h]

def opens (c : Char) : Bool := !isSpace (some c) && c != ']'

theorem opens_of_isDigit {c : Char} (h : Text.isDigit c = true) : opens c = true := by
  have hspace := Text.ne_of_kind h (show Text.isDigit ' ' = false by decide)
  have hline := Text.ne_of_kind h (show Text.isDigit '\n' = false by decide)
  have htab := Text.ne_of_kind h (show Text.isDigit '\t' = false by decide)
  have hreturn := Text.ne_of_kind h (show Text.isDigit '\r' = false by decide)
  have hclose := Text.ne_of_kind h (show Text.isDigit ']' = false by decide)
  simp [opens, isSpace, hspace, hline, htab, hreturn, hclose]

theorem intDigits_head (i : Int) : ∃ c tail, Text.intDigits i = c :: tail ∧
    (c = '-' ∨ Text.isDigit c = true) := by
  unfold Text.intDigits
  split
  · exact ⟨'-', _, rfl, Or.inl rfl⟩
  · cases hds : Text.digits i.natAbs with
    | nil => exact absurd hds (Text.digits_ne_nil _)
    | cons d ds => exact ⟨d, ds, rfl, Or.inr (Text.isDigit_head hds)⟩

theorem chars_head {j : Json} (h : j.Plain) : ∃ c tail, j.chars = c :: tail ∧ opens c = true := by
  cases j with
  | null => exact ⟨'n', _, rfl, by decide⟩
  | bool b => cases b <;> exact ⟨_, _, rfl, by decide⟩
  | int i =>
    obtain ⟨c, tail, hchars, hc⟩ := intDigits_head i
    refine ⟨c, tail, hchars, ?_⟩
    rcases hc with rfl | hc
    · decide
    · exact opens_of_isDigit hc
  | text s => exact ⟨'"', _, rfl, by decide⟩
  | array items => exact ⟨'[', _, rfl, by decide⟩
  | object fields => exact ⟨'\x7b', _, rfl, by decide⟩
  | _ => exact h.elim

theorem readValue_number {fuel : Nat} {c : Char} {tail : List Symbol} {n : NumberText}
    {rest : List Symbol} (hc : c = '-' ∨ Text.isDigit c = true)
    (h : numberText (some c :: tail) = some (n, rest)) :
    readValue (fuel + 1) (some c :: tail) = (n.toJson, some rest) := by
  have hne : ∀ d, d ≠ '-' → Text.isDigit d = false → c ≠ d := by
    rintro d hminus hd
    rcases hc with rfl | hc
    · exact hminus.symm
    · exact Text.ne_of_kind hc hd
  have hopens : isSpace (some c) = false := by
    rcases hc with rfl | hc
    · decide
    · have := opens_of_isDigit hc
      simp_all [opens]
  rw [readValue, skipSpace_cons hopens]
  split
  all_goals rename_i heq
  · exact absurd (Option.some.inj (List.cons.inj heq).1) (hne '"' (by decide) (by decide))
  · exact absurd (Option.some.inj (List.cons.inj heq).1) (hne '[' (by decide) (by decide))
  · exact absurd (Option.some.inj (List.cons.inj heq).1) (hne '\x7b' (by decide) (by decide))
  · exact absurd (Option.some.inj (List.cons.inj heq).1) (hne 'n' (by decide) (by decide))
  · exact absurd (Option.some.inj (List.cons.inj heq).1) (hne 't' (by decide) (by decide))
  · exact absurd (Option.some.inj (List.cons.inj heq).1) (hne 'f' (by decide) (by decide))
  · rw [h]

theorem readValue_text (fuel : Nat) (s : String) (rest : List Symbol) :
    readValue (fuel + 1) ((writeText s).map some ++ rest) = (.text s, some rest) := by
  have hchars : (writeText s).map some ++ rest =
      some '"' :: ((s.toList.flatMap escapedChar).map some ++ some '"' :: rest) := by
    simp [writeText]
  rw [hchars, readValue, skipSpace_cons (by decide)]
  simp only [stringBody_writeText, textOf?_map_some, String.ofList_toList]

theorem readValue_int (fuel : Nat) {i : Int} (h : (Json.int i).Plain) {rest : List Symbol}
    (hrest : NumberEnds rest) :
    readValue (fuel + 1) ((Text.intDigits i).map some ++ rest) = (.int i, some rest) := by
  obtain ⟨c, tail, hchars, hc⟩ := intDigits_head i
  have hnumber := numberText_intDigits i hrest
  rw [hchars, List.map_cons, List.cons_append] at hnumber ⊢
  rw [readValue_number hc hnumber, toJson_int h]

theorem itemChars_cons (j : Json) {rest : List Json} (h : rest ≠ []) :
    itemChars (j :: rest) = j.chars ++ ',' :: itemChars rest := by
  cases rest with
  | nil => exact absurd rfl h
  | cons k rest => rw [itemChars]; simp

theorem fieldChars_cons (k : String) (j : Json) {rest : List (String × Json)} (h : rest ≠ []) :
    fieldChars ((k, j) :: rest) = writeText k ++ ':' :: j.chars ++ ',' :: fieldChars rest := by
  cases rest with
  | nil => exact absurd rfl h
  | cons f rest => rw [fieldChars]; simp

theorem readValue_word (fuel : Nat) {j : Json} (h : j = .null ∨ ∃ b, j = .bool b)
    (rest : List Symbol) : readValue (fuel + 1) (j.chars.map some ++ rest) = (j, some rest) := by
  rcases h with rfl | ⟨_ | _, rfl⟩
  · simp only [chars, List.map_cons, List.map_nil, List.cons_append, List.nil_append]
    rw [readValue, skipSpace_cons (by decide)]
    simp [readValue.readWord, afterWord?]
  · simp only [chars, List.map_cons, List.map_nil, List.cons_append, List.nil_append]
    rw [readValue, skipSpace_cons (by decide)]
    simp [readValue.readWord, afterWord?]
  · simp only [chars, List.map_cons, List.map_nil, List.cons_append, List.nil_append]
    rw [readValue, skipSpace_cons (by decide)]
    simp [readValue.readWord, afterWord?]

theorem itemChars_head {items : List Json} (h : PlainItems items) (hne : items ≠ []) :
    ∃ c tail, itemChars items = c :: tail ∧ opens c = true := by
  cases items with
  | nil => exact absurd rfl hne
  | cons j rest =>
    obtain ⟨c, tail, hchars, hc⟩ := chars_head h.1
    cases rest with
    | nil => exact ⟨c, tail, by rw [itemChars, hchars], hc⟩
    | cons k rest => exact ⟨c, _, by rw [itemChars_cons j (by simp), hchars]; rfl, hc⟩

theorem readValue_array {fuel : Nat} {items : List Json} (h : PlainItems items)
    {rest : List Symbol}
    (hitems : items ≠ [] → readItems fuel ((itemChars items).map some ++ some ']' :: rest) =
      (items, some rest)) :
    readValue (fuel + 1) ((Json.array items).chars.map some ++ rest) =
      (.array items, some rest) := by
  have hchars : (Json.array items).chars.map some ++ rest =
      some '[' :: ((itemChars items).map some ++ some ']' :: rest) := by simp [chars]
  rw [hchars, readValue, skipSpace_cons (by decide)]
  cases items with
  | nil => simp [itemChars, skipSpace_cons (show isSpace (some ']') = false by decide)]
  | cons j items =>
    obtain ⟨c, tail, hhead, hc⟩ := itemChars_head h (by simp)
    have hitems := hitems (by simp)
    simp only [opens, Bool.and_eq_true, Bool.not_eq_true', bne_iff_ne, ne_eq] at hc
    rw [hhead, List.map_cons, List.cons_append] at hitems ⊢
    simp only [skipSpace_cons hc.1]
    split
    · rename_i heq
      exact absurd (Option.some.inj (List.cons.inj heq).1) hc.2
    · rw [hitems]

theorem fieldChars_head {fields : List (String × Json)} (hne : fields ≠ []) :
    ∃ tail, fieldChars fields = '"' :: tail := by
  match fields, hne with
  | [(k, j)], _ => exact ⟨_, rfl⟩
  | (k, j) :: f :: rest, _ => exact ⟨_, rfl⟩

theorem readValue_object {fuel : Nat} {fields : List (String × Json)} {rest : List Symbol}
    (hfields : fields ≠ [] →
      readFields fuel ((fieldChars fields).map some ++ some '\x7d' :: rest) =
        (fields, some rest)) :
    readValue (fuel + 1) ((Json.object fields).chars.map some ++ rest) =
      (.object fields, some rest) := by
  have hchars : (Json.object fields).chars.map some ++ rest =
      some '\x7b' :: ((fieldChars fields).map some ++ some '\x7d' :: rest) := by simp [chars]
  rw [hchars, readValue, skipSpace_cons (by decide)]
  cases fields with
  | nil => simp [fieldChars, skipSpace_cons (show isSpace (some '\x7d') = false by decide)]
  | cons f fields =>
    obtain ⟨tail, hhead⟩ := fieldChars_head (List.cons_ne_nil f fields)
    have hfields := hfields (by simp)
    rw [hhead, List.map_cons, List.cons_append] at hfields ⊢
    simp only [skipSpace_cons (show isSpace (some '"') = false by decide)]
    split
    · rename_i heq
      exact absurd (Option.some.inj (List.cons.inj heq).1) (by decide)
    · rw [hfields]

theorem readFields_step {fuel : Nat} {k : String} {j : Json} {rest tail : List Symbol}
    (hvalue : readValue fuel rest = (j, some tail)) :
    readFields (fuel + 1) ((writeText k).map some ++ some ':' :: rest) =
      match skipSpace tail with
      | some '\x7d' :: rest => ([(k, j)], some rest)
      | some ',' :: rest =>
        let (fields, rest) := readFields fuel rest
        ((k, j) :: fields, rest)
      | _ => ([(k, j), ("", .torn)], none) := by
  have hstep := readFields.eq_def (fuel + 1)
    (some '"' :: ((k.toList.flatMap escapedChar).map some ++ some '"' :: some ':' :: rest))
  simp only [skipSpace_cons (show isSpace (some '"') = false by decide), stringBody_writeText,
    skipSpace_cons (show isSpace (some ':') = false by decide), hvalue, textOf?_map_some,
    String.ofList_toList, named] at hstep
  have hchars : (writeText k).map some ++ some ':' :: rest =
      some '"' :: ((k.toList.flatMap escapedChar).map some ++ some '"' :: some ':' :: rest) := by
    simp [writeText]
  rw [hchars]
  exact hstep

mutual

/-- A value is read from its written form, with fuel for each of its characters. -/
theorem readValue_chars : ∀ (j : Json), j.Plain → ∀ (fuel : Nat) (rest : List Symbol),
    NumberEnds rest → j.chars.length ≤ fuel →
      readValue fuel (j.chars.map some ++ rest) = (j, some rest)
  | .null, _, fuel + 1, rest, _, _ => readValue_word fuel (Or.inl rfl) rest
  | .bool b, _, fuel + 1, rest, _, _ => readValue_word fuel (Or.inr ⟨b, rfl⟩) rest
  | .int i, h, fuel + 1, rest, hrest, _ => by
    rw [chars]
    exact readValue_int fuel h hrest
  | .text s, _, fuel + 1, rest, _, _ => by
    rw [chars]
    exact readValue_text fuel s rest
  | .array items, h, fuel + 1, rest, _, hfuel => by
    refine readValue_array h fun hne => readItems_chars items h hne fuel rest ?_
    simp only [chars, List.length_cons, List.length_append, List.length_nil] at hfuel
    omega
  | .object fields, h, fuel + 1, rest, _, hfuel => by
    refine readValue_object fun hne => readFields_chars fields h hne fuel rest ?_
    simp only [chars, List.length_cons, List.length_append, List.length_nil] at hfuel
    omega
  | j, h, 0, _, _, hfuel => by
    obtain ⟨c, tail, hchars, -⟩ := chars_head h
    rw [hchars] at hfuel
    simp at hfuel

theorem readItems_chars : ∀ (items : List Json), PlainItems items → items ≠ [] →
    ∀ (fuel : Nat) (rest : List Symbol), (itemChars items).length + 1 ≤ fuel →
      readItems fuel ((itemChars items).map some ++ some ']' :: rest) = (items, some rest)
  | [], _, hne, _, _, _ => absurd rfl hne
  | _ :: _, _, _, 0, _, hfuel => by simp at hfuel
  | [j], h, _, fuel + 1, rest, hfuel => by
    have hvalue := readValue_chars j h.1 fuel (some ']' :: rest) (numberEnds_cons (by decide))
      (by simpa [itemChars] using hfuel)
    rw [itemChars, readItems, hvalue]
    simp [skipSpace_cons (show isSpace (some ']') = false by decide)]
  | j :: k :: items, h, _, fuel + 1, rest, hfuel => by
    have hchars := itemChars_cons j (List.cons_ne_nil k items)
    rw [hchars, List.length_append, List.length_cons] at hfuel
    have hvalue := readValue_chars j h.1 fuel
      (some ',' :: ((itemChars (k :: items)).map some ++ some ']' :: rest))
      (numberEnds_cons (by decide)) (by omega)
    have hitems := readItems_chars (k :: items) h.2 (by simp) fuel rest (by omega)
    have hsplit : (itemChars (j :: k :: items)).map some ++ some ']' :: rest =
        j.chars.map some ++
          some ',' :: ((itemChars (k :: items)).map some ++ some ']' :: rest) := by
      rw [hchars]
      simp
    rw [hsplit, readItems, hvalue]
    simp only [skipSpace_cons (show isSpace (some ',') = false by decide), hitems]

theorem readFields_chars : ∀ (fields : List (String × Json)), PlainFields fields → fields ≠ [] →
    ∀ (fuel : Nat) (rest : List Symbol), (fieldChars fields).length + 1 ≤ fuel →
      readFields fuel ((fieldChars fields).map some ++ some '\x7d' :: rest) = (fields, some rest)
  | [], _, hne, _, _, _ => absurd rfl hne
  | _ :: _, _, _, 0, _, hfuel => by simp at hfuel
  | [(k, j)], h, _, fuel + 1, rest, hfuel => by
    simp only [fieldChars, List.length_append, List.length_cons] at hfuel
    have hvalue := readValue_chars j h.1 fuel (some '\x7d' :: rest) (numberEnds_cons (by decide))
      (by omega)
    have hsplit : (fieldChars [(k, j)]).map some ++ some '\x7d' :: rest =
        (writeText k).map some ++ some ':' :: (j.chars.map some ++ some '\x7d' :: rest) := by
      simp [fieldChars]
    rw [hsplit, readFields_step hvalue]
    simp [skipSpace_cons (show isSpace (some '\x7d') = false by decide)]
  | (k, j) :: f :: fields, h, _, fuel + 1, rest, hfuel => by
    have hchars := fieldChars_cons k j (List.cons_ne_nil f fields)
    simp only [hchars, List.length_append, List.length_cons] at hfuel
    have hvalue := readValue_chars j h.1 fuel
      (some ',' :: ((fieldChars (f :: fields)).map some ++ some '\x7d' :: rest))
      (numberEnds_cons (by decide)) (by omega)
    have hfields := readFields_chars (f :: fields) h.2 (by simp) fuel rest (by omega)
    have hsplit : (fieldChars ((k, j) :: f :: fields)).map some ++ some '\x7d' :: rest =
        (writeText k).map some ++ some ':' :: (j.chars.map some ++
          some ',' :: ((fieldChars (f :: fields)).map some ++ some '\x7d' :: rest)) := by
      rw [hchars]
      simp
    rw [hsplit, readFields_step hvalue]
    simp only [skipSpace_cons (show isSpace (some ',') = false by decide), hfields]

end

theorem read_write {j : Json} (h : j.Plain) : read j.write = ⟨j, true⟩ := by
  have hvalue := readValue_chars j h (j.chars.length + 1) [] numberEnds_nil (by omega)
  rw [List.append_nil] at hvalue
  rw [read, write, String.toList_ofList, readSymbols, List.length_map, hvalue]
  rfl

theorem readBytes_encode (s : String) : readBytes (Utf8.encode s) = read s := by
  rw [readBytes, Utf8.symbols_encode, read]

end HeatingControl.Json
