import HeatingControl.Order
import HeatingControl.Proofs.Text.Cut
import HeatingControl.Proofs.Text.Numeral
import HeatingControl.Zone

/-!
# Texts of modes and overrides

An override or a mode that was read from some text is read again from its own. The overrides are
those of orders that are not mistaken for none. The modes are those of words and of numbers; their
texts make up a small grammar, and exactly these texts are read.
-/
namespace HeatingControl

theorem Override.parse_display_parse (s : String) : parse (parse s).display = parse s := by
  by_cases h : Text.trim s = noneText ∨ Text.trim s = ""
  · have hnone : parse s = .none := if_pos h
    rw [hnone]
    rfl
  · have horder : parse s = .order ⟨Text.trim s⟩ := if_neg h
    rw [horder, display, parse, Text.trim_trim, if_neg h]

namespace ZoneMode

/-- The texts of modes. An order is a word of ASCII letters and digits; a planning is a row of ASCII
digits, leading zeros allowed, whose value fits into 32 bits. -/
inductive Spells : String → ZoneMode → Prop where
  | fixed (word : String) (filled : word ≠ "") (letters : ∀ c ∈ word.toList, c.isAlphanum = true) :
      Spells (":fixed:" ++ word) (.fixed ⟨word⟩)
  | planning (numeral : String) (id : PlanningId) (filled : numeral ≠ "")
      (digits : ∀ c ∈ numeral.toList, c.isDigit = true)
      (value : Nat.ofDigitChars 10 numeral.toList 0 = id.number.toNat) :
      Spells (":planning:" ++ numeral) (.planning id)

def Written : ZoneMode → Prop
  | .fixed order => order.text ≠ "" ∧ order.text.toList.all Text.isWordChar = true
  | .planning _ => True

theorem toList_fixed (word : String) :
    (":fixed:" ++ word).toList = ':' :: "fixed".toList ++ ':' :: word.toList := by
  rw [String.toList_append]
  rfl

theorem toList_planning (numeral : String) :
    (":planning:" ++ numeral).toList = ':' :: "planning".toList ++ ':' :: numeral.toList := by
  rw [String.toList_append]
  rfl

theorem read?_mode {tag : List Char} (htag : ':' ∉ tag) (value : List Char) :
    read? (':' :: tag ++ ':' :: value) =
      if value = [] then none
      else if tag = "fixed".toList then
        if value.all Text.isWordChar then some (.fixed ⟨String.ofList value⟩) else none
      else if tag = "planning".toList then
        if value.all Text.isDigit then
          match Text.readNat (UInt32.size - 1) value with
          | .ok n => some (.planning ⟨UInt32.ofNat n⟩)
          | .error _ => none
        else none
      else none := by
  have hfirst : Text.cutFirst ':' (':' :: tag ++ ':' :: value) = some ([], tag ++ ':' :: value) := by
    simp [Text.cutFirst]
  have hread := read?.eq_def (':' :: tag ++ ':' :: value)
  simp only [hfirst, Text.cutFirst_append htag value, Option.bind_eq_bind, Option.bind_some,
    ne_eq, not_true_eq_false, false_or] at hread
  exact hread

theorem exists_tag_of_read? {cs : List Char} {m : ZoneMode} (h : read? cs = some m) :
    ∃ tag value, ':' ∉ tag ∧ cs = ':' :: tag ++ ':' :: value := by
  simp only [read?, Option.bind_eq_bind, Option.bind_eq_some_iff, Prod.exists] at h
  obtain ⟨before, rest, hfirst, tag, value, hsecond, h⟩ := h
  obtain ⟨rfl, -⟩ := Text.cutFirst_eq hfirst
  obtain ⟨rfl, htag⟩ := Text.cutFirst_eq hsecond
  split at h
  · cases h
  · rename_i hfilled
    obtain rfl : before = [] := not_not.mp fun hbefore => hfilled (Or.inl hbefore)
    exact ⟨tag, value, htag, rfl⟩

theorem read?_of_spells {s : String} {m : ZoneMode} (h : Spells s m) :
    read? s.toList = some m := by
  cases h with
  | fixed word filled letters =>
    have hvalue : word.toList ≠ [] := by simpa using filled
    have hword : word.toList.all Text.isWordChar = true :=
      List.all_eq_true.mpr fun c hc => (Text.isWordChar_eq c).trans (letters c hc)
    rw [toList_fixed, read?_mode (by decide), if_neg hvalue, if_pos rfl, if_pos hword,
      String.ofList_toList]
  | planning numeral id filled digits value =>
    have hvalue : numeral.toList ≠ [] := by simpa using filled
    have hdigits : numeral.toList.all Text.isDigit = true := List.all_eq_true.mpr digits
    have hfits : id.number.toNat ≤ UInt32.size - 1 := Nat.le_pred_of_lt id.number.toNat_lt
    have hread : Text.readNat (UInt32.size - 1) numeral.toList = _ :=
      Text.readNat_eq hvalue digits
    rw [value, if_pos hfits] at hread
    rw [toList_planning, read?_mode (by decide), if_neg hvalue, if_neg (by decide), if_pos rfl,
      if_pos hdigits, hread]
    simp

theorem spells_fixed {s : String} {value : List Char}
    (hs : s.toList = ':' :: "fixed".toList ++ ':' :: value) (hvalue : value ≠ [])
    (hword : value.all Text.isWordChar = true) : Spells s (.fixed ⟨String.ofList value⟩) := by
  have hback : (String.ofList value).toList = value := String.toList_ofList
  have htext : s = ":fixed:" ++ String.ofList value := by
    apply String.toList_inj.mp
    rw [hs, toList_fixed, hback]
  rw [htext]
  refine .fixed _ (by simpa using hvalue) fun c hc => ?_
  rw [hback] at hc
  rw [← Text.isWordChar_eq]
  exact List.all_eq_true.mp hword c hc

theorem spells_planning {s : String} {value : List Char}
    (hs : s.toList = ':' :: "planning".toList ++ ':' :: value) (hvalue : value ≠ [])
    (hdigits : value.all Text.isDigit = true) {n : Nat}
    (hread : Text.readNat (UInt32.size - 1) value = .ok n) :
    Spells s (.planning ⟨UInt32.ofNat n⟩) := by
  have hback : (String.ofList value).toList = value := String.toList_ofList
  have htext : s = ":planning:" ++ String.ofList value := by
    apply String.toList_inj.mp
    rw [hs, toList_planning, hback]
  have hdigits : ∀ c ∈ value, Text.isDigit c = true := List.all_eq_true.mp hdigits
  rw [Text.readNat_eq hvalue hdigits] at hread
  split at hread
  · rename_i hfits
    cases hread
    rw [htext]
    refine .planning _ _ (by simpa using hvalue) ?_ ?_
    · rw [hback]
      exact hdigits
    · rw [hback]
      exact (UInt32.toNat_ofNat_of_lt (Nat.lt_of_le_pred (by decide) hfits)).symm
  · cases hread

theorem spells_of_read? {s : String} {m : ZoneMode} (h : read? s.toList = some m) :
    Spells s m := by
  obtain ⟨tag, value, htag, hs⟩ := exists_tag_of_read? h
  rw [hs, read?_mode htag] at h
  split at h
  · cases h
  · rename_i hvalue
    split at h
    · rename_i hfixed
      subst hfixed
      split at h
      · rename_i hword
        cases h
        exact spells_fixed hs hvalue hword
      · cases h
    · split at h
      · rename_i hplanning
        subst hplanning
        split at h
        · rename_i hdigits
          split at h
          · rename_i hread
            cases h
            exact spells_planning hs hvalue hdigits hread
          · cases h
        · cases h
      · cases h

theorem parse_eq_ok_iff {s : String} {m : ZoneMode} : parse s = .ok m ↔ Spells s m := by
  constructor
  · intro h
    unfold parse at h
    split at h
    · rename_i hread
      cases h
      exact spells_of_read? hread
    · cases h
  · intro h
    rw [parse, read?_of_spells h]

theorem parse_eq_error_iff {s : String} {e : ValidationError} :
    parse s = .error e ↔ e = .invalidZoneMode s ∧ ∀ m, ¬ Spells s m := by
  constructor
  · intro h
    refine ⟨?_, fun m hm => ?_⟩
    · unfold parse at h
      split at h
      · cases h
      · exact (Except.error.inj h).symm
    · rw [parse_eq_ok_iff.mpr hm] at h
      cases h
  · rintro ⟨rfl, hnone⟩
    unfold parse
    split
    · rename_i m hread
      exact absurd (spells_of_read? hread) (hnone m)
    · rfl

theorem spells_display {m : ZoneMode} (h : m.Written) : Spells m.display m := by
  cases m with
  | fixed order =>
    obtain ⟨hfilled, hword⟩ := h
    refine .fixed order.text hfilled fun c hc => ?_
    rw [← Text.isWordChar_eq]
    exact List.all_eq_true.mp hword c hc
  | planning id =>
    have hchars : id.display.toList = Text.digits id.number.toNat := Text.natText_toList _
    refine .planning id.display id ?_ ?_ ?_
    · rw [ne_eq, ← String.toList_eq_nil_iff, hchars]
      exact Text.digits_ne_nil _
    · rw [hchars]
      exact Text.isDigit_of_mem_digits _
    · rw [hchars]
      exact Text.ofDigitChars_digits _

theorem parse_display {m : ZoneMode} (h : m.Written) : parse m.display = .ok m :=
  parse_eq_ok_iff.mpr (spells_display h)

theorem written_of_parse {s : String} {m : ZoneMode} (h : parse s = .ok m) : m.Written := by
  cases parse_eq_ok_iff.mp h with
  | fixed word filled letters =>
    refine ⟨filled, List.all_eq_true.mpr fun c hc => ?_⟩
    rw [Text.isWordChar_eq]
    exact letters c hc
  | planning => trivial

/-- Zeros that lead the number of a planning are not written again. -/
theorem Spells.exists_zeros {s : String} {id : PlanningId} (h : Spells s (.planning id)) :
    ∃ zeros, s = ":planning:" ++ String.ofList (List.replicate zeros '0') ++ id.display := by
  cases h with
  | planning numeral id filled digits value =>
    have hvalue : numeral.toList ≠ [] := by simpa using filled
    obtain ⟨zeros, hzeros⟩ := Text.eq_zeros_append_digits hvalue digits
    refine ⟨zeros, ?_⟩
    have hnumeral : numeral = String.ofList (List.replicate zeros '0') ++ id.display := by
      apply String.toList_inj.mp
      rw [String.toList_append, String.toList_ofList, PlanningId.display, Text.natText_toList,
        ← value]
      exact hzeros
    rw [hnumeral, String.append_assoc]

/-- Modes are read from their texts and from no others; every other text is refused with itself.
A mode that was read is read again from its own text, which is the text it was read from, but for
zeros that lead the number of a planning. -/
theorem read_as_spelled (s : String) :
    (∀ m, parse s = .ok m ↔ Spells s m) ∧
    (∀ e, parse s = .error e ↔ e = .invalidZoneMode s ∧ ∀ m, ¬ Spells s m) ∧
    ∀ m, parse s = .ok m → parse m.display = .ok m ∧
      (∀ order, m = .fixed order → m.display = s) ∧
      ∀ id, m = .planning id → m.display = ":planning:" ++ id.display ∧
        ∃ zeros, s = ":planning:" ++ String.ofList (List.replicate zeros '0') ++ id.display := by
  refine ⟨fun m => parse_eq_ok_iff, fun e => parse_eq_error_iff, fun m h => ?_⟩
  have hspells := parse_eq_ok_iff.mp h
  refine ⟨parse_display (written_of_parse h), ?_, ?_⟩
  · rintro order rfl
    cases hspells with
    | fixed word filled letters => rfl
  · rintro id rfl
    exact ⟨rfl, hspells.exists_zeros⟩

/-- A number is read past the zeros in front of it, and not past the bound. -/
theorem padded_number_is_read :
    parse ":planning:0042" = .ok (.planning ⟨42⟩) ∧
    parse (display (.planning ⟨42⟩)) = .ok (.planning ⟨42⟩) ∧
    (∃ zeros, ":planning:0042" =
      ":planning:" ++ String.ofList (List.replicate zeros '0') ++ PlanningId.display ⟨42⟩) ∧
    ∀ m, ¬ Spells ":planning:4294967296" m := by
  have hread : parse ":planning:0042" = .ok (.planning ⟨42⟩) := by rfl
  have hrefused : parse ":planning:4294967296" = .error (.invalidZoneMode ":planning:4294967296") := by
    rfl
  obtain ⟨-, -, hpadded⟩ := read_as_spelled ":planning:0042"
  obtain ⟨hagain, -, hnumber⟩ := hpadded _ hread
  obtain ⟨-, hbound, -⟩ := read_as_spelled ":planning:4294967296"
  exact ⟨hread, hagain, (hnumber ⟨42⟩ rfl).2, ((hbound _).mp hrefused).2⟩

end ZoneMode
end HeatingControl
