import HeatingControl.Proofs.Http.Percent

/-!
# Texts that stand for themselves

Decoding changes a text exactly if a percent sign stands before two hexadecimal digits in it.
-/
namespace HeatingControl.Percent

def startsOctet : List Char → Bool
  | high :: low :: _ => (Text.hexValue? high).isSome && (Text.hexValue? low).isSome
  | _ => false

def hasEscape : List Char → Bool
  | [] => false
  | c :: cs => (c = '%' && startsOctet cs) || hasEscape cs

theorem hasEscape_of_not_mem {cs : List Char} (h : '%' ∉ cs) : hasEscape cs = false := by
  induction cs with
  | nil => rfl
  | cons c cs ih =>
    obtain ⟨hc, hcs⟩ := not_or.mp (fun hmem => h (List.mem_cons.mpr hmem))
    rw [hasEscape, ih hcs, decide_eq_false (Ne.symm hc)]
    rfl

theorem toNat_lt_of_hexValue? {c : Char} (h : (Text.hexValue? c).isSome = true) :
    c.toNat < 128 := by
  have h9 : '9'.toNat = 57 := rfl
  have hf : 'f'.toNat = 102 := rfl
  have hF : 'F'.toNat = 70 := rfl
  unfold Text.hexValue? at h
  simp only [Text.isDigit, Char.le_def, Bool.and_eq_true, decide_eq_true_eq, UInt32.le_iff_toNat_le,
    Char.toNat_val] at h
  split at h
  · omega
  split at h
  · omega
  split at h
  · omega
  · cases h

/-- The first octet of a character is a digit if the character is one. -/
theorem hexValue?_head (c : Char) (bs : Bytes) :
    ∃ b rest, String.utf8EncodeChar c ++ bs = b :: rest ∧
      (Text.hexValue? (charOf b)).isSome = (Text.hexValue? c).isSome ∧
      ((Text.hexValue? c).isSome = true → rest = bs) := by
  rcases Utf8.encodeChar_cases c with ⟨hc, hbytes⟩ | ⟨hc, hne, hbytes⟩
  · refine ⟨octetOf c, bs, ?_, ?_, fun _ => rfl⟩
    · rw [hbytes]
      rfl
    · rw [charOf_octetOf hc]
  · obtain ⟨b, rest, hcons⟩ := List.exists_cons_of_ne_nil hne
    have hhigh : 128 ≤ b.toNat := hbytes b (by simp [hcons])
    have hno : (Text.hexValue? c).isSome = false := by
      apply Bool.eq_false_iff.mpr
      intro hdigit
      have := toNat_lt_of_hexValue? hdigit
      omega
    have hno' : (Text.hexValue? (charOf b)).isSome = false := by
      apply Bool.eq_false_iff.mpr
      intro hdigit
      have := toNat_lt_of_hexValue? hdigit
      rw [toNat_charOf] at this
      omega
    refine ⟨b, rest ++ bs, ?_, ?_, ?_⟩
    · rw [hcons]
      rfl
    · rw [hno, hno']
    · intro hdigit
      rw [hno] at hdigit
      cases hdigit

theorem octet?_isSome (high low : UInt8) :
    (octet? high low).isSome =
      ((Text.hexValue? (charOf high)).isSome && (Text.hexValue? (charOf low)).isSome) := by
  unfold octet?
  cases Text.hexValue? (charOf high) with
  | none => rfl
  | some m =>
    cases Text.hexValue? (charOf low) with
    | none => rfl
    | some n => rfl

theorem octetAt?_isSome (cs : List Char) :
    (octetAt? (cs.flatMap String.utf8EncodeChar)).isSome = startsOctet cs := by
  cases cs with
  | nil => rfl
  | cons high cs =>
    obtain ⟨b, rest, hbytes, hdigit, hrest⟩ :=
      hexValue?_head high (cs.flatMap String.utf8EncodeChar)
    rw [List.flatMap_cons, hbytes]
    by_cases hhigh : (Text.hexValue? high).isSome = true
    · rw [hrest hhigh]
      cases cs with
      | nil => rfl
      | cons low cs =>
        obtain ⟨b', rest', hbytes', hdigit', -⟩ :=
          hexValue?_head low (cs.flatMap String.utf8EncodeChar)
        rw [List.flatMap_cons, hbytes', octetAt?, octet?_isSome, hdigit, hdigit']
        rfl
    · rw [Bool.not_eq_true] at hhigh
      have hno : startsOctet (high :: cs) = false := by
        cases cs with
        | nil => rfl
        | cons low cs => rw [startsOctet, hhigh, Bool.false_and]
      rw [hno]
      cases rest with
      | nil => rfl
      | cons b' rest => rw [octetAt?, octet?_isSome, hdigit, hhigh, Bool.false_and]

theorem decode_append {bs : Bytes} (h : 0x25 ∉ bs) (rest : Bytes) :
    decode (bs ++ rest) = bs ++ decode rest := by
  induction bs with
  | nil => rfl
  | cons b bs ih =>
    obtain ⟨hb, hbs⟩ := not_or.mp (fun hmem => h (List.mem_cons.mpr hmem))
    rw [List.cons_append, decode_cons (Ne.symm hb), ih hbs, List.cons_append]

theorem decode_eq_self_iff (cs : List Char) :
    decode (cs.flatMap String.utf8EncodeChar) = cs.flatMap String.utf8EncodeChar ↔
      hasEscape cs = false := by
  induction cs with
  | nil => simp [decode, hasEscape]
  | cons c cs ih =>
    rw [List.flatMap_cons, hasEscape, Bool.or_eq_false_iff]
    by_cases hc : c = '%'
    · subst hc
      have hpercent : String.utf8EncodeChar '%' = [0x25] := rfl
      rw [hpercent, List.singleton_append, ← octetAt?_isSome]
      cases hoctet : octetAt? (cs.flatMap String.utf8EncodeChar) with
      | none =>
        rw [decode_percent_of_none hoctet, List.cons.injEq]
        simp [ih]
      | some b =>
        have hshorter : decode (0x25 :: cs.flatMap String.utf8EncodeChar) ≠
            0x25 :: cs.flatMap String.utf8EncodeChar := by
          intro hsame
          rw [decode_percent_of_some hoctet] at hsame
          have hlength := congrArg List.length hsame
          have hle := decode_length_le ((cs.flatMap String.utf8EncodeChar).drop 2)
          have htwo := length_of_octetAt? hoctet
          simp only [List.length_cons, List.length_drop] at hlength hle
          omega
        simp [hshorter]
    · have hplain : 0x25 ∉ String.utf8EncodeChar c := by
        rcases Utf8.encodeChar_cases c with ⟨hlt, hbytes⟩ | ⟨-, -, hbytes⟩
        · rw [hbytes]
          intro hmem
          exact hc (octetOf_inj hlt (by decide) (List.mem_singleton.mp hmem).symm)
        · intro hmem
          exact absurd (hbytes _ hmem) (by decide)
      rw [decode_append hplain, List.append_cancel_left_eq, ih]
      simp [hc]

end HeatingControl.Percent
