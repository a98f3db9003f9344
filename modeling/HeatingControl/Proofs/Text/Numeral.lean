import HeatingControl.Text.Numeral
import Mathlib.Data.List.Induction

/-!
# Written numbers read back

A row of digits is read as its decimal value wherever the value fits. The decimal form of a number
is such a row, without a blank, and every other row of that value has zeros in front of it.
-/
namespace HeatingControl.Text

section Digits

theorem isDigit_eq (c : Char) : isDigit c = c.isDigit := rfl

theorem isWordChar_eq (c : Char) : isWordChar c = c.isAlphanum := by
  have hupper : c.isUpper = ('A' ≤ c && c ≤ 'Z') := Bool.decide_and ..
  have hlower : c.isLower = ('a' ≤ c && c ≤ 'z') := rfl
  have hword : c.isAlphanum = (c.isUpper || c.isLower || c.isDigit) := rfl
  rw [hword, isWordChar, isDigit_eq, ← hupper, ← hlower, Bool.or_comm, Bool.or_comm c.isDigit,
    Bool.or_assoc]

theorem isDigit_digitChar {d : Nat} (h : d < 10) : isDigit (digitChar d) = true := by
  have hall : ∀ d < 10, isDigit (digitChar d) = true := by decide
  exact hall d h

theorem toNat_digitChar {d : Nat} (h : d < 10) : (digitChar d).toNat - 48 = d := by
  have hall : ∀ d < 10, (digitChar d).toNat - 48 = d := by decide
  exact hall d h

theorem digits_of_lt {n : Nat} (h : n < 10) : digits n = [digitChar n] := by
  rw [digits, if_pos h]

theorem digits_of_ge {n d : Nat} (hn : 0 < n) (hd : d < 10) :
    digits (10 * n + d) = digits n ++ [digitChar d] := by
  have hfront : (10 * n + d) / 10 = n := by omega
  have hlast : (10 * n + d) % 10 = d := by omega
  rw [digits, if_neg (by omega), hfront, hlast]

theorem digits_ne_nil (n : Nat) : digits n ≠ [] := by
  unfold digits
  split <;> simp

theorem isDigit_of_mem_digits (n : Nat) : ∀ c ∈ digits n, isDigit c = true := by
  induction n using digits.induct with
  | case1 n h =>
    rw [digits, if_pos h]
    simp [isDigit_digitChar h]
  | case2 n h ih =>
    intro c hc
    rw [digits, if_neg h, List.mem_append, List.mem_singleton] at hc
    rcases hc with hc | rfl
    · exact ih c hc
    · exact isDigit_digitChar (by omega)

theorem isDigit_head {n : Nat} {d : Char} {ds : List Char} (h : digits n = d :: ds) :
    isDigit d = true :=
  isDigit_of_mem_digits n d (by simp [h])

theorem toNat_of_isDigit {c : Char} (h : isDigit c = true) : 48 ≤ c.toNat ∧ c.toNat ≤ 57 := by
  simpa [isDigit, Char.le_def, UInt32.le_iff_toNat_le] using h

theorem digitChar_toNat {c : Char} (h : isDigit c = true) : digitChar (c.toNat - 48) = c := by
  obtain ⟨hlow, -⟩ := toNat_of_isDigit h
  rw [digitChar, show 48 + (c.toNat - 48) = c.toNat by omega, Char.ofNat_toNat]

theorem isBlank_of_isDigit {c : Char} (h : isDigit c = true) : isBlank c = false := by
  have hbounds := toNat_of_isDigit h
  simp only [isBlank, Bool.or_eq_false_iff, Bool.and_eq_false_iff, decide_eq_false_iff_not,
    beq_eq_false_iff_ne, ne_eq]
  omega

end Digits

section Reading

variable {limit : Nat}

theorem le_ofDigitChars (ds : List Char) (acc : Nat) : acc ≤ Nat.ofDigitChars 10 ds acc := by
  have hpow : 1 * acc ≤ 10 ^ ds.length * acc := Nat.mul_le_mul_right _ (Nat.pow_pos (by decide))
  rw [Nat.ofDigitChars_eq_ofDigitChars_zero]
  omega

/-- A row of digits fails as soon as what has been read is too large, which it then stays. -/
theorem readDigits_eq {ds : List Char} (h : ∀ c ∈ ds, isDigit c = true) {acc : Nat}
    (hacc : acc ≤ limit) : readDigits limit acc ds =
      if Nat.ofDigitChars 10 ds acc ≤ limit then .ok (Nat.ofDigitChars 10 ds acc)
      else .error .tooLarge := by
  induction ds generalizing acc with
  | nil => rw [readDigits, Nat.ofDigitChars_nil, if_pos hacc]
  | cons c ds ih =>
    obtain ⟨hc, hds⟩ := List.forall_mem_cons.mp h
    have hnext : acc * 10 + (c.toNat - 48) = 10 * acc + (c.toNat - '0'.toNat) := by
      rw [Nat.mul_comm]
      rfl
    simp only [readDigits, hc, if_true, Nat.ofDigitChars_cons, hnext]
    by_cases hfits : 10 * acc + (c.toNat - '0'.toNat) ≤ limit
    · rw [if_pos hfits, ih hds hfits]
    · have hmore := le_ofDigitChars ds (10 * acc + (c.toNat - '0'.toNat))
      rw [if_neg hfits, if_neg (by omega)]

theorem readNat_eq {ds : List Char} (hne : ds ≠ []) (h : ∀ c ∈ ds, isDigit c = true) :
    readNat limit ds = if Nat.ofDigitChars 10 ds 0 ≤ limit then .ok (Nat.ofDigitChars 10 ds 0)
      else .error .tooLarge := by
  rw [← readDigits_eq h (Nat.zero_le limit)]
  cases ds with
  | nil => exact absurd rfl hne
  | cons d ds =>
    have hd : d ≠ '+' := ne_of_kind (h d (List.mem_cons_self ..)) (by decide)
    rw [readNat]
    · simp
    · exact fun h => hd (List.cons.inj h).1
    · exact fun _ h => hd (List.cons.inj h).1

theorem ofDigitChars_digits (n : Nat) : Nat.ofDigitChars 10 (digits n) 0 = n := by
  induction n using digits.induct with
  | case1 n hn =>
    have hvalue : (digitChar n).toNat - '0'.toNat = n := toNat_digitChar hn
    rw [digits, if_pos hn, Nat.ofDigitChars_cons, Nat.ofDigitChars_nil, hvalue]
    omega
  | case2 n hn ih =>
    have hvalue : (digitChar (n % 10)).toNat - '0'.toNat = n % 10 :=
      toNat_digitChar (Nat.mod_lt _ (by omega))
    rw [digits, if_neg hn, Nat.ofDigitChars_append, ih, Nat.ofDigitChars_cons,
      Nat.ofDigitChars_nil, hvalue]
    omega

/-- Rows of digits of the same value differ in the zeros that lead them. -/
theorem eq_zeros_append_digits {ds : List Char} (hne : ds ≠ [])
    (h : ∀ c ∈ ds, isDigit c = true) :
    ∃ k, ds = List.replicate k '0' ++ digits (Nat.ofDigitChars 10 ds 0) := by
  induction ds using List.reverseRecOn with
  | nil => exact absurd rfl hne
  | append_singleton ds c ih =>
    obtain ⟨hds, hc⟩ := List.forall_mem_append.mp h
    have hc : isDigit c = true := hc c (List.mem_singleton_self c)
    have hlast : c.toNat - '0'.toNat < 10 := by
      have hbounds := toNat_of_isDigit hc
      have hzero : '0'.toNat = 48 := rfl
      omega
    have hchar : digitChar (c.toNat - '0'.toNat) = c := digitChar_toNat hc
    have hvalue : Nat.ofDigitChars 10 (ds ++ [c]) 0 =
        10 * Nat.ofDigitChars 10 ds 0 + (c.toNat - '0'.toNat) := by
      rw [Nat.ofDigitChars_append, Nat.ofDigitChars_cons, Nat.ofDigitChars_nil]
    by_cases hnil : ds = []
    · refine ⟨0, ?_⟩
      rw [hvalue, hnil, Nat.ofDigitChars_nil, Nat.mul_zero, Nat.zero_add, digits_of_lt hlast, hchar]
      rfl
    · obtain ⟨k, hk⟩ := ih hnil hds
      rw [hvalue]
      by_cases hzero : Nat.ofDigitChars 10 ds 0 = 0
      · refine ⟨k + 1, ?_⟩
        have hdigit : digits 0 = ['0'] := digits_of_lt (by decide)
        rw [hzero, hdigit, ← List.replicate_succ'] at hk
        rw [hzero, Nat.mul_zero, Nat.zero_add, digits_of_lt hlast, hchar, ← hk]
      · refine ⟨k, ?_⟩
        rw [digits_of_ge (by omega) hlast, hchar, ← List.append_assoc, ← hk]

theorem readDigits_digits {n : Nat} (h : n ≤ limit) : readDigits limit 0 (digits n) = .ok n := by
  rw [readDigits_eq (isDigit_of_mem_digits n) (Nat.zero_le limit), ofDigitChars_digits, if_pos h]

theorem readNat_digits {n : Nat} (h : n ≤ limit) : readNat limit (digits n) = .ok n := by
  rw [readNat_eq (digits_ne_nil n) (isDigit_of_mem_digits n), ofDigitChars_digits, if_pos h]

theorem natText_toList (n : Nat) : (natText n).toList = digits n := String.toList_ofList

@[simp] theorem readUInt32_natText (n : UInt32) : readUInt32 (natText n.toNat) = .ok n := by
  have hn : n.toNat ≤ UInt32.size - 1 := Nat.le_pred_of_lt n.toNat_lt
  rw [readUInt32, natText_toList, readNat_digits hn]
  simp [Except.map]

/-- A negative number is read to one more than the others. -/
@[simp] theorem readInt64_intDigits (i : Int64) : readInt64 (intDigits i.toInt) = .ok i := by
  have hlow : -(int64Bound : Int) ≤ i.toInt := i.le_toInt
  have hhigh : i.toInt < (int64Bound : Int) := i.toInt_lt
  unfold intDigits
  by_cases hneg : i.toInt < 0
  · have hread : readDigits int64Bound 0 (digits i.toInt.natAbs) = .ok i.toInt.natAbs :=
      readDigits_digits (by omega)
    have habs : -(i.toInt.natAbs : Int) = i.toInt := by omega
    rw [if_pos hneg, readInt64]
    · rw [hread]
      simp only [habs, Int64.ofInt_toInt]
    · exact digits_ne_nil _
  · have hread : readDigits (int64Bound - 1) 0 (digits i.toInt.natAbs) = .ok i.toInt.natAbs :=
      readDigits_digits (by omega)
    have habs : (i.toInt.natAbs : Int) = i.toInt := by omega
    have hvalue : Int64.ofNat i.toInt.natAbs = i := by
      rw [← Int64.ofInt_eq_ofNat, habs, Int64.ofInt_toInt]
    rw [if_neg hneg]
    cases hds : digits i.toInt.natAbs with
    | nil => exact absurd hds (digits_ne_nil _)
    | cons d ds =>
      rw [hds] at hread
      have hplus : d ≠ '+' := ne_of_kind (isDigit_head hds) (by decide)
      have hminus : d ≠ '-' := ne_of_kind (isDigit_head hds) (by decide)
      rw [readInt64]
      · rw [hread]
        simp [Except.map, hvalue]
      · simp
      · exact fun h => hplus (List.cons.inj h).1
      · exact fun h => hminus (List.cons.inj h).1
      · exact fun _ h => hminus (List.cons.inj h).1
      · exact fun _ h => hplus (List.cons.inj h).1

theorem intDigits_no_blank (i : Int) : ∀ c ∈ intDigits i, isBlank c = false := by
  have hdigit : ∀ c ∈ digits i.natAbs, isBlank c = false :=
    fun c hc => isBlank_of_isDigit (isDigit_of_mem_digits _ c hc)
  intro c hc
  unfold intDigits at hc
  split at hc
  · rcases List.mem_cons.mp hc with rfl | hc
    · decide
    · exact hdigit c hc
  · exact hdigit c hc

end Reading

end HeatingControl.Text
