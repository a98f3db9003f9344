import HeatingControl.Http.Percent
import HeatingControl.Proofs.Text.Utf8

/-!
# Percent-encoded octets are decoded

Whatever a place admits, its encoding is undone as long as it does not admit the percent sign.
-/
namespace HeatingControl.Percent

open Text (isWordChar isDigit)

theorem toNat_lt_of_isWordChar {c : Char} (h : isWordChar c = true) : c.toNat < 128 := by
  have h9 : '9'.toNat = 57 := rfl
  have hz : 'z'.toNat = 122 := rfl
  have hZ : 'Z'.toNat = 90 := rfl
  simp only [isWordChar, isDigit, Char.le_def, Bool.or_eq_true, Bool.and_eq_true,
    decide_eq_true_eq, UInt32.le_iff_toNat_le, Char.toNat_val] at h
  omega

def octetOf (c : Char) : UInt8 := UInt8.ofNat c.toNat

theorem toNat_charOf (b : UInt8) : (charOf b).toNat = b.toNat := by
  have hb := b.toNat_lt
  have hvalid : b.toNat.isValidChar := Or.inl (by omega)
  rw [charOf, Char.ofNat, dif_pos hvalid]
  rfl

@[simp] theorem octetOf_charOf (b : UInt8) : octetOf (charOf b) = b := by
  rw [octetOf, toNat_charOf, UInt8.ofNat_toNat]

theorem octetOf_inj {c d : Char} (hc : c.toNat < 128) (hd : d.toNat < 128)
    (h : octetOf c = octetOf d) : c = d := by
  have hvalue := congrArg UInt8.toNat h
  simp only [octetOf, UInt8.toNat_ofNat', Nat.mod_eq_of_lt (show c.toNat < 2 ^ 8 by omega),
    Nat.mod_eq_of_lt (show d.toNat < 2 ^ 8 by omega)] at hvalue
  rw [← Char.ofNat_toNat c, hvalue, Char.ofNat_toNat]

theorem octetOf_not_mem {cs : List Char} {d : Char} (hcs : ∀ c ∈ cs, c.toNat < 128 ∧ c ≠ d)
    (hd : d.toNat < 128) : octetOf d ∉ cs.map octetOf := by
  intro hmem
  obtain ⟨c, hc, h⟩ := List.mem_map.mp hmem
  exact (hcs c hc).2 (octetOf_inj (hcs c hc).1 hd h)

theorem charOf_octetOf {c : Char} (h : c.toNat < 128) : charOf (octetOf c) = c := by
  rw [charOf, octetOf, UInt8.toNat_ofNat', Nat.mod_eq_of_lt (by omega), Char.ofNat_toNat]

theorem decode_cons {b : UInt8} (h : b ≠ 0x25) (rest : Bytes) :
    decode (b :: rest) = b :: decode rest := by
  rw [decode]
  rintro high low tail rfl
  exact absurd rfl h

theorem decode_of_not_mem {bs : Bytes} (h : 0x25 ∉ bs) : decode bs = bs := by
  induction bs with
  | nil => simp [decode]
  | cons b bs ih =>
    obtain ⟨hb, hbs⟩ := not_or.mp (fun hmem => h (List.mem_cons.mpr hmem))
    rw [decode_cons (Ne.symm hb), ih hbs]

theorem octet?_escaped (b : UInt8) :
    octet? (octetOf (capitalDigit (b.toNat / 16))) (octetOf (capitalDigit (b.toNat % 16))) =
      some b := by
  have hdigit : ∀ d < 16, Text.hexValue? (charOf (octetOf (capitalDigit d))) = some d := by decide
  have hb := b.toNat_lt
  have hvalue : b.toNat / 16 * 16 + b.toNat % 16 = b.toNat := by omega
  simp only [octet?, hdigit (b.toNat / 16) (by omega), hdigit (b.toNat % 16) (by omega),
    Option.bind_eq_bind, Option.bind_some, hvalue, UInt8.ofNat_toNat]
  rfl

theorem decode_escaped (b : UInt8) (rest : Bytes) :
    decode ((escaped b).map octetOf ++ rest) = b :: decode rest := by
  have hpercent : octetOf '%' = 0x25 := rfl
  simp only [escaped, List.map_cons, List.map_nil, List.cons_append, List.nil_append, hpercent]
  rw [decode, octet?_escaped]

theorem escaped_ascii (b : UInt8) : ∀ c ∈ escaped b, c.toNat < 128 := by
  have hdigit : ∀ d < 16, (capitalDigit d).toNat < 128 := by decide
  have hb := b.toNat_lt
  intro c hc
  simp only [escaped, List.mem_cons, List.not_mem_nil, or_false] at hc
  rcases hc with rfl | rfl | rfl
  · decide
  · exact hdigit _ (by omega)
  · exact hdigit _ (by omega)

theorem encode_of_admitted {admits : UInt8 → Bool} {bs : Bytes} (h : ∀ b ∈ bs, admits b = true) :
    encode admits bs = bs.map charOf := by
  induction bs with
  | nil => rfl
  | cons b bs ih =>
    obtain ⟨hb, hbs⟩ := List.forall_mem_cons.mp h
    have hrest := ih hbs
    rw [encode] at hrest ⊢
    rw [List.flatMap_cons, if_pos hb, hrest]
    rfl

theorem decodeText?_of_plain {s : String} (h : ∀ c ∈ s.toList, c.toNat < 128 ∧ c ≠ '%') :
    decodeText? s = some s := by
  have hencoded : Utf8.encode s = s.toList.map octetOf := by
    rw [← String.ofList_toList (s := s), Utf8.encode_ascii, String.toList_ofList]
    · rfl
    · simpa using fun c hc => (h c (by simpa using hc)).1
  have hpercent : 0x25 ∉ Utf8.encode s := by
    rw [hencoded]
    exact octetOf_not_mem (d := '%') h (by decide)
  rw [decodeText?, decode_of_not_mem hpercent, Utf8.decode?_encode]

def octetAt? : Bytes → Option UInt8
  | high :: low :: _ => octet? high low
  | _ => none

theorem decode_percent_of_some {bs : Bytes} {b : UInt8} (h : octetAt? bs = some b) :
    decode (0x25 :: bs) = b :: decode (bs.drop 2) := by
  rcases bs with - | ⟨high, - | ⟨low, rest⟩⟩
  · cases h
  · cases h
  · rw [octetAt?] at h
    rw [decode, h]
    rfl

theorem decode_percent_of_none {bs : Bytes} (h : octetAt? bs = none) :
    decode (0x25 :: bs) = 0x25 :: decode bs := by
  rcases bs with - | ⟨high, - | ⟨low, rest⟩⟩
  · rfl
  · rfl
  · rw [octetAt?] at h
    rw [decode, h]

/-- Decoding leaves the octets as they are, or there are fewer of them. -/
theorem decode_eq_or_length_lt (bs : Bytes) : decode bs = bs ∨ (decode bs).length < bs.length := by
  induction bs using decode.induct with
  | case1 high low rest b hoctet ih =>
    right
    rw [decode, hoctet]
    simp only [List.length_cons]
    rcases ih with ih | ih
    · rw [ih]
      omega
    · omega
  | case2 high low rest hoctet ih =>
    rw [decode, hoctet]
    rcases ih with ih | ih
    · exact Or.inl (congrArg (0x25 :: ·) ih)
    · exact Or.inr (Nat.succ_lt_succ ih)
  | case3 b rest hother ih =>
    rw [decode]
    · rcases ih with ih | ih
      · exact Or.inl (congrArg (b :: ·) ih)
      · exact Or.inr (Nat.succ_lt_succ ih)
    · exact hother
  | case4 =>
    left
    rw [decode]

theorem decode_length_le (bs : Bytes) : (decode bs).length ≤ bs.length := by
  rcases decode_eq_or_length_lt bs with h | h
  · exact Nat.le_of_eq (congrArg List.length h)
  · exact Nat.le_of_lt h

theorem length_of_octetAt? {bs : Bytes} {b : UInt8} (h : octetAt? bs = some b) :
    2 ≤ bs.length := by
  rcases bs with - | ⟨high, - | ⟨low, rest⟩⟩
  · cases h
  · cases h
  · exact Nat.le_add_left ..

section Sending

variable {admits : UInt8 → Bool}

def octets (admits : UInt8 → Bool) (bs : Bytes) : Bytes := (encode admits bs).map octetOf

theorem octets_cons (b : UInt8) (bs : Bytes) :
    octets admits (b :: bs) =
      (if admits b then [b] else (escaped b).map octetOf) ++ octets admits bs := by
  rw [octets, encode, List.flatMap_cons, List.map_append]
  by_cases hb : admits b = true
  · simp [hb, octets, encode]
  · simp [hb, octets, encode]

theorem octets_cons_of_admitted {b : UInt8} (h : admits b = true) (bs : Bytes) :
    octets admits (b :: bs) = b :: octets admits bs := by
  rw [octets_cons, if_pos h]
  rfl

theorem octets_cons_of_refused {b : UInt8} (h : admits b = false) (bs : Bytes) :
    ∃ rest, octets admits (b :: bs) = 0x25 :: rest := by
  rw [octets_cons, if_neg (Bool.eq_false_iff.mp h)]
  exact ⟨_, rfl⟩

theorem octet?_some {high low b : UInt8} (h : octet? high low = some b) :
    (Text.hexValue? (charOf high)).isSome = true ∧ (Text.hexValue? (charOf low)).isSome = true := by
  unfold octet? at h
  cases hhigh : Text.hexValue? (charOf high) with
  | none => simp [hhigh] at h
  | some m =>
    cases hlow : Text.hexValue? (charOf low) with
    | none => simp [hhigh, hlow] at h
    | some n => exact ⟨rfl, rfl⟩

theorem octetAt?_percent (bs : Bytes) : octetAt? (0x25 :: bs) = none := by
  cases bs with
  | nil => rfl
  | cons low rest =>
    cases h : octetAt? (0x25 :: low :: rest) with
    | none => rfl
    | some b =>
      have hdigit := (octet?_some h).1
      exact absurd hdigit (by decide)

/-- Encoding brings no two digits together behind a percent sign that were not there. -/
theorem octetAt?_octets {bs : Bytes} (h : octetAt? bs = none) :
    octetAt? (octets admits bs) = none := by
  cases bs with
  | nil => rfl
  | cons high bs =>
    by_cases hhigh : admits high = true
    · rw [octets_cons_of_admitted hhigh]
      cases bs with
      | nil => rfl
      | cons low bs =>
        by_cases hlow : admits low = true
        · rw [octets_cons_of_admitted hlow]
          exact h
        · obtain ⟨rest, hrest⟩ := octets_cons_of_refused (Bool.eq_false_iff.mpr hlow) bs
          rw [hrest]
          cases hoctet : octetAt? (high :: 0x25 :: rest) with
          | none => rfl
          | some b =>
            have hdigit := (octet?_some hoctet).2
            exact absurd hdigit (by decide)
    · obtain ⟨rest, hrest⟩ := octets_cons_of_refused (Bool.eq_false_iff.mpr hhigh) bs
      rw [hrest]
      exact octetAt?_percent rest

theorem decode_octets_cons {b : UInt8} (hb : b ≠ 0x25) (bs : Bytes) :
    decode (octets admits (b :: bs)) = b :: decode (octets admits bs) := by
  rw [octets_cons]
  by_cases hadmits : admits b = true
  · rw [if_pos hadmits, List.singleton_append, decode_cons hb]
  · rw [if_neg hadmits, decode_escaped]

/-- Where percent signs and digits are sent as they are, what is decoded is what would be decoded
without encoding. -/
theorem decode_octets (hpercent : admits 0x25 = true)
    (hdigit : ∀ b, (Text.hexValue? (charOf b)).isSome = true → admits b = true) (bs : Bytes) :
    decode (octets admits bs) = decode bs := by
  induction bs using decode.induct with
  | case1 high low rest b hoctet ih =>
    obtain ⟨hhigh, hlow⟩ := octet?_some hoctet
    rw [octets_cons_of_admitted hpercent, octets_cons_of_admitted (hdigit high hhigh),
      octets_cons_of_admitted (hdigit low hlow), decode, decode, hoctet]
    simp only [ih]
  | case2 high low rest hoctet ih =>
    have hnone : octetAt? (high :: low :: rest) = none := hoctet
    rw [octets_cons_of_admitted hpercent, decode_percent_of_none (octetAt?_octets hnone),
      decode_percent_of_none hnone, ih]
  | case3 b rest hother ih =>
    by_cases hb : b = 0x25
    · have hnone : octetAt? rest = none := by
        rcases rest with - | ⟨high, - | ⟨low, rest⟩⟩
        · rfl
        · rfl
        · exact (hother high low rest hb rfl).elim
      rw [hb, octets_cons_of_admitted hpercent, decode_percent_of_none (octetAt?_octets hnone),
        decode_percent_of_none hnone, ih]
    · rw [decode_octets_cons hb, decode_cons hb, ih]
  | case4 => rfl

theorem mem_encode {bs : Bytes} {c : Char} (h : c ∈ encode admits bs) :
    (∃ b ∈ bs, admits b = true ∧ c = charOf b) ∨ c = '%' ∨ ∃ d < 16, c = capitalDigit d := by
  obtain ⟨b, hb, hc⟩ := List.mem_flatMap.mp h
  by_cases hadmits : admits b = true
  · rw [if_pos hadmits] at hc
    exact Or.inl ⟨b, hb, hadmits, List.mem_singleton.mp hc⟩
  · rw [if_neg hadmits] at hc
    have hlt := b.toNat_lt
    simp only [escaped, List.mem_cons, List.not_mem_nil, or_false] at hc
    rcases hc with rfl | rfl | rfl
    · exact Or.inr (Or.inl rfl)
    · exact Or.inr (Or.inr ⟨_, by omega, rfl⟩)
    · exact Or.inr (Or.inr ⟨_, by omega, rfl⟩)

theorem encode_text_octets (hadmits : ∀ b, admits b = true → b.toNat < 128) (bs : Bytes) :
    Utf8.encode (String.ofList (encode admits bs)) = octets admits bs := by
  rw [Utf8.encode_ascii]
  · rfl
  · intro c hc
    rcases mem_encode hc with ⟨b, -, hb, rfl⟩ | rfl | ⟨d, hd, rfl⟩
    · rw [toNat_charOf]
      exact hadmits b hb
    · decide
    · have hdigits : ∀ d < 16, (capitalDigit d).toNat < 128 := by decide
      exact hdigits d hd

end Sending

end HeatingControl.Percent
