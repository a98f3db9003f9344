import HeatingControl.Text.Utf8
import Mathlib.Algebra.Group.Nat.Defs

/-!
# Encoded text reads back

The octets of a text spell its characters, without a flaw. Texts compare by their octets as they
compare by their characters.
-/
namespace HeatingControl.Utf8

private theorem toNat_ofNat {n : Nat} (h : n < 256) : (UInt8.ofNat n).toNat = n := by
  simp [UInt8.toNat_ofNat', Nat.mod_eq_of_lt h]

private theorem toNat_valid (c : Char) :
    c.val.toNat < 0xD800 ∨ 0xDFFF < c.val.toNat ∧ c.val.toNat < 0x110000 := c.valid

section Leads

variable {m : Nat}

private theorem lead_one (h : m < 0x80) : lead? m = some (0, 0x80, 0xBF, m) := by
  rw [lead?, if_pos h]

private theorem lead_two (h : 0xC2 ≤ m) (h' : m ≤ 0xDF) :
    lead? m = some (1, 0x80, 0xBF, m - 0xC0) := by
  rw [lead?, if_neg (by omega), if_pos ⟨h, h'⟩]

/-- The second octet of three tells longer forms and surrogates apart. -/
private theorem lead_three (h : 0xE0 ≤ m) (h' : m ≤ 0xEF) :
    lead? m = some (2, if m = 0xE0 then 0xA0 else 0x80, if m = 0xED then 0x9F else 0xBF,
      m - 0xE0) := by
  have hall : ∀ d < 16, lead? (0xE0 + d) = some (2, if 0xE0 + d = 0xE0 then 0xA0 else 0x80,
      if 0xE0 + d = 0xED then 0x9F else 0xBF, 0xE0 + d - 0xE0) := by decide
  obtain ⟨d, rfl⟩ := Nat.exists_eq_add_of_le h
  exact hall d (by omega)

private theorem lead_four (h : 0xF0 ≤ m) (h' : m ≤ 0xF4) :
    lead? m = some (3, if m = 0xF0 then 0x90 else 0x80, if m = 0xF4 then 0x8F else 0xBF,
      m - 0xF0) := by
  have hall : ∀ d < 5, lead? (0xF0 + d) = some (3, if 0xF0 + d = 0xF0 then 0x90 else 0x80,
      if 0xF0 + d = 0xF4 then 0x8F else 0xBF, 0xF0 + d - 0xF0) := by decide
  obtain ⟨d, rfl⟩ := Nat.exists_eq_add_of_le h
  exact hall d (by omega)

end Leads

private theorem symbols_lead {m n lo hi acc : Nat} (hm : m < 256)
    (h : lead? m = some (n, lo, hi, acc)) (rest : Bytes) :
    symbols (UInt8.ofNat m :: rest) =
      (finish n lo hi acc rest).1 :: symbols (finish n lo hi acc rest).2 := by
  rw [symbols]
  simp only [toNat_ofNat hm, h]

private theorem finish_cons {n lo hi acc m : Nat} {rest : Bytes} (hm : m < 256)
    (h : lo ≤ m ∧ m ≤ hi) :
    finish (n + 1) lo hi acc (UInt8.ofNat m :: rest) =
      finish n 0x80 0xBF (acc * 64 + (m - 0x80)) rest := by
  simp only [finish, toNat_ofNat hm, if_pos h]

theorem symbols_encodeChar (c : Char) (rest : Bytes) :
    symbols (String.utf8EncodeChar c ++ rest) = some c :: symbols rest := by
  have hv := toNat_valid c
  have hchar : ∀ n, n = c.val.toNat → Char.ofNat n = c := by
    rintro _ rfl
    exact Char.ofNat_toNat c
  unfold String.utf8EncodeChar
  generalize c.val.toNat = v at hv hchar
  dsimp only
  split
  · rw [List.cons_append, symbols_lead (by omega) (lead_one (by omega)), finish]
    simp only [hchar v rfl, List.nil_append]
  split
  · rw [List.cons_append, symbols_lead (by omega) (lead_two (by omega) (by omega)),
      List.cons_append, finish_cons (by omega) (by omega), finish]
    simp only [List.nil_append]
    rw [hchar _ (by omega)]
  split
  · rw [List.cons_append, symbols_lead (by omega) (lead_three (by omega) (by omega)),
      List.cons_append, finish_cons (by omega) (by split <;> split <;> omega),
      List.cons_append, finish_cons (by omega) (by omega), finish]
    simp only [List.nil_append]
    rw [hchar _ (by omega)]
  · rw [List.cons_append, symbols_lead (by omega) (lead_four (by omega) (by omega)),
      List.cons_append, finish_cons (by omega) (by split <;> split <;> omega),
      List.cons_append, finish_cons (by omega) (by omega),
      List.cons_append, finish_cons (by omega) (by omega), finish]
    simp only [List.nil_append]
    rw [hchar _ (by omega)]

theorem symbols_encode (s : String) : symbols (encode s) = s.toList.map some := by
  have hlist : ∀ cs : List Char, symbols (cs.flatMap String.utf8EncodeChar) = cs.map some := by
    intro cs
    induction cs with
    | nil => simp [symbols]
    | cons c cs ih => rw [List.flatMap_cons, symbols_encodeChar, ih, List.map_cons]
  exact hlist s.toList

@[simp] theorem decodeLossy_encode (s : String) : decodeLossy (encode s) = s := by
  simp [decodeLossy, symbols_encode, Function.comp_def]

theorem mapM_id_map_some {α : Type} (l : List α) : (l.map some).mapM id = some l := by
  induction l with
  | nil => rfl
  | cons a l ih => simp [List.mapM_cons, ih]

@[simp] theorem decode?_encode (s : String) : decode? (encode s) = some s := by
  rw [decode?, symbols_encode, mapM_id_map_some, Option.map_some, String.ofList_toList]

theorem encodeChar_cases (c : Char) :
    (c.toNat < 128 ∧ String.utf8EncodeChar c = [UInt8.ofNat c.toNat]) ∨
      (128 ≤ c.toNat ∧ String.utf8EncodeChar c ≠ [] ∧
        ∀ b ∈ String.utf8EncodeChar c, 128 ≤ b.toNat) := by
  by_cases hc : c.toNat < 128
  · left
    have hle : c.val.toNat ≤ 0x7F := Nat.le_of_lt_succ hc
    rw [String.utf8EncodeChar, if_pos hle]
    exact ⟨hc, rfl⟩
  · right
    have hv := toNat_valid c
    have hge : 128 ≤ c.val.toNat := Nat.not_lt.mp hc
    refine ⟨hge, ?_⟩
    unfold String.utf8EncodeChar
    generalize c.val.toNat = v at hv hge
    have hhigh : ∀ n, 128 ≤ n → n < 256 → 128 ≤ (UInt8.ofNat n).toNat := by
      intro n hn hlt
      rw [toNat_ofNat hlt]
      exact hn
    dsimp only
    split
    · omega
    split
    · simp only [List.mem_cons, List.not_mem_nil, or_false, forall_eq_or_imp, forall_eq]
      exact ⟨by simp, hhigh _ (by omega) (by omega), hhigh _ (by omega) (by omega)⟩
    split
    · simp only [List.mem_cons, List.not_mem_nil, or_false, forall_eq_or_imp, forall_eq]
      exact ⟨by simp, hhigh _ (by omega) (by omega), hhigh _ (by omega) (by omega),
        hhigh _ (by omega) (by omega)⟩
    · simp only [List.mem_cons, List.not_mem_nil, or_false, forall_eq_or_imp, forall_eq]
      exact ⟨by simp, hhigh _ (by omega) (by omega), hhigh _ (by omega) (by omega),
        hhigh _ (by omega) (by omega), hhigh _ (by omega) (by omega)⟩

theorem encodeChar_length_pos (c : Char) : 0 < (String.utf8EncodeChar c).length := by
  rcases encodeChar_cases c with ⟨-, hbytes⟩ | ⟨-, hne, -⟩
  · rw [hbytes]
    exact Nat.one_pos
  · exact List.length_pos_iff.mpr hne

theorem mem_encode_ascii {cs : List Char} {b : UInt8} (h : b ∈ cs.flatMap String.utf8EncodeChar)
    (hb : b.toNat < 128) : ∃ c ∈ cs, c.toNat < 128 ∧ b = UInt8.ofNat c.toNat := by
  obtain ⟨c, hc, hmem⟩ := List.mem_flatMap.mp h
  rcases encodeChar_cases c with ⟨hlt, hbytes⟩ | ⟨-, -, hbytes⟩
  · rw [hbytes] at hmem
    exact ⟨c, hc, hlt, List.mem_singleton.mp hmem⟩
  · have := hbytes b hmem
    omega

theorem encode_ascii {cs : List Char} (h : ∀ c ∈ cs, c.toNat < 128) :
    encode (String.ofList cs) = cs.map fun c => UInt8.ofNat c.toNat := by
  rw [encode, String.toList_ofList]
  induction cs with
  | nil => rfl
  | cons c cs ih =>
    obtain ⟨hc, hcs⟩ := List.forall_mem_cons.mp h
    rcases encodeChar_cases c with ⟨-, hchar⟩ | ⟨hge, -⟩
    · rw [List.flatMap_cons, hchar, ih hcs]
      rfl
    · omega

theorem length_le (s : String) : s.toList.length ≤ s.utf8ByteSize := by
  have hlist : ∀ cs : List Char, cs.length ≤ (String.ofList cs).utf8ByteSize := by
    intro cs
    induction cs with
    | nil => exact Nat.zero_le _
    | cons c cs ih =>
      have hpos := Char.utf8Size_pos c
      rw [String.ofList_cons, String.utf8ByteSize_append, String.utf8ByteSize_singleton,
        List.length_cons]
      omega
  have h := hlist s.toList
  rwa [String.ofList_toList] at h

theorem length_of_ascii {s : String} (h : ∀ c ∈ s.toList, c.toNat < 128) :
    s.utf8ByteSize = s.toList.length := by
  have hlist : ∀ cs : List Char, (∀ c ∈ cs, c.toNat < 128) →
      (String.ofList cs).utf8ByteSize = cs.length := by
    intro cs
    induction cs with
    | nil => exact fun _ => rfl
    | cons c cs ih =>
      intro hcs
      obtain ⟨hc, hcs⟩ := List.forall_mem_cons.mp hcs
      have hone : c.utf8Size = 1 := by
        have hval : c.val ≤ 0x7F := UInt32.le_iff_toNat_le.mpr (Nat.le_of_lt_succ hc)
        exact if_pos hval
      rw [String.ofList_cons, String.utf8ByteSize_append, String.utf8ByteSize_singleton,
        List.length_cons, ih hcs, hone, Nat.add_comm]
  have hs := hlist s.toList h
  rwa [String.ofList_toList] at hs

section Lengths

/-- What `n` more octets add to the bits of a first one. -/
private theorem finish_some {n lo hi acc : Nat} {bs rest : Bytes} {c : Char} (hlo : 0x80 ≤ lo)
    (hhi : hi ≤ 0xBF) (h : finish n lo hi acc bs = (some c, rest)) :
    rest.length + n = bs.length ∧ ∃ m < (acc + 1) * 64 ^ n, c = Char.ofNat m := by
  induction n generalizing lo hi acc bs with
  | zero =>
    simp only [finish, Prod.mk.injEq, Option.some.injEq] at h
    obtain ⟨rfl, rfl⟩ := h
    exact ⟨rfl, acc, by omega, rfl⟩
  | succ n ih =>
    cases bs with
    | nil => simp [finish] at h
    | cons b bs =>
      simp only [finish] at h
      split at h
      · rename_i hrange
        obtain ⟨hlength, m, hm, rfl⟩ := ih (Nat.le_refl _) (Nat.le_refl _) h
        refine ⟨by simp only [List.length_cons]; omega, m, ?_, rfl⟩
        have hbits : acc * 64 + (b.toNat - 0x80) + 1 ≤ (acc + 1) * 64 := by omega
        calc m < (acc * 64 + (b.toNat - 0x80) + 1) * 64 ^ n := hm
          _ ≤ (acc + 1) * 64 * 64 ^ n := Nat.mul_le_mul_right _ hbits
          _ = (acc + 1) * 64 ^ (n + 1) := by rw [Nat.mul_assoc, Nat.pow_succ, Nat.mul_comm 64]
      · cases h

private theorem toNat_char_ofNat_le (m : Nat) : (Char.ofNat m).val.toNat ≤ m := by
  by_cases hm : m.isValidChar
  · rw [Char.ofNat, dif_pos hm]
    exact Nat.le_refl _
  · rw [Char.ofNat, dif_neg hm]
    exact Nat.zero_le _

private theorem length_encodeChar_le {c : Char} {n : Nat} (hone : n = 0 → c.val.toNat < 0x80)
    (htwo : n = 1 → c.val.toNat < 0x800) (hthree : n = 2 → c.val.toNat < 0x10000) :
    (String.utf8EncodeChar c).length ≤ n + 1 := by
  unfold String.utf8EncodeChar
  generalize c.val.toNat = v at hone htwo hthree
  dsimp only
  split
  · simp
  split
  · simp only [List.length_cons, List.length_nil]
    omega
  split
  · simp only [List.length_cons, List.length_nil]
    omega
  · simp only [List.length_cons, List.length_nil]
    omega

private theorem lead_bits {b n lo hi acc : Nat} (h : lead? b = some (n, lo, hi, acc)) :
    0x80 ≤ lo ∧ hi ≤ 0xBF ∧ (n = 0 → acc < 0x80) ∧ (n = 1 → acc < 0x20) ∧ (n = 2 → acc < 0x10) := by
  unfold lead? at h
  repeat' split at h
  all_goals cases h
  all_goals omega

theorem length_of_symbols {bs : Bytes} {cs : List Char} (h : (symbols bs).mapM id = some cs) :
    (cs.flatMap String.utf8EncodeChar).length ≤ bs.length := by
  induction bs using symbols.induct generalizing cs with
  | case1 =>
    simp [symbols] at h
    subst h
    exact Nat.le_refl _
  | case2 b rest hlead ih =>
    rw [symbols, hlead] at h
    simp at h
  | case3 b rest n lo hi acc hlead ih =>
    obtain ⟨hlo, hhi, hone, htwo, hthree⟩ := lead_bits hlead
    rw [symbols] at h
    simp only [hlead] at h
    cases hfinish : finish n lo hi acc rest with
    | mk o left =>
      rw [hfinish] at h ih
      cases o with
      | none => simp [List.mapM_cons] at h
      | some c =>
        obtain ⟨hlength, m, hm, hc⟩ := finish_some hlo hhi hfinish
        obtain ⟨ds, hds, rfl⟩ : ∃ ds, (symbols left).mapM id = some ds ∧ c :: ds = cs := by
          simpa [List.mapM_cons, Option.bind_eq_some_iff] using h
        have hrest : _ ≤ left.length := ih hds
        have hvalue : c.val.toNat ≤ m := by
          rw [hc]
          exact toNat_char_ofNat_le m
        have hchar : (String.utf8EncodeChar c).length ≤ n + 1 := by
          apply length_encodeChar_le
          · rintro rfl
            have := hone rfl
            omega
          · rintro rfl
            have := htwo rfl
            omega
          · rintro rfl
            have := hthree rfl
            omega
        rw [List.flatMap_cons, List.length_append, List.length_cons]
        omega

theorem length_of_decode? {bs : Bytes} {s : String} (h : decode? bs = some s) :
    (encode s).length ≤ bs.length := by
  obtain ⟨cs, hcs, rfl⟩ := Option.map_eq_some_iff.mp h
  rw [encode, String.toList_ofList]
  exact length_of_symbols hcs

/-- A text that is left of another one is the whole of it or takes fewer octets. -/
theorem eq_or_length_lt {l cs : List Char} (h : l.Sublist cs) :
    l = cs ∨
      (l.flatMap String.utf8EncodeChar).length < (cs.flatMap String.utf8EncodeChar).length := by
  induction h with
  | slnil => exact Or.inl rfl
  | cons c h ih =>
    right
    have hc := encodeChar_length_pos c
    rw [List.flatMap_cons, List.length_append]
    rcases ih with rfl | ih
    · omega
    · omega
  | cons_cons c h ih =>
    rw [List.flatMap_cons, List.flatMap_cons, List.length_append, List.length_append]
    rcases ih with rfl | ih
    · exact Or.inl rfl
    · exact Or.inr (by omega)

end Lengths

section Order

private theorem octet_lt {m n : Nat} {x y : Bytes} (hn : n < 256) (h : m < n ∨ m = n ∧ x < y) :
    UInt8.ofNat m :: x < UInt8.ofNat n :: y := by
  rw [List.cons_lt_cons_iff]
  rcases h with h | ⟨rfl, h⟩
  · left
    rw [UInt8.lt_iff_toNat_lt, toNat_ofNat (by omega), toNat_ofNat hn]
    exact h
  · exact Or.inr ⟨rfl, h⟩

section Forms

variable {v w : Nat} (h : v < w) (x y : Bytes)

include h

private theorem two_octets_lt (hw : w ≤ 0x7FF) :
    UInt8.ofNat (v / 64 % 32 + 192) :: UInt8.ofNat (v % 64 + 128) :: x <
      UInt8.ofNat (w / 64 % 32 + 192) :: UInt8.ofNat (w % 64 + 128) :: y := by
  apply octet_lt (by omega)
  by_cases hlead : v / 64 = w / 64
  · exact Or.inr ⟨by omega, octet_lt (by omega) (Or.inl (by omega))⟩
  · exact Or.inl (by omega)

private theorem three_octets_lt (hw : w ≤ 0xFFFF) :
    UInt8.ofNat (v / 4096 % 16 + 224) :: UInt8.ofNat (v / 64 % 64 + 128) ::
        UInt8.ofNat (v % 64 + 128) :: x <
      UInt8.ofNat (w / 4096 % 16 + 224) :: UInt8.ofNat (w / 64 % 64 + 128) ::
        UInt8.ofNat (w % 64 + 128) :: y := by
  apply octet_lt (by omega)
  by_cases hlead : v / 4096 = w / 4096
  · refine Or.inr ⟨by omega, octet_lt (by omega) ?_⟩
    by_cases hnext : v / 64 = w / 64
    · exact Or.inr ⟨by omega, octet_lt (by omega) (Or.inl (by omega))⟩
    · exact Or.inl (by omega)
  · exact Or.inl (by omega)

private theorem four_octets_lt (hw : w < 0x110000) :
    UInt8.ofNat (v / 262144 % 8 + 240) :: UInt8.ofNat (v / 4096 % 64 + 128) ::
        UInt8.ofNat (v / 64 % 64 + 128) :: UInt8.ofNat (v % 64 + 128) :: x <
      UInt8.ofNat (w / 262144 % 8 + 240) :: UInt8.ofNat (w / 4096 % 64 + 128) ::
        UInt8.ofNat (w / 64 % 64 + 128) :: UInt8.ofNat (w % 64 + 128) :: y := by
  apply octet_lt (by omega)
  by_cases hlead : v / 262144 = w / 262144
  · refine Or.inr ⟨by omega, octet_lt (by omega) ?_⟩
    by_cases hnext : v / 4096 = w / 4096
    · refine Or.inr ⟨by omega, octet_lt (by omega) ?_⟩
      by_cases hthird : v / 64 = w / 64
      · exact Or.inr ⟨by omega, octet_lt (by omega) (Or.inl (by omega))⟩
      · exact Or.inl (by omega)
    · exact Or.inl (by omega)
  · exact Or.inl (by omega)

end Forms

/-- The first octet tells forms of different lengths apart. In forms of one length the octets hold
the bits of the number from the highest on. -/
theorem encodeChar_append_lt {c d : Char} (h : c < d) (x y : Bytes) :
    String.utf8EncodeChar c ++ x < String.utf8EncodeChar d ++ y := by
  have hlt : c.val.toNat < d.val.toNat := h
  have hd : d.val.toNat < 0x110000 := by
    have := toNat_valid d
    omega
  unfold String.utf8EncodeChar
  generalize c.val.toNat = v at hlt
  generalize d.val.toNat = w at hlt hd
  dsimp only
  split
  · split
    · exact octet_lt (by omega) (Or.inl hlt)
    split
    · exact octet_lt (by omega) (Or.inl (by omega))
    split
    · exact octet_lt (by omega) (Or.inl (by omega))
    · exact octet_lt (by omega) (Or.inl (by omega))
  split
  · rw [if_neg (by omega)]
    split
    · exact two_octets_lt hlt x y (by omega)
    split
    · exact octet_lt (by omega) (Or.inl (by omega))
    · exact octet_lt (by omega) (Or.inl (by omega))
  split
  · rw [if_neg (by omega), if_neg (by omega)]
    split
    · exact three_octets_lt hlt x y (by omega)
    · exact octet_lt (by omega) (Or.inl (by omega))
  · rw [if_neg (by omega), if_neg (by omega), if_neg (by omega)]
    exact four_octets_lt hlt x y hd

theorem encode_lt {s t : String} (h : s < t) : encode s < encode t := by
  have hlist : ∀ cs ds : List Char, cs < ds →
      cs.flatMap String.utf8EncodeChar < ds.flatMap String.utf8EncodeChar := by
    intro cs ds hcs
    induction hcs with
    | @nil d ds =>
      obtain ⟨b, rest, hd⟩ := List.exists_cons_of_length_pos (encodeChar_length_pos d)
      rw [List.flatMap_cons, hd]
      exact List.nil_lt_cons ..
    | rel hcd => exact encodeChar_append_lt hcd _ _
    | cons _ ih => exact List.append_left_lt ih
  exact hlist _ _ (String.lt_iff.mp h)

theorem encode_lt_iff {s t : String} : encode s < encode t ↔ s < t := by
  constructor
  · intro h
    by_cases hst : s < t
    · exact hst
    exfalso
    by_cases hts : t < s
    · exact List.lt_asymm h (encode_lt hts)
    · have hsame : s = t := String.le_antisymm (String.not_lt.mp hts) (String.not_lt.mp hst)
      subst hsame
      exact List.lt_irrefl _ h
  · exact encode_lt

end Order

end HeatingControl.Utf8
