import HeatingControl.Http.Form
import HeatingControl.Proofs.Http.Percent
import HeatingControl.Proofs.Text.Cut

/-!
# Written forms read back

Whatever the names and values of a form hold, it is read as the same fields in the same order.
-/
namespace HeatingControl.Form

open Percent (octetOf charOf octetOf_not_mem)

def writeOctet (b : UInt8) : List Char := if b = 0x20 then ['+'] else Percent.encode admits [b]

theorem writePart_eq (s : String) : writePart s = (Utf8.encode s).flatMap writeOctet := rfl

theorem writeOctet_admitted {b : UInt8} (hspace : b ≠ 0x20) (h : admits b = true) :
    writeOctet b = [charOf b] := by
  simp [writeOctet, hspace, Percent.encode, h]

theorem writeOctet_escaped {b : UInt8} (hspace : b ≠ 0x20) (h : admits b = false) :
    writeOctet b = Percent.escaped b := by
  simp [writeOctet, hspace, Percent.encode, h]

theorem admits_ascii {b : UInt8} (h : admits b = true) : b.toNat < 128 := by
  simp only [admits, isWordOctet, Bool.or_eq_true, beq_iff_eq] at h
  rcases h with ((h | rfl) | rfl) | rfl
  · rcases h with h | rfl
    · have := Percent.toNat_lt_of_isWordChar h
      rwa [Percent.toNat_charOf] at this
    · decide
  · decide
  · decide
  · decide

theorem writeOctet_chars (b : UInt8) :
    ∀ c ∈ writeOctet b, c.toNat < 128 ∧ c ≠ '&' ∧ c ≠ '=' := by
  intro c hc
  by_cases hspace : b = 0x20
  · obtain rfl : c = '+' := by simpa [writeOctet, hspace] using hc
    decide
  by_cases hadmits : admits b = true
  · rw [writeOctet_admitted hspace hadmits, List.mem_singleton] at hc
    subst hc
    refine ⟨?_, ?_, ?_⟩
    · rw [Percent.toNat_charOf]
      exact admits_ascii hadmits
    · intro h
      exact Text.ne_of_kind hadmits (show admits 0x26 = false by decide)
        (by rw [← Percent.octetOf_charOf b, h]; rfl)
    · intro h
      exact Text.ne_of_kind hadmits (show admits 0x3D = false by decide)
        (by rw [← Percent.octetOf_charOf b, h]; rfl)
  · rw [writeOctet_escaped hspace (by simpa using hadmits)] at hc
    have hdigit : ∀ d < 16, Percent.capitalDigit d ≠ '&' ∧ Percent.capitalDigit d ≠ '=' := by
      decide
    have hb := b.toNat_lt
    refine ⟨Percent.escaped_ascii b c hc, ?_⟩
    simp only [Percent.escaped, List.mem_cons, List.not_mem_nil, or_false] at hc
    rcases hc with rfl | rfl | rfl
    · decide
    · exact hdigit _ (by omega)
    · exact hdigit _ (by omega)

def unplussed (b : UInt8) : UInt8 := if b = 0x2B then 0x20 else b

theorem decode_writeOctet (b : UInt8) (rest : Bytes) :
    Percent.decode (((writeOctet b).map octetOf).map unplussed ++ rest) =
      b :: Percent.decode rest := by
  by_cases hspace : b = 0x20
  · subst hspace
    exact Percent.decode_cons (by decide) rest
  by_cases hadmits : admits b = true
  · have hplus := Text.ne_of_kind hadmits (show admits 0x2B = false by decide)
    have hpercent := Text.ne_of_kind hadmits (show admits 0x25 = false by decide)
    rw [writeOctet_admitted hspace hadmits, List.map_singleton, Percent.octetOf_charOf,
      List.map_singleton, unplussed, if_neg hplus]
    exact Percent.decode_cons hpercent rest
  · have hdigit : ∀ d < 16, unplussed (octetOf (Percent.capitalDigit d)) =
        octetOf (Percent.capitalDigit d) := by decide
    have hb := b.toNat_lt
    have hkept : ((Percent.escaped b).map octetOf).map unplussed =
        (Percent.escaped b).map octetOf := by
      simp only [Percent.escaped, List.map_cons, List.map_nil, hdigit (b.toNat / 16) (by omega),
        hdigit (b.toNat % 16) (by omega)]
      rfl
    rw [writeOctet_escaped hspace (by simpa using hadmits), hkept, Percent.decode_escaped]

theorem readPart_writePart (s : String) : readPart ((writePart s).map octetOf) = s := by
  have hdecode : ∀ bs : Bytes,
      Percent.decode (((bs.flatMap writeOctet).map octetOf).map unplussed) = bs := by
    intro bs
    induction bs with
    | nil => simp [Percent.decode]
    | cons b bs ih =>
      rw [List.flatMap_cons, List.map_append, List.map_append, decode_writeOctet, ih]
  have hread := hdecode (Utf8.encode s)
  rw [readPart, writePart_eq]
  change Utf8.decodeLossy (Percent.decode (List.map unplussed _)) = s
  rw [hread, Utf8.decodeLossy_encode]

theorem writePart_chars (s : String) :
    ∀ c ∈ writePart s, c.toNat < 128 ∧ c ≠ '&' ∧ c ≠ '=' := by
  intro c hc
  rw [writePart_eq] at hc
  obtain ⟨b, -, hb⟩ := List.mem_flatMap.mp hc
  exact writeOctet_chars b c hb

theorem readField_writeField (f : String × String) :
    readField ((writeField f).map octetOf) = f := by
  have hname : octetOf '=' ∉ (writePart f.1).map octetOf :=
    octetOf_not_mem (fun c hc => ⟨(writePart_chars _ c hc).1, (writePart_chars _ c hc).2.2⟩)
      (by decide)
  have hcut := Text.cutFirst_append hname ((writePart f.2).map octetOf)
  rw [writeField, List.map_append, List.map_cons, readField]
  simp only [show (0x3D : UInt8) = octetOf '=' from rfl, hcut, readPart_writePart]

theorem writeField_chars (f : String × String) :
    writeField f ≠ [] ∧ ∀ c ∈ writeField f, c.toNat < 128 ∧ c ≠ '&' := by
  refine ⟨by simp [writeField], fun c hc => ?_⟩
  rcases List.mem_append.mp hc with hc | hc
  · have := writePart_chars _ c hc
    exact ⟨this.1, this.2.1⟩
  · rcases List.mem_cons.mp hc with rfl | hc
    · decide
    · have := writePart_chars _ c hc
      exact ⟨this.1, this.2.1⟩

theorem encode_write (fields : List (String × String)) : Utf8.encode (write fields) =
    (List.intercalate ['&'] (fields.map writeField)).map octetOf := by
  have hascii : ∀ c ∈ List.intercalate ['&'] (fields.map writeField), c.toNat < 128 := by
    intro c hc
    rcases Text.mem_intercalate hc with rfl | ⟨p, hp, hc⟩
    · decide
    · obtain ⟨f, -, rfl⟩ := List.mem_map.mp hp
      exact ((writeField_chars f).2 c hc).1
  exact Utf8.encode_ascii hascii

theorem read_write (fields : List (String × String)) :
    read (Utf8.encode (write fields)) = fields := by
  have hparts : ∀ p ∈ (fields.map writeField).map (List.map octetOf), octetOf '&' ∉ p ∧ p ≠ [] := by
    intro p hp
    obtain ⟨_, hfield, rfl⟩ := List.mem_map.mp hp
    obtain ⟨f, -, rfl⟩ := List.mem_map.mp hfield
    obtain ⟨hne, hchars⟩ := writeField_chars f
    exact ⟨octetOf_not_mem hchars (by decide), by simpa using hne⟩
  have hfilled : ((fields.map writeField).map (List.map octetOf)).filter (fun p => !p.isEmpty) =
      (fields.map writeField).map (List.map octetOf) :=
    List.filter_eq_self.mpr fun p hp => by simpa using (hparts p hp).2
  rw [encode_write]
  change List.map readField (List.filter _ (Text.cutAll (octetOf '&') (List.map octetOf _))) = _
  rw [Text.map_intercalate]
  cases hfields : fields with
  | nil => rfl
  | cons f rest =>
    rw [← hfields, Text.cutAll_intercalate (fun p hp => (hparts p hp).1) (by simp [hfields]),
      hfilled, List.map_map, List.map_map]
    exact List.map_id'' readField_writeField fields

theorem length_value_le {fields : List (String × String)} {f : String × String}
    (h : f ∈ fields) : (writePart f.2).length ≤ (Utf8.encode (write fields)).length := by
  rw [encode_write, List.length_map]
  have hpart : (writePart f.2).length ≤ (writeField f).length := by
    rw [writeField, List.length_append, List.length_cons]
    omega
  have hjoined : (writeField f).length ≤
      (List.intercalate ['&'] (fields.map writeField)).length :=
    (Text.infix_intercalate (List.mem_map_of_mem h)).length_le
  exact hpart.trans hjoined

/-- A mark that a form has an escape for takes three octets. -/
theorem length_writePart_replicate {c : Char} (hascii : c.toNat < 128) (hspace : c ≠ ' ')
    (h : admits (octetOf c) = false) (n : Nat) :
    (writePart (String.ofList (List.replicate n c))).length = 3 * n := by
  have hchars : ∀ d ∈ List.replicate n c, d.toNat < 128 := by
    intro d hd
    rw [List.eq_of_mem_replicate hd]
    exact hascii
  have hoctet : octetOf c ≠ 0x20 := fun hc =>
    hspace (Percent.octetOf_inj (d := ' ') hascii (by decide) hc)
  rw [writePart_eq, Utf8.encode_ascii hchars]
  change ((List.map octetOf _).flatMap writeOctet).length = _
  rw [List.map_replicate, List.length_flatMap, List.map_replicate, List.sum_replicate_nat,
    writeOctet_escaped hoctet h]
  exact Nat.mul_comm n 3

end HeatingControl.Form
