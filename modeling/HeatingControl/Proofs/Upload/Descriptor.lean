import HeatingControl.Firmware
import Mathlib.Data.Nat.Digits.Lemmas

/-!
# What is read of a firmware image

Every octet that is looked at is there, whatever the image. A text ends at the first zero octet of
its field, so that nothing behind it counts.
-/
namespace HeatingControl.FirmwareImage

def slice? (bs : Bytes) (first last : Nat) : Option Bytes :=
  if first ≤ last ∧ last ≤ bs.length then some (range bs first last) else none

def littleEndian (bs : Bytes) : Nat := Nat.ofDigits 256 (bs.map UInt8.toNat)

-- The same reading, with nothing as its result as soon as it looks for octets that are not there.

def zeroEnded? (field : Bytes) : Option String :=
  (slice? field 0 (field.findIdx (· = 0))).map Utf8.decodeLossy

def fieldText? (d : Bytes) (first last : Nat) : Option String :=
  (slice? d first last).bind zeroEnded?

def readDescriptor? (d : Bytes) : Option (Except ValidationError AppDescriptor) := do
  let mark ← [0, 1, 2, 3].mapM fun i => d[i]?
  if littleEndian mark ≠ 0xABCD5432 then
    return .error (.invalidFirmware "app descriptor magic mismatch")
  else
    let version ← fieldText? d 16 48
    let projectName ← fieldText? d 48 80
    let time ← fieldText? d 80 96
    let date ← fieldText? d 96 112
    let frameworkVersion ← fieldText? d 112 144
    return .ok ⟨version, projectName, time, date, frameworkVersion⟩

def inspect? (bs : Bytes) : Option (Except ValidationError FirmwareImage) :=
  match bs.head? with
  | none => some (.error (.invalidFirmware "empty image"))
  | some magic =>
    if magic ≠ imageMagic then some (.error (.invalidFirmware "image magic mismatch"))
    else
      match slice? bs descriptorOffset (descriptorOffset + descriptorLength) with
      | none => some (.ok ⟨bs.length, none⟩)
      | some d => (readDescriptor? d).map fun r => r.map fun d => ⟨bs.length, some d⟩

/-- The text of a field is that of its octets before the first zero octet, or of all of them if
none is zero. -/
def Spelled (bs : Bytes) (first last : Nat) (text : String) : Prop :=
  ∃ stop, first ≤ stop ∧ stop ≤ last ∧ (∀ i, first ≤ i → i < stop → bs[i]? ≠ some 0) ∧
    (stop < last → bs[stop]? = some 0) ∧ text = Utf8.decodeLossy (bs.extract first stop)

/-- The descriptor of an image, by the places of its fields. -/
structure Carries (bs : Bytes) (d : AppDescriptor) : Prop where
  version : Spelled bs 48 80 d.version
  projectName : Spelled bs 80 112 d.projectName
  time : Spelled bs 112 128 d.time
  date : Spelled bs 128 144 d.date
  frameworkVersion : Spelled bs 144 176 d.frameworkVersion

/-- An image that is none: it is empty, or the mark of images or the one of descriptors is not in
its place. -/
def Refused (bs : Bytes) : Prop :=
  bs = [] ∨ (∃ b, bs[0]? = some b ∧ b ≠ 0xE9) ∨
    (288 ≤ bs.length ∧ littleEndian (bs.extract 32 36) ≠ 0xABCD5432)

/-- What an image is found to be. -/
structure Found (bs : Bytes) (image : FirmwareImage) : Prop where
  size : image.size = bs.length
  descriptor_isSome : image.descriptor.isSome = true ↔ 288 ≤ bs.length
  descriptor : ∀ d, image.descriptor = some d → Carries bs d

def fields : List (Nat × Nat) := [(48, 80), (80, 112), (112, 128), (128, 144), (144, 176)]

/-- A place in a field that no zero octet of the field stands before. -/
def Significant (bs : Bytes) (i : Nat) : Prop :=
  ∃ field ∈ fields, field.1 ≤ i ∧ i < field.2 ∧ ∀ j, field.1 ≤ j → j < i → bs[j]? ≠ some 0

section Ranges

variable {bs : Bytes} {first last : Nat}

theorem slice?_of_le (h : first ≤ last) (hlast : last ≤ bs.length) :
    slice? bs first last = some (range bs first last) :=
  if_pos ⟨h, hlast⟩

theorem slice?_of_lt (h : bs.length < last) : slice? bs first last = none := by
  apply if_neg
  omega

theorem length_range (h : last ≤ bs.length) : (range bs first last).length = last - first := by
  rw [range, List.length_take, List.length_drop]
  omega

theorem getElem?_range {i : Nat} (h : i < last - first) :
    (range bs first last)[i]? = bs[first + i]? := by
  rw [range, List.getElem?_take_of_lt h, List.getElem?_drop]

theorem range_range {i j : Nat} (h : first + j ≤ last) :
    range (range bs first last) i j = range bs (first + i) (first + j) := by
  have hshort : j - i ≤ last - first - i := by omega
  rw [range, range, range, List.drop_take, List.take_take, List.drop_drop, Nat.min_eq_left hshort,
    Nat.add_sub_add_left]

theorem littleEndian_inj {bs other : Bytes} (hlength : bs.length = other.length)
    (h : littleEndian bs = littleEndian other) : bs = other := by
  have hoctets : ∀ bs : Bytes, ∀ n ∈ bs.map UInt8.toNat, n < 256 := by
    intro bs n hn
    obtain ⟨b, -, rfl⟩ := List.mem_map.mp hn
    exact b.toNat_lt
  have hvalues : bs.map UInt8.toNat = other.map UInt8.toNat := by
    refine Nat.ofDigits_inj_of_len_eq (by decide) ?_ (hoctets bs) (hoctets other) h
    rw [List.length_map, List.length_map, hlength]
  exact List.map_injective_iff.mpr (fun _ _ => UInt8.toNat_inj.mp) hvalues

end Ranges

section InBounds

variable {d : Bytes}

theorem zeroEnded?_eq (field : Bytes) : zeroEnded? field = some (zeroEnded field) := by
  have hstop : field.findIdx (· = 0) ≤ field.length := List.findIdx_le_length
  have hnot : (fun b : UInt8 => decide (b ≠ 0)) = fun b => !decide (b = 0) := by
    funext b
    exact decide_not
  rw [zeroEnded?, slice?_of_le (Nat.zero_le _) hstop, zeroEnded, hnot,
    List.takeWhile_eq_take_findIdx_not]
  simp only [Bool.not_not, range, List.drop_zero, Nat.sub_zero, Option.map_some]

theorem fieldText?_eq {first last : Nat} (h : first ≤ last) (hlast : last ≤ d.length) :
    fieldText? d first last = some (zeroEnded (range d first last)) := by
  rw [fieldText?, slice?_of_le h hlast, Option.bind_some, zeroEnded?_eq]

theorem mark_eq (h : 4 ≤ d.length) : [0, 1, 2, 3].mapM (fun i => d[i]?) = some (d.take 4) := by
  rcases d with _ | ⟨a, _ | ⟨b, _ | ⟨c, _ | ⟨e, rest⟩⟩⟩⟩
  · simp at h
  · simp at h
  · simp at h
  · simp at h
  · rfl

theorem mark_iff (h : 4 ≤ d.length) : littleEndian (d.take 4) = 0xABCD5432 ↔
    d.take 4 = descriptorMagic := by
  have hvalue : littleEndian descriptorMagic = 0xABCD5432 := by decide
  rw [← hvalue]
  constructor
  · intro hmark
    apply littleEndian_inj _ hmark
    rw [List.length_take]
    exact Nat.min_eq_left h
  · intro hmark
    rw [hmark]

theorem readDescriptor?_eq (h : d.length = 256) :
    readDescriptor? d = some (readDescriptor d) := by
  have hfour : 4 ≤ d.length := by omega
  have htext : ∀ first last : Nat, first ≤ last → last ≤ 256 →
      fieldText? d first last = some (zeroEnded (range d first last)) := by
    intro first last hle hlast
    apply fieldText?_eq hle
    omega
  unfold readDescriptor? readDescriptor
  rw [mark_eq hfour, Option.bind_eq_bind, Option.bind_some]
  by_cases hmark : d.take 4 = descriptorMagic
  · have hvalue := (mark_iff hfour).mpr hmark
    rw [if_neg (not_not.mpr hvalue), if_neg (not_not.mpr hmark),
      htext 16 48 (by decide) (by decide), htext 48 80 (by decide) (by decide),
      htext 80 96 (by decide) (by decide), htext 96 112 (by decide) (by decide),
      htext 112 144 (by decide) (by decide)]
    rfl
  · have hvalue := fun h => hmark ((mark_iff hfour).mp h)
    rw [if_pos hvalue, if_pos hmark]
    rfl

theorem inspect?_eq (bs : Bytes) : inspect? bs = some (inspect bs) := by
  unfold inspect? inspect
  cases bs with
  | nil => rfl
  | cons magic rest =>
    rw [List.head?_cons]
    dsimp only
    by_cases hmagic : magic ≠ imageMagic
    · rw [if_pos hmagic, if_pos hmagic]
    · rw [if_neg hmagic, if_neg hmagic]
      by_cases hshort : (magic :: rest).length < descriptorOffset + descriptorLength
      · rw [if_pos hshort, slice?_of_lt hshort]
      · have hlong : descriptorOffset + descriptorLength ≤ (magic :: rest).length :=
          Nat.not_lt.mp hshort
        rw [if_neg hshort, slice?_of_le (Nat.le_add_right ..) hlong]
        exact congrArg (Option.map _) (readDescriptor?_eq (length_range hlong))

end InBounds

section Spelling

variable {bs other : Bytes} {first last : Nat} {text : String}

theorem spelled_zeroEnded (h : first ≤ last) (hlast : last ≤ bs.length) :
    Spelled bs first last (zeroEnded (range bs first last)) := by
  let field := range bs first last
  let width := field.findIdx (· = 0)
  have hlength : field.length = last - first := length_range hlast
  have hwidth : width ≤ last - first := hlength ▸ List.findIdx_le_length
  have hplace : ∀ i, i < last - first → bs[first + i]? = field[i]? :=
    fun i hi => (getElem?_range hi).symm
  refine ⟨first + width, by omega, by omega, ?_, ?_, ?_⟩
  · intro i hi hstop hzero
    have hbefore : i - first < width := by omega
    have hfield := hplace (i - first) (by omega)
    rw [Nat.add_sub_cancel' hi, hzero] at hfield
    obtain ⟨hin, hvalue⟩ := List.getElem?_eq_some_iff.mp hfield.symm
    have hnot := List.not_of_lt_findIdx hbefore
    rw [hvalue] at hnot
    exact absurd hnot (by decide)
  · intro hstop
    have hin : width < field.length := by omega
    rw [hplace width (by omega), List.getElem?_eq_getElem hin, Option.some.injEq]
    exact of_decide_eq_true (List.findIdx_getElem (p := fun b : UInt8 => decide (b = 0)) (w := hin))
  · have hfront := zeroEnded?_eq field
    rw [zeroEnded?, slice?_of_le (Nat.zero_le _) List.findIdx_le_length, Option.map_some,
      Option.some.injEq] at hfront
    rw [← hfront, range_range (by omega)]
    rfl

theorem Spelled.congr (h : Spelled bs first last text)
    (hsame : ∀ i, first ≤ i → i < last → (∀ j, first ≤ j → j < i → bs[j]? ≠ some 0) →
      other[i]? = bs[i]?) : Spelled other first last text := by
  obtain ⟨stop, hfirst, hlast, hbefore, hend, htext⟩ := h
  have hread : ∀ i, first ≤ i → i < stop → other[i]? = bs[i]? := by
    intro i hi hstop
    apply hsame i hi (by omega)
    intro j hj hji
    exact hbefore j hj (by omega)
  refine ⟨stop, hfirst, hlast, ?_, ?_, ?_⟩
  · intro i hi hstop
    rw [hread i hi hstop]
    exact hbefore i hi hstop
  · intro hstop
    rw [hsame stop hfirst hstop hbefore]
    exact hend hstop
  · rw [htext, List.extract_eq_take_drop, List.extract_eq_take_drop]
    congr 1
    apply List.ext_getElem?
    intro i
    by_cases hi : i < stop - first
    · rw [List.getElem?_take_of_lt hi, List.getElem?_take_of_lt hi, List.getElem?_drop,
        List.getElem?_drop, hread (first + i) (by omega) (by omega)]
    · simp [hi]

theorem Spelled.unique {text' : String} (h : Spelled bs first last text)
    (h' : Spelled bs first last text') : text' = text := by
  obtain ⟨stop, hfirst, hlast, hbefore, hend, rfl⟩ := h
  obtain ⟨stop', hfirst', hlast', hbefore', hend', rfl⟩ := h'
  rcases Nat.lt_trichotomy stop stop' with hlt | rfl | hlt
  · exact absurd (hend (by omega)) (hbefore' stop hfirst hlt)
  · rfl
  · exact absurd (hend' (by omega)) (hbefore stop' hfirst' hlt)

end Spelling

section Inspection

variable {bs : Bytes}

theorem readDescriptor_range (h : 288 ≤ bs.length) : readDescriptor (range bs 32 288) =
    if littleEndian (bs.extract 32 36) ≠ 0xABCD5432 then
      .error (.invalidFirmware "app descriptor magic mismatch")
    else .ok ⟨zeroEnded (range bs 48 80), zeroEnded (range bs 80 112), zeroEnded (range bs 112 128),
      zeroEnded (range bs 128 144), zeroEnded (range bs 144 176)⟩ := by
  have hlength : (range bs 32 288).length = 256 := length_range h
  have hmark : (range bs 32 288).take 4 = bs.extract 32 36 := range_range (i := 0) (by decide)
  have hvalue := mark_iff (d := range bs 32 288) (by omega)
  rw [readDescriptor, range_range (by decide), range_range (by decide), range_range (by decide),
    range_range (by decide), range_range (by decide)]
  rw [hmark] at hvalue ⊢
  by_cases h : bs.extract 32 36 = descriptorMagic
  · rw [if_neg (not_not.mpr h), if_neg (not_not.mpr (hvalue.mpr h))]
  · rw [if_pos h, if_pos fun hmark => h (hvalue.mp hmark)]

theorem inspect_of_refused (h : Refused bs) : ∃ e, inspect bs = .error e := by
  rcases h with rfl | ⟨b, hb, hne⟩ | ⟨hlong, hmark⟩
  · exact ⟨_, rfl⟩
  · cases bs with
    | nil => cases hb
    | cons magic rest =>
      cases hb
      exact ⟨_, if_pos hne⟩
  · cases bs with
    | nil => cases hlong
    | cons magic rest =>
      unfold inspect
      dsimp only
      by_cases hmagic : magic ≠ imageMagic
      · exact ⟨_, if_pos hmagic⟩
      · have hfits : ¬ (magic :: rest).length < descriptorOffset + descriptorLength :=
          Nat.not_lt.mpr hlong
        rw [if_neg hmagic, if_neg hfits]
        exact ⟨_, congrArg (Except.map _) ((readDescriptor_range hlong).trans (if_pos hmark))⟩

theorem inspect_of_not_refused (h : ¬ Refused bs) :
    ∃ image, inspect bs = .ok image ∧ Found bs image := by
  obtain ⟨hfilled, hmagic, hmark⟩ : bs ≠ [] ∧ (∀ b, bs[0]? = some b → b = 0xE9) ∧
      (288 ≤ bs.length → littleEndian (bs.extract 32 36) = 0xABCD5432) := by
    simpa only [Refused, not_or, not_exists, not_and, not_not] using h
  cases bs with
  | nil => exact absurd rfl hfilled
  | cons magic rest =>
    have himage : ¬ magic ≠ imageMagic := not_not.mpr (hmagic magic rfl)
    unfold inspect
    dsimp only
    rw [if_neg himage]
    by_cases hshort : (magic :: rest).length < descriptorOffset + descriptorLength
    · have hnone : ¬ 288 ≤ (magic :: rest).length := Nat.not_le.mpr hshort
      rw [if_pos hshort]
      exact ⟨_, rfl, rfl, iff_of_false Bool.false_ne_true hnone, by simp⟩
    · have hlong : 288 ≤ (magic :: rest).length := Nat.not_lt.mp hshort
      have hread := (readDescriptor_range hlong).trans (if_neg (not_not.mpr (hmark hlong)))
      rw [if_neg hshort]
      refine ⟨_, congrArg (Except.map _) hread, rfl, iff_of_true rfl hlong, ?_⟩
      rintro d ⟨⟩
      constructor <;> exact spelled_zeroEnded (by decide) (by omega)

theorem refused_iff : (∃ e, inspect bs = .error e) ↔ Refused bs := by
  constructor
  · rintro ⟨e, he⟩
    by_contra h
    obtain ⟨image, hok, -⟩ := inspect_of_not_refused h
    rw [hok] at he
    cases he
  · exact inspect_of_refused

theorem Found.of_inspect {image : FirmwareImage} (h : inspect bs = .ok image) :
    Found bs image := by
  by_cases hrefused : Refused bs
  · obtain ⟨e, he⟩ := inspect_of_refused hrefused
    rw [h] at he
    cases he
  · obtain ⟨_, hok, hfound⟩ := inspect_of_not_refused hrefused
    rw [h] at hok
    cases hok
    exact hfound

/-- Images that agree at the places that count carry the same descriptor. -/
theorem Carries.eq_of_significant {other : Bytes} {d d' : AppDescriptor} (h : Carries bs d)
    (h' : Carries other d') (hsame : ∀ i, Significant bs i → other[i]? = bs[i]?) : d' = d := by
  have hfield : ∀ first last, (first, last) ∈ fields → ∀ i, first ≤ i → i < last →
      (∀ j, first ≤ j → j < i → bs[j]? ≠ some 0) → other[i]? = bs[i]? :=
    fun first last hmem i hfirst hlast hbefore => hsame i ⟨_, hmem, hfirst, hlast, hbefore⟩
  have hversion := (h.version.congr (hfield 48 80 (by decide))).unique h'.version
  have hname := (h.projectName.congr (hfield 80 112 (by decide))).unique h'.projectName
  have htime := (h.time.congr (hfield 112 128 (by decide))).unique h'.time
  have hdate := (h.date.congr (hfield 128 144 (by decide))).unique h'.date
  have hframework := (h.frameworkVersion.congr (hfield 144 176 (by decide))).unique
    h'.frameworkVersion
  cases d
  cases d'
  simp only at hversion hname htime hdate hframework
  rw [hversion, hname, htime, hdate, hframework]

end Inspection

/-- Every image is inspected without a look beyond its end. It is refused exactly if it is empty or
a mark is not in its place; any other image is found to be as long as it is and to carry the
descriptor that stands in it, if it is long enough for one. What stands behind the end of a text,
between the fields or behind the descriptor makes no difference to the descriptor. -/
theorem inspection_reads_descriptor (bs : Bytes) :
    inspect? bs = some (inspect bs) ∧
    ((∃ e, inspect bs = .error e) ↔ Refused bs) ∧
    (¬ Refused bs → ∃ image, inspect bs = .ok image ∧ Found bs image) ∧
    ∀ image other image', inspect bs = .ok image → inspect other = .ok image' →
      (288 ≤ other.length ↔ 288 ≤ bs.length) →
      (∀ i, Significant bs i → other[i]? = bs[i]?) → image'.descriptor = image.descriptor := by
  refine ⟨inspect?_eq bs, refused_iff, inspect_of_not_refused, ?_⟩
  intro image other image' h h' hlong hsame
  obtain ⟨-, hsome, hcarries⟩ := Found.of_inspect h
  obtain ⟨-, hsome', hcarries'⟩ := Found.of_inspect h'
  cases hd : image.descriptor with
  | none =>
    have hshort : ¬ 288 ≤ other.length := by
      rw [hlong, ← hsome, hd]
      decide
    rw [← hsome'] at hshort
    simpa using hshort
  | some d =>
    have hpresent : image'.descriptor.isSome = true := by
      rw [hsome', hlong, ← hsome, hd]
      rfl
    obtain ⟨d', hd'⟩ := Option.isSome_iff_exists.mp hpresent
    rw [hd', (hcarries d hd).eq_of_significant (hcarries' d' hd') hsame]

/-- Of the texts, one fills its field, one is empty and one is not a valid encoding. The other image
differs behind the end of the first one, and is longer. -/
theorem octets_that_do_not_count :
    let bs : Bytes := imageMagic :: List.replicate 31 0 ++ descriptorMagic ++
      List.replicate 12 0 ++ [0x31, 0x2E, 0x32] ++ List.replicate 29 0 ++ [0x6F, 0x66, 0x70] ++
      List.replicate 29 0 ++ List.replicate 16 0x39 ++ List.replicate 16 0 ++ [0xFF] ++
      List.replicate 143 0
    let other := bs.set 60 0x41 ++ [7]
    let d : AppDescriptor := ⟨"1.2", "ofp", "9999999999999999", "", "\uFFFD"⟩
    ¬ Refused bs ∧ inspect bs = .ok ⟨288, some d⟩ ∧
    (∀ i, Significant bs i → other[i]? = bs[i]?) ∧
    ∃ image, inspect other = .ok image ∧ image.size = 289 ∧ image.descriptor = some d := by
  intro bs other d
  have hok : inspect bs = .ok ⟨288, some d⟩ := by decide +kernel
  have hother : ∃ image, inspect other = .ok image ∧ image.size = 289 :=
    ⟨⟨289, some d⟩, by decide +kernel, rfl⟩
  obtain ⟨image, himage, hsize⟩ := hother
  have hsame : ∀ i, Significant bs i → other[i]? = bs[i]? := by
    rintro i ⟨field, hfield, hfirst, hlast, hbefore⟩
    have hbound : ∀ field ∈ fields, field.2 ≤ 176 ∧ (60 < field.2 → field.1 ≤ 60 →
      field.1 ≤ 51) := by decide
    obtain ⟨hin, hversion⟩ := hbound field hfield
    have hzero : bs[51]? = some 0 := by decide +kernel
    have hplace : 60 ≠ i := by
      rintro rfl
      exact hbefore 51 (hversion hlast hfirst) (by decide) hzero
    have hlength : i < (bs.set 60 0x41).length := by
      have hbs : (bs.set 60 0x41).length = 288 := by decide +kernel
      omega
    rw [List.getElem?_append_left hlength, List.getElem?_set_ne hplace]
  obtain ⟨-, hrefused, -, hagree⟩ := inspection_reads_descriptor bs
  refine ⟨?_, hok, hsame, image, himage, hsize, ?_⟩
  · rw [← hrefused, hok]
    rintro ⟨e, ⟨⟩⟩
  · exact hagree _ other image hok himage (by decide +kernel) hsame

end HeatingControl.FirmwareImage
