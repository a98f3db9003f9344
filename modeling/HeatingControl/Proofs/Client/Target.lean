import HeatingControl.Client.Target
import HeatingControl.Http.Message
import HeatingControl.Proofs.Http.Percent
import HeatingControl.Proofs.Text.Cut
import Mathlib.Data.List.DropRight
import Mathlib.Data.List.TakeWhile

/-!
# Paths of words arrive as they were meant

A path whose segments are ASCII letters, digits and hyphens is sent as it is, and cut into the
same segments where it arrives.
-/
namespace HeatingControl.Target

open Percent (octetOf charOf)

/-- What an id is made of that needs no encoding. -/
def isIdChar (c : Char) : Bool := Text.isWordChar c || c = '-'

section Chars

variable {c : Char}

theorem isIdChar_ascii (h : isIdChar c = true) : c.toNat < 128 := by
  simp only [isIdChar, Bool.or_eq_true, decide_eq_true_eq] at h
  rcases h with h | rfl
  · exact Percent.toNat_lt_of_isWordChar h
  · decide

/-- There are few such characters, so what holds of all can be seen by looking at each. -/
theorem of_isIdChar {P : Char → Prop}
    (h : ∀ n < 128, isIdChar (Char.ofNat n) = true → P (Char.ofNat n)) (hc : isIdChar c = true) :
    P c := by
  have hn := h c.toNat (isIdChar_ascii hc)
  rw [Char.ofNat_toNat] at hn
  exact hn hc

theorem isIdChar_admitted (h : isIdChar c = true) :
    isEdge c = false ∧ pathAdmits (octetOf c) = true := by
  refine of_isIdChar (P := fun c => isEdge c = false ∧ pathAdmits (octetOf c) = true) ?_ h
  decide +kernel

theorem isIdChar_not_blank (h : isIdChar c = true) : Text.isBlank c = false := by
  refine of_isIdChar (P := fun c => Text.isBlank c = false) ?_ h
  decide +kernel

end Chars

def joined (segments : List (List Char)) : List Char := segments.flatMap fun s => '/' :: s

section Trimming

theorem rdropWhile_append {c : Char} (hc : isEdge c = false) (front cs : List Char) :
    (front ++ c :: cs).rdropWhile isEdge = front ++ c :: cs.rdropWhile isEdge := by
  have hreverse : (front ++ c :: cs).reverse = cs.reverse ++ c :: front.reverse := by simp
  have hkept : (c :: front.reverse).dropWhile isEdge = c :: front.reverse := by
    rw [List.dropWhile_cons_of_neg (Bool.eq_false_iff.mp hc)]
  rw [List.rdropWhile, hreverse, List.dropWhile_append]
  split
  · rename_i hempty
    rw [List.rdropWhile, List.isEmpty_iff.mp hempty, hkept]
    simp
  · rw [List.rdropWhile]
    simp

end Trimming

section Paths

variable {segments : List (List Char)} (h : ∀ s ∈ segments, ∀ c ∈ s, isIdChar c = true)
include h

theorem joined_chars : ∀ c ∈ joined segments, c = '/' ∨ isIdChar c = true := by
  intro c hc
  obtain ⟨s, hs, hc⟩ := List.mem_flatMap.mp hc
  rcases List.mem_cons.mp hc with rfl | hc
  · exact Or.inl rfl
  · exact Or.inr (h s hs c hc)

theorem not_mem_joined {d : Char} (hslash : d ≠ '/') (hd : isIdChar d = false) :
    d ∉ joined segments := by
  intro hmem
  rcases joined_chars h d hmem with hd' | hd'
  · exact hslash hd'
  · exact Text.ne_of_kind hd' hd rfl

theorem no_fragment :
    (joined segments).takeWhile (fun c => decide (c ≠ '#')) = joined segments := by
  refine List.takeWhile_eq_self_iff.mpr fun c hc => ?_
  rcases eq_or_ne c '#' with rfl | hne
  · exact absurd hc (not_mem_joined h (by decide) (by decide))
  · simpa using hne

theorem no_query : Text.cutFirst '?' (joined segments) = none :=
  Text.cutFirst_eq_none (not_mem_joined h (by decide) (by decide))

theorem cutAll_joined : Text.cutAll '/' (joined segments) = [] :: segments := by
  refine Text.cutAll_flatMap fun s hs hmem => ?_
  exact Text.ne_of_kind (h s hs _ hmem) (show isIdChar '/' = false by decide) rfl

theorem cleaned_joined : cleaned (String.ofList (joined segments)) = joined segments := by
  have hedge : ∀ c ∈ joined segments, isEdge c = false := by
    intro c hc
    rcases joined_chars h c hc with rfl | hc
    · decide
    · exact (isIdChar_admitted hc).1
  have hdrop : (joined segments).reverse.dropWhile isEdge = (joined segments).reverse := by
    refine List.dropWhile_eq_self_iff.mpr fun hl => ?_
    simpa using hedge _ (List.mem_reverse.mp (List.getElem_mem hl))
  rw [cleaned, String.toList_ofList, hdrop, List.reverse_reverse]
  refine List.filter_eq_self.mpr fun c hc => ?_
  have hspace := hedge c hc
  simp only [isEdge, decide_eq_false_iff_not] at hspace
  have hbreaks : ∀ d : Char, d.toNat ≤ 0x20 → c ≠ d := fun d hd heq => hspace (heq ▸ hd)
  simp [isLineBreak, hbreaks '\t' (by decide), hbreaks '\n' (by decide),
    hbreaks '\r' (by decide)]

theorem encoded_segment : ∀ s ∈ segments, encoded pathAdmits s = s := by
  intro s hs
  have hascii : ∀ c ∈ s, c.toNat < 128 := fun c hc => isIdChar_ascii (h s hs c hc)
  rw [encoded, Utf8.encode_ascii hascii]
  change Percent.encode pathAdmits (s.map octetOf) = s
  rw [Percent.encode_of_admitted]
  · rw [List.map_map]
    exact (List.map_congr_left fun c hc => Percent.charOf_octetOf (hascii c hc)).trans
      (List.map_id s)
  · intro b hb
    obtain ⟨c, hc, rfl⟩ := List.mem_map.mp hb
    exact (isIdChar_admitted (h s hs c hc)).2

end Paths

theorem dotted_of_word {s : List Char} (h : ∀ c ∈ s, isIdChar c = true) :
    dotted s ≠ ['.'] ∧ dotted s ≠ ['.', '.'] := by
  have hdot : '.' ∉ s :=
    fun hmem => Text.ne_of_kind (h _ hmem) (show isIdChar '.' = false by decide) rfl
  have hpercent : '%' ∉ s :=
    fun hmem => Text.ne_of_kind (h _ hmem) (show isIdChar '%' = false by decide) rfl
  have hkept : dotted s = s := by
    unfold dotted
    split
    · simp at hpercent
    · simp at hdot
    · rfl
  rw [hkept]
  constructor <;> rintro rfl <;> simp at hdot

theorem resolve_of_no_dots {segments : List (List Char)}
    (h : ∀ s ∈ segments, dotted s ≠ ['.'] ∧ dotted s ≠ ['.', '.']) (above : List (List Char)) :
    resolve above segments = above.reverse ++ segments := by
  induction segments generalizing above with
  | nil => simp [resolve]
  | cons s segments ih =>
    obtain ⟨hs, hrest⟩ := List.forall_mem_cons.mp h
    rw [resolve, if_neg hs.1, if_neg hs.2, ih hrest]
    simp

theorem resolve_words {segments : List (List Char)}
    (h : ∀ s ∈ segments, ∀ c ∈ s, isIdChar c = true) (above : List (List Char)) :
    resolve above segments = above.reverse ++ segments := by
  apply resolve_of_no_dots
  intro s hs
  exact dotted_of_word (h s hs)

theorem pathText_joined {segments : List (List Char)}
    (h : ∀ s ∈ segments, ∀ c ∈ s, isIdChar c = true) :
    pathText (joined segments) = joined segments := by
  have hslashes : (joined segments).map (fun c => if c = '\\' then '/' else c) =
      joined segments := by
    refine (List.map_congr_left fun c hc => ?_).trans (List.map_id _)
    have hne : c ≠ '\\' := by
      rintro rfl
      exact not_mem_joined h (by decide) (by decide) hc
    rw [if_neg hne]
    rfl
  have hencoded : segments.map (encoded pathAdmits) = segments :=
    (List.map_congr_left (encoded_segment h)).trans (List.map_id _)
  simp only [pathText, hslashes, cutAll_joined h, hencoded, resolve_words h, List.reverse_nil,
    List.nil_append]
  rfl

/-- What is asked for where a path stands under an origin. -/
def ofPath (path : String) : List Char := ofChars ((cleaned path).takeWhile (· ≠ '#'))

theorem ofPath_joined {segments : List (List Char)}
    (h : ∀ s ∈ segments, ∀ c ∈ s, isIdChar c = true) :
    ofPath (String.ofList (joined segments)) = joined segments := by
  simp only [ofPath, ofChars, cleaned_joined h, no_fragment h, no_query h, pathText_joined h]

theorem segments_joined {segments : List (List Char)}
    (h : ∀ s ∈ segments, ∀ c ∈ s, isIdChar c = true) (method : String) (type : Option String)
    (body : Bytes) :
    (Request.mk method (String.ofList (joined segments)) type body).segments =
      segments.map String.ofList := by
  simp only [Request.segments, Request.parts, String.toList_ofList, no_fragment h,
    no_query h, Option.getD_none, cutAll_joined h]

end HeatingControl.Target
