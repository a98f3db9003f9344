import HeatingControl.Proofs.Client.Target
import HeatingControl.Proofs.Http.Escape

/-!
# Segments of any path

Which segments a path has where it arrives, whatever text stands in it: the path is cut off at a
query or a fragment, its segments are encoded, and dot segments are resolved.
-/
namespace HeatingControl.Target

open Percent (octetOf charOf)

def isCut (c : Char) : Bool := c = '#' || c = '?'

def stays (c : Char) : Bool := !isLineBreak c && !isCut c

def kept (cs : List Char) : List Char :=
  (cs.filter fun c => !isLineBreak c).takeWhile fun c => !isCut c

def pathPart (s : String) : List Char := kept (s.toList.rdropWhile isEdge)

section Keeping

variable {cs : List Char}

theorem kept_sublist (cs : List Char) : (kept cs).Sublist cs := by
  have hcut : (kept cs).Sublist (cs.filter fun c => !isLineBreak c) := List.takeWhile_sublist _
  exact hcut.trans List.filter_sublist

theorem stays_of_mem_kept {c : Char} (h : c ∈ kept cs) : stays c = true := by
  have hcut : (!isCut c) = true :=
    List.mem_takeWhile_imp (p := fun c => !isCut c) h
  have hbreak : (!isLineBreak c) = true := (List.mem_filter.mp (List.takeWhile_subset _ h)).2
  rw [stays, hcut, hbreak]
  rfl

theorem kept_append {front : List Char} (h : ∀ c ∈ front, stays c = true) (cs : List Char) :
    kept (front ++ cs) = front ++ kept cs := by
  have hstays : ∀ c ∈ front, (!isLineBreak c) = true ∧ (!isCut c) = true := by
    intro c hc
    exact Bool.and_eq_true_iff.mp (h c hc)
  have hbreaks : front.filter (fun c => !isLineBreak c) = front :=
    List.filter_eq_self.mpr fun c hc => (hstays c hc).1
  rw [kept, List.filter_append, hbreaks,
    List.takeWhile_append_of_pos fun c hc => (hstays c hc).2]
  rfl

theorem kept_eq_self (h : ∀ c ∈ cs, stays c = true) : kept cs = cs := by
  have hall := kept_append h []
  rwa [List.append_nil, show kept [] = [] from rfl, List.append_nil] at hall

theorem kept_append_or {back : List Char} (h : ∀ c ∈ back, stays c = true) (cs : List Char) :
    kept (cs ++ back) = kept cs ++ back ∨ kept (cs ++ back) = kept cs := by
  have hback := kept_eq_self h
  rw [kept] at hback
  rw [kept, kept, List.filter_append, List.takeWhile_append]
  split
  · rename_i hwhole
    left
    rw [hback]
    congr 1
    exact ((List.takeWhile_prefix _).eq_of_length hwhole).symm
  · exact Or.inr rfl

end Keeping

/-- A backslash separates as a slash does. -/
def slashed (c : Char) : Char := if c = '\\' then '/' else c

/-- The parts of a path; what stands before its first slash is none. -/
def pathParts (cs : List Char) : List (List Char) :=
  match Text.cutAll '/' (cs.map slashed) with
  | [] :: segments => segments
  | segments => segments

/-- The segments that are sent for a path. -/
def sent (cs : List Char) : List (List Char) :=
  resolve [] ((pathParts cs).map (encoded pathAdmits))

theorem pathText_eq (cs : List Char) : pathText cs = joined (sent cs) := rfl

theorem mem_parent {above : List (List Char)} {s : List Char} (h : s ∈ parent above) :
    s ∈ above := by
  cases above with
  | nil => exact h
  | cons last above =>
    rw [parent] at h
    split at h
    · exact h
    · exact List.mem_cons_of_mem _ h

private theorem mem_closed {last : Bool} {above : List (List Char)} {s : List Char}
    (h : s ∈ if last then [] :: above else above) : s ∈ above ∨ s = [] := by
  split at h
  · rcases List.mem_cons.mp h with hempty | habove
    · exact Or.inr hempty
    · exact Or.inl habove
  · exact Or.inl h

/-- No dot segment is left, and only empty segments come in. -/
theorem mem_resolve {segments above : List (List Char)} {s : List Char}
    (h : s ∈ resolve above segments) :
    s ∈ above ∨ s = [] ∨ (s ∈ segments ∧ dotted s ≠ ['.'] ∧ dotted s ≠ ['.', '.']) := by
  induction segments generalizing above with
  | nil => exact Or.inl (List.mem_reverse.mp h)
  | cons segment segments ih =>
    have hbehind : ∀ {rest : List (List Char)}, s ∈ resolve rest segments → s ∈ rest ∨ s = [] ∨
        (s ∈ segment :: segments ∧ dotted s ≠ ['.'] ∧ dotted s ≠ ['.', '.']) := by
      intro rest hs
      rcases ih hs with hrest | hempty | ⟨hmem, hdots⟩
      · exact Or.inl hrest
      · exact Or.inr (Or.inl hempty)
      · exact Or.inr (Or.inr ⟨List.mem_cons_of_mem _ hmem, hdots⟩)
    rw [resolve] at h
    split at h
    · rcases hbehind h with hclosed | hother
      · rcases mem_closed hclosed with habove | hempty
        · exact Or.inl habove
        · exact Or.inr (Or.inl hempty)
      · exact Or.inr hother
    · rename_i hone
      split at h
      · rcases hbehind h with hclosed | hother
        · rcases mem_closed hclosed with habove | hempty
          · exact Or.inl (mem_parent habove)
          · exact Or.inr (Or.inl hempty)
        · exact Or.inr hother
      · rename_i htwo
        rcases hbehind h with habove | hother
        · rcases List.mem_cons.mp habove with rfl | habove
          · exact Or.inr (Or.inr ⟨List.mem_cons_self .., hone, htwo⟩)
          · exact Or.inl habove
        · exact Or.inr hother

section Arriving

variable {admits : UInt8 → Bool} {cs : List Char}

theorem not_mem_encoded {d : Char} (hrefused : admits (octetOf d) = false) (hpercent : d ≠ '%')
    (hdigit : ∀ n < 16, d ≠ Percent.capitalDigit n) : d ∉ encoded admits cs := by
  intro hmem
  rcases Percent.mem_encode hmem with ⟨b, -, hadmits, rfl⟩ | hd | ⟨n, hn, hd⟩
  · rw [Percent.octetOf_charOf, hadmits] at hrefused
    cases hrefused
  · exact hpercent hd
  · exact hdigit n hn hd

theorem slash_not_mem_encoded (h : '/' ∉ cs) : '/' ∉ encoded pathAdmits cs := by
  intro hmem
  rcases Percent.mem_encode hmem with ⟨b, hb, -, hd⟩ | hd | ⟨n, hn, hd⟩
  · have hslash : b = octetOf '/' := by
      rw [hd, Percent.octetOf_charOf]
    rw [Utf8.encode, String.toList_ofList] at hb
    obtain ⟨c, hc, hlt, hbyte⟩ := Utf8.mem_encode_ascii hb (by rw [hslash]; decide)
    have hchar : c = '/' := Percent.octetOf_inj hlt (by decide) (hbyte.symm.trans hslash)
    exact h (hchar ▸ hc)
  · cases hd
  · have hall : ∀ n < 16, '/' ≠ Percent.capitalDigit n := by decide
    exact hall n hn hd

theorem mem_pathParts {part : List Char} (h : part ∈ pathParts cs) :
    part ∈ Text.cutAll '/' (cs.map slashed) := by
  unfold pathParts at h
  split at h
  · rename_i hparts
    rw [hparts]
    exact List.mem_cons_of_mem _ h
  · exact h

theorem sublist_of_mem_cutAll {part : List Char} (h : part ∈ Text.cutAll '/' (cs.map slashed)) :
    part.Sublist (cs.filter fun c => c ≠ '/' ∧ c ≠ '\\') := by
  have hpart := Text.sublist_of_mem_cutAll h
  have hkind : ∀ c, decide (slashed c ≠ '/') = decide (c ≠ '/' ∧ c ≠ '\\') := by
    intro c
    by_cases hc : c = '\\'
    · simp [slashed, hc]
    · simp [slashed, hc]
  have hsame : ∀ c ∈ cs.filter fun c => c ≠ '/' ∧ c ≠ '\\', slashed c = c := by
    intro c hc
    have hne : c ≠ '\\' := (of_decide_eq_true (List.mem_filter.mp hc).2).2
    rw [slashed, if_neg hne]
  rwa [List.filter_map, Function.comp_def, List.filter_congr fun c _ => hkind c,
    List.map_congr_left hsame, List.map_id'] at hpart

theorem mem_sent {s : List Char} (h : s ∈ sent cs) :
    s = [] ∨ ∃ part ∈ pathParts cs, s = encoded pathAdmits part ∧
      dotted s ≠ ['.'] ∧ dotted s ≠ ['.', '.'] := by
  rcases mem_resolve h with hnil | hempty | ⟨hmem, hdots⟩
  · cases hnil
  · exact Or.inl hempty
  · obtain ⟨part, hpart, rfl⟩ := List.mem_map.mp hmem
    exact Or.inr ⟨part, hpart, rfl, hdots⟩

theorem sent_chars {s : List Char} (h : s ∈ sent cs) : '/' ∉ s ∧ '?' ∉ s ∧ '#' ∉ s := by
  rcases mem_sent h with rfl | ⟨part, hpart, rfl, -⟩
  · simp
  · have hslash : '/' ∉ part := by
      intro hmem
      have hfilter := (sublist_of_mem_cutAll (mem_pathParts hpart)).subset hmem
      simp at hfilter
    have hquery : ∀ n < 16, '?' ≠ Percent.capitalDigit n := by decide
    have hfragment : ∀ n < 16, '#' ≠ Percent.capitalDigit n := by decide
    exact ⟨slash_not_mem_encoded hslash, not_mem_encoded (by decide) (by decide) hquery,
      not_mem_encoded (by decide) (by decide) hfragment⟩

theorem ofPath_eq (path : String) :
    ∃ query : Option (List Char), ofPath path = joined (sent (pathPart path)) ++
      (query.map fun q => '?' :: encoded queryAdmits q).getD [] := by
  have hpath : pathPart path =
      ((cleaned path).takeWhile (fun c => c ≠ '#')).takeWhile (fun c => c ≠ '?') := by
    have hcut : ∀ c, (!isCut c) = decide (decide (c ≠ '?') = true ∧ decide (c ≠ '#') = true) := by
      intro c
      by_cases hfragment : c = '#'
      · simp [isCut, hfragment]
      · by_cases hquery : c = '?'
        · simp [isCut, hquery]
        · simp [isCut, hfragment, hquery]
    rw [List.takeWhile_takeWhile, pathPart, kept]
    simp only [hcut]
    rfl
  rw [Text.takeWhile_eq_cutFirst] at hpath
  unfold ofPath ofChars
  split
  · rename_i hcut
    rw [hcut] at hpath
    refine ⟨none, ?_⟩
    rw [pathText_eq, hpath]
    simp
  · rename_i before query hcut
    rw [hcut] at hpath
    refine ⟨some query, ?_⟩
    rw [pathText_eq, hpath]
    simp

theorem not_mem_sent {d : Char} (hslash : d ≠ '/') (h : ∀ s ∈ sent cs, d ∉ s) :
    d ∉ joined (sent cs) := by
  intro hmem
  obtain ⟨s, hs, hd⟩ := List.mem_flatMap.mp hmem
  rcases List.mem_cons.mp hd with hd | hd
  · exact hslash hd
  · exact h s hs hd

/-- Whatever stands in a path, these are its segments where it arrives. -/
theorem segments_ofPath (path method : String) (type : Option String) (body : Bytes) :
    (Request.mk method (String.ofList (ofPath path)) type body).segments =
      (sent (pathPart path)).map String.ofList := by
  have hquery : '?' ∉ joined (sent (pathPart path)) :=
    not_mem_sent (by decide) fun s hs => (sent_chars hs).2.1
  have hfragment : '#' ∉ joined (sent (pathPart path)) :=
    not_mem_sent (by decide) fun s hs => (sent_chars hs).2.2
  have hparts : (Request.mk method (String.ofList (ofPath path)) type body).parts.1 =
      joined (sent (pathPart path)) := by
    obtain ⟨query, htarget⟩ := ofPath_eq path
    have hdigits : ∀ n < 16, '#' ≠ Percent.capitalDigit n := by decide
    have hwhole : '#' ∉ ofPath path := by
      rw [htarget]
      cases query with
      | none => simpa using hfragment
      | some q =>
        have hq : '#' ∉ encoded queryAdmits q := not_mem_encoded (by decide) (by decide) hdigits
        simp [hfragment, hq]
    have htake : (ofPath path).takeWhile (fun c => decide (c ≠ '#')) = ofPath path := by
      rw [Text.takeWhile_eq_cutFirst, Text.cutFirst_eq_none hwhole]
      rfl
    rw [htarget] at htake
    rw [Request.parts]
    simp only [String.toList_ofList, htarget, htake]
    cases query with
    | none =>
      rw [Option.map_none, Option.getD_none, List.append_nil, Text.cutFirst_eq_none hquery]
      rfl
    | some q =>
      rw [Option.map_some, Option.getD_some, Text.cutFirst_append hquery]
      rfl
  have hslashes : ∀ s ∈ sent (pathPart path), '/' ∉ s := fun s hs => (sent_chars hs).1
  rw [Request.segments, hparts, joined, Text.cutAll_flatMap hslashes]

end Arriving

end HeatingControl.Target
