import HeatingControl.Proofs.Client.Path
import HeatingControl.Proofs.Client.Request

/-!
# Texts that arrive as one segment

A text that is put into a path between words arrives as one segment if it has no mark that cuts a
path, is no dot segment and stands for itself. No other text arrives in any segment.
-/
namespace HeatingControl.Target

open Percent (octetOf charOf)

/-- A text that arrives when more of the path follows. -/
structure IsSegment (s : String) : Prop where
  undivided : ∀ c ∈ s.toList, c ≠ '/' ∧ c ≠ '\\'
  uncut : ∀ c ∈ s.toList, stays c = true
  unescaped : Percent.hasEscape s.toList = false
  no_dots : s ≠ "." ∧ s ≠ ".."

/-- A text that arrives at the end of a path. -/
structure ClosesPath (s : String) : Prop extends IsSegment s where
  nonempty : s ≠ ""
  no_edge : ∀ c, s.toList.getLast? = some c → isEdge c = false

theorem isSegment_of_all {s : String}
    (hall : (s.toList.all fun c => (c ≠ '/' ∧ c ≠ '\\') ∧ stays c = true) = true)
    (hescape : Percent.hasEscape s.toList = false) (hdots : s ≠ "." ∧ s ≠ "..") : IsSegment s := by
  have hchars : ∀ c ∈ s.toList, (c ≠ '/' ∧ c ≠ '\\') ∧ stays c = true := by
    intro c hc
    exact of_decide_eq_true (List.all_eq_true.mp hall c hc)
  exact ⟨fun c hc => (hchars c hc).1, fun c hc => (hchars c hc).2, hescape, hdots⟩

section Words

variable {words : List (List Char)} (h : ∀ w ∈ words, ∀ c ∈ w, isIdChar c = true)

theorem stays_of_isIdChar {c : Char} (h : isIdChar c = true) : stays c = true := by
  refine of_isIdChar (P := fun c => stays c = true) ?_ h
  decide +kernel

include h

theorem joined_stays : ∀ c ∈ joined words, stays c = true ∧ isEdge c = false := by
  intro c hc
  rcases joined_chars h c hc with rfl | hc
  · decide
  · exact ⟨stays_of_isIdChar hc, (isIdChar_admitted hc).1⟩

theorem joined_slashed : (joined words).map slashed = joined words := by
  have hsame : ∀ c ∈ joined words, slashed c = c := by
    intro c hc
    have hne : c ≠ '\\' := by
      rintro rfl
      exact not_mem_joined h (by decide) (by decide) hc
    rw [slashed, if_neg hne]
  rw [List.map_congr_left hsame, List.map_id']

theorem cutAll_behind (cs : List Char) :
    Text.cutAll '/' (cs ++ joined words) = Text.cutAll '/' cs ++ words := by
  have hwords := cutAll_joined h
  cases words with
  | nil => simp [joined]
  | cons w rest =>
    have hcons : joined (w :: rest) = '/' :: (w ++ joined rest) := rfl
    rw [hcons, Text.cutAll, if_pos rfl, List.cons.injEq] at hwords
    rw [hcons, Text.cutAll_append, hwords.2]

end Words

section Between

variable {front back : List (List Char)} {cs : List Char}

theorem pathParts_between (hfront : ∀ w ∈ front, ∀ c ∈ w, isIdChar c = true)
    (hback : ∀ w ∈ back, ∀ c ∈ w, isIdChar c = true) (cs : List Char) :
    pathParts (joined front ++ '/' :: (cs ++ joined back)) =
      front ++ (Text.cutAll '/' (cs.map slashed) ++ back) := by
  have hslashed : (joined front ++ '/' :: (cs ++ joined back)).map slashed =
      joined front ++ '/' :: (cs.map slashed ++ joined back) := by
    rw [List.map_append, List.map_cons, List.map_append, joined_slashed hfront,
      joined_slashed hback]
    rfl
  rw [pathParts, hslashed, Text.cutAll_append, cutAll_joined hfront, cutAll_behind hback]
  rfl

theorem pathPart_between (hfront : ∀ w ∈ front, ∀ c ∈ w, isIdChar c = true) {path : String}
    (hpath : path.toList = joined front ++ '/' :: (cs ++ joined back)) :
    pathPart path = joined front ++ '/' :: kept ((cs ++ joined back).rdropWhile isEdge) := by
  have hstays : ∀ c ∈ joined front ++ ['/'], stays c = true := by
    intro c hc
    rcases List.mem_append.mp hc with hc | hc
    · exact (joined_stays hfront c hc).1
    · rw [List.mem_singleton.mp hc]
      decide
  have hkept := kept_append hstays ((cs ++ joined back).rdropWhile isEdge)
  rw [List.append_assoc, List.append_assoc, List.singleton_append] at hkept
  rw [pathPart, hpath, rdropWhile_append (by decide)]
  exact hkept

theorem rdropWhile_behind (hback : ∀ w ∈ back, ∀ c ∈ w, isIdChar c = true) (hne : back ≠ [])
    (cs : List Char) : (cs ++ joined back).rdropWhile isEdge = cs ++ joined back := by
  have hjoined : joined back ≠ [] := by
    cases back with
    | nil => exact absurd rfl hne
    | cons w rest => exact List.cons_ne_nil _ _
  rw [List.rdropWhile_eq_self_iff]
  intro hl
  rw [List.getLast_append_of_ne_nil _ hjoined,
    (joined_stays hback _ (List.getLast_mem hjoined)).2]
  decide

theorem left_between (hfront : ∀ w ∈ front, ∀ c ∈ w, isIdChar c = true)
    (hback : ∀ w ∈ back, ∀ c ∈ w, isIdChar c = true) {path : String}
    (hpath : path.toList = joined front ++ '/' :: (cs ++ joined back)) :
    ∃ left behind, pathPart path = joined front ++ '/' :: (left ++ joined behind) ∧
      (behind = back ∨ behind = []) ∧ left.Sublist cs ∧ (∀ c ∈ left, stays c = true) ∧
      (back = [] → left.Sublist (cs.rdropWhile isEdge)) := by
  rw [pathPart_between hfront hpath]
  by_cases hne : back = []
  · subst hne
    have hnil : joined [] = [] := rfl
    refine ⟨kept (cs.rdropWhile isEdge), [], ?_, Or.inl rfl, ?_, ?_, fun _ => ?_⟩
    · rw [hnil, List.append_nil, List.append_nil]
    · exact (kept_sublist _).trans (List.rdropWhile_prefix isEdge cs).sublist
    · exact fun c hc => stays_of_mem_kept hc
    · exact kept_sublist _
  · rw [rdropWhile_behind hback hne]
    have hstays : ∀ c ∈ kept cs, stays c = true := fun c hc => stays_of_mem_kept hc
    rcases kept_append_or (fun c hc => (joined_stays hback c hc).1) cs with hwhole | hcut
    · rw [hwhole]
      exact ⟨kept cs, back, rfl, Or.inl rfl, kept_sublist cs, hstays, fun h => absurd h hne⟩
    · rw [hcut]
      refine ⟨kept cs, [], ?_, Or.inr rfl, kept_sublist cs, hstays, fun h => absurd h hne⟩
      rw [show joined [] = [] from rfl, List.append_nil]

end Between

section Receiving

variable {cs : List Char} {s : String}

theorem pathAdmits_ascii : ∀ b, pathAdmits b = true → b.toNat < 128 := by
  intro b hb
  simp only [pathAdmits, isPlain, Bool.and_eq_true, decide_eq_true_eq, UInt8.lt_iff_toNat_lt] at hb
  have hlt : b.toNat < (0x7F : UInt8).toNat := hb.1.2
  exact Nat.lt_trans hlt (by decide)

theorem pathAdmits_digit : ∀ b, (Text.hexValue? (charOf b)).isSome = true → pathAdmits b = true := by
  have hall : ∀ n < 256, (Text.hexValue? (charOf (UInt8.ofNat n))).isSome = true →
      pathAdmits (UInt8.ofNat n) = true := by decide +kernel
  intro b hb
  have hn := hall b.toNat b.toNat_lt
  rw [UInt8.ofNat_toNat] at hn
  exact hn hb

theorem decode_encoded (cs : List Char) :
    Percent.decode ((encoded pathAdmits cs).map octetOf) =
      Percent.decode (cs.flatMap String.utf8EncodeChar) := by
  have hdecode := Percent.decode_octets (by decide) pathAdmits_digit
    (cs.flatMap String.utf8EncodeChar)
  rw [encoded, Utf8.encode, String.toList_ofList]
  exact hdecode

theorem decodeText?_encoded (cs : List Char) :
    Percent.decodeText? (String.ofList (encoded pathAdmits cs)) =
      Utf8.decode? (Percent.decode (cs.flatMap String.utf8EncodeChar)) := by
  rw [Percent.decodeText?, encoded, Percent.encode_text_octets pathAdmits_ascii, ← decode_encoded]
  rfl

theorem decode_dots {e : List Char} (h : ∀ c ∈ dotted e, c = '.') :
    Percent.decode (e.map octetOf) = (dotted e).map octetOf := by
  induction e using dotted.induct with
  | case1 e cs he ih =>
    rw [dotted, if_pos he] at h ⊢
    have hdots := ih (List.forall_mem_cons.mp h).2
    have hoctet : Percent.octetAt? ((octetOf '2') :: (octetOf e) :: cs.map octetOf) =
        some (octetOf '.') := by
      rw [Bool.or_eq_true, decide_eq_true_eq, decide_eq_true_eq] at he
      rcases he with rfl | rfl
      · rfl
      · rfl
    have hdecode := Percent.decode_percent_of_some hoctet
    rw [List.map_cons, List.map_cons, List.map_cons, List.map_cons, ← hdots]
    exact hdecode
  | case2 e cs he =>
    rw [dotted, if_neg he] at h
    exact absurd (List.forall_mem_cons.mp h).1 (by decide)
  | case3 cs ih =>
    rw [dotted] at h ⊢
    rw [List.map_cons, List.map_cons, ← ih (List.forall_mem_cons.mp h).2]
    exact Percent.decode_cons (by decide) _
  | case4 cs hescape hdot =>
    have hself : dotted cs = cs := by
      rw [dotted]
      · exact hescape
      · exact hdot
    rw [hself] at h ⊢
    cases cs with
    | nil => rfl
    | cons c cs =>
      obtain rfl : c = '.' := (List.forall_mem_cons.mp h).1
      exact (hdot cs rfl).elim

theorem IsSegment.decode (h : IsSegment s) :
    Percent.decode ((encoded pathAdmits s.toList).map octetOf) = Utf8.encode s := by
  rw [decode_encoded]
  exact (Percent.decode_eq_self_iff s.toList).mpr h.unescaped

theorem IsSegment.received (h : IsSegment s) :
    Percent.decodeText? (String.ofList (encoded pathAdmits s.toList)) = some s := by
  have hself := (Percent.decode_eq_self_iff s.toList).mpr h.unescaped
  rw [decodeText?_encoded, hself]
  exact Utf8.decode?_encode s

theorem IsSegment.not_dotted (h : IsSegment s) :
    dotted (encoded pathAdmits s.toList) ≠ ['.'] ∧
      dotted (encoded pathAdmits s.toList) ≠ ['.', '.'] := by
  have hsame : ∀ dots : String, (dots.toList.all fun c => c = '.') = true →
      dotted (encoded pathAdmits s.toList) = dots.toList →
      Utf8.encode dots = dots.toList.map octetOf → s = dots := by
    intro dots hdots heq hbytes
    have hall : ∀ c ∈ dotted (encoded pathAdmits s.toList), c = '.' := by
      intro c hc
      rw [heq] at hc
      exact of_decide_eq_true (List.all_eq_true.mp hdots c hc)
    have hdecode := decode_dots hall
    rw [h.decode, heq, ← hbytes] at hdecode
    have htext := congrArg Utf8.decode? hdecode
    rw [Utf8.decode?_encode, Utf8.decode?_encode] at htext
    exact Option.some.inj htext
  constructor
  · intro hone
    exact h.no_dots.1 (hsame "." (by decide) hone rfl)
  · intro htwo
    exact h.no_dots.2 (hsame ".." (by decide) htwo rfl)

end Receiving

section Arriving

variable {front back : List (List Char)} {path s : String}

theorem ClosesPath.rdropWhile_eq (h : ClosesPath s) :
    s.toList.rdropWhile isEdge = s.toList := by
  rw [List.rdropWhile_eq_self_iff]
  intro hl
  rw [h.no_edge _ (List.getLast?_eq_some_getLast hl)]
  decide

/-- A text that is a segment arrives as one. -/
theorem IsSegment.sent_between (h : IsSegment s) (hend : back = [] → ClosesPath s)
    (hfront : ∀ w ∈ front, ∀ c ∈ w, isIdChar c = true)
    (hback : ∀ w ∈ back, ∀ c ∈ w, isIdChar c = true)
    (hpath : path.toList = joined front ++ '/' :: (s.toList ++ joined back)) :
    sent (pathPart path) = front ++ encoded pathAdmits s.toList :: back := by
  have hstays : ∀ c ∈ s.toList ++ joined back, stays c = true := by
    intro c hc
    rcases List.mem_append.mp hc with hc | hc
    · exact h.uncut c hc
    · exact (joined_stays hback c hc).1
  have htrimmed : (s.toList ++ joined back).rdropWhile isEdge = s.toList ++ joined back := by
    by_cases hne : back = []
    · rw [hne, show joined [] = [] from rfl, List.append_nil]
      exact (hend hne).rdropWhile_eq
    · exact rdropWhile_behind hback hne _
  have hslash : '/' ∉ s.toList.map slashed := by
    intro hmem
    obtain ⟨c, hc, hslashed⟩ := List.mem_map.mp hmem
    obtain ⟨hne, hback⟩ := h.undivided c hc
    rw [slashed, if_neg hback] at hslashed
    exact hne hslashed
  have hsame : s.toList.map slashed = s.toList := by
    have hall : ∀ c ∈ s.toList, slashed c = c := by
      intro c hc
      rw [slashed, if_neg (h.undivided c hc).2]
    rw [List.map_congr_left hall, List.map_id']
  have hwords : ∀ words : List (List Char), (∀ w ∈ words, ∀ c ∈ w, isIdChar c = true) →
      words.map (encoded pathAdmits) = words := by
    intro words hwords
    rw [List.map_congr_left (encoded_segment hwords), List.map_id']
  rw [sent, pathPart_between hfront hpath, htrimmed, kept_eq_self hstays,
    pathParts_between hfront hback, Text.cutAll_single hslash, hsame, List.map_append,
    List.map_append, hwords front hfront, hwords back hback, resolve_of_no_dots]
  · rfl
  · intro e he
    rcases List.mem_append.mp he with he | he
    · exact dotted_of_word (hfront e he)
    rcases List.mem_append.mp he with he | he
    · rw [List.mem_singleton.mp he]
      exact h.not_dotted
    · exact dotted_of_word (hback e he)

theorem closesPath_of_word (h : IsWord s) : ClosesPath s := by
  have hnot : ∀ d, isIdChar d = false → d ∉ s.toList := by
    intro d hd hmem
    exact Text.ne_of_kind (h.chars d hmem) hd rfl
  constructor
  · constructor
    · intro c hc
      have hne : ∀ d, isIdChar d = false → c ≠ d := fun d hd => Text.ne_of_kind (h.chars c hc) hd
      exact ⟨hne '/' (by decide), hne '\\' (by decide)⟩
    · intro c hc
      exact stays_of_isIdChar (h.chars c hc)
    · exact Percent.hasEscape_of_not_mem (hnot '%' (by decide))
    · constructor
      · rintro rfl
        exact hnot '.' (by decide) (by decide)
      · rintro rfl
        exact hnot '.' (by decide) (by decide)
  · exact h.1
  · intro c hc
    exact (isIdChar_admitted (h.chars c (List.mem_of_getLast? hc))).1

theorem isWord_of_received {w : List Char} (hw : ∀ c ∈ w, isIdChar c = true) (hne : w ≠ [])
    (hreceived : Percent.decodeText? (String.ofList (encoded pathAdmits w)) = some s) :
    IsWord s := by
  have hword : ∀ w' ∈ [w], ∀ c ∈ w', isIdChar c = true := by simpa using hw
  have hencoded : encoded pathAdmits w = w := encoded_segment hword w (List.mem_singleton.mpr rfl)
  have hplain : ∀ c ∈ (String.ofList w).toList, c.toNat < 128 ∧ c ≠ '%' := by
    intro c hc
    rw [String.toList_ofList] at hc
    exact ⟨isIdChar_ascii (hw c hc), Text.ne_of_kind (hw c hc) (by decide : isIdChar '%' = false)⟩
  rw [hencoded, Percent.decodeText?_of_plain hplain, Option.some.injEq] at hreceived
  subst hreceived
  constructor
  · intro hempty
    exact hne (by simpa using congrArg String.toList hempty)
  · rw [String.toList_ofList]
    exact List.all_eq_true.mpr hw

/-- What is received for a part of a text is the text only if the part is the whole of it and
stands for itself: nothing gets longer when it is decoded. -/
theorem whole_of_received {part : List Char} (hsub : part.Sublist s.toList)
    (hreceived : Percent.decodeText? (String.ofList (encoded pathAdmits part)) = some s) :
    part = s.toList ∧ Percent.hasEscape s.toList = false := by
  rw [decodeText?_encoded] at hreceived
  have hlength := Utf8.length_of_decode? hreceived
  have hdecoded := Percent.decode_length_le (part.flatMap String.utf8EncodeChar)
  rw [Utf8.encode] at hlength
  rcases Utf8.eq_or_length_lt hsub with hwhole | hshorter
  · subst hwhole
    refine ⟨rfl, ?_⟩
    rw [← Percent.decode_eq_self_iff]
    rcases Percent.decode_eq_or_length_lt (s.toList.flatMap String.utf8EncodeChar) with h | h
    · exact h
    · omega
  · omega

/-- A text that is received from a segment of the path is a segment itself. -/
theorem isSegment_of_received (hfront : ∀ w ∈ front, ∀ c ∈ w, isIdChar c = true)
    (hback : ∀ w ∈ back, ∀ c ∈ w, isIdChar c = true)
    (hpath : path.toList = joined front ++ '/' :: (s.toList ++ joined back))
    {e : List Char} (he : e ∈ sent (pathPart path)) (hne : back = [] → e ≠ [])
    (hreceived : Percent.decodeText? (String.ofList e) = some s) :
    IsSegment s ∧ (back = [] → ClosesPath s) := by
  by_cases hempty : e = []
  · subst hempty
    have hnothing : Percent.decodeText? (String.ofList []) = some "" :=
      Percent.decodeText?_of_plain (by simp)
    obtain rfl : "" = s := Option.some.inj (hnothing.symm.trans hreceived)
    exact ⟨isSegment_of_all rfl rfl (by decide), fun h => absurd rfl (hne h)⟩
  obtain ⟨left, behind, hleft, hbehind, hsub, hstays, hend⟩ := left_between hfront hback hpath
  have hwords : ∀ w ∈ behind, ∀ c ∈ w, isIdChar c = true := by
    rcases hbehind with rfl | rfl
    · exact hback
    · simp
  rw [hleft] at he
  rcases mem_sent he with h | ⟨part, hpart, rfl, hdots⟩
  · exact absurd h hempty
  have hnonempty : part ≠ [] := by
    rintro rfl
    exact hempty rfl
  rw [pathParts_between hfront hwords, List.mem_append, List.mem_append] at hpart
  rcases hpart with hpart | hpart | hpart
  · have hword := closesPath_of_word
      (isWord_of_received (hfront part hpart) hnonempty hreceived)
    exact ⟨hword.toIsSegment, fun _ => hword⟩
  · have hpart := sublist_of_mem_cutAll hpart
    have hpartLeft := hpart.trans List.filter_sublist
    obtain ⟨rfl, hescape⟩ := whole_of_received (hpartLeft.trans hsub) hreceived
    obtain rfl : s.toList = left := hpartLeft.antisymm hsub
    have hsegment : IsSegment s := by
      constructor
      · intro c hc
        exact of_decide_eq_true (List.mem_filter.mp (hpart.subset hc)).2
      · exact hstays
      · exact hescape
      · constructor
        · rintro rfl
          exact hdots.1 (by decide +kernel)
        · rintro rfl
          exact hdots.2 (by decide +kernel)
    refine ⟨hsegment, fun hnone => ⟨hsegment, ?_, ?_⟩⟩
    · rintro rfl
      exact hnonempty rfl
    · have htrimmed : s.toList.rdropWhile isEdge = s.toList :=
        (List.rdropWhile_prefix isEdge s.toList).sublist.antisymm (hend hnone)
      intro c hc
      have hlast := List.rdropWhile_eq_self_iff.mp htrimmed hnonempty
      rw [List.getLast?_eq_some_getLast hnonempty, Option.some.injEq] at hc
      rw [← hc]
      exact Bool.eq_false_iff.mpr hlast
  · have hword := closesPath_of_word
      (isWord_of_received (hwords part hpart) hnonempty hreceived)
    exact ⟨hword.toIsSegment, fun _ => hword⟩

end Arriving

end HeatingControl.Target
