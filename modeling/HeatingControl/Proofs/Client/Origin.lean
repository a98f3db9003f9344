import HeatingControl.Client.Exchange
import HeatingControl.Config.SocketAddress
import HeatingControl.Proofs.Client.Target
import HeatingControl.Proofs.Text.Numeral

/-!
# Urls under an origin

An origin is a scheme, a host and perhaps a port, spelled as a url keeps them. A url that a client
makes of an origin and a path asks for this path alone.
-/
namespace HeatingControl

namespace Url

/-- A part of a host name, in small letters, that stands for itself. -/
def isLabel (cs : List Char) : Bool :=
  !cs.isEmpty && cs.all (fun c => (Target.isIdChar c || c = '_') && Text.lowerChar c = c) &&
    (Text.afterStart? "xn--".toList cs).isNone

/-- Whether a host that ends in this part is an address of four octets, or none at all. -/
def isNumeric (label : List Char) : Bool :=
  label.all Text.isDigit || (Text.afterStart? "0x".toList label).isSome

/-- A host name, or an address of four octets or of eight groups. -/
inductive IsHost : List Char → Prop where
  | name {cs : List Char} (labels : ∀ l ∈ Text.cutAll '.' cs, isLabel l = true)
    (last : (Text.cutAll '.' cs).getLast?.any isNumeric = false) : IsHost cs
  | octets {l : List Nat} (length : l.length = 4) (bound : ∀ n ∈ l, n < 256) :
    IsHost (SocketAddress.octetChars l)
  | groups {l : List Nat} (length : l.length = 8) (bound : ∀ n ∈ l, n < 65536) :
    IsHost ('[' :: SocketAddress.shortChars l ++ [']'])

/-- No port, or one that is not the usual one. -/
def IsPort (usual : Nat) (port : List Char) : Prop :=
  port = [] ∨ ∃ n < 65536, n ≠ usual ∧ port = ':' :: Text.digits n

/-- A scheme, a host and perhaps a port, spelled as a url keeps them. -/
def IsOrigin (origin : String) : Prop :=
  ∃ scheme ∈ [("http", 80), ("https", 443)], ∃ host port : List Char,
    IsHost host ∧ IsPort scheme.2 port ∧
      origin.toList = scheme.1.toList ++ "://".toList ++ (host ++ port)

/-- What the host and the port are made of. -/
def isHostChar (c : Char) : Bool := Target.isIdChar c || "_.:[]".toList.contains c

theorem isHostChar_of_digits {n : Nat} {c : Char} (h : c ∈ Text.digits n) :
    isHostChar c = true := by
  simp [isHostChar, Target.isIdChar, Text.isWordChar, Text.isDigit_of_mem_digits n c h]

theorem isHostChar_of_hexDigits {n : Nat} {c : Char} (h : c ∈ Text.hexDigits n) :
    isHostChar c = true := by
  have hdigit : ∀ d < 16, isHostChar (Text.hexDigit d) = true := by decide
  induction n using Text.hexDigits.induct with
  | case1 n hn =>
    rw [Text.hexDigits, if_pos hn, List.mem_singleton] at h
    rw [h]
    exact hdigit n hn
  | case2 n hn ih =>
    rw [Text.hexDigits, if_neg hn, List.mem_append, List.mem_singleton] at h
    rcases h with h | rfl
    · exact ih h
    · exact hdigit _ (by omega)

theorem isHostChar_of_groups {l : List Nat} {c : Char} (h : c ∈ SocketAddress.groupChars l) :
    isHostChar c = true := by
  rcases Text.mem_intercalate h with rfl | ⟨p, hp, hc⟩
  · decide
  · obtain ⟨n, -, rfl⟩ := List.mem_map.mp hp
    exact isHostChar_of_hexDigits hc

theorem isHostChar_of_shortest {l : List Nat} {c : Char} (h : c ∈ SocketAddress.shortChars l) :
    isHostChar c = true := by
  unfold SocketAddress.shortChars at h
  simp only at h
  split at h
  · simp only [List.mem_append, List.mem_cons] at h
    rcases h with h | rfl | rfl | h
    · exact isHostChar_of_groups h
    · decide
    · decide
    · exact isHostChar_of_groups h
  · exact isHostChar_of_groups h

theorem IsHost.chars {host : List Char} (h : IsHost host) : ∀ c ∈ host, isHostChar c = true := by
  intro c hc
  cases h with
  | name labels last =>
    rcases Text.mem_or_mem_cutAll '.' hc with rfl | ⟨l, hl, hmem⟩
    · decide
    · have hlabel := labels l hl
      simp only [isLabel, Bool.and_eq_true, List.all_eq_true, Bool.or_eq_true,
        decide_eq_true_eq] at hlabel
      rcases (hlabel.1.2 c hmem).1 with hid | rfl
      · simp [isHostChar, hid]
      · decide
  | octets length bound =>
    rcases Text.mem_intercalate hc with rfl | ⟨p, hp, hc⟩
    · decide
    · obtain ⟨n, -, rfl⟩ := List.mem_map.mp hp
      exact isHostChar_of_digits hc
  | groups length bound =>
    rcases List.mem_cons.mp hc with rfl | hc
    · decide
    · rcases List.mem_append.mp hc with hc | hc
      · exact isHostChar_of_shortest hc
      · rw [List.mem_singleton.mp hc]
        decide

theorem IsHost.ne_nil {host : List Char} (h : IsHost host) : host ≠ [] := by
  cases h with
  | name labels last =>
    rintro rfl
    exact absurd (labels [] (by simp [Text.cutAll])) (by decide)
  | @octets l length bound =>
    obtain ⟨a, rest, rfl⟩ := List.exists_cons_of_length_eq_add_one length
    obtain ⟨b, rest, rfl⟩ := List.exists_cons_of_length_eq_add_one (Nat.succ.inj length)
    simp [SocketAddress.octetChars]
  | groups length bound => exact List.cons_ne_nil _ _

theorem IsPort.chars {usual : Nat} {port : List Char} (h : IsPort usual port) :
    ∀ c ∈ port, isHostChar c = true := by
  obtain rfl | ⟨n, -, -, rfl⟩ := h
  · simp
  · intro c hc
    rcases List.mem_cons.mp hc with rfl | hc
    · decide
    · exact isHostChar_of_digits hc

theorem of_isHostChar {c : Char} (h : isHostChar c = true) :
    endsHost c = false ∧ Target.isLineBreak c = false := by
  rcases Bool.or_eq_true_iff.mp h with h | h
  · refine Target.of_isIdChar
      (P := fun c => endsHost c = false ∧ Target.isLineBreak c = false) ?_ h
    decide +kernel
  · have hmarks : "_.:[]".toList.all (fun c => !endsHost c && !Target.isLineBreak c) = true := by
      decide
    simpa using List.all_eq_true.mp hmarks c (List.contains_iff_mem.mp h)

theorem cutOrigin_eq {scheme host : List Char} (hscheme : ':' ∉ scheme) (hne : host ≠ [])
    (hhost : ∀ c ∈ host, endsHost c = false) (rest : List Char) :
    cutOrigin (scheme ++ "://".toList ++ host ++ '/' :: rest) =
      (scheme ++ "://".toList ++ host, '/' :: rest) := by
  have hkept : ∀ c ∈ host, (!endsHost c) = true := fun c hc => by simp [hhost c hc]
  have hslashes : ("//".toList ++ (host ++ '/' :: rest)).dropWhile isSlash =
      host ++ '/' :: rest := by
    cases host with
    | nil => exact absurd rfl hne
    | cons c host =>
      have hc : isSlash c = false := by
        have hends := hhost c (by simp)
        simp only [endsHost, Bool.or_eq_false_iff] at hends
        exact hends.1.1
      change (c :: (host ++ '/' :: rest)).dropWhile isSlash = _
      rw [List.dropWhile_cons_of_neg (by simp [hc])]
      rfl
  have hcolon : scheme ++ "://".toList ++ host ++ '/' :: rest =
      scheme ++ ':' :: ("//".toList ++ (host ++ '/' :: rest)) := by simp
  rw [cutOrigin, hcolon, Text.cutFirst_append hscheme]
  simp only [Option.getD_some, hslashes, List.takeWhile_append_of_pos hkept,
    List.dropWhile_append_of_pos hkept]
  simp [endsHost, isSlash]

theorem cleaned_append {origin path : String} {cs : List Char}
    (horigin : ∀ c ∈ origin.toList, Target.isLineBreak c = false)
    (hpath : path.toList = '/' :: cs) :
    Target.cleaned (origin ++ path) = origin.toList ++ Target.cleaned path ∧
      ∃ rest, Target.cleaned path = '/' :: rest := by
  have htrim := Target.rdropWhile_append (c := '/') (by decide) origin.toList cs
  have htrim' := Target.rdropWhile_append (c := '/') (by decide) [] cs
  have hkept : origin.toList.filter (fun c => !Target.isLineBreak c) = origin.toList :=
    List.filter_eq_self.mpr fun c hc => by simp [horigin c hc]
  have hclean : Target.cleaned path =
      '/' :: (cs.rdropWhile Target.isEdge).filter fun c => !Target.isLineBreak c := by
    change (path.toList.rdropWhile Target.isEdge).filter _ = _
    rw [hpath, List.nil_append] at *
    rw [htrim']
    rfl
  refine ⟨?_, _, hclean⟩
  change ((origin ++ path).toList.rdropWhile Target.isEdge).filter _ = _
  rw [String.toList_append, hpath, htrim, List.filter_append, hkept, hclean]
  rfl

theorem read_of_origin {origin path : String} {cs : List Char} (h : IsOrigin origin)
    (hpath : path.toList = '/' :: cs) : read (origin ++ path) =
      match Text.cutFirst '#' (Target.cleaned path) with
      | none => ofParts origin.toList (Target.cleaned path) none
      | some (before, fragment) => ofParts origin.toList before (some fragment) := by
  obtain ⟨scheme, hscheme, host, port, hhost, hport, horigin⟩ := h
  have hchars : ∀ c ∈ host ++ port, isHostChar c = true := by
    intro c hc
    exact (List.mem_append.mp hc).elim (hhost.chars c) (hport.chars c)
  have hschemes : ∀ scheme ∈ [("http", 80), ("https", 443)], ':' ∉ scheme.1.toList ∧
      (scheme.1.toList ++ "://".toList).any Target.isLineBreak = false := by decide
  obtain ⟨hcolon, hbreaks⟩ := hschemes scheme hscheme
  have hlines : ∀ c ∈ origin.toList, Target.isLineBreak c = false := by
    intro c hc
    rw [horigin] at hc
    rcases List.mem_append.mp hc with hc | hc
    · exact Bool.eq_false_iff.mpr (List.any_eq_false.mp hbreaks c hc)
    · exact (of_isHostChar (hchars c hc)).2
  obtain ⟨hcleaned, rest, hrest⟩ := cleaned_append hlines hpath
  have hcut := cutOrigin_eq hcolon (by simp [hhost.ne_nil])
    (fun c hc => (of_isHostChar (hchars c hc)).1) rest
  rw [← horigin] at hcut
  have hread := read.eq_def (origin ++ path)
  rw [hcleaned, hrest, hcut] at hread
  rw [hrest]
  exact hread

theorem ofParts_target {origin before : List Char} {fragment : Option (List Char)}
    (h : before.head? = some '/') : (ofParts origin before fragment).target =
      Target.ofChars before := by
  simp [ofParts, h, isSlash]

/-- A path is asked for as it is under any origin. -/
theorem read_target {origin path : String} {cs : List Char} (h : IsOrigin origin)
    (hpath : path.toList = '/' :: cs) :
    (read (origin ++ path)).target = Target.ofPath path := by
  have hempty : ∀ c ∈ "".toList, Target.isLineBreak c = false := by simp
  obtain ⟨-, rest, hrest⟩ := cleaned_append hempty hpath
  rw [read_of_origin h hpath, Target.ofPath, Text.takeWhile_eq_cutFirst, hrest]
  cases hfragment : Text.cutFirst '#' ('/' :: rest) with
  | none => exact ofParts_target rfl
  | some p =>
    have hslash : p.1.head? = some '/' := by
      rw [Text.cutFirst, if_neg (by decide), Option.map_eq_some_iff] at hfragment
      obtain ⟨q, -, rfl⟩ := hfragment
      rfl
    exact ofParts_target hslash

theorem chars_of_words {origin : String} {segments : List (List Char)} (h : IsOrigin origin)
    (hwords : ∀ s ∈ segments, ∀ c ∈ s, Target.isIdChar c = true) (hne : segments ≠ []) :
    (read (origin ++ String.ofList (Target.joined segments))).chars =
      origin.toList ++ Target.joined segments := by
  obtain ⟨first, segments, rfl⟩ := List.exists_cons_of_ne_nil hne
  have hpath : (String.ofList (Target.joined (first :: segments))).toList =
      '/' :: (first ++ Target.joined segments) := by
    rw [String.toList_ofList]
    rfl
  have hfragment : Text.cutFirst '#' (Target.joined (first :: segments)) = none :=
    Text.cutFirst_eq_none (Target.not_mem_joined hwords (by decide) (by decide))
  have htarget := read_target h hpath
  rw [Target.ofPath_joined hwords] at htarget
  rw [chars, htarget, read_of_origin h hpath, Target.cleaned_joined hwords, hfragment]
  simp [ofParts]

end Url
end HeatingControl
