import HeatingControl.Proofs.Text.Cut
import HeatingControl.Proofs.Text.Numeral
import HeatingControl.Status

/-!
# Written durations

A written duration has a number for each unit from the first one shown down to the seconds. Every
duration is written in exactly one way, and no two are written alike.
-/
namespace HeatingControl

inductive DurationUnit where
  | day
  | hour
  | minute
  | second
  deriving DecidableEq

namespace DurationUnit

def mark : DurationUnit → Char
  | .day => 'j'
  | .hour => 'h'
  | .minute => 'm'
  | .second => 's'

def seconds : DurationUnit → Nat
  | .day => 86400
  | .hour => 3600
  | .minute => 60
  | .second => 1

def limit? : DurationUnit → Option Nat
  | .day => none
  | .hour => some 24
  | .minute => some 60
  | .second => some 60

def all : List DurationUnit := [.day, .hour, .minute, .second]

theorem mark_injective {u v : DurationUnit} (h : u.mark = v.mark) : u = v := by
  cases u <;> cases v <;> first | rfl | exact absurd h (by decide)

end DurationUnit

structure DurationPart where
  count : Nat
  unit : DurationUnit
  deriving DecidableEq

namespace DurationPart

def chars (p : DurationPart) : List Char := Text.digits p.count ++ [p.unit.mark]

theorem chars_injective {p q : DurationPart} (h : p.chars = q.chars) : p = q := by
  obtain ⟨hdigits, hmark⟩ := List.append_inj' h rfl
  have hcount := congrArg (fun ds => Nat.ofDigitChars 10 ds 0) hdigits
  simp only [Text.ofDigitChars_digits] at hcount
  have hunit := DurationUnit.mark_injective (List.singleton_inj.mp hmark)
  cases p
  cases q
  simp_all

theorem blank_not_mem_chars (p : DurationPart) : ' ' ∉ p.chars := by
  intro h
  rcases List.mem_append.mp h with hdigit | hmark
  · exact absurd (Text.isDigit_of_mem_digits p.count ' ' hdigit) (by decide)
  · have hother : ∀ u : DurationUnit, ' ' ≠ u.mark := by
      intro u
      cases u <;> decide
    exact hother p.unit (List.mem_singleton.mp hmark)

end DurationPart

namespace Duration

def total : List DurationPart → Nat
  | [] => 0
  | p :: rest => p.count * p.unit.seconds + total rest

def text (parts : List DurationPart) : String :=
  String.ofList (List.intercalate [' '] (parts.map DurationPart.chars))

/-- A duration as it is to be written: with all units from the first one down to the seconds, each
number less than what makes one of the next unit, and the first one not zero unless it counts
seconds. -/
structure Canonical (parts : List DurationPart) : Prop where
  shown : parts ≠ []
  units : parts.map (·.unit) <:+ DurationUnit.all
  bounded : ∀ p ∈ parts, ∀ limit ∈ p.unit.limit?, p.count < limit
  lead : ∀ p ∈ parts.head?, p.count ≠ 0 ∨ p.unit = .second

/-- Parts that are written alike are the same: cut at the blanks, every piece is a part again. -/
theorem text_injective {parts parts' : List DurationPart} (hne : parts ≠ []) (hne' : parts' ≠ [])
    (h : text parts = text parts') : parts = parts' := by
  have hcut : ∀ parts : List DurationPart, parts ≠ [] →
      Text.cutAll ' ' (text parts).toList = parts.map DurationPart.chars := by
    intro parts hne
    rw [text, String.toList_ofList]
    refine Text.cutAll_intercalate ?_ (by simpa using hne)
    rintro _ hpart
    obtain ⟨p, -, rfl⟩ := List.mem_map.mp hpart
    exact p.blank_not_mem_chars
  have hchars : parts.map DurationPart.chars = parts'.map DurationPart.chars := by
    rw [← hcut parts hne, ← hcut parts' hne', h]
  exact List.map_injective_iff.mpr (fun _ _ => DurationPart.chars_injective) hchars

section Parts

variable {d h m s : Nat}

def parts (d h m s : Nat) : List DurationPart :=
  ([⟨d, .day⟩, ⟨h, .hour⟩, ⟨m, .minute⟩].dropWhile fun p => p.count = 0) ++ [⟨s, .second⟩]

theorem parts_of_days (hd : d ≠ 0) :
    parts d h m s = [⟨d, .day⟩, ⟨h, .hour⟩, ⟨m, .minute⟩, ⟨s, .second⟩] := by
  simp [parts, hd]

theorem parts_of_hours (hh : h ≠ 0) :
    parts 0 h m s = [⟨h, .hour⟩, ⟨m, .minute⟩, ⟨s, .second⟩] := by
  simp [parts, hh]

theorem parts_of_minutes (hm : m ≠ 0) : parts 0 0 m s = [⟨m, .minute⟩, ⟨s, .second⟩] := by
  simp [parts, hm]

theorem parts_of_seconds (s : Nat) : parts 0 0 0 s = [⟨s, .second⟩] := rfl

theorem shape_cases (d h m : Nat) :
    d ≠ 0 ∨ d = 0 ∧ h ≠ 0 ∨ d = 0 ∧ h = 0 ∧ m ≠ 0 ∨ d = 0 ∧ h = 0 ∧ m = 0 := by
  omega

theorem total_parts (d h m s : Nat) :
    total (parts d h m s) = d * 86400 + h * 3600 + m * 60 + s := by
  rcases shape_cases d h m with hd | ⟨rfl, hh⟩ | ⟨rfl, rfl, hm⟩ | ⟨rfl, rfl, rfl⟩
  · rw [parts_of_days hd]
    simp [total, DurationUnit.seconds, Nat.add_assoc]
  · rw [parts_of_hours hh]
    simp [total, DurationUnit.seconds, Nat.add_assoc]
  · rw [parts_of_minutes hm]
    simp [total, DurationUnit.seconds]
  · rw [parts_of_seconds]
    simp [total, DurationUnit.seconds]

theorem canonical_parts (hh : h < 24) (hm : m < 60) (hs : s < 60) : Canonical (parts d h m s) := by
  rcases shape_cases d h m with hd | ⟨rfl, hne⟩ | ⟨rfl, rfl, hne⟩ | ⟨rfl, rfl, rfl⟩
  · rw [parts_of_days hd]
    exact ⟨by simp, ⟨[], rfl⟩, by simp [DurationUnit.limit?, hh, hm, hs], by simp [hd]⟩
  · rw [parts_of_hours hne]
    exact ⟨by simp, ⟨[.day], rfl⟩, by simp [DurationUnit.limit?, hh, hm, hs], by simp [hne]⟩
  · rw [parts_of_minutes hne]
    exact ⟨by simp, ⟨[.day, .hour], rfl⟩, by simp [DurationUnit.limit?, hm, hs], by simp [hne]⟩
  · rw [parts_of_seconds]
    exact ⟨by simp, ⟨[.day, .hour, .minute], rfl⟩, by simp [DurationUnit.limit?, hs], by simp⟩

theorem shape_of_units {ps : List DurationPart} (h : ps.map (·.unit) <:+ DurationUnit.all) :
    (∃ d h m s, ps = [⟨d, .day⟩, ⟨h, .hour⟩, ⟨m, .minute⟩, ⟨s, .second⟩]) ∨
    (∃ h m s, ps = [⟨h, .hour⟩, ⟨m, .minute⟩, ⟨s, .second⟩]) ∨
    (∃ m s, ps = [⟨m, .minute⟩, ⟨s, .second⟩]) ∨ (∃ s, ps = [⟨s, .second⟩]) ∨ ps = [] := by
  simp only [DurationUnit.all, List.suffix_cons_iff, List.suffix_nil, List.map_eq_cons_iff,
    List.map_eq_nil_iff] at h
  rcases h with ⟨⟨d, _⟩, _, rfl, rfl, ⟨h, _⟩, _, rfl, rfl, ⟨m, _⟩, _, rfl, rfl, ⟨s, _⟩, _, rfl,
      rfl, rfl⟩ | ⟨⟨h, _⟩, _, rfl, rfl, ⟨m, _⟩, _, rfl, rfl, ⟨s, _⟩, _, rfl, rfl, rfl⟩ |
      ⟨⟨m, _⟩, _, rfl, rfl, ⟨s, _⟩, _, rfl, rfl, rfl⟩ | ⟨⟨s, _⟩, _, rfl, rfl, rfl⟩ | rfl
  · exact Or.inl ⟨d, h, m, s, rfl⟩
  · exact Or.inr (Or.inl ⟨h, m, s, rfl⟩)
  · exact Or.inr (Or.inr (Or.inl ⟨m, s, rfl⟩))
  · exact Or.inr (Or.inr (Or.inr (Or.inl ⟨s, rfl⟩)))
  · exact Or.inr (Or.inr (Or.inr (Or.inr rfl)))

theorem Canonical.exists_parts {ps : List DurationPart} (hps : Canonical ps) :
    ∃ d h m s, h < 24 ∧ m < 60 ∧ s < 60 ∧ ps = parts d h m s := by
  obtain ⟨hshown, hunits, hbounded, hlead⟩ := hps
  rcases shape_of_units hunits with
    ⟨d, h, m, s, rfl⟩ | ⟨h, m, s, rfl⟩ | ⟨m, s, rfl⟩ | ⟨s, rfl⟩ | rfl
  · have hd : d ≠ 0 := by simpa using hlead
    obtain ⟨hh, hm, hs⟩ : h < 24 ∧ m < 60 ∧ s < 60 := by
      simpa [DurationUnit.limit?] using hbounded
    exact ⟨d, h, m, s, hh, hm, hs, (parts_of_days hd).symm⟩
  · have hne : h ≠ 0 := by simpa using hlead
    obtain ⟨hh, hm, hs⟩ : h < 24 ∧ m < 60 ∧ s < 60 := by
      simpa [DurationUnit.limit?] using hbounded
    exact ⟨0, h, m, s, hh, hm, hs, (parts_of_hours hne).symm⟩
  · have hne : m ≠ 0 := by simpa using hlead
    obtain ⟨hm, hs⟩ : m < 60 ∧ s < 60 := by simpa [DurationUnit.limit?] using hbounded
    exact ⟨0, 0, m, s, by decide, hm, hs, (parts_of_minutes hne).symm⟩
  · have hs : s < 60 := by simpa [DurationUnit.limit?] using hbounded
    exact ⟨0, 0, 0, s, by decide, by decide, hs, rfl⟩
  · exact absurd rfl hshown

theorem Canonical.unique {ps qs : List DurationPart} (hps : Canonical ps) (hqs : Canonical qs)
    (hsame : total ps = total qs) : ps = qs := by
  obtain ⟨d, h, m, s, hh, hm, hs, rfl⟩ := hps.exists_parts
  obtain ⟨d', h', m', s', hh', hm', hs', rfl⟩ := hqs.exists_parts
  rw [total_parts, total_parts] at hsame
  obtain ⟨rfl, rfl, rfl, rfl⟩ : d = d' ∧ h = h' ∧ m = m' ∧ s = s' := by omega
  rfl

theorem durationText_parts (hh : h < 24) (hm : m < 60) (hs : s < 60) :
    durationText (d * 86400 + h * 3600 + m * 60 + s) = text (parts d h m s) := by
  have hdays : (d * 86400 + h * 3600 + m * 60 + s) / 86400 = d := by omega
  have hhours : (d * 86400 + h * 3600 + m * 60 + s) % 86400 / 3600 = h := by omega
  have hminutes : (d * 86400 + h * 3600 + m * 60 + s) % 3600 / 60 = m := by omega
  have hseconds : (d * 86400 + h * 3600 + m * 60 + s) % 60 = s := by omega
  simp only [durationText, hdays, hhours, hminutes, hseconds]
  apply String.toList_inj.mp
  rcases shape_cases d h m with hd | ⟨rfl, hne⟩ | ⟨rfl, rfl, hne⟩ | ⟨rfl, rfl, rfl⟩
  · rw [parts_of_days hd]
    simp [text, DurationPart.chars, DurationUnit.mark, Text.natText_toList, Nat.pos_of_ne_zero hd]
  · rw [parts_of_hours hne]
    simp [text, DurationPart.chars, DurationUnit.mark, Text.natText_toList, Nat.pos_of_ne_zero hne]
  · rw [parts_of_minutes hne]
    simp [text, DurationPart.chars, DurationUnit.mark, Text.natText_toList, Nat.pos_of_ne_zero hne]
  · rw [parts_of_seconds]
    simp [text, DurationPart.chars, DurationUnit.mark, Text.natText_toList]

end Parts
end Duration

open Duration in
/-- A duration has one canonical form. Its text is that of this form and of no other, so that no
two durations are written alike. -/
theorem durations_canonical_and_lossless (seconds : Nat) :
    (∃ parts, Canonical parts ∧ total parts = seconds ∧ durationText seconds = text parts) ∧
    (∀ parts, Canonical parts →
      (durationText seconds = text parts ↔ total parts = seconds)) ∧
    ∀ other, durationText other = durationText seconds → other = seconds := by
  have hform : ∀ n, ∃ parts, Canonical parts ∧ total parts = n ∧ durationText n = text parts := by
    intro n
    have hn : n / 86400 * 86400 + n % 86400 / 3600 * 3600 + n % 3600 / 60 * 60 + n % 60 = n := by
      omega
    have hh : n % 86400 / 3600 < 24 := by omega
    have hm : n % 3600 / 60 < 60 := by omega
    have hs : n % 60 < 60 := by omega
    refine ⟨_, canonical_parts hh hm hs, (total_parts _ _ _ _).trans hn, ?_⟩
    rw [← durationText_parts hh hm hs, hn]
  obtain ⟨own, hown, htotal, htext⟩ := hform seconds
  refine ⟨⟨own, hown, htotal, htext⟩, fun parts hparts => ⟨fun h => ?_, fun h => ?_⟩, ?_⟩
  · rw [← text_injective hown.shown hparts.shown (htext.symm.trans h), htotal]
  · rw [htext, hown.unique hparts (htotal.trans h.symm)]
  · intro other h
    obtain ⟨parts, hparts, hother, hsame⟩ := hform other
    rw [← hother, ← htotal,
      text_injective hparts.shown hown.shown (hsame.symm.trans (h.trans htext))]

/-- Zeros behind the first unit are shown. -/
theorem day_and_hour_written :
    let parts : List DurationPart := [⟨1, .day⟩, ⟨1, .hour⟩, ⟨0, .minute⟩, ⟨0, .second⟩]
    Duration.Canonical parts ∧ durationText 90000 = Duration.text parts ∧
      Duration.text parts = "1j 1h 0m 0s" ∧
      durationText (25 * 3600) = durationText 90000 ∧ 25 * 3600 = 90000 := by
  intro parts
  have hparts : Duration.Canonical parts :=
    Duration.canonical_parts (d := 1) (h := 1) (m := 0) (s := 0) (by decide) (by decide) (by decide)
  obtain ⟨-, htext, hlossless⟩ := durations_canonical_and_lossless 90000
  exact ⟨hparts, (htext parts hparts).mpr rfl, by decide +kernel, rfl, hlossless (25 * 3600) rfl⟩

end HeatingControl
