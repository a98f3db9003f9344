import HeatingControl.Config.Settings
import HeatingControl.Proofs.Text.Cut

/-!
# Settings that make a client

The base address is checked twice: as it is written, when the settings are accepted, and without the
slashes at its end, when a client is made of it. The second check refuses all that the first one
refuses, and beside that the addresses in which nothing but slashes follows the scheme.
-/
namespace HeatingControl

section Trailing

variable {α : Type} {p : α → Bool} {l rest : List α}

/-- What is dropped altogether takes part of what stands before it along. -/
theorem rdropWhile_append_of_all (h : ∀ c ∈ rest, p c = true) :
    (l ++ rest).rdropWhile p = l.rdropWhile p := by
  have hdropped : ∀ c ∈ rest.reverse, p c = true := fun c hc => h c (List.mem_reverse.mp hc)
  rw [List.rdropWhile, List.reverse_append, List.dropWhile_append_of_pos hdropped, List.rdropWhile]

theorem rdropWhile_append_of_kept (h : ¬ ∀ c ∈ rest, p c = true) :
    (l ++ rest).rdropWhile p = l ++ rest.rdropWhile p := by
  have hkept : (rest.reverse.dropWhile p).isEmpty = false := by
    rw [List.isEmpty_eq_false_iff, ne_eq, List.dropWhile_eq_nil_iff]
    exact fun hdropped => h fun c hc => hdropped c (List.mem_reverse.mpr hc)
  rw [List.rdropWhile, List.reverse_append, List.dropWhile_append, hkept]
  simp [List.rdropWhile]

end Trailing

namespace Client

def schemes : List String := ["http://", "https://"]

theorem isWeb_iff {cs : List Char} : isWeb cs = true ↔ ∃ scheme ∈ schemes, scheme.toList <+: cs := by
  have hstart : ∀ start : List Char, (Text.afterStart? start cs).isSome = true ↔ start <+: cs := by
    intro start
    rw [Option.isSome_iff_exists]
    exact exists_congr fun rest => Text.afterStart?_eq_some.trans eq_comm
  rw [isWeb, Bool.or_eq_true, hstart, hstart]
  simp only [schemes, List.mem_cons, List.not_mem_nil, or_false, exists_eq_or_imp, exists_eq_left]

/-- Nothing but slashes follows the scheme. -/
def HostMissing (url : String) : Prop :=
  ∃ scheme ∈ schemes, ∃ rest, url.toList = scheme.toList ++ rest ∧ ∀ c ∈ rest, c = '/'

theorem withoutSlashes_eq (url : String) :
    withoutSlashes url = url.toList.rdropWhile (· = '/') := rfl

theorem isWeb_of_hostMissing {url : String} (h : HostMissing url) :
    isWeb (withoutSlashes url) = false := by
  obtain ⟨scheme, hscheme, rest, hurl, hrest⟩ := h
  have hbare : ∀ s ∈ schemes, isWeb (s.toList.rdropWhile (· = '/')) = false := by decide
  rw [withoutSlashes_eq, hurl, rdropWhile_append_of_all (by simpa using hrest)]
  exact hbare scheme hscheme

theorem isWeb_withoutSlashes {url : String} :
    isWeb (withoutSlashes url) = true ↔ isWeb url.toList = true ∧ ¬ HostMissing url := by
  constructor
  · intro h
    refine ⟨?_, fun hmissing => ?_⟩
    · obtain ⟨scheme, hscheme, hstart⟩ := isWeb_iff.mp h
      exact isWeb_iff.mpr ⟨scheme, hscheme, hstart.trans (List.rdropWhile_prefix ..)⟩
    · rw [isWeb_of_hostMissing hmissing] at h
      cases h
  · rintro ⟨hweb, hhost⟩
    obtain ⟨scheme, hscheme, rest, hurl⟩ := isWeb_iff.mp hweb
    have hkept : ¬ ∀ c ∈ rest, decide (c = '/') = true := fun hrest =>
      hhost ⟨scheme, hscheme, rest, hurl.symm, by simpa using hrest⟩
    rw [withoutSlashes_eq, ← hurl, rdropWhile_append_of_kept hkept]
    exact isWeb_iff.mpr ⟨scheme, hscheme, List.prefix_append ..⟩

theorem build_ok_iff {base root : String} :
    (∃ c, build base root = .ok c) ↔ isWeb base.toList = true ∧ ¬ HostMissing base := by
  rw [← isWeb_withoutSlashes]
  unfold build
  dsimp only
  split <;> simp_all

theorem build_of_hostMissing {base : String} (h : HostMissing base) (root : String) :
    build base root = .error ⟨base⟩ := by
  simp [build, isWeb_of_hostMissing h]

end Client

namespace Settings

open HeatingControl.Client (HostMissing isWeb)

theorem isWeb_of_validate {s : Settings} (h : s.validate = .ok s) :
    isWeb s.baseUrl.toList = true := by
  unfold validate at h
  split at h
  · cases h
  split at h
  · cases h
  split at h
  · assumption
  · cases h

theorem not_isWeb_of_validate {s : Settings} {url : String}
    (h : s.validate = .error (.baseUrl url)) : isWeb s.baseUrl.toList = false := by
  unfold validate at h
  split at h
  · cases h
  split at h
  · cases h
  split at h
  · cases h
  · simpa using ‹¬ isWeb _ = true›

/-- Of accepted settings a client is made unless nothing but slashes follows the scheme of their
base address; such an address is refused. Settings of which a client is made are not rejected for
their base address. -/
theorem accepted_settings_make_client (s : Settings) :
    (s.validate = .ok s →
      (¬ HostMissing s.baseUrl → ∃ c, s.client = .ok c) ∧
      (HostMissing s.baseUrl → s.client = .error ⟨s.baseUrl⟩)) ∧
    ((∃ c, s.client = .ok c) → ∀ url, s.validate ≠ .error (.baseUrl url)) := by
  refine ⟨fun haccepted => ⟨fun hhost => ?_, fun hmissing => ?_⟩, fun hclient url hrejected => ?_⟩
  · exact Client.build_ok_iff.mpr ⟨isWeb_of_validate haccepted, hhost⟩
  · exact Client.build_of_hostMissing hmissing s.apiRoot
  · have hweb := (Client.build_ok_iff.mp hclient).1
    rw [not_isWeb_of_validate hrejected] at hweb
    cases hweb

/-- Slashes at the end are dropped where they follow a host; where they do not, the scheme loses its
own. -/
theorem slashes_behind_the_address :
    let s := { standard with baseUrl := "https://ofp.local//" }
    let t := { standard with baseUrl := "https:////" }
    s.validate = .ok s ∧ t.validate = .ok t ∧ (∃ c, s.client = .ok c) ∧
      (∀ url, s.validate ≠ .error (.baseUrl url)) ∧ t.client = .error ⟨"https:////"⟩ := by
  intro s t
  have hs : s.validate = .ok s := by decide +kernel
  have ht : t.validate = .ok t := by decide +kernel
  obtain ⟨hmakes, hkept⟩ := accepted_settings_make_client s
  obtain ⟨hrefuses, -⟩ := accepted_settings_make_client t
  have hhost : ¬ HostMissing s.baseUrl := by
    intro hmissing
    have hnone : isWeb (Client.withoutSlashes s.baseUrl) = false :=
      Client.isWeb_of_hostMissing hmissing
    revert hnone
    decide +kernel
  have hclient := (hmakes hs).1 hhost
  refine ⟨hs, ht, hclient, hkept hclient, (hrefuses ht).2 ?_⟩
  exact ⟨"https://", by decide, ['/', '/'], by decide, by simp⟩

def atAddress (url : String) : Config.Environment := fun name =>
  if name = "OFP_CONTROLLER_URL" then some url else none

/-- The daemon accepts an address without a host, and makes no client of it. -/
theorem hostless_address_accepted :
    let s := { standard with baseUrl := "http://" }
    load none (atAddress "http://") = .ok s ∧ s.validate = .ok s ∧
      s.client = .error ⟨"http://"⟩ := by
  decide +kernel

end Settings
end HeatingControl
