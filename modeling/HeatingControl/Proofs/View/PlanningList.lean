import HeatingControl.Proofs.Text.Numeral
import HeatingControl.Proofs.Text.Utf8
import HeatingControl.Proofs.View.Choice
import Mathlib.Data.Prod.Lex
import Mathlib.Data.String.Basic

/-!
# The list of plannings

Plannings are listed by the octets of their names and then by their numbers. One of them is
selected whenever there is one: the requested planning, or else the first of the list. Its option is
the one that is marked, even where several plannings have its number.
-/
namespace HeatingControl

theorem PlanningId.display_injective {a b : PlanningId} (h : a.display = b.display) : a = b := by
  have hread : (Except.ok a.number : Except Text.NumeralFault UInt32) = .ok b.number := by
    rw [← Text.readUInt32_natText, ← Text.readUInt32_natText]
    exact congrArg Text.readUInt32 h
  exact congrArg PlanningId.mk (Except.ok.inj hread)

namespace PlanningsView

variable {plannings : List Planning}

/-- By the octets of the name, and by the number where the names are the same. -/
def Precedes (a b : Planning) : Prop :=
  Utf8.encode a.name < Utf8.encode b.name ∨ a.name = b.name ∧ a.id.number ≤ b.id.number

instance (a b : Planning) : Decidable (Precedes a b) := inferInstanceAs (Decidable (_ ∨ _))

def place (p : Planning) : String ×ₗ ℕ := toLex (p.name, p.id.number.toNat)

theorem notAfter_iff {a b : Planning} : notAfter a b = true ↔ place a ≤ place b := by
  simp [notAfter, place, Prod.Lex.toLex_le_toLex, UInt32.le_iff_toNat_le]

theorem precedes_iff {a b : Planning} : Precedes a b ↔ place a ≤ place b := by
  rw [Precedes, Utf8.encode_lt_iff, place, place, Prod.Lex.toLex_le_toLex, UInt32.le_iff_toNat_le]

theorem sorted_perm (plannings : List Planning) : (sorted plannings).Perm plannings :=
  List.mergeSort_perm plannings notAfter

theorem sorted_precedes (plannings : List Planning) : (sorted plannings).Pairwise Precedes := by
  have htrans : ∀ a b c, notAfter a b = true → notAfter b c = true → notAfter a c = true := by
    intro a b c hab hbc
    rw [notAfter_iff] at *
    exact hab.trans hbc
  have htotal : ∀ a b, (notAfter a b || notAfter b a) = true := by
    intro a b
    rw [Bool.or_eq_true, notAfter_iff, notAfter_iff]
    exact le_total (place a) (place b)
  exact (List.pairwise_mergeSort htrans htotal plannings).imp
    fun h => precedes_iff.mpr (notAfter_iff.mp h)

theorem Precedes.antisymm {a b : Planning} (hab : Precedes a b) (hba : Precedes b a) : a = b := by
  have hplace := le_antisymm (precedes_iff.mp hab) (precedes_iff.mp hba)
  simp only [place, toLex_inj, Prod.mk.injEq, UInt32.toNat_inj] at hplace
  obtain ⟨hname, hnumber⟩ := hplace
  cases a
  cases b
  exact congrArg₂ Planning.mk (congrArg PlanningId.mk hnumber) hname

theorem sorted_unique {l : List Planning} (hperm : l.Perm plannings) (hl : l.Pairwise Precedes) :
    sorted plannings = l :=
  List.Perm.eq_of_pairwise (fun _ _ _ _ hab hba => hab.antisymm hba) (sorted_precedes plannings) hl
    ((sorted_perm plannings).trans hperm.symm)

theorem selection_eq (plannings : List Planning) (requested : Option PlanningId) :
    selection plannings requested =
      if requested ∈ plannings.map fun p => some p.id then requested
      else plannings.head?.map Planning.id := by
  cases requested with
  | none => simp [selection]
  | some id =>
    have hlisted : (plannings.any fun p => p.id = id) = true ↔
        some id ∈ plannings.map fun p => some p.id := by
      simp
    by_cases h : some id ∈ plannings.map fun p => some p.id
    · rw [if_pos h, selection, Option.filter_some, if_pos (hlisted.mpr h)]
      rfl
    · rw [if_neg h, selection, Option.filter_some, if_neg (mt hlisted.mp h)]
      rfl

theorem selected_eq (plannings : List Planning) (requested : Option PlanningId) :
    (render plannings requested).selected =
      if requested ∈ plannings.map fun p => some p.id then requested
      else (sorted plannings).head?.map Planning.id := by
  have hlisted : requested ∈ (sorted plannings).map (fun p => some p.id) ↔
      requested ∈ plannings.map fun p => some p.id := ((sorted_perm plannings).map _).mem_iff
  simp only [render, selection_eq, hlisted]

theorem marked_option (h : plannings ≠ []) (requested : Option PlanningId) :
    ∃ p ∈ plannings, (render plannings requested).selected = some p.id ∧
      (render plannings requested).plannings.filter (·.selected) =
        [⟨p.id.display, p.name, true⟩] := by
  obtain ⟨_, q, hq, hselected, -, -⟩ := marked_selection h requested
  have hoption : (render plannings requested).plannings.filter (·.selected) =
      (((sorted plannings).find? fun r => some q.id.display = some r.id.display).map
        fun r => ⟨r.id.display, r.name, true⟩).toList := by
    have hselection : selection (sorted plannings) requested = some q.id := hselected
    simp only [render, hselection, Choice.marked_eq, Option.map_some]
  cases hfind : (sorted plannings).find? fun r => some q.id.display = some r.id.display with
  | none =>
    exact absurd (decide_eq_true rfl) (List.find?_eq_none.mp hfind q (mem_sorted.mpr hq))
  | some p =>
    have hid : q.id = p.id := by
      apply PlanningId.display_injective
      simpa using List.find?_some hfind
    refine ⟨p, mem_sorted.mp (List.mem_of_find?_eq_some hfind), hid ▸ hselected, ?_⟩
    rw [hoption, hfind]
    rfl

end PlanningsView

/-- An option list has one option for each record, in its place, with its value and its label, and
it marks the first record with the wanted value and nothing else. So the planning list shows all
plannings in their order. It selects the planning that is requested, if it is listed, or else the
first one, and marks one option, whose value is the selected number. -/
theorem first_match_is_marked :
    (∀ (α : Type) (value label : α → String) (wanted : Option String) (records : List α),
      (Choice.list value label wanted records).length = records.length ∧
      ∀ i : Nat, (Choice.list value label wanted records)[i]? = records[i]?.map fun r =>
        ⟨value r, label r,
          wanted = some (value r) ∧ ∀ s ∈ records.take i, value s ≠ value r⟩) ∧
    ∀ (plannings : List Planning) (requested : Option PlanningId),
      let sorted := PlanningsView.sorted plannings
      let view := PlanningsView.render plannings requested
      sorted.Perm plannings ∧ sorted.Pairwise PlanningsView.Precedes ∧
      view.plannings.map (fun c => (c.value, c.label)) =
        sorted.map (fun p => (p.id.display, p.name)) ∧
      view.selected = (if requested ∈ plannings.map fun p => some p.id then requested
        else sorted.head?.map Planning.id) ∧
      (plannings ≠ [] → ∃ p ∈ plannings, view.selected = some p.id ∧
        view.plannings.filter (·.selected) = [⟨p.id.display, p.name, true⟩]) := by
  constructor
  · intro α value label wanted records
    refine ⟨?_, Choice.getElem?_list value label wanted records⟩
    have hrecords := Choice.list_records value label wanted records
    simpa using congrArg List.length hrecords
  · intro plannings requested
    exact ⟨PlanningsView.sorted_perm plannings, PlanningsView.sorted_precedes plannings,
      Choice.list_records .., PlanningsView.selected_eq plannings requested,
      fun h => PlanningsView.marked_option h requested⟩

/-- Two plannings of one name and two of one number. A capital letter comes before all small ones
and an accented one behind them, and only the first option with the wanted value is marked. -/
theorem repeated_number_marked_once :
    let plannings : List Planning := [⟨⟨3⟩, "été"⟩, ⟨⟨7⟩, "zone"⟩, ⟨⟨3⟩, "zone"⟩, ⟨⟨5⟩, "Zone"⟩]
    let view := PlanningsView.render plannings (some ⟨3⟩)
    plannings ≠ [] ∧
    (∃ p ∈ plannings, view.selected = some p.id ∧
      view.plannings.filter (·.selected) = [⟨p.id.display, p.name, true⟩]) ∧
    view.plannings = [⟨"5", "Zone", false⟩, ⟨"3", "zone", true⟩, ⟨"7", "zone", false⟩,
      ⟨"3", "été", false⟩] := by
  intro plannings view
  have hne : plannings ≠ [] := by decide
  obtain ⟨-, -, -, -, hmarked⟩ := first_match_is_marked.2 plannings (some ⟨3⟩)
  have hsorted : PlanningsView.sorted plannings =
      [⟨⟨5⟩, "Zone"⟩, ⟨⟨3⟩, "zone"⟩, ⟨⟨7⟩, "zone"⟩, ⟨⟨3⟩, "été"⟩] :=
    PlanningsView.sorted_unique (by decide) (by decide)
  refine ⟨hne, hmarked hne, ?_⟩
  simp only [view, PlanningsView.render, hsorted]
  decide +kernel

end HeatingControl
