import HeatingControl.Proofs.Controller.Run
import Mathlib.Data.List.Forall2

/-!
# A planning is deleted

The planning leaves the list, its slots go with it, and the zones that used it fall back to the
default order. Everything else is as it was: the other plannings and their slots, the other zones
and the orders in effect in them, and every other part of the state.
-/
namespace HeatingControl

/-- A zone as it is read before planning `p` goes and after. -/
structure Zone.Loses (p : PlanningId) (override : Override) (z z' : Zone) : Prop where
  id : z'.id = z.id
  description : z'.description = z.description
  mode_of_user : z.mode = .planning p → z'.mode = .fixed ⟨"cozy"⟩
  mode_of_other : z.mode ≠ .planning p → z'.mode = z.mode
  current_of_user : z.mode = .planning p → override = .none → z'.current = ⟨"cozy"⟩
  current_of_other : z.mode ≠ .planning p → z'.current = z.current

namespace State

/-- What can be read at any moment once planning `p` is gone, and what has become of the state. -/
structure PlanningGone (grace : Nat) (p : PlanningId) (s u : State) : Prop where
  plannings : ∀ t, (step grace t (.operation .getPlannings) u).1 =
    .ok (s.plannings.filter fun q => q.id ≠ p)
  slots : ∀ t, (step grace t (.operation (.getPlanningSlots p)) u).1 =
    .error (.notFound "Planning" p.display)
  slots_of_others : ∀ t q, q ≠ p → (step grace t (.operation (.getPlanningSlots q)) u).1 =
    (step grace t (.operation (.getPlanningSlots q)) s).1
  zones : ∀ t, ∃ before after, (step grace t (.operation .getZones) s).1 = .ok before ∧
    (step grace t (.operation .getZones) u).1 = .ok after ∧
    List.Forall₂ (Zone.Loses p s.override) before after
  rest : u = { s with plannings := u.plannings, slots := u.slots, zones := u.zones }

variable {p : PlanningId} {s : State} {t : Moment}

def without (p : PlanningId) (s : State) : State :=
  { s with
    plannings := s.plannings.filter fun q => q.id ≠ p
    slots := Table.erase p s.slots
    zones := s.zones.map fun z => { z with mode := modeWithout p z.mode } }

/-- No slot that is gone had a say in a zone that did not use the planning. -/
theorem currentOrder_without {z : Zone} (h : z.mode ≠ .planning p) (week : WeekTime) :
    (s.without p).currentOrder week { z with mode := modeWithout p z.mode } =
      s.currentOrder week z := by
  simp only [currentOrder, without, modeWithout_of_ne h]
  split
  · rfl
  · split
    · rfl
    · rename_i q hq
      have hother : q ≠ p := by
        rintro rfl
        exact h hq
      rw [Table.get?_erase_of_ne hother]

theorem loses_without (s : State) (week : WeekTime) (z : Zone) :
    Zone.Loses p s.override { z with current := s.currentOrder week z }
      { z with
        mode := modeWithout p z.mode
        current := (s.without p).currentOrder week { z with mode := modeWithout p z.mode } } := by
  refine ⟨rfl, rfl, fun huser => ?_, fun hother => ?_, fun huser hnone => ?_, fun hother => ?_⟩
  · have huser : z.mode = .planning p := huser
    simp only [huser, modeWithout_self, Order.fallback]
  · exact modeWithout_of_ne hother
  · have huser : z.mode = .planning p := huser
    simp only [currentOrder, without, huser, modeWithout_self, hnone, Order.fallback]
  · exact currentOrder_without hother week

theorem zones_without (p : PlanningId) (s : State) (week : WeekTime) :
    List.Forall₂ (Zone.Loses p s.override) (s.currentZones week)
      ((s.without p).currentZones week) := by
  have hzones : (s.without p).currentZones week = s.zones.map fun z =>
      { z with
        mode := modeWithout p z.mode
        current := (s.without p).currentOrder week { z with mode := modeWithout p z.mode } } := by
    simp only [currentZones, without, List.map_map]
    rfl
  rw [hzones, currentZones, List.forall₂_map_left_iff, List.forall₂_map_right_iff,
    List.forall₂_same]
  exact fun z _ => loses_without s week z

theorem planningSlots_without (p : PlanningId) (s : State) :
    planningSlots p (s.without p) = (s.without p).missing "Planning" p.display := by
  simp only [planningSlots, without, Table.get?_erase]

theorem planningSlots_without_of_ne {q : PlanningId} (h : q ≠ p) (s : State) :
    (planningSlots q (s.without p)).1 = (planningSlots q s).1 := by
  simp only [planningSlots, without, Table.get?_erase_of_ne h]
  split <;> rfl

theorem planningGone_without (h : s.rebootingUntil = none) (grace : Nat) (p : PlanningId) :
    PlanningGone grace p s (s.without p) := by
  have hgone : (s.without p).rebootingUntil = none := h
  constructor
  case plannings =>
    intro t
    rw [step_of_idle hgone]
    rfl
  case slots =>
    intro t
    rw [step_of_idle hgone]
    exact congrArg Prod.fst (planningSlots_without p s)
  case slots_of_others =>
    intro t q hq
    rw [step_of_idle hgone, step_of_idle h]
    exact planningSlots_without_of_ne hq s
  case zones =>
    intro t
    rw [step_of_idle hgone, step_of_idle h]
    exact ⟨_, _, rfl, rfl, zones_without p s t.week⟩
  case rest => rfl

/-- On a controller that is online, the deletion of a planning that is not listed fails and changes
nothing, whereas a planning that is listed is gone with its slots, and with nothing else. (Where a
reboot is over that no call has finished yet, the deletion finishes it first.) -/
theorem planning_deleted (grace : Nat) (honline : s.OnlineAt t.now) (p : PlanningId) :
    let before := s.boot t.now
    let r := step grace t (.operation (.deletePlanning p)) s
    (s.hasPlanning p = false →
      r = (.error (.notFound "Planning" p.display), before) ∧ (¬ s.BootDue t.now → r.2 = s)) ∧
    (s.hasPlanning p = true → r.1 = .ok () ∧ PlanningGone grace p before r.2) := by
  intro before r
  have hstep : r = deletePlanning p before := step_of_online honline _
  have hlisted : before.hasPlanning p = s.hasPlanning p := by
    obtain ⟨_, _, _, _, _, hrecords⟩ := boot_records t.now s
    rw [show before = _ from hrecords]
    rfl
  constructor
  · intro hunlisted
    have hfailed : r = (.error (.notFound "Planning" p.display), before) :=
      hstep.trans (deletePlanning_of_unlisted (hlisted.trans hunlisted))
    refine ⟨hfailed, fun hdue => ?_⟩
    rw [hfailed]
    exact boot_of_not_due hdue
  · intro h
    have hdone : r = (.ok (), before.without p) :=
      hstep.trans (deletePlanning_of_listed (hlisted.trans h))
    rw [hdone]
    exact ⟨rfl, planningGone_without honline grace p⟩

/-- With no override set, the planning of the bathroom goes; one that does not exist does not. -/
theorem bathroom_falls_back :
    let t : Moment := ⟨1, ⟨.monday, 8, 0⟩⟩
    let s := (step 10 t (.operation (.putOverride .none)) (seeded 0)).2
    let r := step 10 t (.operation (.deletePlanning ⟨1⟩)) s
    (s.OnlineAt t.now ∧ s.hasPlanning ⟨1⟩ = true ∧ s.hasPlanning ⟨9⟩ = false) ∧
    r.1 = .ok () ∧ PlanningGone 10 ⟨1⟩ s r.2 ∧
    (∃ z ∈ s.zones, z.id = ⟨"e2z3"⟩ ∧ z.mode = .planning ⟨1⟩) ∧
    (step 10 t (.operation .getZones) r.2).1.map (fun zones => zones.map (·.current)) =
      .ok [⟨"cozy"⟩, ⟨"nofreeze"⟩, ⟨"economy"⟩, ⟨"cozyminus2"⟩, ⟨"cozyminus1"⟩, ⟨"cozy"⟩, ⟨"cozy"⟩,
        ⟨"offload"⟩] ∧
    step 10 t (.operation (.deletePlanning ⟨9⟩)) s =
      (.error (.notFound "Planning" (PlanningId.display ⟨9⟩)), s) := by
  intro t s r
  have honline : s.OnlineAt t.now := by decide +kernel
  have hbathroom : s.hasPlanning ⟨1⟩ = true := by decide +kernel
  have hnone : s.hasPlanning ⟨9⟩ = false := by decide +kernel
  have hidle : s.boot t.now = s := boot_of_idle rfl
  obtain ⟨hok, hgone⟩ := (planning_deleted 10 honline ⟨1⟩).2 hbathroom
  obtain ⟨hfailed, -⟩ := (planning_deleted 10 honline ⟨9⟩).1 hnone
  rw [hidle] at hgone hfailed
  exact ⟨⟨honline, hbathroom, hnone⟩, hok, hgone, by decide +kernel, by decide +kernel, hfailed⟩

end State
end HeatingControl
