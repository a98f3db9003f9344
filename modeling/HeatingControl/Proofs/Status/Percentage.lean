import HeatingControl.View.Status

/-!
# Percentages of counters

A percentage is the greatest number of hundredths of the whole that the part contains. The product
with 100 stops at the greatest counter value, so that beyond a hundredth of it the percentage says
too little; it never says too much, grows with the part, and reaches 100 for no less than the whole.
-/
namespace HeatingControl

/-- The percentage rounded down, for which the greatest counter value stands when it is more. -/
def flooredPercent (part whole : UInt64) : Nat :=
  min (100 * part.toNat / whole.toNat) counterMax

section Percent

variable {part whole : UInt64}

theorem percent_zero (part : UInt64) : percent part 0 = 0 := by
  rw [percent, if_pos rfl]

theorem toNat_pos (h : whole ≠ 0) : 0 < whole.toNat := by
  rw [Nat.pos_iff_ne_zero]
  exact fun hzero => h (UInt64.toNat_inj.mp hzero)

theorem percent_of_ne_zero (h : whole ≠ 0) :
    percent part whole = min (100 * part.toNat) counterMax / whole.toNat := by
  rw [percent, if_neg h, Nat.mul_comm]

theorem le_percent_iff (h : whole ≠ 0) {k : Nat} : k ≤ percent part whole ↔
    k * whole.toNat ≤ 100 * part.toNat ∧ k * whole.toNat ≤ counterMax := by
  rw [percent_of_ne_zero h, Nat.le_div_iff_mul_le (toNat_pos h), Nat.le_min]

theorem percent_mono {larger : UInt64} (h : part ≤ larger) :
    percent part whole ≤ percent larger whole := by
  by_cases hwhole : whole = 0
  · simp only [hwhole, percent_zero, Nat.le_refl]
  · obtain ⟨hpart, hmax⟩ := (le_percent_iff hwhole).mp (Nat.le_refl (percent part whole))
    have hlarger : part.toNat ≤ larger.toNat := UInt64.le_iff_toNat_le.mp h
    exact (le_percent_iff hwhole).mpr ⟨by omega, hmax⟩

theorem percent_of_lt (h : part < whole) : percent part whole ≤ 99 := by
  have hlt : part.toNat < whole.toNat := UInt64.lt_iff_toNat_lt.mp h
  have hwhole : whole ≠ 0 := by
    rintro rfl
    exact absurd hlt (Nat.not_lt_zero _)
  refine Nat.le_of_not_lt fun hmore => ?_
  have hhundred := ((le_percent_iff hwhole).mp hmore).1
  omega

theorem percent_self_iff : percent whole whole = 100 ↔
    whole ≠ 0 ∧ 100 * whole.toNat ≤ counterMax := by
  by_cases hwhole : whole = 0
  · simp [hwhole, percent_zero]
  · have hpos := toNat_pos hwhole
    have hhundred : 100 ≤ percent whole whole ↔ _ := le_percent_iff hwhole
    have hmore : 101 ≤ percent whole whole ↔ _ := le_percent_iff hwhole
    rw [and_iff_right hwhole]
    omega

theorem percent_le_floored : percent part whole ≤ flooredPercent part whole := by
  by_cases hwhole : whole = 0
  · rw [hwhole, percent_zero]
    exact Nat.zero_le _
  · have hpos := toNat_pos hwhole
    obtain ⟨hpart, hmax⟩ := (le_percent_iff hwhole).mp (Nat.le_refl (percent part whole))
    refine Nat.le_min.mpr ⟨(Nat.le_div_iff_mul_le hpos).mpr hpart, ?_⟩
    exact Nat.le_trans (Nat.le_mul_of_pos_right _ hpos) hmax

theorem floored_of_fits (h : 100 * part.toNat ≤ counterMax) :
    flooredPercent part whole = 100 * part.toNat / whole.toNat :=
  Nat.min_eq_left (Nat.le_trans (Nat.div_le_self ..) h)

theorem percent_of_fits (h : 100 * part.toNat ≤ counterMax) :
    percent part whole = flooredPercent part whole := by
  rw [floored_of_fits h]
  by_cases hwhole : whole = 0
  · rw [hwhole, percent_zero]
    exact (Nat.div_zero _).symm
  · rw [percent_of_ne_zero hwhole, Nat.min_eq_left h]

/-- The percentage is right where the product with 100 fits, and where what is cut off the product
makes no difference. -/
theorem percent_eq_floored_iff : percent part whole = flooredPercent part whole ↔
    100 * part.toNat ≤ counterMax ∨ whole = 1 ∨
      counterMax / whole.toNat = 100 * part.toNat / whole.toNat := by
  by_cases hfits : 100 * part.toNat ≤ counterMax
  · exact iff_of_true (percent_of_fits hfits) (Or.inl hfits)
  rw [or_iff_right hfits]
  have hcut : min (100 * part.toNat) counterMax = counterMax :=
    Nat.min_eq_right (Nat.le_of_not_le hfits)
  by_cases hzero : whole = 0
  · rw [hzero, percent_zero, flooredPercent, UInt64.toNat_zero, Nat.div_zero, Nat.div_zero]
    exact iff_of_true (Nat.zero_min _).symm (Or.inr rfl)
  rw [percent_of_ne_zero hzero, hcut, flooredPercent]
  by_cases hone : whole = 1
  · subst hone
    refine iff_of_true ?_ (Or.inl rfl)
    rw [UInt64.toNat_one, Nat.div_one, Nat.div_one, hcut]
  · rw [or_iff_right hone]
    -- By two or more the greatest counter value is made smaller, so the minimum is the quotient.
    have htwo : 1 < whole.toNat := by
      have hpos := toNat_pos hzero
      have hne : whole.toNat ≠ 1 := fun h => hone (UInt64.toNat_inj.mp h)
      omega
    have hless : counterMax / whole.toNat < counterMax := Nat.div_lt_self (by decide) htwo
    omega

end Percent

def ShowsPercent (line : String) (p : Nat) : Prop :=
  ∃ front, line = front ++ "(" ++ Text.natText p ++ "%)"

theorem showsPercent_ratio (front : String) (part whole : UInt64) :
    ShowsPercent (front ++ StatusView.ratio part whole) (percent part whole) := by
  refine ⟨front, ?_⟩
  rw [StatusView.ratio, String.append_assoc, String.append_assoc, String.append_assoc]

theorem render_shows_percent (s : Status) :
    ∃ started connected attempts rest,
      (StatusView.render s).lines = started :: connected :: attempts :: rest ∧
      ShowsPercent connected (percent s.uptime.wifi.cumulatedUptime s.uptime.system) ∧
      ShowsPercent attempts (percent s.uptime.wifi.successes s.uptime.wifi.attempts) :=
  ⟨_, _, _, _, rfl, showsPercent_ratio _ _ _, showsPercent_ratio _ _ _⟩

/-- What a percentage is. It is the floored one exactly where the product with 100 fits or its
excess makes no difference, and less otherwise; it is 100 of the whole exactly where the product of
the whole fits; it grows with the part, and stays below 100 for less than the whole. The status
section shows floored percentages of all counters whose products fit. -/
theorem percent_floored_where_product_fits (part whole : UInt64) (s : Status) :
    percent part 0 = 0 ∧
    (percent part whole = flooredPercent part whole ↔ 100 * part.toNat ≤ counterMax ∨ whole = 1 ∨
      counterMax / whole.toNat = 100 * part.toNat / whole.toNat) ∧
    percent part whole ≤ flooredPercent part whole ∧
    (percent whole whole = 100 ↔ whole ≠ 0 ∧ 100 * whole.toNat ≤ counterMax) ∧
    (∀ larger, part ≤ larger → percent part whole ≤ percent larger whole) ∧
    (part < whole → percent part whole ≤ 99) ∧
    (100 * s.uptime.wifi.cumulatedUptime.toNat ≤ counterMax →
      100 * s.uptime.wifi.successes.toNat ≤ counterMax →
      ∃ started connected attempts rest,
        (StatusView.render s).lines = started :: connected :: attempts :: rest ∧
        ShowsPercent connected (flooredPercent s.uptime.wifi.cumulatedUptime s.uptime.system) ∧
        ShowsPercent attempts (flooredPercent s.uptime.wifi.successes s.uptime.wifi.attempts)) := by
  refine ⟨percent_zero part, percent_eq_floored_iff, percent_le_floored, percent_self_iff,
    fun _ => percent_mono, percent_of_lt, fun huptime hsuccesses => ?_⟩
  rw [← percent_of_fits huptime, ← percent_of_fits hsuccesses]
  exact render_shows_percent s

def fullCounters : Status where
  user := none
  uptime := ⟨184467440737095516, ⟨0, 184467440737095516, 184467440737095516, 184467440737095516, 0⟩⟩
  firmware := none

theorem greatest_counter_whose_product_fits :
    let part : UInt64 := 184467440737095516
    let whole : UInt64 := 184467440737095517
    part ≤ whole ∧ part < whole ∧ 100 * part.toNat ≤ counterMax ∧
      percent part whole ≤ percent whole whole ∧ percent part whole ≤ 99 ∧
      percent part whole = flooredPercent part whole ∧
      ∃ started connected attempts rest,
        (StatusView.render fullCounters).lines = started :: connected :: attempts :: rest ∧
        ShowsPercent connected (flooredPercent part part) ∧
        ShowsPercent attempts (flooredPercent part part) := by
  intro part whole
  have hle : part ≤ whole := by decide
  have hlt : part < whole := by decide
  have hfits : 100 * part.toNat ≤ counterMax := by decide
  obtain ⟨-, hfloored, -, -, hmono, hless, hshown⟩ :=
    percent_floored_where_product_fits part whole fullCounters
  exact ⟨hle, hlt, hfits, hmono whole hle, hless hlt, hfloored.mpr (Or.inl hfits),
    hshown hfits hfits⟩

/-- The least counter that is shown as less than all of itself, and the greatest one, of which one
hundredth is shown. -/
theorem great_counters_of_themselves :
    let least : UInt64 := 184467440737095517
    let greatest : UInt64 := 18446744073709551615
    percent least least = 99 ∧ flooredPercent least least = 100 ∧
      percent greatest greatest = 1 ∧ flooredPercent greatest greatest = 100 := by
  decide +kernel

end HeatingControl
