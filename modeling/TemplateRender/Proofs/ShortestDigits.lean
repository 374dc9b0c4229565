import Mathlib.Tactic.Ring
import TemplateRender.Double.Layout

/-!
The digits that are written for large integral numbers. The search for them goes from coarse decimal
grids to fine ones and stops at the first that has a point in the interval of what rounds to the
number. A grid of seventeen digits is always fine enough (`lt_margins`), and so is any grid that the
number itself lies on, so for an integral number of at least sixteen digits the search ends before
it comes to places after the point (`exists_shortest`). Below `2 ^ 53` the interval has one integer
in it (`eq_truncate_of_holds`).
-/
namespace TemplateRender.Double

namespace Rounding

/-- A multiple of `10 ^ k` lies in the interval. -/
def holds (r : Rounding) (k : Int) (n : Nat) : Bool :=
  let unit := r.denominator * Nat.pow 10 k.toNat
  let scale := Nat.pow 10 (-k).toNat
  if r.closed then r.lower * scale ≤ n * unit && n * unit ≤ r.upper * scale
  else r.lower * scale < n * unit && n * unit < r.upper * scale

/-- The last multiple of `10 ^ k` that is not above the number. -/
def below (r : Rounding) (k : Int) : Nat :=
  r.value * Nat.pow 10 (-k).toNat / (r.denominator * Nat.pow 10 k.toNat)

variable {r : Rounding}

/-- The grid gives one of the two neighbours of the number, if one of them lies in the interval. -/
theorem onGrid?_cases (r : Rounding) (k : Int) :
    (∀ n, r.onGrid? k = some n → r.holds k n = true) ∧
      (r.holds k (r.below k) = true ∨ r.holds k (r.below k + 1) = true →
        (r.onGrid? k).isSome = true) := by
  cases hbelow : r.holds k (r.below k) <;> cases habove : r.holds k (r.below k + 1)
  all_goals
    have hleft := hbelow
    have hright := habove
    unfold holds below at hleft hright
    unfold onGrid?
    simp only [hleft, hright]
  · simp
  · simpa [below] using habove
  · simpa [below] using hbelow
  · simp only [Option.some.injEq, forall_eq', Option.isSome_some, implies_true, and_true]
    split
    · exact hbelow
    · exact habove

/-! From here on the grids are of integers. -/

theorem le_of_holds {n : Nat} (h : r.holds 0 n = true) :
    r.lower ≤ n * r.denominator ∧ n * r.denominator ≤ r.upper := by
  simp only [holds, Nat.pow_eq, Int.neg_zero, Int.toNat_zero, Nat.pow_zero, Nat.mul_one] at h
  split at h
  · simpa using h
  · simp only [Bool.and_eq_true, decide_eq_true_eq] at h
    exact ⟨Nat.le_of_lt h.1, Nat.le_of_lt h.2⟩

theorem lt_of_holds {n : Nat} (h : r.holds 0 n = true) (hopen : r.closed = false) :
    r.lower < n * r.denominator ∧ n * r.denominator < r.upper := by
  simpa [holds, hopen] using h

theorem holds_natCast (k n : Nat) : r.holds k n = r.holds 0 (n * 10 ^ k) := by
  have hunit : n * (r.denominator * 10 ^ k) = n * 10 ^ k * r.denominator := by ring
  have hzero : (-(k : Int)).toNat = 0 := by omega
  simp only [holds, Nat.pow_eq, hzero, hunit, Int.neg_zero, Int.toNat_zero, Int.toNat_natCast,
    Nat.pow_zero, Nat.mul_one]

theorem holds_of_lt {n : Nat} (hlower : r.lower < n * r.denominator)
    (hupper : n * r.denominator < r.upper) : r.holds 0 n = true := by
  simp only [holds, Nat.pow_eq, Int.neg_zero, Int.toNat_zero, Nat.pow_zero, Nat.mul_one]
  split
  · simp [Nat.le_of_lt hlower, Nat.le_of_lt hupper]
  · simp [hlower, hupper]

/-- The interval around a number has a neighbour of it on the grid, if the number is on the grid or
the interval reaches further to both sides than half a unit of the grid. -/
theorem neighbour_between {lower value upper unit : Nat} (hunit : 0 < unit) (hlower : lower < value)
    (hupper : value < upper)
    (h : unit ∣ value ∨ unit < 2 * (value - lower) ∧ unit < 2 * (upper - value)) :
    lower < value / unit * unit ∧ value / unit * unit < upper ∨
      lower < (value / unit + 1) * unit ∧ (value / unit + 1) * unit < upper := by
  have hdivision := Nat.div_add_mod' value unit
  have hmod := Nat.mod_lt value hunit
  have hexact : unit ∣ value → value % unit = 0 := Nat.mod_eq_zero_of_dvd
  rw [Nat.add_one_mul]
  generalize value / unit * unit = below at hdivision ⊢
  by_cases hnear : 2 * (value - below) < unit
  · left
    omega
  · right
    omega

theorem isSome_onGrid? {k : Nat} (hdenominator : 0 < r.denominator) (hlower : r.lower < r.value)
    (hupper : r.value < r.upper)
    (h : r.denominator * 10 ^ k ∣ r.value ∨
      r.denominator * 10 ^ k < 2 * (r.value - r.lower) ∧
        r.denominator * 10 ^ k < 2 * (r.upper - r.value)) :
    (r.onGrid? k).isSome = true := by
  have hbelow : r.below k = r.value / (r.denominator * 10 ^ k) := by
    have hzero : (-(k : Int)).toNat = 0 := by omega
    simp [below, hzero]
  have hpoint (n : Nat) (hleft : r.lower < n * (r.denominator * 10 ^ k))
      (hright : n * (r.denominator * 10 ^ k) < r.upper) : r.holds k n = true := by
    have hunit : n * 10 ^ k * r.denominator = n * (r.denominator * 10 ^ k) := by ring
    rw [holds_natCast]
    apply holds_of_lt
    · rwa [hunit]
    · rwa [hunit]
  have hunit : 0 < r.denominator * 10 ^ k := Nat.mul_pos hdenominator (Nat.pow_pos (by decide))
  refine (r.onGrid?_cases k).2 ?_
  rw [hbelow]
  rcases neighbour_between hunit hlower hupper h with ⟨hleft, hright⟩ | ⟨hleft, hright⟩
  · exact Or.inl (hpoint _ hleft hright)
  · exact Or.inr (hpoint _ hleft hright)

end Rounding

section Interval

variable (d : Double)

theorem significand_lt : d.significand < 2 ^ 53 := by
  have hfraction : d.fraction < 2 ^ 52 := Nat.mod_lt _ (by decide)
  have hunit : unitBit = 2 ^ 52 := rfl
  unfold significand
  split <;> omega

theorem denominator_pos : 0 < d.rounding.denominator := by
  simp only [rounding, Nat.one_shiftLeft]
  exact Nat.two_pow_pos _

theorem scale_eq : 4 * 2 ^ (d.exponent - 2).toNat * 2 ^ (-d.exponent).toNat =
    2 ^ d.exponent.toNat * 2 ^ (2 - d.exponent).toNat := by
  have hexponents : 2 + (d.exponent - 2).toNat + (-d.exponent).toNat =
      d.exponent.toNat + (2 - d.exponent).toNat := by omega
  rw [← Nat.pow_add, ← hexponents, Nat.pow_add, Nat.pow_add]

/-- The interval reaches two quarters of a unit in the last place upwards, and as far downwards or,
for a power of two, one quarter. -/
theorem exists_quarters : ∃ scale quarters : Nat, 0 < scale ∧
    4 * scale * 2 ^ (-d.exponent).toNat = 2 ^ d.exponent.toNat * d.rounding.denominator ∧
    d.rounding.value = 4 * d.significand * scale ∧
    d.rounding.lower = (4 * d.significand - quarters) * scale ∧
    d.rounding.upper = (4 * d.significand + 2) * scale ∧
    (quarters = 1 ∧ d.significand = 2 ^ 52 ∨
      quarters = 2 ∧ (d.significand = 2 ^ 52 → d.exponent < 0)) := by
  refine ⟨1 <<< (d.exponent - 2).toNat,
    if d.fraction = 0 ∧ 1 < d.exponentField then 1 else 2, ?_, ?_, rfl, rfl, rfl, ?_⟩
  · rw [Nat.one_shiftLeft]
    exact Nat.two_pow_pos _
  · simp only [rounding, Nat.one_shiftLeft]
    exact d.scale_eq
  · have hfraction : d.fraction < 2 ^ 52 := Nat.mod_lt _ (by decide)
    have hunit : unitBit = 2 ^ 52 := rfl
    split
    next h =>
      have hfield : ¬d.exponentField = 0 := by omega
      refine Or.inl ⟨rfl, ?_⟩
      rw [significand, if_neg hfield, h.1]
      rfl
    next h =>
      refine Or.inr ⟨rfl, fun hpower => ?_⟩
      unfold significand at hpower
      unfold exponent
      split at hpower <;> omega

variable {d}

theorem lower_pos (h : 0 < d.significand) : 0 < d.rounding.lower := by
  obtain ⟨scale, quarters, hscale, -, -, hlower, -, hquarters⟩ := d.exists_quarters
  rw [hlower]
  exact Nat.mul_pos (by omega) hscale

/-- Seventeen digits are enough: half a unit of such a grid is less than the interval reaches to
either side. -/
theorem lt_margins (h : 0 < d.significand) {unit : Nat}
    (hunit : 10 ^ 16 * unit ≤ d.rounding.value) :
    unit < 2 * (d.rounding.value - d.rounding.lower) ∧
      unit < 2 * (d.rounding.upper - d.rounding.value) := by
  obtain ⟨scale, quarters, hscale, -, hvalue, hlower, hupper, hquarters⟩ := d.exists_quarters
  have hdown : d.rounding.value - d.rounding.lower = quarters * scale := by
    have hdifference : 4 * d.significand - (4 * d.significand - quarters) = quarters := by omega
    rw [hvalue, hlower, ← Nat.sub_mul, hdifference]
  have hup : d.rounding.upper - d.rounding.value = 2 * scale := by
    rw [hvalue, hupper, ← Nat.sub_mul, Nat.add_sub_cancel_left]
  have hlt : d.significand * scale < 2 ^ 53 * scale :=
    Nat.mul_lt_mul_of_pos_right d.significand_lt hscale
  rw [hvalue, Nat.mul_assoc] at hunit
  rw [hdown, hup]
  rcases hquarters with ⟨rfl, hpower⟩ | ⟨rfl, -⟩
  · rw [hpower] at hunit
    omega
  · omega

theorem lower_lt_value (h : 0 < d.significand) : d.rounding.lower < d.rounding.value := by
  have hzero : 10 ^ 16 * 0 ≤ d.rounding.value := Nat.zero_le _
  have hmargins := lt_margins h hzero
  omega

theorem value_lt_upper (h : 0 < d.significand) : d.rounding.value < d.rounding.upper := by
  have hzero : 10 ^ 16 * 0 ≤ d.rounding.value := Nat.zero_le _
  have hmargins := lt_margins h hzero
  omega

end Interval

section Integral

variable {d : Double}

theorem truncate_mul (h : d.isIntegral = true) :
    d.truncate * 2 ^ (-d.exponent).toNat = d.significand * 2 ^ d.exponent.toNat := by
  simp only [isIntegral, Bool.and_eq_true, beq_iff_eq, Nat.shiftLeft_eq, Nat.one_mul] at h
  simp only [truncate, Nat.shiftLeft_eq, Nat.one_mul]
  exact Nat.div_mul_cancel (Nat.dvd_of_mod_eq_zero h.2)

theorem significand_pos (h : 0 < d.truncate) : 0 < d.significand := by
  refine Nat.pos_of_ne_zero fun hzero => ?_
  simp [truncate, hzero] at h

theorem value_eq (h : d.isIntegral = true) :
    d.rounding.value = d.truncate * d.rounding.denominator := by
  refine Nat.eq_of_mul_eq_mul_right (Nat.two_pow_pos (-d.exponent).toNat) ?_
  simp only [rounding, Nat.one_shiftLeft]
  calc 4 * d.significand * 2 ^ (d.exponent - 2).toNat * 2 ^ (-d.exponent).toNat
      = d.significand * (4 * 2 ^ (d.exponent - 2).toNat * 2 ^ (-d.exponent).toNat) := by ring
    _ = d.significand * 2 ^ d.exponent.toNat * 2 ^ (2 - d.exponent).toNat := by
      rw [d.scale_eq, Nat.mul_assoc]
    _ = d.truncate * 2 ^ (2 - d.exponent).toNat * 2 ^ (-d.exponent).toNat := by
      rw [← truncate_mul h, Nat.mul_right_comm]

theorem isSome_onGrid?_of_dvd (h : d.isIntegral = true) (hpos : 0 < d.truncate) {k : Nat}
    (hk : 10 ^ k ∣ d.truncate ∨ 10 ^ 16 * 10 ^ k ≤ d.truncate) :
    (d.rounding.onGrid? k).isSome = true := by
  have hsignificand := significand_pos hpos
  refine Rounding.isSome_onGrid? d.denominator_pos (lower_lt_value hsignificand)
    (value_lt_upper hsignificand) ?_
  rw [value_eq h, Nat.mul_comm d.truncate]
  rcases hk with hdvd | hle
  · exact Or.inl (Nat.mul_dvd_mul_left _ hdvd)
  · right
    rw [Nat.mul_comm _ d.truncate, ← value_eq h]
    refine lt_margins hsignificand ?_
    rw [value_eq h, Nat.mul_left_comm, Nat.mul_comm]
    exact Nat.mul_le_mul_right _ hle

/-- Below `2 ^ 53` the numbers are no further apart than the integers. -/
theorem exponent_le (h : d.isIntegral = true) (hlt : d.truncate < 2 ^ 53) : d.exponent ≤ 0 := by
  refine Int.not_lt.1 fun hpos => ?_
  have hfield : ¬d.exponentField = 0 := by
    intro hzero
    simp [exponent, hzero] at hpos
  have hnormal : 2 ^ 52 ≤ d.significand := by
    rw [significand, if_neg hfield]
    exact Nat.le_add_left _ _
  have htruncate := truncate_mul h
  obtain ⟨e, he⟩ : ∃ e, d.exponent.toNat = e + 1 := ⟨d.exponent.toNat - 1, by omega⟩
  have hzero : (-d.exponent).toNat = 0 := by omega
  rw [hzero, he, Nat.pow_zero, Nat.mul_one, Nat.pow_succ] at htruncate
  have hle : d.significand * 2 ≤ d.significand * (2 ^ e * 2) :=
    Nat.mul_le_mul_left _ (Nat.le_mul_of_pos_left 2 (Nat.two_pow_pos e))
  omega

/-- Where the numbers are no further apart than the integers, an integral number is the only integer
in its interval. -/
theorem eq_truncate_of_holds (h : d.isIntegral = true) (hexponent : d.exponent ≤ 0) {m : Nat}
    (hm : d.rounding.holds 0 m = true) : m = d.truncate := by
  obtain ⟨scale, quarters, hscale, hunits, hvalue, hlower, hupper, hquarters⟩ := d.exists_quarters
  obtain ⟨hleft, hright⟩ := Rounding.le_of_holds hm
  have hdenominator : 4 * scale ≤ d.rounding.denominator := by
    have hzero : d.exponent.toNat = 0 := by omega
    rw [hzero, Nat.pow_zero, Nat.one_mul] at hunits
    rw [← hunits]
    exact Nat.le_mul_of_pos_right _ (Nat.two_pow_pos _)
  have hmargins : d.rounding.value ≤ d.rounding.lower + 2 * scale ∧
      d.rounding.upper = d.rounding.value + 2 * scale := by
    rw [hvalue, hlower, hupper, ← Nat.add_mul, ← Nat.add_mul]
    exact ⟨Nat.mul_le_mul_right _ (by omega), rfl⟩
  rw [value_eq h] at hmargins
  rcases Nat.lt_trichotomy m d.truncate with hless | heq | hmore
  · have hstep := Nat.mul_le_mul_right d.rounding.denominator hless
    rw [Nat.succ_mul] at hstep
    omega
  · exact heq
  · have hstep := Nat.mul_le_mul_right d.rounding.denominator hmore
    rw [Nat.succ_mul] at hstep
    omega

end Integral

section Search

theorem exists_first {α : Type} {f : Nat → Option α} {n j : Nat} (hj : j < n)
    (h : (f j).isSome = true) :
    ∃ i ≤ j, ∃ a, f i = some a ∧ (List.range n).findSome? f = some a := by
  cases hfound : (List.range n).findSome? f with
  | none =>
    rw [List.findSome?_eq_none_iff] at hfound
    simp [hfound j (List.mem_range.2 hj)] at h
  | some a =>
    obtain ⟨front, i, back, hrange, hi, hnone⟩ := List.findSome?_eq_some_iff.1 hfound
    refine ⟨i, Nat.le_of_not_lt fun hlt => ?_, a, hi, rfl⟩
    have hsorted : (front ++ i :: back).Pairwise (· < ·) := hrange ▸ List.pairwise_lt_range
    have hmem : j ∈ front ++ i :: back := hrange ▸ List.mem_range.2 hj
    rw [List.pairwise_append, List.pairwise_cons] at hsorted
    rcases List.mem_append.1 hmem with hfront | hback
    · simp [hnone j hfront] at h
    · rcases List.mem_cons.1 hback with rfl | hlater
      · exact absurd hlt (Nat.lt_irrefl _)
      · exact absurd (hsorted.2.1.1 j hlater) (Nat.lt_asymm hlt)

theorem lt_digitCount {n k : Nat} (h : 10 ^ k ≤ n) : k < digitCount n := by
  cases k with
  | zero => exact List.length_pos_iff.2 Nat.toDigits_ne_nil
  | succ k =>
    refine Nat.lt_of_not_le fun hle => ?_
    have hlt := (Nat.length_toDigits_le_iff (by decide) (Nat.succ_pos k)).1 hle
    omega

theorem pow_lead_le {n : Nat} (h : 0 < n) : 10 ^ (digitCount n - 1) ≤ n := by
  cases hlead : digitCount n - 1 with
  | zero => exact h
  | succ k =>
    refine Nat.le_of_not_lt fun hlt => ?_
    have hle : digitCount n ≤ k + 1 :=
      (Nat.length_toDigits_le_iff (by decide) (Nat.succ_pos k)).2 hlt
    omega

variable {d : Double}

theorem leadingExponent_eq (h : d.isIntegral = true) (hpos : 0 < d.truncate) :
    leadingExponent d.rounding.value d.rounding.denominator =
      ((digitCount d.truncate - 1 : Nat) : Int) := by
  have hcount : 0 < digitCount d.truncate := lt_digitCount (k := 0) hpos
  rw [leadingExponent, value_eq h, if_pos (Nat.le_mul_of_pos_left _ hpos),
    Nat.mul_div_cancel _ d.denominator_pos]
  omega

/-- The digits of an integral number of at least sixteen places are those of an integer in its
interval. -/
theorem exists_shortest (h : d.isIntegral = true) (hlarge : 10 ^ 15 ≤ d.truncate) :
    ∃ k n : Nat, d.shortest = Decimal.normal n k ∧ d.rounding.holds k n = true := by
  have hpos : 0 < d.truncate := Nat.lt_of_lt_of_le (by decide) hlarge
  have hlead := leadingExponent_eq h hpos
  have hpow := pow_lead_le hpos
  generalize digitCount d.truncate - 1 = lead at hlead hpow
  have hcast : ∀ i ≤ lead, (lead : Int) - (i : Nat) = ((lead - i : Nat) : Int) := by omega
  -- A hit no later than at the place of the units: there, or at the seventeenth digit.
  have hgrid : 10 ^ (lead - min lead 16) ∣ d.truncate ∨
      10 ^ 16 * 10 ^ (lead - min lead 16) ≤ d.truncate := by
    rcases Nat.le_total lead 16 with hle | hle
    · left
      rw [Nat.min_eq_left hle, Nat.sub_self, Nat.pow_zero]
      exact Nat.one_dvd _
    · right
      rwa [Nat.min_eq_right hle, ← Nat.pow_add, Nat.add_sub_cancel' hle]
  have hhit := isSome_onGrid?_of_dvd h hpos hgrid
  obtain ⟨i, hi, decimal, hdecimal, hfound⟩ := exists_first (n := 17)
    (f := fun i => (d.rounding.onGrid? (lead - (i : Nat))).map fun n =>
      Decimal.normal n (lead - (i : Nat)))
    (Nat.lt_succ_of_le (Nat.min_le_right lead 16))
    (by rwa [Option.isSome_map, hcast _ (Nat.min_le_left lead 16)])
  have hi' : i ≤ lead := hi.trans (Nat.min_le_left lead 16)
  simp only [hcast i hi'] at hdecimal
  obtain ⟨n, hn, rfl⟩ := Option.map_eq_some_iff.1 hdecimal
  refine ⟨lead - i, n, ?_, (d.rounding.onGrid?_cases _).1 n hn⟩
  rw [shortest, hlead]
  exact (congrArg (Option.getD · _) hfound).trans (Option.getD_some ..)

end Search

end TemplateRender.Double
