import TemplateRender.Proofs.ShortestDigits

/-!
Reading digits back. The interval of a number is what its digits are chosen from, and this says what
for: every integer in the interval of an integral number is converted to that number, bit for bit
(`ofInt_signed`). An integer of at most fifty-three bits is kept as it is. A longer one is rounded
to the significand of the number, except that an integer below a power of two is rounded to twice
the significand of that power, and the carry moves into the exponent.
-/
namespace TemplateRender.Double

/-- What a quotient is rounded to: the integer that is at most a half away from it, and of two the
even one. -/
theorem div_add_up_eq {n unit s : Nat} (hunit : 0 < unit) (hlower : 2 * (s * unit) ≤ 2 * n + unit)
    (hupper : 2 * n ≤ 2 * (s * unit) + unit)
    (hodd : s % 2 = 1 → 2 * (s * unit) < 2 * n + unit ∧ 2 * n < 2 * (s * unit) + unit) :
    n / unit + (if unit < 2 * (n % unit) || (unit == 2 * (n % unit) && n / unit % 2 == 1) then 1
      else 0) = s := by
  have hdivision := Nat.div_add_mod' n unit
  have hlost := Nat.mod_lt n hunit
  generalize n / unit = kept at hdivision ⊢
  generalize n % unit = lost at hdivision hlost ⊢
  have hle : kept < s + 1 := by
    refine Nat.lt_of_mul_lt_mul_right (a := unit) ?_
    rw [Nat.add_mul]
    omega
  have hge : s < kept + 2 := by
    refine Nat.lt_of_mul_lt_mul_right (a := unit) ?_
    rw [Nat.add_mul]
    omega
  have hcases : s = kept ∨ s = kept + 1 := by omega
  rcases hcases with rfl | rfl
  · have hdown : ¬(unit < 2 * lost || (unit == 2 * lost && s % 2 == 1)) = true := by
      simp only [Bool.or_eq_true, decide_eq_true_eq, Bool.and_eq_true, beq_iff_eq]
      omega
    rw [if_neg hdown, Nat.add_zero]
  · have hup : (unit < 2 * lost || (unit == 2 * lost && kept % 2 == 1)) = true := by
      rw [Nat.add_mul] at hlower hodd
      simp only [Bool.or_eq_true, decide_eq_true_eq, Bool.and_eq_true, beq_iff_eq]
      omega
    rw [if_pos hup]

theorem log2_mul_two_pow {n : Nat} (hn : n ≠ 0) (k : Nat) : (n * 2 ^ k).log2 = n.log2 + k := by
  induction k with
  | zero => rw [Nat.pow_zero, Nat.mul_one, Nat.add_zero]
  | succ k ih =>
    have hproduct : n * 2 ^ k ≠ 0 := Nat.mul_ne_zero hn (Nat.two_pow_pos k).ne'
    rw [Nat.pow_succ, ← Nat.mul_assoc, Nat.mul_comm _ 2, Nat.log2_two_mul hproduct, ih,
      Nat.add_assoc]

theorem nearestBits_of_le {n k : Nat} (hlog : n.log2 + k = 52) :
    nearestBits n = (1075 - k) * unitBit + (n * 2 ^ k - unitBit) := by
  have hfield : n.log2 + 1023 = 1075 - k := by omega
  have hshift : 52 - n.log2 = k := by omega
  have hsmall : n.log2 ≤ 52 := by omega
  rw [nearestBits, if_pos hsmall, hfield, hshift, Nat.shiftLeft_eq]

theorem nearestBits_of_lt {n k s : Nat} (hk : 0 < k) (hleast : 2 ^ 52 * 2 ^ k ≤ n)
    (hmost : n < 2 ^ 53 * 2 ^ k) (hlower : 2 * (s * 2 ^ k) ≤ 2 * n + 2 ^ k)
    (hupper : 2 * n ≤ 2 * (s * 2 ^ k) + 2 ^ k)
    (hodd : s % 2 = 1 → 2 * (s * 2 ^ k) < 2 * n + 2 ^ k ∧ 2 * n < 2 * (s * 2 ^ k) + 2 ^ k) :
    nearestBits n = (1075 + k) * unitBit + (s - unitBit) := by
  have hlog : n.log2 = 52 + k := by
    have hpos : n ≠ 0 := by
      have hpower := Nat.two_pow_pos k
      omega
    rw [Nat.log2_eq_iff hpos, Nat.pow_add, Nat.add_right_comm, Nat.pow_add]
    exact ⟨hleast, hmost⟩
  have hfield : 52 + k + 1023 = 1075 + k := by omega
  have hlarge : ¬52 + k ≤ 52 := by omega
  rw [nearestBits, hlog, if_neg hlarge, hfield, Nat.add_sub_cancel_left, Nat.one_shiftLeft]
  simp only [div_add_up_eq (Nat.two_pow_pos k) hlower hupper hodd]

section Integers

variable {d : Double} {m : Nat}

theorem pos_of_holds (h : 0 < d.significand) (hm : d.rounding.holds 0 m = true) : 0 < m := by
  refine Nat.pos_of_ne_zero fun hzero => ?_
  have hlower := (Rounding.le_of_holds hm).1
  rw [hzero, Nat.zero_mul] at hlower
  exact absurd (lower_pos h) (Nat.not_lt.2 hlower)

/-- An integral number other than zero has the hidden bit. -/
theorem normal_of_integral (h : d.isIntegral = true) (hpos : 0 < d.truncate) :
    (d.exponentField : Int) = d.exponent + 1075 ∧ d.significand = d.fraction + 2 ^ 52 := by
  have hfield : ¬d.exponentField = 0 := by
    intro hzero
    have hexponent : 52 ≤ (-d.exponent).toNat := by
      rw [exponent, hzero]
      decide
    have hnonneg : d.exponent.toNat = 0 := by omega
    have hfraction : d.fraction < 2 ^ 52 := Nat.mod_lt _ (by decide)
    have htruncate := truncate_mul h
    rw [hnonneg, significand, if_pos hzero, Nat.pow_zero, Nat.mul_one] at htruncate
    have hle : 2 ^ 52 ≤ d.truncate * 2 ^ (-d.exponent).toNat :=
      Nat.le_trans (Nat.pow_le_pow_right (by decide) hexponent) (Nat.le_mul_of_pos_left _ hpos)
    exact absurd hfraction (Nat.not_lt.2 (htruncate ▸ hle))
  refine ⟨?_, by rw [significand, if_neg hfield]; rfl⟩
  unfold exponent
  omega

theorem nearestBits_of_exponent_le (h : d.isIntegral = true) (hpos : 0 < d.truncate)
    (hexponent : d.exponent ≤ 0) :
    nearestBits d.truncate = d.exponentField * unitBit + d.fraction := by
  obtain ⟨hfield, hsignificand⟩ := normal_of_integral h hpos
  have hlt := d.significand_lt
  have htruncate := truncate_mul h
  have hzero : d.exponent.toNat = 0 := by omega
  rw [hzero, Nat.pow_zero, Nat.mul_one] at htruncate
  have hlog : d.truncate.log2 + (-d.exponent).toNat = 52 := by
    rw [← log2_mul_two_pow hpos.ne', htruncate]
    have hne : d.significand ≠ 0 := by omega
    exact (Nat.log2_eq_iff hne).2 (by omega)
  rw [nearestBits_of_le hlog, htruncate, hsignificand]
  have hfield' : 1075 - (-d.exponent).toNat = d.exponentField := by omega
  rw [hfield']
  exact congrArg _ (Nat.add_sub_cancel ..)

/-- An integer of the interval is at most half a unit in the last place away from the number, and
at most a quarter below it if it is a power of two. -/
theorem distance_of_holds (hexponent : 0 ≤ d.exponent) (hm : d.rounding.holds 0 m = true)
    {unit : Nat} (hunit : 2 ^ d.exponent.toNat = unit) :
    2 * (d.significand * unit) ≤ 2 * m + unit ∧ 2 * m ≤ 2 * (d.significand * unit) + unit ∧
      (d.significand % 2 = 1 →
        2 * (d.significand * unit) < 2 * m + unit ∧ 2 * m < 2 * (d.significand * unit) + unit) ∧
      (d.significand = 2 ^ 52 → 4 * (d.significand * unit) ≤ 4 * m + unit) := by
  obtain ⟨scale, quarters, -, hunits, -, hlower, hupper, hquarters⟩ := d.exists_quarters
  have hzero : (-d.exponent).toNat = 0 := by omega
  rw [hzero, Nat.pow_zero, Nat.mul_one, hunit] at hunits
  have hscaled (n : Nat) : 4 * (n * scale) = n * unit * d.rounding.denominator := by
    rw [Nat.mul_left_comm, hunits, Nat.mul_assoc]
  have hbelow (n : Nat) : n * scale ≤ m * d.rounding.denominator ↔ n * unit ≤ 4 * m := by
    rw [← Nat.mul_le_mul_left_iff (by decide : 0 < 4), hscaled, ← Nat.mul_assoc,
      Nat.mul_le_mul_right_iff d.denominator_pos]
  have habove (n : Nat) : m * d.rounding.denominator ≤ n * scale ↔ 4 * m ≤ n * unit := by
    rw [← Nat.mul_le_mul_left_iff (by decide : 0 < 4), hscaled, ← Nat.mul_assoc,
      Nat.mul_le_mul_right_iff d.denominator_pos]
  have hhalf : quarters * unit ≤ 2 * unit := Nat.mul_le_mul_right _ (by omega)
  obtain ⟨hleft, hright⟩ := Rounding.le_of_holds hm
  rw [hlower, hbelow, Nat.sub_mul, Nat.mul_assoc] at hleft
  rw [hupper, habove, Nat.add_mul, Nat.mul_assoc] at hright
  refine ⟨by omega, by omega, fun hodd => ?_, fun hpower => ?_⟩
  · have hopen : d.rounding.closed = false := by simp [rounding, hodd]
    obtain ⟨hleft, hright⟩ := Rounding.lt_of_holds hm hopen
    rw [hlower, ← Nat.not_le, habove, Nat.sub_mul, Nat.mul_assoc] at hleft
    rw [hupper, ← Nat.not_le, hbelow, Nat.add_mul, Nat.mul_assoc] at hright
    omega
  · have hquarter : quarters = 1 := by omega
    rw [hquarter] at hleft
    omega

theorem nearestBits_of_exponent_pos (h : d.isIntegral = true) (hpos : 0 < d.truncate)
    (hexponent : 0 < d.exponent) (hm : d.rounding.holds 0 m = true) :
    nearestBits m = d.exponentField * unitBit + d.fraction := by
  obtain ⟨hfield, hsignificand⟩ := normal_of_integral h hpos
  have hlt := d.significand_lt
  have hunit : unitBit = 2 ^ 52 := rfl
  obtain ⟨k, hk⟩ : ∃ k, d.exponent.toNat = k + 1 := ⟨d.exponent.toNat - 1, by omega⟩
  have hfield' : d.exponentField = 1075 + (k + 1) := by omega
  obtain ⟨hlower, hupper, hodd, hpower⟩ := distance_of_holds hexponent.le hm (congrArg _ hk)
  rcases Nat.lt_or_ge m (2 ^ 52 * 2 ^ (k + 1)) with hbelow | hleast
  · -- The number is a power of two, and `m` is below it and has one bit less.
    have hsignificand' : d.significand = 2 ^ 52 := by
      refine Nat.le_antisymm (Nat.le_of_not_lt fun hmore => ?_) (by omega)
      have hmono := Nat.mul_le_mul_right (2 ^ (k + 1)) hmore
      omega
    have hquarter := hpower hsignificand'
    rw [hsignificand'] at hquarter
    have hk : 0 < k := by
      refine Nat.pos_of_ne_zero ?_
      rintro rfl
      omega
    rw [nearestBits_of_lt (s := 2 ^ 53) hk (by omega) (by omega) (by omega) (by omega) nofun,
      hfield', hunit]
    omega
  · have hpositive := Nat.two_pow_pos k
    have hmost : d.significand * 2 ^ (k + 1) ≤ (2 ^ 53 - 1) * 2 ^ (k + 1) :=
      Nat.mul_le_mul_right _ (by omega)
    rw [nearestBits_of_lt (Nat.succ_pos k) hleast (by omega) hlower hupper hodd, hfield', hunit]
    omega

/-- The integer with the sign of the number. -/
def signed (d : Double) (m : Nat) : Int := if d.isNegative then -m else m

theorem bits_eq (d : Double) : d.bits.toNat =
    (if d.isNegative then signBit else 0) + (d.exponentField * unitBit + d.fraction) := by
  have hlt := d.bits.toNat_lt
  have hsign : signBit = 2 ^ 63 := rfl
  have hunit : unitBit = 2 ^ 52 := rfl
  simp only [isNegative, exponentField, fraction, hsign, hunit, decide_eq_true_eq]
  split <;> omega

/-- Every integer in the interval of an integral number is converted to the number. -/
theorem ofInt_signed (h : d.isIntegral = true) (hpos : 0 < d.truncate)
    (hm : d.rounding.holds 0 m = true) : ofInt (d.signed m) = d := by
  have hnearest : nearestBits m = d.exponentField * unitBit + d.fraction := by
    by_cases hexponent : d.exponent ≤ 0
    · rw [eq_truncate_of_holds h hexponent hm]
      exact nearestBits_of_exponent_le h hpos hexponent
    · exact nearestBits_of_exponent_pos h hpos (Int.not_le.1 hexponent) hm
  have hne : 0 < m := pos_of_holds (significand_pos hpos) hm
  have hsign : d.signed m < 0 ↔ d.isNegative = true := by
    unfold signed
    cases d.isNegative <;> simp [hne]
  have hmagnitude : (d.signed m).natAbs = m := by
    unfold signed
    split <;> simp
  have hnonzero : d.signed m ≠ 0 := by omega
  rw [ofInt, if_neg hnonzero, hmagnitude, hnearest]
  simp only [hsign]
  rw [← bits_eq, UInt64.ofNat_toNat]

end Integers

end TemplateRender.Double
