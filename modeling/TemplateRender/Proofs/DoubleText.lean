import Mathlib
import TemplateRender.Format.Serialize
import TemplateRender.Proofs.ReadingBack

/-!
When the text of an integral double tells that it is no int. Below `10 ^ 15` it does, since it ends
with a zero after a point and the text of an int has no point in it. From `10 ^ 15` on it does not:
the digits are written in full and nothing follows them, so what is written is the text of an int,
as long as there is an int that large. Main statement: `text?_integral_double`.
-/
namespace TemplateRender

section Numerals

theorem toList_toString_nat (n : Nat) : (toString n).toList = Nat.toDigits 10 n := by
  rw [Nat.toString_eq_repr, Nat.repr_eq_ofList_toDigits, String.toList_ofList]

theorem toString_mul_pow {n : Nat} (h : 0 < n) (k : Nat) :
    toString (n * 10 ^ k) = toString n ++ Double.zeros k := by
  rw [← String.toList_inj, String.toList_append, toList_toString_nat, toList_toString_nat,
    Double.zeros, String.toList_ofList]
  induction k with
  | zero => simp
  | succ k ih =>
    have hpos : 0 < n * 10 ^ k := Nat.mul_pos h (Nat.pow_pos (by decide))
    have hdigits := Nat.toDigits_append_toDigits (b := 10) (d := 0) (by decide) hpos (by decide)
    rw [Nat.pow_succ, ← Nat.mul_assoc, Nat.mul_comm _ 10, ← Nat.add_zero (10 * _), ← hdigits, ih,
      List.replicate_succ', List.append_assoc]
    rfl

theorem toString_neg_natCast {m : Nat} (h : 0 < m) :
    toString (-(m : Int)) = "-" ++ toString m := by
  obtain ⟨k, rfl⟩ := Nat.exists_eq_succ_of_ne_zero h.ne'
  rfl

/-- There is no point in the text of an integer. -/
theorem point_not_mem_toString (n : Int) : '.' ∉ (toString n).toList := by
  have hdigits (m : Nat) : '.' ∉ (toString m).toList := by
    intro hmem
    rw [toList_toString_nat] at hmem
    exact absurd (Nat.isDigit_of_mem_toDigits (by decide) (by decide) hmem) (by decide)
  obtain ⟨m, rfl | rfl⟩ := n.eq_nat_or_neg
  · exact hdigits m
  · cases m with
    | zero => exact hdigits 0
    | succ m =>
      rw [toString_neg_natCast (Nat.succ_pos m), String.toList_append, List.mem_append]
      rintro (hsign | hmem)
      · exact absurd hsign (by decide)
      · exact hdigits (m + 1) hmem

end Numerals

namespace Double

theorem signText_append {d : Double} {m : Nat} (h : 0 < m) :
    d.signText ++ toString m = toString (d.signed m) := by
  unfold signText signed
  split
  · rw [toString_neg_natCast h]
  · rfl

theorem Decimal.write_plain {digits : Nat} (h : 0 < digits) (k : Nat) :
    Decimal.write ⟨digits, k⟩ .plain = toString (digits * 10 ^ k) := by
  have hplaces : (-(k : Int)).toNat = 0 := by omega
  rw [toString_mul_pow h]
  simp [write, Layout.plain, positional, hplaces]

/-- Nothing is lost when a zero is moved from the digits to the exponent. -/
theorem Decimal.write_normal {n : Nat} (h : 0 < n) (k : Nat) :
    (Decimal.normal n k).write .plain = toString (n * 10 ^ k) := by
  unfold normal
  split
  next hzero =>
    have hdigits : 0 < n / 10 := by omega
    have hsame : n / 10 * 10 ^ (k + 1) = n * 10 ^ k := by
      rw [Nat.pow_succ, Nat.mul_left_comm, Nat.div_mul_cancel (Nat.dvd_of_mod_eq_zero hzero),
        Nat.mul_comm]
    exact (write_plain hdigits (k + 1)).trans (congrArg toString hsame)
  next => exact write_plain h k

variable {d : Double}

theorem write_eq_of_pos (h : d.isFinite = true) (hpos : 0 < d.significand) (layout : Layout) :
    d.write layout = d.signText ++ d.shortest.write layout := by
  have hzero : d.isZero = false := by
    refine Bool.eq_false_iff.2 fun hzero => ?_
    simp only [isZero, Bool.and_eq_true, beq_iff_eq] at hzero
    simp [significand, hzero.1, hzero.2] at hpos
  simp [write, isNaN, h, hzero]

end Double

namespace Formatters

open Double

variable {d : Double}

theorem doubleText_of_lt (h : d.isIntegral = true) (hlt : d.truncate < 10 ^ 15) :
    doubleText d = d.signText ++ toString d.truncate ++ ".0" := by
  have hguard : (d.isIntegral && decide (d.truncate < Nat.pow 10 15)) = true := by
    simpa [h] using hlt
  rw [doubleText, integralText?, if_pos hguard]
  rfl

theorem doubleText_of_le (h : d.isIntegral = true) (hle : 10 ^ 15 ≤ d.truncate) :
    ∃ m, d.rounding.holds 0 m = true ∧ doubleText d = toString (d.signed m) := by
  have hguard : ¬(d.isIntegral && decide (d.truncate < Nat.pow 10 15)) = true := by
    simpa [h] using hle
  have hfinite : d.isFinite = true := by
    simp only [isIntegral, Bool.and_eq_true] at h
    exact h.1
  have hpos : 0 < d.significand := significand_pos (Nat.lt_of_lt_of_le (by decide) hle)
  obtain ⟨k, n, hshortest, hholds⟩ := exists_shortest h hle
  rw [Rounding.holds_natCast] at hholds
  have hm : 0 < n * 10 ^ k := pos_of_holds hpos hholds
  have hn : 0 < n := Nat.pos_of_mul_pos_right hm
  refine ⟨n * 10 ^ k, hholds, ?_⟩
  rw [doubleText, integralText?, if_neg hguard, Option.getD_none, write_eq_of_pos hfinite hpos,
    hshortest, Decimal.write_normal hn, signText_append hm]

/-- The two texts differ in the point. -/
theorem doubleText_ne_integerText (h : d.isIntegral = true) (hlt : d.truncate < 10 ^ 15)
    (n : Int64) : doubleText d ≠ integerText n := by
  intro heq
  rw [doubleText_of_lt h hlt] at heq
  refine point_not_mem_toString n.toInt ?_
  rw [show toString n.toInt = _ from heq.symm, String.toList_append]
  exact List.mem_append_right _ (List.mem_cons_self ..)

end Formatters

namespace Value

/-- The text of an integral double below `10 ^ 15` ends with a zero after a point, and no int has
this text. From `10 ^ 15` on it is the text of an integer that is converted to the double, and is
the double itself below `2 ^ 53`; so it is the text of an int if that integer is one. -/
theorem text?_integral_double {d : Double} (h : d.isIntegral = true) (history : History) :
    (d.truncate < 10 ^ 15 →
        (∃ digits, (double d).text? {} history = (some (digits ++ ".0"), history)) ∧
          ∀ n, (double d).text? {} history ≠ (int n).text? {} history) ∧
      (10 ^ 15 ≤ d.truncate → ∃ m, Double.ofInt (d.signed m) = d ∧
          (d.truncate < 2 ^ 53 → m = d.truncate) ∧
          (double d).text? {} history = (some (toString (d.signed m)), history) ∧
          ∀ n, (double d).text? {} history = (int n).text? {} history ↔ n.toInt = d.signed m) := by
  have hdouble : (double d).text? {} history = (some (Formatters.doubleText d), history) := rfl
  have hint (n : Int64) : (int n).text? {} history = (some (toString n.toInt), history) := rfl
  constructor
  · intro hlt
    refine ⟨⟨d.signText ++ toString d.truncate, ?_⟩, fun n heq => ?_⟩
    · rw [hdouble, Formatters.doubleText_of_lt h hlt]
    · rw [hdouble, hint, Prod.mk.injEq, Option.some.injEq] at heq
      exact Formatters.doubleText_ne_integerText h hlt n heq.1
  · intro hle
    obtain ⟨m, hholds, htext⟩ := Formatters.doubleText_of_le h hle
    rw [htext] at hdouble
    have hpos : 0 < d.truncate := Nat.lt_of_lt_of_le (by decide) hle
    refine ⟨m, Double.ofInt_signed h hpos hholds, fun hlt => ?_, hdouble, fun n => ?_⟩
    · exact Double.eq_truncate_of_holds h (Double.exponent_le h hlt) hholds
    · rw [hdouble, hint, Prod.mk.injEq, Option.some.injEq, and_iff_left rfl]
      exact Int.repr_inj.trans eq_comm

/-- The numbers -3 and `10 ^ 15`. -/
theorem text?_integral_double_samples :
    let small : Double := ⟨0xc008000000000000⟩
    let large : Double := ⟨0x430c6bf526340000⟩
    small.isIntegral = true ∧ small.truncate < 10 ^ 15 ∧
      (∀ n, (double small).text? {} [] ≠ (int n).text? {} []) ∧
      large.isIntegral = true ∧ 10 ^ 15 ≤ large.truncate ∧
      ∃ m, Double.ofInt (large.signed m) = large ∧
        ∀ n, (double large).text? {} [] = (int n).text? {} [] ↔ n.toInt = large.signed m := by
  intro small large
  have hsmall : small.isIntegral = true := by decide +kernel
  have hlt : small.truncate < 10 ^ 15 := by decide +kernel
  have hlarge : large.isIntegral = true := by decide +kernel
  have hle : 10 ^ 15 ≤ large.truncate := by decide +kernel
  obtain ⟨m, hm, -, -, htexts⟩ := (text?_integral_double hlarge []).2 hle
  exact ⟨hsmall, hlt, ((text?_integral_double hsmall []).1 hlt).2, hlarge, hle, m, hm, htexts⟩

/-- The double `10 ^ 15` and the int of that value have one text. -/
theorem text?_large_double_eq_int :
    let large : Double := ⟨0x430c6bf526340000⟩
    large.isIntegral = true ∧
      (double large).text? {} [] = (some "1000000000000000", []) ∧
      (int 1000000000000000).text? {} [] = (some "1000000000000000", []) := by
  intro large
  have hlarge : large.isIntegral = true := by decide +kernel
  have htext : Formatters.doubleText large = "1000000000000000" := by decide +kernel
  exact ⟨hlarge, congrArg (fun text => (some text, [])) htext, rfl⟩

end Value

end TemplateRender
