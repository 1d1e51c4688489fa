import Mathlib.Algebra.Order.Ring.Rat
import Mathlib.Tactic.Ring
import ToolChat.Proofs.Number.Exact

/-!
Rounding and the order of ratios.

The nearest value of a format grows with the ratio, so that a ratio and its nearest value lie on the
same side of everything that the format represents. What is rounded lies within half a gap of the
ratio, and for a quotient of a small number this is too little to make it whole.
-/

set_option autoImplicit false

namespace ToolChat

namespace Format

variable {f : Format} {num den units : Nat}

section Halves

theorem roundHalfEven_mono {small large : Nat} (h : small ≤ large) (den : Nat) :
    roundHalfEven small den ≤ roundHalfEven large den := by
  have quotients : small / den ≤ large / den := Nat.div_le_div_right h
  rcases quotients.lt_or_eq with less | same
  · exact (roundHalfEven_le_succ small den).trans (less.trans_le (le_roundHalfEven large den))
  · have remainders : small % den ≤ large % den := by
      have first := Nat.div_add_mod small den
      have second := Nat.div_add_mod large den
      rw [same] at first
      omega
    unfold roundHalfEven
    dsimp only
    rw [same]
    split_ifs <;> omega

theorem roundHalfEven_mul_right {scale : Nat} (pos : 0 < scale) (num den : Nat) :
    roundHalfEven (num * scale) (den * scale) = roundHalfEven num den := by
  have doubled : 2 * (num % den * scale) = 2 * (num % den) * scale := (Nat.mul_assoc ..).symm
  unfold roundHalfEven
  dsimp only
  rw [Nat.mul_div_mul_right _ _ pos, Nat.mul_mod_mul_right, doubled]
  simp only [Nat.mul_lt_mul_right pos]

theorem roundHalfEven_near (num : Nat) (pos : 0 < den) :
    2 * (roundHalfEven num den * den) ≤ 2 * num + den ∧
      2 * num ≤ 2 * (roundHalfEven num den * den) + den := by
  have split := Nat.div_add_mod num den
  have short := Nat.mod_lt num pos
  have next : (num / den + 1) * den = den * (num / den) + den := by ring
  have same : num / den * den = den * (num / den) := Nat.mul_comm _ _
  unfold roundHalfEven
  dsimp only
  split_ifs <;> omega

end Halves

theorem nearest_eq (f : Format) (num den : Nat) :
    f.nearest num den =
      roundHalfEven num (den * 2 ^ f.spacing (num / den)) * 2 ^ f.spacing (num / den) := rfl

theorem log2_mono {small large : Nat} (h : small ≤ large) : small.log2 ≤ large.log2 := by
  by_cases zero : small = 0
  · rw [zero, Nat.log2_zero]
    exact Nat.zero_le _
  · have power : 2 ^ small.log2 ≤ large := (Nat.log2_self_le zero).trans h
    exact (Nat.le_log2 (by omega)).2 power

theorem spacing_le_log2 (f : Format) (units : Nat) : f.spacing units ≤ units.log2 := by
  have significant := f.precision_pos
  unfold spacing
  omega

theorem pow_spacing_dvd {significand : Nat} (fits : significand < 2 ^ f.precision)
    (exponent : Nat) :
    Nat.pow 2 (f.spacing (significand * 2 ^ exponent)) ∣ significand * 2 ^ exponent := by
  by_cases zero : significand = 0
  · rw [zero, Nat.zero_mul]
    exact Nat.dvd_zero _
  · have positive : significand * 2 ^ exponent ≠ 0 :=
      Nat.mul_ne_zero zero (Nat.two_pow_pos _).ne'
    have below : significand * 2 ^ exponent < 2 ^ (f.precision + exponent) := by
      rw [Nat.pow_add]
      exact Nat.mul_lt_mul_of_pos_right fits (Nat.two_pow_pos _)
    have short := (Nat.log2_lt positive).2 below
    have fewer : f.spacing (significand * 2 ^ exponent) ≤ exponent := by
      unfold spacing
      omega
    exact (Nat.pow_dvd_pow 2 fewer).trans (Nat.dvd_mul_left _ _)

section Order

theorem nearest_le_two_pow (f : Format) (num den : Nat) :
    f.nearest num den ≤ 2 ^ ((num / den).log2 + 1) := by
  have fewer : f.spacing (num / den) ≤ (num / den).log2 + 1 :=
    (f.spacing_le_log2 _).trans (Nat.le_succ _)
  have rounded := roundHalfEven_le_succ num (den * 2 ^ f.spacing (num / den))
  rw [← Nat.div_div_eq_div_mul] at rounded
  have whole : 2 ^ ((num / den).log2 + 1) =
      2 ^ ((num / den).log2 + 1 - f.spacing (num / den)) * 2 ^ f.spacing (num / den) := by
    rw [← Nat.pow_add, Nat.sub_add_cancel fewer]
  have below : num / den / 2 ^ f.spacing (num / den) <
      2 ^ ((num / den).log2 + 1 - f.spacing (num / den)) := by
    rw [Nat.div_lt_iff_lt_mul (Nat.two_pow_pos _), ← whole]
    exact Nat.lt_log2_self
  rw [nearest_eq, whole]
  exact Nat.mul_le_mul_right _ (rounded.trans below)

theorem two_pow_le_nearest (f : Format) (large : num / den ≠ 0) :
    2 ^ (num / den).log2 ≤ f.nearest num den := by
  have fewer := f.spacing_le_log2 (num / den)
  have rounded := le_roundHalfEven num (den * 2 ^ f.spacing (num / den))
  rw [← Nat.div_div_eq_div_mul] at rounded
  have whole : 2 ^ (num / den).log2 =
      2 ^ ((num / den).log2 - f.spacing (num / den)) * 2 ^ f.spacing (num / den) := by
    rw [← Nat.pow_add, Nat.sub_add_cancel fewer]
  have above : 2 ^ ((num / den).log2 - f.spacing (num / den)) ≤
      num / den / 2 ^ f.spacing (num / den) := by
    rw [Nat.le_div_iff_mul_le (Nat.two_pow_pos _), ← whole]
    exact Nat.log2_self_le large
  rw [nearest_eq, whole]
  exact Nat.mul_le_mul_right _ (above.trans rounded)

/-- The nearest value grows with the ratio. -/
theorem nearest_mono {small large : Nat} (h : small ≤ large) (den : Nat) :
    f.nearest small den ≤ f.nearest large den := by
  have quotients : small / den ≤ large / den := Nat.div_le_div_right h
  rcases (log2_mono quotients).lt_or_eq with less | same
  · -- A power of two stands between the ratios.
    have nonzero : large / den ≠ 0 := by
      intro zero
      rw [zero, Nat.log2_zero] at less
      exact Nat.not_lt_zero _ less
    calc f.nearest small den
        ≤ 2 ^ ((small / den).log2 + 1) := f.nearest_le_two_pow small den
      _ ≤ 2 ^ (large / den).log2 := Nat.pow_le_pow_right (by decide) less
      _ ≤ f.nearest large den := f.two_pow_le_nearest nonzero
  · have gaps : f.spacing (small / den) = f.spacing (large / den) := by
      unfold spacing
      rw [same]
    rw [nearest_eq, nearest_eq, gaps]
    exact Nat.mul_le_mul_right _ (roundHalfEven_mono h _)

theorem le_nearest (pos : 0 < den) (onGrid : Nat.pow 2 (f.spacing units) ∣ units)
    (below : units * den ≤ num) : units ≤ f.nearest num den := by
  have fixed := nearest_of_dvd pos onGrid
  calc units = f.nearest (units * den) den := fixed.symm
    _ ≤ f.nearest num den := nearest_mono below den

theorem nearest_le_of_le (pos : 0 < den) (onGrid : Nat.pow 2 (f.spacing units) ∣ units)
    (above : num ≤ units * den) : f.nearest num den ≤ units := by
  have fixed := nearest_of_dvd pos onGrid
  calc f.nearest num den ≤ f.nearest (units * den) den := nearest_mono above den
    _ = units := fixed

end Order

theorem mul_gap_lt {significand divisor unit : Nat} (fits : significand < 2 ^ f.precision)
    (fine : divisor < 2 * unit) :
    divisor * 2 ^ f.spacing (significand * unit / divisor) < 2 * unit := by
  generalize quotient : significand * unit / divisor = q
  by_cases dense : f.spacing q = 0
  · rw [dense, Nat.pow_zero, Nat.mul_one]
    exact fine
  · have large : q ≠ 0 := by
      rintro rfl
      have small := f.spacing_le_log2 0
      rw [Nat.log2_zero] at small
      omega
    have exponents : f.spacing q + f.precision = q.log2 + 1 := by
      unfold spacing at dense ⊢
      omega
    have power : 2 ^ f.spacing q * 2 ^ f.precision ≤ 2 * q := by
      rw [← Nat.pow_add, exponents, Nat.pow_succ, Nat.mul_comm]
      exact Nat.mul_le_mul_left 2 (Nat.log2_self_le large)
    have product : divisor * q ≤ significand * unit := by
      rw [← quotient]
      exact Nat.mul_div_le _ _
    have bits : significand * unit < 2 ^ f.precision * unit :=
      Nat.mul_lt_mul_of_pos_right fits (by omega)
    have scaled : divisor * 2 ^ f.spacing q * 2 ^ f.precision < 2 * unit * 2 ^ f.precision := by
      calc divisor * 2 ^ f.spacing q * 2 ^ f.precision
          = divisor * (2 ^ f.spacing q * 2 ^ f.precision) := Nat.mul_assoc ..
        _ ≤ divisor * (2 * q) := Nat.mul_le_mul_left _ power
        _ = 2 * (divisor * q) := Nat.mul_left_comm ..
        _ ≤ 2 * (significand * unit) := Nat.mul_le_mul_left 2 product
        _ < 2 * (2 ^ f.precision * unit) := Nat.mul_lt_mul_of_pos_left bits (by decide)
        _ = 2 * unit * 2 ^ f.precision := by ring
    exact lt_of_mul_lt_mul_right scaled (Nat.zero_le _)

/-- A quotient that is not whole is not rounded to a whole number, if its numerator has no more bits
than the precision. -/
theorem nearest_ne_mul {significand divisor unit common : Nat} (whole : Nat)
    (fits : significand < 2 ^ f.precision) (part : ¬divisor ∣ significand) (pos : 0 < divisor)
    (fine : divisor < 2 * unit) (shared : 0 < common) :
    f.nearest (significand * unit * common) (divisor * common) ≠ whole * unit := by
  intro rounded
  have tight := mul_gap_lt fits fine
  have gaps := Nat.two_pow_pos (f.spacing (significand * unit / divisor))
  rw [nearest_eq, Nat.mul_div_mul_right _ _ shared] at rounded
  generalize 2 ^ f.spacing (significand * unit / divisor) = gap at tight gaps rounded
  obtain ⟨above, below⟩ := roundHalfEven_near (significand * unit * common)
    (Nat.mul_pos (Nat.mul_pos pos shared) gaps)
  generalize roundHalfEven _ _ = rounds at above below rounded
  have product : rounds * (divisor * common * gap) = whole * divisor * (unit * common) := by
    calc rounds * (divisor * common * gap) = rounds * gap * (divisor * common) := by ring
      _ = whole * unit * (divisor * common) := by rw [rounded]
      _ = whole * divisor * (unit * common) := by ring
  have numerator : significand * unit * common = significand * (unit * common) :=
    Nat.mul_assoc ..
  have distant : divisor * common * gap < 2 * (unit * common) := by
    calc divisor * common * gap = divisor * gap * common := by ring
      _ < 2 * unit * common := Nat.mul_lt_mul_of_pos_right tight shared
      _ = 2 * (unit * common) := Nat.mul_assoc ..
  rw [product, numerator] at above below
  -- The numerator is at least one away from the multiple of the divisor.
  rcases Nat.lt_trichotomy (whole * divisor) significand with less | same | more
  · have apart := Nat.mul_le_mul_right (unit * common) less
    rw [Nat.succ_mul] at apart
    omega
  · exact part ⟨whole, by rw [← same, Nat.mul_comm]⟩
  · have apart := Nat.mul_le_mul_right (unit * common) more
    rw [Nat.succ_mul] at apart
    omega

section Units

/-- The units of one. It is irreducible so that no check for equality computes the power. -/
@[irreducible]
def unit (f : Format) : Nat :=
  Nat.pow 2 f.scale

theorem unit_pos (f : Format) : 0 < f.unit := by
  rw [unit]
  exact Nat.two_pow_pos _

theorem bound_eq (f : Format) : f.bound = 2 ^ f.top * f.unit := by
  rw [unit]
  exact Nat.pow_add ..

theorem pow_spacing_dvd_unit {significand : Nat} (fits : significand < 2 ^ f.precision)
    (exponent : Nat) :
    Nat.pow 2 (f.spacing (significand * 2 ^ exponent * f.unit)) ∣
      significand * 2 ^ exponent * f.unit := by
  have onGrid := pow_spacing_dvd fits (exponent + f.scale)
  rw [Nat.pow_add, ← Nat.mul_assoc] at onGrid
  rw [unit]
  exact onGrid

theorem nearest_natural {significand : Nat} (fits : significand < 2 ^ f.precision)
    (exponent : Nat) :
    f.nearest (significand * 2 ^ exponent * f.unit) 1 = significand * 2 ^ exponent * f.unit := by
  have fixed := nearest_of_dvd Nat.one_pos (pow_spacing_dvd_unit fits exponent)
  rw [Nat.mul_one] at fixed
  exact fixed

theorem nearest_natural_eq {n bits : Nat} (low : 2 ^ bits ≤ n) (high : n < 2 ^ (bits + 1))
    (wide : f.precision ≤ bits + 1) :
    f.nearest (n * f.unit) 1 =
      roundHalfEven n (2 ^ (bits + 1 - f.precision)) * 2 ^ (bits + 1 - f.precision) * f.unit := by
  have nonzero : n * f.unit ≠ 0 :=
    Nat.mul_ne_zero (Nat.ne_of_gt ((Nat.two_pow_pos bits).trans_le low)) f.unit_pos.ne'
  have log : (n * f.unit).log2 = bits + f.scale := by
    rw [Nat.log2_eq_iff nonzero, Nat.add_right_comm, Nat.pow_add, Nat.pow_add, unit]
    exact ⟨Nat.mul_le_mul_right _ low, Nat.mul_lt_mul_of_pos_right high (Nat.two_pow_pos _)⟩
  have spaces : f.spacing (n * f.unit) = bits + 1 - f.precision + f.scale := by
    unfold spacing
    omega
  have gap : 2 ^ f.spacing (n * f.unit) = 2 ^ (bits + 1 - f.precision) * f.unit := by
    rw [spaces, Nat.pow_add, unit]
    rfl
  rw [nearest_eq, Nat.div_one, Nat.one_mul, gap, roundHalfEven_mul_right f.unit_pos, Nat.mul_assoc]

end Units

end Format

section Results

variable {f : Format} {x y z : Finite f}

theorem Binary.finite?_ofRatio_eq_some_iff {negative : Bool} {num den : Nat} :
    (ofRatio negative num den : Binary f).finite? = some x ↔
      x.negative = negative ∧ x.units = f.nearest (num * f.unit) den := by
  obtain ⟨sign, units, onGrid, small⟩ := x
  rw [ofRatio, ofGrid, Format.unit]
  split
  · constructor
    · rintro ⟨⟩
      exact ⟨rfl, rfl⟩
    · rintro ⟨rfl, rfl⟩
      rfl
  · next large =>
    refine iff_of_false (Option.some_ne_none _).symm ?_
    rintro ⟨-, rfl⟩
    exact large small

namespace Finite

def value (x : Finite f) : ℚ :=
  x.signedUnits / f.unit

theorem toInt?_eq_some_iff_value {m : Int} : x.toInt? = some m ↔ x.value = m := by
  have nonzero : (f.unit : ℚ) ≠ 0 := Nat.cast_ne_zero.2 f.unit_pos.ne'
  rw [toInt?_eq_some_iff, value, div_eq_iff nonzero, Format.unit]
  exact_mod_cast Iff.rfl

theorem same_iff_value : x.same y = true ↔ x.value = y.value := by
  have nonzero : (f.unit : ℚ) ≠ 0 := Nat.cast_ne_zero.2 f.unit_pos.ne'
  rw [same, beq_iff_eq, value, value, div_left_inj' nonzero, Int.cast_inj]

theorem value_of_units {m : Int} (sign : x.negative = decide (m < 0))
    (magnitude : x.units = m.natAbs * f.unit) : x.value = m := by
  have nonzero : (f.unit : ℚ) ≠ 0 := Nat.cast_ne_zero.2 f.unit_pos.ne'
  have units : x.signedUnits = m * f.unit := by
    rw [signedUnits, sign, magnitude, Nat.cast_mul]
    by_cases negative : m < 0
    · rw [if_pos (decide_eq_true negative), Int.ofNat_natAbs_of_nonpos negative.le, Int.neg_mul,
        Int.neg_neg]
    · rw [if_neg (mt of_decide_eq_true negative), Int.natAbs_of_nonneg (Int.not_lt.1 negative)]
  rw [value, div_eq_iff nonzero, units]
  push_cast
  rfl

theorem units_mul (h : (x.mul y).finite? = some z) :
    z.negative = (x.negative != y.negative) ∧
      z.units = f.nearest (x.units * y.units * f.unit) (f.unit * f.unit) := by
  rw [Finite.mul, Binary.finite?_ofRatio_eq_some_iff] at h
  rw [Format.unit] at h ⊢
  exact h

theorem units_div (h : (x.div y).finite? = some z) :
    z.negative = (x.negative != y.negative) ∧
      z.units = f.nearest (x.units * f.unit) y.units :=
  Binary.finite?_ofRatio_eq_some_iff.1 h

end Finite

theorem Binary.eq_finite_of_finite? {b : Binary f} (h : b.finite? = some x) : b = .finite x := by
  cases b with
  | finite y => exact congrArg Binary.finite (Option.some.inj h)
  | nan | infinite => cases h

theorem Binary.exists_ofInt_eq_finite {m : Int} (whole : x.value = m) :
    ∃ y, (Binary.ofInt m : Binary f) = .finite y ∧ y.value = m := by
  have units := Finite.toInt?_eq_some_iff.1 (Finite.toInt?_eq_some_iff_value.2 whole)
  have magnitude : x.units = m.natAbs * f.unit := by
    rw [← x.natAbs_signedUnits, units, Int.natAbs_mul, Int.natAbs_natCast, Format.unit]
  have nearest : x.units = f.nearest (m.natAbs * f.unit) 1 := by
    rw [← magnitude, ← Nat.mul_one x.units,
      Format.nearest_of_dvd Nat.one_pos x.representable.1, Nat.mul_one]
  have made : (Binary.ofInt m : Binary f).finite? =
      some ⟨decide (m < 0), x.units, x.representable⟩ :=
    Binary.finite?_ofRatio_eq_some_iff.2 ⟨rfl, nearest⟩
  exact ⟨_, eq_finite_of_finite? made, Finite.value_of_units rfl magnitude⟩

end Results

end ToolChat
