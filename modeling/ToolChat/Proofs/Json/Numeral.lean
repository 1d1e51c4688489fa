import Mathlib.Data.List.TakeWhile
import Mathlib.Tactic.Positivity
import ToolChat.Proofs.Json.Scaling

/-!
What numerals stand for.

A numeral stands for an exact decimal value, and the reader makes a number of it that may have
another one. Where an integer is asked for this makes no difference to numerals without a fraction
and an exponent, except for those that are rounded to the least signed 64-bit integer, and none to
moderate ones: their digits fit into the precision, and their value is below `2 ^ 53` or at least
`2 ^ 64`.
-/

set_option autoImplicit false

namespace ToolChat.Json

namespace Numeral

def written (n : Numeral) : Int :=
  match n.exponent with
  | none => 0
  | some (negative, digits) =>
    if negative then -(Nat.ofDigitChars 10 digits 0 : Int) else Nat.ofDigitChars 10 digits 0

/-- The exponent that the coefficient has. -/
def power (n : Numeral) : Int :=
  n.written - (n.fraction.getD []).length

def magnitude (n : Numeral) : ℚ :=
  n.coefficient * 10 ^ n.power

def exact (n : Numeral) : ℚ :=
  if n.negative then -n.magnitude else n.magnitude

section Values

variable {n : Numeral} {x : Finite .double} {number : Number} {m : Int}

def Plain (n : Numeral) : Prop :=
  n.fraction = none ∧ n.exponent = none

theorem magnitude_nonneg (n : Numeral) : 0 ≤ n.magnitude := by
  unfold magnitude
  positivity

theorem is_signed_iff (sign : x.negative = false) :
    (n.signed x).Is m ↔
      (if n.negative then -(x.units : Int) else x.units) = m * (Format.double.unit : Nat) := by
  have signed : (n.signed x).Is m ↔
      (if n.negative then x.neg else x).signedUnits = m * (Format.double.unit : Nat) := by
    rw [Format.unit]
    exact Iff.rfl
  rw [signed]
  cases n.negative with
  | false => simp [Finite.signedUnits, sign]
  | true => simp [Finite.signedUnits, Finite.neg, sign]

theorem Tells.is_iff (tells : Tells x n.magnitude) (sign : x.negative = false)
    (small : m.natAbs < 18446744073709551616) : (n.signed x).Is m ↔ n.exact = m := by
  have positive : (0 : Int) < (Format.double.unit : Nat) := by
    exact_mod_cast Format.unit_pos .double
  have integers : ∀ m : Int, m.natAbs < 18446744073709551616 →
      ((x.units : Int) = m * (Format.double.unit : Nat) ↔ n.magnitude = m) := by
    intro m small
    rcases lt_or_ge m 0 with below | above
    · have left : m * (Format.double.unit : Nat) < 0 := mul_neg_of_neg_of_pos below positive
      have right : (m : ℚ) < 0 := by exact_mod_cast below
      have nonneg := n.magnitude_nonneg
      refine iff_of_false (by omega) ?_
      intro same
      rw [same] at nonneg
      exact absurd right (not_lt.2 nonneg)
    · obtain ⟨k, rfl⟩ := Int.eq_ofNat_of_zero_le above
      have told := tells k (by omega)
      rw [Int.cast_natCast, ← told]
      exact_mod_cast Iff.rfl
  rw [is_signed_iff sign, exact]
  cases n.negative with
  | false => exact integers m small
  | true =>
    have opposite := integers (-m) (by omega)
    rw [Int.neg_mul, Int.cast_neg] at opposite
    simp only [if_true]
    rw [neg_eq_iff_eq_neg, neg_eq_iff_eq_neg]
    exact opposite

theorem of_elim_eq_ok {f : Finite .double → Number} {unscaled : Option (Finite .double)}
    (h : (unscaled.map f).elim (.error 0) .ok = (.ok number : Except Nat Number)) :
    ∃ x, unscaled = some x ∧ f x = number := by
  cases unscaled with
  | none => cases h
  | some x => exact ⟨x, rfl, Except.ok.inj h⟩

theorem magnitude_of_plain (plain : n.Plain) : n.magnitude = n.coefficient := by
  obtain ⟨negative, whole, fraction, exponent⟩ := n
  obtain ⟨rfl, rfl⟩ := plain
  have none : (⟨negative, whole, none, none⟩ : Numeral).power = 0 := rfl
  rw [magnitude, none, zpow_zero, mul_one]

theorem value_of_plain (plain : n.Plain) : n.value =
    let whole : Int :=
      if n.negative then -(n.significand.value : Int) else n.significand.value
    if n.significand.dropped = 0 then
      if h : InExactRange whole ∧ ¬(n.negative = true ∧ n.significand.value = 0) then
        .ok (.integer whole h.1)
      else ((scaled n.significand.value (0 : Nat)).map n.signed).elim (.error 0) .ok
    else ((scaled n.significand.value n.significand.dropped).map n.signed).elim (.error 0) .ok := by
  obtain ⟨negative, whole, fraction, exponent⟩ := n
  obtain ⟨rfl, rfl⟩ := plain
  rfl

theorem made_of_plain (plain : n.Plain) (small : n.coefficient < 18446744073709551616)
    (value : n.value = .ok number) :
    (∃ inRange, number =
      .integer (if n.negative then -(n.coefficient : Int) else n.coefficient) inRange) ∨
    ∃ x, number = n.signed x ∧ x.negative = false ∧
      x.units = Format.double.nearest (n.coefficient * Format.double.unit) 1 ∧
      (n.coefficient = 0 ∨ n.negative = true ∧ 9223372036854775808 < n.coefficient) := by
  rw [value_of_plain plain, significand_of_lt small] at value
  dsimp only at value
  rw [if_pos rfl] at value
  by_cases kept : InExactRange (if n.negative then -(n.coefficient : Int) else n.coefficient) ∧
      ¬(n.negative = true ∧ n.coefficient = 0)
  · rw [dif_pos kept] at value
    exact .inl ⟨kept.1, (Except.ok.inj value).symm⟩
  · rw [dif_neg kept] at value
    obtain ⟨x, scaled, rfl⟩ := of_elim_eq_ok value
    obtain ⟨sign, units⟩ := units_scaled_zero small.le scaled
    refine .inr ⟨x, rfl, sign, units, ?_⟩
    unfold InExactRange at kept
    cases negative : n.negative with
    | false =>
      rw [negative] at kept
      simp only [Bool.false_eq_true, if_false, false_and, not_false_eq_true, and_true] at kept
      omega
    | true =>
      rw [negative] at kept
      simp only [if_true, true_and] at kept
      have few : n.coefficient = 0 ∨ 9223372036854775808 < n.coefficient := by omega
      exact few.imp_right fun large => ⟨rfl, large⟩

theorem tells_of_plain (plain : n.Plain) (digits : ∀ c ∈ n.whole, c.isDigit = true)
    (large : 18446744073709551616 ≤ n.coefficient) (value : n.value = .ok number) :
    ∃ x, number = n.signed x ∧ x.negative = false ∧ Tells x n.magnitude := by
  have whole : n.coefficient = Nat.ofDigitChars 10 n.whole 0 := by
    rw [coefficient, plain.1, Option.getD_none, List.append_nil]
  have significand : n.significand = takeWhole n.whole ⟨0, 0, 0⟩ := by
    rw [Numeral.significand, plain.1]
    rfl
  obtain ⟨dropped, kept, below⟩ := takeWhole_of_large digits (by decide) (whole ▸ large)
  rw [← significand] at dropped kept below
  rw [value_of_plain plain] at value
  dsimp only at value
  rw [if_neg dropped] at value
  obtain ⟨x, scaled, rfl⟩ := of_elim_eq_ok value
  obtain ⟨sign, units⟩ := le_units_of_dropped dropped kept below.le scaled
  refine ⟨x, rfl, sign, tells_of_large units ?_⟩
  rw [magnitude_of_plain plain]
  exact_mod_cast large

/-- The integers just below the least signed 64-bit one, which are rounded to it. -/
def Slips (n : Numeral) : Prop :=
  -9223372036854776832 ≤ n.exact ∧ n.exact < -9223372036854775808

theorem nearest_of_slight {value : Nat} (low : 9223372036854775808 ≤ value)
    (high : value < 18446744073709551616) :
    ∃ rounded, Format.double.nearest (value * Format.double.unit) 1 =
        rounded * Format.double.unit ∧ 9223372036854775808 ≤ rounded ∧
      (rounded = 9223372036854775808 ↔ value ≤ 9223372036854776832) := by
  have cut := Format.nearest_natural_eq (f := .double) (show 2 ^ 63 ≤ value from low) high
    (by decide)
  have gap : 2 ^ (63 + 1 - Format.double.precision) = 2048 := by decide
  rw [gap] at cut
  refine ⟨_, cut, ?_⟩
  unfold Format.roundHalfEven
  dsimp only
  split_ifs <;> omega

theorem exact_of_plain (plain : n.Plain) :
    n.exact = ((if n.negative then -(n.coefficient : Int) else n.coefficient : Int) : ℚ) := by
  rw [exact, magnitude_of_plain plain]
  cases n.negative with
  | false => rfl
  | true =>
    simp only [if_true]
    rw [Int.cast_neg]
    rfl

theorem is_signed_of_units {rounded : Nat} (negative : n.negative = true)
    (sign : x.negative = false) (units : x.units = rounded * Format.double.unit) :
    (n.signed x).Is m ↔ m = -(rounded : Int) := by
  have nonzero : ((Format.double.unit : Nat) : Int) ≠ 0 := by
    exact_mod_cast (Format.unit_pos .double).ne'
  rw [is_signed_iff sign, negative, if_pos rfl, units, Nat.cast_mul, ← Int.neg_mul,
    Int.mul_eq_mul_right_iff nonzero, eq_comm]

theorem slips_iff (plain : n.Plain) : n.Slips ↔ n.negative = true ∧
    9223372036854775808 < n.coefficient ∧ n.coefficient ≤ 9223372036854776832 := by
  rw [Slips, exact_of_plain plain]
  norm_cast
  cases n.negative with
  | false =>
    simp only [Bool.false_eq_true, if_false, false_and, iff_false]
    omega
  | true =>
    simp only [if_true, true_and]
    omega

theorem le_of_contains {kind : IntegerKind} (inBounds : kind.contains m = true) :
    -9223372036854775808 ≤ m ∧ (m = -9223372036854775808 → kind = .i64) := by
  obtain ⟨low, -⟩ : kind.least ≤ m ∧ m ≤ kind.greatest := by
    simpa [IntegerKind.contains] using inBounds
  cases kind with
  | i64 => exact ⟨low, fun _ => rfl⟩
  | _ =>
    simp only [IntegerKind.least] at low
    refine ⟨by omega, ?_⟩
    omega

/-- Asked for an integer of a kind, digits give what they stand for, unless they slip. -/
theorem is_iff_of_plain {kind : IntegerKind} (plain : n.Plain)
    (digits : ∀ c ∈ n.whole, c.isDigit = true) (value : n.value = .ok number)
    (inBounds : kind.contains m = true) (kept : ¬(kind = .i64 ∧ n.Slips)) :
    number.Is m ↔ n.exact = m := by
  have range := IntegerKind.inExactRange_of_contains inBounds
  have small : m.natAbs < 18446744073709551616 := by
    unfold InExactRange at range
    omega
  rcases Nat.lt_or_ge n.coefficient 18446744073709551616 with few | many
  · rcases made_of_plain plain few value with
      ⟨inRange, rfl⟩ | ⟨x, rfl, sign, units, zero | ⟨negative, low⟩⟩
    · rw [exact_of_plain plain, Int.cast_inj]
      exact Iff.rfl
    · have none : x.units = 0 * Format.double.unit := by
        rw [units, zero]
        exact Format.nearest_natural (show 0 < 2 ^ Format.double.precision by decide) 0
      have tells := tells_of_whole none
      rw [← zero, ← magnitude_of_plain plain] at tells
      exact tells.is_iff sign small
    · -- Neither the rounded value nor the exact one is in bounds.
      obtain ⟨rounded, nearest, above, slight⟩ := nearest_of_slight low.le few
      obtain ⟨least, limit⟩ := le_of_contains inBounds
      rw [is_signed_of_units negative sign (units.trans nearest), exact_of_plain plain, negative,
        if_pos rfl, Int.cast_inj]
      refine iff_of_false ?_ (by omega)
      rintro rfl
      have same : rounded = 9223372036854775808 := by omega
      refine kept ⟨limit (by omega), (slips_iff plain).2 ⟨negative, low, slight.1 same⟩⟩
  · obtain ⟨x, rfl, sign, tells⟩ := tells_of_plain plain digits many value
    exact tells.is_iff sign small

theorem is_of_slips (plain : n.Plain) (slips : n.Slips) (value : n.value = .ok number) :
    number.Is (-9223372036854775808) := by
  obtain ⟨negative, low, high⟩ := (slips_iff plain).1 slips
  rcases made_of_plain plain (by omega) value with
    ⟨inRange, rfl⟩ | ⟨x, rfl, sign, units, zero | -⟩
  · rw [negative, if_pos rfl] at inRange
    unfold InExactRange at inRange
    omega
  · omega
  · obtain ⟨rounded, nearest, -, slight⟩ := nearest_of_slight low.le (by omega)
    rw [is_signed_of_units negative sign (units.trans nearest), slight.2 high]
    rfl

/-- The digits of a numeral fit into the precision, it has few enough places, and its value is below
`2 ^ 53` or above `2 ^ 64`. -/
structure Moderate (n : Numeral) : Prop where
  fits : n.coefficient < 9007199254740992
  fine : -(greatestPower : Int) ≤ n.power
  apart : n.magnitude < 9007199254740992 ∨ 18446744073709551616 ≤ n.magnitude

theorem value_of_exponent {negative : Bool} {digits : List Char}
    (exponent : n.exponent = some (negative, digits)) : n.value =
    match exponentValue digits 0 with
    | .ok e =>
      ((scaled n.significand.value (n.significand.dropped - n.significand.taken +
        (if negative then -(e : Int) else e))).map n.signed).elim (.error 0) .ok
    | .error unseen =>
      if !negative && n.significand.value != 0 then .error unseen else .ok (n.signed .zero) := by
  rw [Numeral.value, exponent]
  cases n.fraction with
  | none => rfl
  | some places => rfl

theorem power_of_exponent {negative : Bool} {digits : List Char}
    (exponent : n.exponent = some (negative, digits)) :
    n.power = (if negative then -(Nat.ofDigitChars 10 digits 0 : Int)
      else Nat.ofDigitChars 10 digits 0) - (n.fraction.getD []).length := by
  rw [power, written, exponent]

theorem tells_of_written (written : ¬n.Plain) (moderate : n.Moderate)
    (value : n.value = .ok number) :
    ∃ x, number = n.signed x ∧ x.negative = false ∧ Tells x n.magnitude := by
  have digits := moderate.fits
  have significand := significand_of_lt (n := n) (by omega)
  have ofScaled : ((scaled n.coefficient n.power).map n.signed).elim (.error 0) .ok =
      (.ok number : Except Nat Number) →
      ∃ x, number = n.signed x ∧ x.negative = false ∧ Tells x n.magnitude := by
    intro made
    obtain ⟨x, scaled, rfl⟩ := of_elim_eq_ok made
    exact ⟨x, rfl, tells_scaled digits moderate.fine moderate.apart scaled⟩
  cases exponent : n.exponent with
  | none =>
    cases fraction : n.fraction with
    | none => exact absurd ⟨fraction, exponent⟩ written
    | some places =>
      have power : n.power = ((0 : Nat) : Int) - (places.length : Nat) := by
        rw [Numeral.power, Numeral.written, exponent, fraction]
        rfl
      simp only [Numeral.value, significand, exponent, fraction, Option.getD_some] at value
      rw [← power] at value
      exact ofScaled value
  | some pair =>
    obtain ⟨negative, exponentDigits⟩ := pair
    have power := power_of_exponent exponent
    rw [value_of_exponent exponent, significand] at value
    split at value
    · next e known =>
      rw [← of_exponentValue_eq_ok known] at power
      have sum : n.power = ((0 : Nat) : Int) - ((n.fraction.getD []).length : Nat) +
          (if negative then -(e : Int) else e) := by omega
      rw [← sum] at value
      exact ofScaled value
    · next unseen known =>
      have great := of_exponentValue_eq_error known
      have fine := moderate.fine
      have least : greatestPower = 308 := rfl
      split at value
      · cases value
      · next harmless =>
        have none : n.coefficient = 0 := by
          cases negative with
          | true =>
            rw [if_pos rfl] at power
            omega
          | false => simpa using harmless
        refine ⟨.zero, (Except.ok.inj value).symm, rfl, ?_⟩
        have tells : Tells .zero ((0 : Nat) : ℚ) := tells_of_whole (Nat.zero_mul _).symm
        rw [magnitude, none, Nat.cast_zero, zero_mul, ← Nat.cast_zero]
        exact tells

/-- Asked for an integer below `2 ^ 64`, a moderate numeral gives what it stands for. -/
theorem is_iff_of_moderate (digits : ∀ c ∈ n.whole, c.isDigit = true) (moderate : n.Moderate)
    (value : n.value = .ok number) {kind : IntegerKind} (inBounds : kind.contains m = true) :
    number.Is m ↔ n.exact = m := by
  by_cases plain : n.Plain
  · have few := moderate.fits
    refine is_iff_of_plain plain digits value inBounds fun slips => ?_
    have large := ((slips_iff plain).1 slips.2).2.1
    omega
  · have range := IntegerKind.inExactRange_of_contains inBounds
    obtain ⟨x, rfl, sign, tells⟩ := tells_of_written plain moderate value
    refine tells.is_iff sign ?_
    unfold InExactRange at range
    omega

end Values

section Scanned

variable {frames : List Frame} {cs rest : List Char} {n : Numeral}

theorem isDigit_of_scanWhole {whole : List Char} (h : scanWhole cs = .ok (whole, rest)) :
    ∀ c ∈ whole, c.isDigit = true := by
  cases cs with
  | nil => cases h
  | cons first cs =>
    rw [scanWhole] at h
    split at h
    · next zero =>
      split at h
      · cases h
      · cases h
        intro c inside
        rw [List.mem_singleton.1 inside, zero]
        rfl
    split at h
    · next digit =>
      cases h
      intro c inside
      rcases List.mem_cons.1 inside with rfl | later
      · exact digit
      · exact List.mem_takeWhile_imp later
    · cases h

theorem scanWhole_of_scanNumeral (h : scanNumeral cs = .ok (n, rest)) :
    ∃ after, scanWhole (scanSign cs).2 = .ok (n.whole, after) := by
  rw [scanNumeral] at h
  cases whole : scanWhole (scanSign cs).2 with
  | error fault =>
    rw [whole] at h
    cases h
  | ok pair =>
    obtain ⟨digits, afterWhole⟩ := pair
    rw [whole] at h
    simp only [bind, Except.bind] at h
    split at h
    · cases h
    split at h
    · cases h
    cases h
    exact ⟨afterWhole, rfl⟩

theorem isDigit_of_scanNumeral (h : scanNumeral cs = .ok (n, rest)) :
    ∀ c ∈ n.whole, c.isDigit = true := by
  obtain ⟨after, scanned⟩ := scanWhole_of_scanNumeral h
  exact isDigit_of_scanWhole scanned

theorem starts_of_scanNumeral (h : scanNumeral cs = .ok (n, rest)) :
    ∃ c inside, cs = c :: inside ∧ (c = '-' ∨ c.isDigit = true) := by
  obtain ⟨after, scanned⟩ := scanWhole_of_scanNumeral h
  unfold scanSign at scanned
  split at scanned
  · next inside => exact ⟨'-', inside, rfl, .inl rfl⟩
  · cases cs with
    | nil => cases scanned
    | cons c inside =>
      refine ⟨c, inside, rfl, .inr ?_⟩
      rw [scanWhole] at scanned
      split at scanned
      · next zero =>
        rw [zero]
        rfl
      split at scanned
      · next digit => exact digit
      · cases scanned

theorem readValue_of_numeral (scanned : scanNumeral (skipBlanks cs) = .ok (n, rest)) :
    readValue frames cs =
      match n.value with
      | .ok made => resume frames (.number made) rest
      | .error unseen => .error ⟨.numberOutOfRange, byteCount rest + unseen⟩ := by
  obtain ⟨c, inside, here, starts⟩ := starts_of_scanNumeral scanned
  have other : ∀ d : Char, d ≠ '-' → d.isDigit = false → c ≠ d := by
    rintro d minus digit rfl
    rcases starts with same | same
    · exact minus same
    · cases digit.symm.trans same
  rw [here] at scanned
  rw [readValue]
  split
  · next none => cases here.symm.trans none
  · next again =>
    cases here.symm.trans again
    rw [if_neg (other _ (by decide) rfl), if_neg (other _ (by decide) rfl),
      if_neg (other _ (by decide) rfl), if_neg (other _ (by decide) rfl),
      if_neg (other _ (by decide) rfl), if_neg (other _ (by decide) rfl), if_pos starts]
    cases value : n.value with
    | error unseen =>
      have refused : scanNumber (c :: inside) =
          .error ⟨.numberOutOfRange, byteCount rest + unseen⟩ := by
        simp only [scanNumber, scanned, bind, Except.bind, value]
      split
      · next fault failed =>
        obtain rfl := Except.error.inj (failed.symm.trans refused)
        rfl
      · next done => cases done.symm.trans refused
    | ok made =>
      have spelled := scanNumber_of_numeral scanned value
      split
      · next failed => cases failed.symm.trans spelled
      · next done =>
        cases done.symm.trans spelled
        rfl

end Scanned

end Numeral

end ToolChat.Json
