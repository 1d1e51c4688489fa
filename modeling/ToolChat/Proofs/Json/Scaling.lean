import Mathlib.Algebra.Order.Field.Power
import Mathlib.Algebra.Order.Ring.Rat
import Mathlib.Tactic.Ring
import ToolChat.Proofs.Json.Spelling
import ToolChat.Proofs.Number.Rounding

/-!
Scaling of significands.

The digits of a numeral are taken as one number as far as they fit into 64 bits, and this number is
rounded and multiplied with a rounded power of ten, or divided by one. For a significand that fits
into the precision the result is a whole number below `2 ^ 64` only if the exact product is this
number, provided that the product is below `2 ^ 53` or at least `2 ^ 64`.
-/

set_option autoImplicit false

namespace ToolChat.Json

namespace Numeral

def coefficient (n : Numeral) : Nat :=
  Nat.ofDigitChars 10 (n.whole ++ n.fraction.getD []) 0

section Digits

variable {digits : List Char}

theorem ofDigitChars_cons (c : Char) (digits : List Char) (value : Nat) :
    Nat.ofDigitChars 10 (c :: digits) value =
      Nat.ofDigitChars 10 digits (value * 10 + digitValue c) := by
  rw [Nat.ofDigitChars_cons, Nat.mul_comm 10]
  rfl

theorem takeFraction_of_lt {s : Significand}
    (small : Nat.ofDigitChars 10 digits s.value < 18446744073709551616) :
    takeFraction digits s =
      ⟨Nat.ofDigitChars 10 digits s.value, s.dropped, s.taken + digits.length⟩ := by
  induction digits generalizing s with
  | nil => rfl
  | cons c digits ih =>
    rw [ofDigitChars_cons] at small ⊢
    have fits := Nat.lt_of_le_of_lt (le_ofDigitChars digits _) small
    rw [takeFraction]
    simp only [fits, if_true]
    rw [ih small, List.length_cons, Nat.add_right_comm, Nat.add_assoc]

theorem takeWhole_of_dropped {s : Significand} (dropped : s.dropped ≠ 0) :
    takeWhole digits s = { s with dropped := s.dropped + digits.length } := by
  induction digits generalizing s with
  | nil => rfl
  | cons c digits ih =>
    rw [takeWhole, if_neg (fun both => dropped both.1), ih (Nat.succ_ne_zero _), List.length_cons,
      Nat.add_right_comm, Nat.add_assoc]

theorem takeWhole_of_large {value : Nat} (all : ∀ c ∈ digits, c.isDigit = true)
    (kept : value < 18446744073709551616)
    (large : 18446744073709551616 ≤ Nat.ofDigitChars 10 digits value) :
    (takeWhole digits ⟨value, 0, 0⟩).dropped ≠ 0 ∧
      1844674407370955161 ≤ (takeWhole digits ⟨value, 0, 0⟩).value ∧
      (takeWhole digits ⟨value, 0, 0⟩).value < 18446744073709551616 := by
  induction digits generalizing value with
  | nil => exact absurd kept (Nat.not_lt.2 large)
  | cons c digits ih =>
    rw [takeWhole]
    dsimp only
    split
    · next fits =>
      rw [ofDigitChars_cons] at large
      exact ih (fun d hd => all d (List.mem_cons_of_mem _ hd)) fits.2 large
    · next drops =>
      have digit : digitValue c ≤ 9 := by
        have range := Char.isDigit_iff_toNat.1 (all c List.mem_cons_self)
        unfold digitValue
        have last : '9'.toNat = '0'.toNat + 9 := rfl
        omega
      rw [takeWhole_of_dropped (Nat.succ_ne_zero _)]
      refine ⟨?_, ?_, kept⟩
      · dsimp only
        omega
      · dsimp only
        omega

theorem significand_of_lt {n : Numeral} (small : n.coefficient < 18446744073709551616) :
    n.significand = ⟨n.coefficient, 0, (n.fraction.getD []).length⟩ := by
  rw [coefficient, Nat.ofDigitChars_append] at small
  have fits := Nat.lt_of_le_of_lt (le_ofDigitChars _ _) small
  rw [significand, takeWhole_of_lt fits, takeFraction_of_lt small, coefficient,
    Nat.ofDigitChars_append, Nat.zero_add]

theorem of_exponentValue_eq_ok {value e : Nat} (h : exponentValue digits value = .ok e) :
    e = Nat.ofDigitChars 10 digits value := by
  induction digits generalizing value with
  | nil =>
    cases h
    rfl
  | cons c digits ih =>
    rw [exponentValue] at h
    split at h
    · rw [ih h, ofDigitChars_cons]
    · cases h

theorem of_exponentValue_eq_error {value unseen : Nat}
    (h : exponentValue digits value = .error unseen) :
    2147483648 ≤ Nat.ofDigitChars 10 digits value := by
  induction digits generalizing value with
  | nil => cases h
  | cons c digits ih =>
    rw [exponentValue] at h
    rw [ofDigitChars_cons]
    split at h
    · exact ih h
    · next large => exact (Nat.not_lt.1 large).trans (le_ofDigitChars _ _)

end Digits

section Scaling

variable {x : Finite .double} {value k : Nat}

def start (value : Nat) : Finite .double :=
  (Binary.ofNat value : Double).finite?.getD .zero

theorem pow_greatestPower_le : 10 ^ greatestPower ≤ (2 ^ 53 - 1) * 2 ^ 971 := by
  decide +kernel

theorem units_start (small : value ≤ 10 ^ greatestPower) :
    (start value).negative = false ∧
      (start value).units = Format.double.nearest (value * Format.double.unit) 1 := by
  have onGrid := Format.pow_spacing_dvd_unit
    (show 2 ^ 53 - 1 < 2 ^ Format.double.precision by decide) 971
  have above : value * Format.double.unit ≤ (2 ^ 53 - 1) * 2 ^ 971 * Format.double.unit * 1 := by
    rw [Nat.mul_one]
    exact Nat.mul_le_mul_right _ (small.trans pow_greatestPower_le)
  have rounded := Format.nearest_le_of_le Nat.one_pos onGrid above
  have below : (2 ^ 53 - 1) * 2 ^ 971 * Format.double.unit < Format.double.bound := by
    rw [Format.bound_eq]
    exact Nat.mul_lt_mul_of_pos_right (by decide +kernel) (Format.unit_pos _)
  let x : Finite .double := ⟨false, Format.double.nearest (value * Format.double.unit) 1,
    Format.nearest_dvd _ _ _, rounded.trans_lt below⟩
  have made : (Binary.ofNat value : Double).finite? = some x :=
    Binary.finite?_ofRatio_eq_some_iff.2 ⟨rfl, rfl⟩
  rw [start, made]
  exact ⟨rfl, rfl⟩

theorem le_pow_greatestPower (small : value ≤ 18446744073709551616) :
    value ≤ 10 ^ greatestPower :=
  small.trans (by decide +kernel)

theorem units_start_of_lt (fits : value < 9007199254740992) :
    (start value).units = value * Format.double.unit := by
  have natural := Format.nearest_natural (f := .double) fits 0
  rw [Nat.pow_zero, Nat.mul_one] at natural
  rw [(units_start (le_pow_greatestPower (by omega))).2]
  exact natural

theorem powerOfTen_eq (k : Nat) : powerOfTen k = start (10 ^ k) := rfl

theorem nearest_ten (few : k ≤ 22) :
    Format.double.nearest (10 ^ k * Format.double.unit) 1 = 10 ^ k * Format.double.unit := by
  have fives : 5 ^ k < 2 ^ Format.double.precision :=
    (Nat.pow_le_pow_right (by decide) few).trans_lt (by decide)
  have natural := Format.nearest_natural fives k
  rw [← Nat.mul_pow] at natural
  exact natural

theorem units_powerOfTen (room : k ≤ greatestPower) :
    (powerOfTen k).negative = false ∧
      (powerOfTen k).units = Format.double.nearest (10 ^ k * Format.double.unit) 1 := by
  rw [powerOfTen_eq]
  exact units_start (Nat.pow_le_pow_right (by decide) room)

theorem le_units_powerOfTen {least : Nat} (few : least ≤ 22) (more : least ≤ k)
    (room : k ≤ greatestPower) :
    10 ^ least * Format.double.unit ≤ (powerOfTen k).units := by
  have grows : 10 ^ least * Format.double.unit ≤ 10 ^ k * Format.double.unit :=
    Nat.mul_le_mul_right _ (Nat.pow_le_pow_right (by decide) more)
  rw [(units_powerOfTen room).2, ← nearest_ten few]
  exact Format.nearest_mono grows 1

theorem pow_spacing_dvd_limit :
    Nat.pow 2 (Format.double.spacing (18446744073709551616 * Format.double.unit)) ∣
      18446744073709551616 * Format.double.unit := by
  have onGrid := Format.pow_spacing_dvd_unit (show 1 < 2 ^ Format.double.precision by decide) 64
  have power : 1 * 2 ^ 64 = 18446744073709551616 := by decide
  rw [power] at onGrid
  exact onGrid

/-- Below `2 ^ 64` a magnitude is a whole number exactly if a value is, and then the same one. -/
def Tells (x : Finite .double) (v : ℚ) : Prop :=
  ∀ m : Nat, m < 18446744073709551616 → (x.units = m * Format.double.unit ↔ v = m)

theorem tells_of_whole {whole : Nat} (same : x.units = whole * Format.double.unit) :
    Tells x whole := by
  intro m _
  rw [same, Nat.mul_left_inj (Format.unit_pos _).ne', Nat.cast_inj]

theorem tells_of_part {v : ℚ} (part : ∀ m, x.units ≠ m * Format.double.unit)
    (other : ∀ m : Nat, v ≠ m) : Tells x v :=
  fun m _ => iff_of_false (part m) (other m)

theorem tells_of_large {v : ℚ} (large : 18446744073709551616 * Format.double.unit ≤ x.units)
    (beyond : 18446744073709551616 ≤ v) : Tells x v := by
  intro m below
  refine iff_of_false ?_ ?_
  · intro same
    rw [same] at large
    exact Nat.not_le.2 below (Nat.le_of_mul_le_mul_right large (Format.unit_pos _))
  · rintro rfl
    have above : 18446744073709551616 ≤ m := by exact_mod_cast beyond
    omega

theorem tells_product {z : Finite .double} (fits : value < 9007199254740992)
    (room : k ≤ greatestPower)
    (apart : value * 10 ^ k < 9007199254740992 ∨ 18446744073709551616 ≤ value * 10 ^ k)
    (h : ((start value).mul (powerOfTen k)).finite? = some z) :
    z.negative = false ∧ Tells z ((value * 10 ^ k : Nat) : ℚ) := by
  obtain ⟨sign, units⟩ := Finite.units_mul h
  have positive := Nat.mul_pos (Format.unit_pos .double) (Format.unit_pos .double)
  rw [(units_start (le_pow_greatestPower (by omega))).1, (units_powerOfTen room).1] at sign
  rw [units_start_of_lt fits] at units
  refine ⟨sign, ?_⟩
  rcases apart with below | beyond
  · have onGrid := Format.pow_spacing_dvd_unit (f := .double) below 0
    rw [Nat.pow_zero, Nat.mul_one] at onGrid
    have exact : value * Format.double.unit * (powerOfTen k).units * Format.double.unit =
        value * 10 ^ k * Format.double.unit * (Format.double.unit * Format.double.unit) := by
      rcases Nat.eq_zero_or_pos value with rfl | some
      · ring
      · have few : k ≤ 22 := by
          by_contra many
          have power : 10 ^ 23 ≤ 10 ^ k := Nat.pow_le_pow_right (by decide) (by omega)
          have product := Nat.le_mul_of_pos_left (10 ^ k) some
          omega
        rw [(units_powerOfTen room).2, nearest_ten few]
        ring
    rw [exact, Format.nearest_of_dvd positive onGrid] at units
    exact tells_of_whole units
  · have most : 18446744073709551616 ≤ value * 10 ^ min k 22 := by
      rcases Nat.le_total k 22 with few | many
      · rw [Nat.min_eq_left few]
        exact beyond
      · rw [Nat.min_eq_right many]
        have some : 0 < value := by
          rcases Nat.eq_zero_or_pos value with rfl | some
          · omega
          · exact some
        omega
    have factor := le_units_powerOfTen (Nat.min_le_right k 22) (Nat.min_le_left k 22) room
    refine tells_of_large ?_ (by exact_mod_cast beyond)
    rw [units]
    refine Format.le_nearest positive pow_spacing_dvd_limit ?_
    calc 18446744073709551616 * Format.double.unit * (Format.double.unit * Format.double.unit)
        ≤ value * 10 ^ min k 22 * Format.double.unit *
            (Format.double.unit * Format.double.unit) :=
          Nat.mul_le_mul_right _ (Nat.mul_le_mul_right _ most)
      _ = value * Format.double.unit * (10 ^ min k 22 * Format.double.unit) *
            Format.double.unit := by ring
      _ ≤ value * Format.double.unit * (powerOfTen k).units * Format.double.unit :=
          Nat.mul_le_mul_right _ (Nat.mul_le_mul_left _ factor)

theorem cast_div_ne {divisor : Nat} (pos : 0 < divisor) (part : ¬divisor ∣ value) (m : Nat) :
    (value : ℚ) / divisor ≠ m := by
  intro same
  rw [div_eq_iff (by exact_mod_cast pos.ne')] at same
  have product : value = m * divisor := by exact_mod_cast same
  exact part ⟨m, by rw [product, Nat.mul_comm]⟩

theorem units_quotient_of_great {z : Finite .double} (nonzero : 0 < value)
    (fits : value < 9007199254740992) (great : 22 ≤ k) (room : k ≤ greatestPower)
    (units : z.units = Format.double.nearest (value * Format.double.unit * Format.double.unit)
      (powerOfTen k).units) :
    0 < z.units ∧ z.units < Format.double.unit := by
  have factor := le_units_powerOfTen le_rfl great room
  have bounded := (powerOfTen k).representable.2
  rw [Format.bound_eq] at bounded
  have divisor : 0 < (powerOfTen k).units :=
    (Nat.mul_pos (by decide) (Format.unit_pos .double)).trans_le factor
  have halves : Format.double.unit = 2 * (1 * 2 ^ 1073) := by decide +kernel
  constructor
  · have one : 1 * (powerOfTen k).units ≤ value * Format.double.unit * Format.double.unit := by
      have top : 2 ^ Format.double.top ≤ Format.double.unit := by decide +kernel
      calc 1 * (powerOfTen k).units
          ≤ 2 ^ Format.double.top * Format.double.unit := by
            rw [Nat.one_mul]
            exact bounded.le
        _ ≤ value * Format.double.unit * Format.double.unit :=
            Nat.mul_le_mul_right _ (top.trans (Nat.le_mul_of_pos_left _ nonzero))
    rw [units]
    exact Format.le_nearest divisor (by decide) one
  · have onGrid := Format.pow_spacing_dvd (show 1 < 2 ^ Format.double.precision by decide) 1073
    have half : value * Format.double.unit * Format.double.unit ≤
        1 * 2 ^ 1073 * (powerOfTen k).units := by
      have digits : value * 2 ≤ 10 ^ 22 := by omega
      generalize 1 * 2 ^ 1073 = part at halves onGrid
      calc value * Format.double.unit * Format.double.unit
          = value * 2 * (part * Format.double.unit) := by
            rw [halves]
            ring
        _ ≤ 10 ^ 22 * (part * Format.double.unit) := Nat.mul_le_mul_right _ digits
        _ = part * (10 ^ 22 * Format.double.unit) := Nat.mul_left_comm ..
        _ ≤ part * (powerOfTen k).units := Nat.mul_le_mul_left _ factor
    have rounded := Format.nearest_le_of_le divisor onGrid half
    have positive := Format.unit_pos .double
    rw [units]
    omega

theorem tells_quotient {z : Finite .double} (nonzero : 0 < value)
    (fits : value < 9007199254740992) (room : k ≤ greatestPower)
    (h : ((start value).div (powerOfTen k)).finite? = some z) :
    z.negative = false ∧ Tells z ((value : ℚ) / (10 ^ k : Nat)) := by
  have divides : 0 < 10 ^ k := Nat.pow_pos (by decide)
  obtain ⟨sign, units⟩ := Finite.units_div h
  rw [(units_start (le_pow_greatestPower (by omega))).1, (units_powerOfTen room).1] at sign
  rw [units_start_of_lt fits] at units
  refine ⟨sign, ?_⟩
  rcases Nat.lt_or_ge 22 k with great | few
  · have small : ¬10 ^ k ∣ value := by
      have power : 10 ^ 23 ≤ 10 ^ k := Nat.pow_le_pow_right (by decide) great
      exact Nat.not_dvd_of_pos_of_lt nonzero (by omega)
    obtain ⟨above, below⟩ := units_quotient_of_great nonzero fits great.le room units
    refine tells_of_part (fun m whole => ?_) (cast_div_ne divides small)
    rcases Nat.eq_zero_or_pos m with rfl | pos
    · omega
    · have multiple := Nat.le_mul_of_pos_left Format.double.unit pos
      omega
  · rw [(units_powerOfTen room).2, nearest_ten few] at units
    by_cases even : 10 ^ k ∣ value
    · obtain ⟨whole, rfl⟩ := even
      have digits := (Nat.le_mul_of_pos_left whole divides).trans_lt fits
      have onGrid := Format.pow_spacing_dvd_unit (f := .double) digits 0
      rw [Nat.pow_zero, Nat.mul_one] at onGrid
      have product : 10 ^ k * whole * Format.double.unit * Format.double.unit =
          whole * Format.double.unit * (10 ^ k * Format.double.unit) := by ring
      rw [product, Format.nearest_of_dvd (Nat.mul_pos divides (Format.unit_pos _)) onGrid] at units
      have quotient : ((10 ^ k * whole : Nat) : ℚ) / (10 ^ k : Nat) = whole := by
        rw [Nat.cast_mul, mul_div_cancel_left₀ _ (by exact_mod_cast divides.ne')]
      rw [quotient]
      exact tells_of_whole units
    · have fine : 10 ^ k < 2 * Format.double.unit := by
        have most : 10 ^ 22 < 2 * Format.double.unit := by decide +kernel
        exact (Nat.pow_le_pow_right (by decide) few).trans_lt most
      have part := fun m => Format.nearest_ne_mul (f := .double) m fits even divides fine
        (Format.unit_pos .double)
      rw [← units] at part
      exact tells_of_part part (cast_div_ne divides even)

theorem isZero_start_iff (fits : value < 9007199254740992) :
    (start value).isZero = true ↔ value = 0 := by
  have positive := Format.unit_pos .double
  rw [Finite.isZero, beq_iff_eq, units_start_of_lt fits, Nat.mul_eq_zero]
  omega

theorem tells_start_zero (v : ℚ) : (start 0).negative = false ∧ Tells (start 0) (0 * v) := by
  have units : (start 0).units = 0 * Format.double.unit := units_start_of_lt (by decide)
  have tells := tells_of_whole units
  rw [Nat.cast_zero, ← zero_mul v] at tells
  exact ⟨(units_start (Nat.zero_le _)).1, tells⟩

theorem scaled_natCast (value k : Nat) : scaled value (k : Int) =
    if k ≤ greatestPower then ((start value).mul (powerOfTen k)).finite?
    else if (start value).isZero then some (start value) else none := by
  rw [scaled]
  dsimp only
  rw [if_pos (Int.natCast_nonneg k), Int.toNat_natCast]
  simp only [Nat.cast_le]
  rfl

theorem scaled_neg_natCast (pos : 0 < k) (room : k ≤ greatestPower) :
    scaled value (-(k : Int)) =
      if (start value).isZero then some (start value)
      else ((start value).div (powerOfTen k)).finite? := by
  have once : (k - 1) / greatestPower = 0 := Nat.div_eq_of_lt (by omega)
  rw [scaled]
  dsimp only
  rw [if_neg (by omega), Int.natAbs_neg, Int.natAbs_natCast, once, Nat.zero_mul, Nat.sub_zero]
  rfl

/-- A few digits with an exponent are scaled to a whole number below `2 ^ 64` only if they stand for
it, unless their value is between `2 ^ 53` and `2 ^ 64` or very small. -/
theorem tells_scaled {e : Int} (fits : value < 9007199254740992)
    (fine : -(greatestPower : Int) ≤ e)
    (apart : (value : ℚ) * 10 ^ e < 9007199254740992 ∨ 18446744073709551616 ≤ (value : ℚ) * 10 ^ e)
    (h : scaled value e = some x) : x.negative = false ∧ Tells x (value * 10 ^ e) := by
  rcases lt_or_ge e 0 with part | whole
  · obtain ⟨k, rfl⟩ : ∃ k : Nat, e = -(k : Int) := ⟨e.natAbs, by omega⟩
    rw [scaled_neg_natCast (by omega) (by omega)] at h
    split at h
    · next zero =>
      obtain rfl := Option.some.inj h
      rw [(isZero_start_iff fits).1 zero, Nat.cast_zero]
      exact tells_start_zero _
    · next nonzero =>
      have quotient : (value : ℚ) * 10 ^ (-(k : Int)) = value / (10 ^ k : Nat) := by
        rw [zpow_neg, zpow_natCast, ← div_eq_mul_inv, Nat.cast_pow, Nat.cast_ofNat]
      have positive : 0 < value := Nat.pos_of_ne_zero (mt (isZero_start_iff fits).2 nonzero)
      rw [quotient]
      exact tells_quotient positive fits (by omega) h
  · obtain ⟨k, rfl⟩ := Int.eq_ofNat_of_zero_le whole
    have product : (value : ℚ) * 10 ^ (k : Int) = (value * 10 ^ k : Nat) := by
      rw [zpow_natCast, Nat.cast_mul, Nat.cast_pow, Nat.cast_ofNat]
    rw [scaled_natCast] at h
    split at h
    · next room =>
      rw [product] at apart ⊢
      exact tells_product fits room (by exact_mod_cast apart) h
    split at h
    · next zero =>
      obtain rfl := Option.some.inj h
      rw [(isZero_start_iff fits).1 zero, Nat.cast_zero]
      exact tells_start_zero _
    · cases h

end Scaling

section Whole

variable {x : Finite .double} {value : Nat}

theorem units_scaled_zero (small : value ≤ 18446744073709551616)
    (h : scaled value (0 : Nat) = some x) :
    x.negative = false ∧
      x.units = Format.double.nearest (value * Format.double.unit) 1 := by
  have positive := Nat.mul_pos (Format.unit_pos .double) (Format.unit_pos .double)
  obtain ⟨sign, units⟩ := units_start (le_pow_greatestPower small)
  rw [scaled_natCast, if_pos (Nat.zero_le _)] at h
  obtain ⟨sign', units'⟩ := Finite.units_mul h
  rw [sign, (units_powerOfTen (Nat.zero_le _)).1] at sign'
  have one := (units_powerOfTen (Nat.zero_le greatestPower)).2
  rw [nearest_ten (Nat.zero_le _), Nat.pow_zero, Nat.one_mul] at one
  rw [one, Nat.mul_assoc, Format.nearest_of_dvd positive (start value).representable.1] at units'
  exact ⟨sign', units'.trans units⟩

theorem le_units_of_dropped {dropped : Nat} (long : dropped ≠ 0)
    (kept : 1844674407370955161 ≤ value) (small : value ≤ 18446744073709551616)
    (h : scaled value (dropped : Int) = some x) :
    x.negative = false ∧ 18446744073709551616 * Format.double.unit ≤ x.units := by
  have positive := Nat.mul_pos (Format.unit_pos .double) (Format.unit_pos .double)
  obtain ⟨sign, units⟩ := units_start (le_pow_greatestPower small)
  have least : 1844674407370955264 * Format.double.unit ≤ (start value).units := by
    have cut := Format.nearest_natural_eq (f := .double)
      (show 2 ^ 60 ≤ 1844674407370955161 by decide) (by decide) (by decide)
    have rounded : Format.roundHalfEven 1844674407370955161
        (2 ^ (60 + 1 - Format.double.precision)) * 2 ^ (60 + 1 - Format.double.precision) =
          1844674407370955264 := by decide
    rw [rounded] at cut
    rw [units, ← cut]
    exact Format.nearest_mono (Nat.mul_le_mul_right _ kept) 1
  rw [scaled_natCast] at h
  split at h
  · next room =>
    obtain ⟨sign', units'⟩ := Finite.units_mul h
    rw [sign, (units_powerOfTen room).1] at sign'
    refine ⟨sign', ?_⟩
    have factor := le_units_powerOfTen (show 1 ≤ 22 by decide) (Nat.pos_of_ne_zero long) room
    rw [units']
    refine Format.le_nearest positive pow_spacing_dvd_limit ?_
    calc 18446744073709551616 * Format.double.unit * (Format.double.unit * Format.double.unit)
        ≤ 18446744073709552640 * Format.double.unit *
            (Format.double.unit * Format.double.unit) :=
          Nat.mul_le_mul_right _ (Nat.mul_le_mul_right _ (by decide))
      _ = 1844674407370955264 * Format.double.unit * (10 ^ 1 * Format.double.unit) *
            Format.double.unit := by ring
      _ ≤ (start value).units * (powerOfTen dropped).units * Format.double.unit :=
          Nat.mul_le_mul_right _ (Nat.mul_le_mul least factor)
  split at h
  · next zero =>
    have none : (start value).units = 0 := beq_iff_eq.1 zero
    have one := Format.unit_pos .double
    omega
  · cases h

end Whole

end Numeral

end ToolChat.Json
