import Mathlib.Tactic.Ring
import ToolChat.Argument.Binder

/-!
Exact values of numbers.

What a format represents is its own nearest value, and the nearest value of a ratio is at most about
twice the ratio, so that all JSON numbers are finite in double precision. A JSON number that is an
integer below `2 ^ 64` in magnitude is taken for that integer.
-/

set_option autoImplicit false

namespace ToolChat

namespace Format

variable {f : Format}

theorem roundHalfEven_mul {den : Nat} (pos : 0 < den) (q : Nat) :
    roundHalfEven (q * den) den = q := by
  unfold roundHalfEven
  rw [Nat.mul_div_cancel q pos, Nat.mul_mod_left]
  exact if_pos pos

theorem nearest_of_dvd {units den : Nat} (pos : 0 < den)
    (onGrid : Nat.pow 2 (f.spacing units) ∣ units) : f.nearest (units * den) den = units := by
  -- Divided by the gap the units are whole, so that nothing is left to round.
  obtain ⟨q, split⟩ := onGrid
  have gap : 0 < Nat.pow 2 (f.spacing units) := Nat.two_pow_pos _
  have product : units * den = q * (den * Nat.pow 2 (f.spacing units)) := by
    calc units * den = Nat.pow 2 (f.spacing units) * q * den := by rw [← split]
      _ = q * (den * Nat.pow 2 (f.spacing units)) := by ring
  rw [nearest, Nat.mul_div_cancel units pos, product, roundHalfEven_mul (Nat.mul_pos pos gap)]
  rw [Nat.mul_comm]
  exact split.symm

theorem gap_le (f : Format) (units : Nat) : Nat.pow 2 (f.spacing units) ≤ units + 1 := by
  have significant := f.precision_pos
  by_cases zero : units = 0
  · have none : f.spacing units = 0 := by
      rw [spacing, zero, Nat.log2_zero]
      omega
    rw [none]
    exact Nat.le_add_left _ _
  · have fewer : f.spacing units ≤ units.log2 := by
      rw [spacing]
      omega
    have power : 2 ^ f.spacing units ≤ 2 ^ units.log2 := Nat.pow_le_pow_right (by decide) fewer
    have below : 2 ^ units.log2 ≤ units := Nat.log2_self_le zero
    exact Nat.le_succ_of_le (power.trans below)

theorem nearest_le (f : Format) (num den : Nat) : f.nearest num den ≤ 2 * (num / den) + 1 := by
  have gap := f.gap_le (num / den)
  have rounded := roundHalfEven_le_succ num (den * Nat.pow 2 (f.spacing (num / den)))
  rw [← Nat.div_div_eq_div_mul] at rounded
  have whole := Nat.div_mul_le_self (num / den) (Nat.pow 2 (f.spacing (num / den)))
  calc f.nearest num den
      ≤ (num / den / Nat.pow 2 (f.spacing (num / den)) + 1) *
          Nat.pow 2 (f.spacing (num / den)) := Nat.mul_le_mul_right _ rounded
    _ ≤ 2 * (num / den) + 1 := by
      rw [Nat.add_mul]
      omega

end Format

namespace Binary

variable {f : Format}

theorem convert_finite (x : Finite f) : (Binary.finite x).convert f = .finite x := by
  obtain ⟨negative, units, onGrid, below⟩ := x
  have same : f.nearest (units * Nat.pow 2 f.scale) (Nat.pow 2 f.scale) = units :=
    Format.nearest_of_dvd (Nat.two_pow_pos _) onGrid
  simp only [convert, ofRatio, ofGrid, same]
  exact dif_pos below

theorem isFinite_ofRatio {num den : Nat} (negative : Bool)
    (small : f.nearest (num * Nat.pow 2 f.scale) den < f.bound) :
    (ofRatio negative num den : Binary f).isFinite = true := by
  rw [ofRatio, ofGrid, dif_pos small]
  rfl

theorem isFinite_ofInt {n : Int} {bits : Nat} (small : n.natAbs < 2 ^ bits) (room : bits < f.top) :
    (Binary.ofInt n : Binary f).isFinite = true := by
  have unit : 0 < 2 ^ f.scale := Nat.two_pow_pos _
  have near := f.nearest_le (n.natAbs * 2 ^ f.scale) 1
  rw [Nat.div_one] at near
  have units : (n.natAbs + 1) * 2 ^ f.scale ≤ 2 ^ bits * 2 ^ f.scale :=
    Nat.mul_le_mul_right _ small
  rw [Nat.add_mul] at units
  have twice : 2 * (2 ^ bits * 2 ^ f.scale) ≤ 2 ^ (f.top + f.scale) := by
    rw [Nat.pow_add, ← Nat.mul_assoc, ← Nat.pow_succ']
    exact Nat.mul_le_mul_right _ (Nat.pow_le_pow_right (by decide) room)
  have bound : f.bound = 2 ^ (f.top + f.scale) := rfl
  apply isFinite_ofRatio
  rw [bound, Nat.pow_eq]
  omega

end Binary

namespace Finite

variable {f : Format}

theorem toInt?_eq_some_iff {x : Finite f} {m : Int} :
    x.toInt? = some m ↔ x.signedUnits = m * (Nat.pow 2 f.scale : Nat) := by
  have unit : ((Nat.pow 2 f.scale : Nat) : Int) ≠ 0 := by
    have pos : 0 < Nat.pow 2 f.scale := Nat.two_pow_pos _
    omega
  unfold toInt?
  dsimp only
  split
  · next whole =>
    rw [Option.some_inj, Int.ediv_eq_iff_eq_mul_left unit (Int.dvd_of_emod_eq_zero whole)]
  · next part =>
    refine iff_of_false nofun ?_
    intro whole
    rw [whole, Int.mul_emod_left] at part
    exact part rfl

theorem natAbs_signedUnits (x : Finite f) : x.signedUnits.natAbs = x.units := by
  unfold signedUnits
  split <;> omega

theorem magnitudeBelow_iff {x : Finite f} {m : Int} (whole : x.toInt? = some m) (limit : Nat) :
    x.magnitudeBelow limit = true ↔ m.natAbs < limit := by
  have unit : 0 < Nat.pow 2 f.scale := Nat.two_pow_pos _
  have magnitude : x.units = m.natAbs * Nat.pow 2 f.scale := by
    rw [← natAbs_signedUnits, toInt?_eq_some_iff.1 whole, Int.natAbs_mul, Int.natAbs_natCast]
  rw [magnitudeBelow, decide_eq_true_iff, magnitude, Nat.mul_lt_mul_right unit]

end Finite

theorem exists_finite_of_contains {kind : FloatKind} {x : Double} (h : kind.contains x = true) :
    ∃ finite, x = .finite finite := by
  cases x with
  | finite finite => exact ⟨finite, rfl⟩
  | nan | infinite => cases h

theorem IntegerKind.inExactRange_of_contains {kind : IntegerKind} {n : Int}
    (h : kind.contains n = true) : Json.InExactRange n := by
  have bounds : -9223372036854775808 ≤ kind.least ∧ kind.greatest < 18446744073709551616 := by
    cases kind <;> decide
  obtain ⟨low, high⟩ : kind.least ≤ n ∧ n ≤ kind.greatest := by simpa [contains] using h
  exact ⟨bounds.1.trans low, high.trans_lt bounds.2⟩

namespace Json.Number

theorem isFinite_toDouble (n : Json.Number) : n.toDouble.isFinite = true := by
  cases n with
  | integer n range =>
    obtain ⟨low, high⟩ := range
    have small : n.natAbs < 2 ^ 64 := by omega
    exact Binary.isFinite_ofInt small (by decide)
  | float x => rfl

theorem contains_toDouble (n : Json.Number) : FloatKind.f64.contains n.toDouble = true := by
  have finite := n.isFinite_toDouble
  cases value : n.toDouble with
  | finite x =>
    have same : (Binary.finite x).convert FloatKind.f64.format = .finite x :=
      Binary.convert_finite x
    rw [FloatKind.contains, same]
    rfl
  | nan =>
    rw [value] at finite
    cases finite
  | infinite negative =>
    rw [value] at finite
    cases finite

def Is : Json.Number → Int → Prop
  | .integer n _, m => n = m
  | .float x, m => x.signedUnits = m * (Nat.pow 2 Format.double.scale : Nat)

theorem exactInt?_eq_some_iff {n : Json.Number} {m : Int} :
    n.exactInt? = some m ↔ n.Is m ∧ m.natAbs < 18446744073709551616 := by
  cases n with
  | integer n range =>
    obtain ⟨low, high⟩ := range
    have whole : (Number.integer n ⟨low, high⟩).exactInt? = some n := rfl
    have spelled : (Number.integer n ⟨low, high⟩).Is m ↔ n = m := Iff.rfl
    rw [whole, Option.some_inj, spelled]
    constructor
    · rintro rfl
      omega
    · exact And.left
  | float x =>
    have found : (Number.float x).exactInt? =
        if x.magnitudeBelow 18446744073709551616 then x.toInt? else none := rfl
    have spelled : (Number.float x).Is m ↔ x.toInt? = some m := Finite.toInt?_eq_some_iff.symm
    rw [found, spelled]
    split
    · next small =>
      exact ⟨fun whole => ⟨whole, (Finite.magnitudeBelow_iff whole _).1 small⟩, And.left⟩
    · next large =>
      exact iff_of_false nofun fun h => large ((Finite.magnitudeBelow_iff h.1 _).2 h.2)

end Json.Number

/-- In the bounds of a kind every integer is taken for itself. -/
theorem exactInt?_eq_some_iff_of_contains {kind : IntegerKind} {number : Json.Number} {m : Int}
    (inBounds : kind.contains m = true) : number.exactInt? = some m ↔ number.Is m := by
  have range := IntegerKind.inExactRange_of_contains inBounds
  unfold Json.InExactRange at range
  rw [Json.Number.exactInt?_eq_some_iff]
  exact and_iff_left (by omega)

end ToolChat
