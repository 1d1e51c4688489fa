import ToolChat.Proofs.Argument.Conformance
import ToolChat.Proofs.Number.Rounding

/-!
Integer arguments by their exact values.

Whatever the form of a JSON number, whole or in double precision, it is bound to the integer that is
its exact value, if this is one of the kind. The limit on the magnitude of a number in double
precision excludes no integer of any kind, and what passes it is not changed.
-/

set_option autoImplicit false

namespace ToolChat

namespace Json.Number

def value : Json.Number → ℚ
  | .integer n _ => n
  | .float x => x.value

theorem is_iff_value_eq {n : Json.Number} {m : Int} : n.Is m ↔ n.value = m := by
  cases n with
  | integer n range => exact Int.cast_inj.symm
  | float x => exact Finite.toInt?_eq_some_iff.symm.trans Finite.toInt?_eq_some_iff_value

theorem exactInt?_eq_some_iff_value {n : Json.Number} {m : Int} :
    n.exactInt? = some m ↔ n.value = m ∧ m.natAbs < 18446744073709551616 := by
  rw [exactInt?_eq_some_iff, is_iff_value_eq]

end Json.Number

namespace IntegerKind

def Admits (kind : IntegerKind) (n : Json.Number) (m : Int) : Prop :=
  n.value = m ∧ kind.least ≤ m ∧ m ≤ kind.greatest

/-- Why a number is no integer of a kind. A number that is too large for every kind counts as one
that is not whole. -/
inductive Refuses (kind : IntegerKind) (n : Json.Number) : Violation.Cause → Prop
  | notInteger (beyond : ∀ m : Int, n.value = m → 18446744073709551616 ≤ m.natAbs) :
      Refuses kind n (.notInteger n)
  | outOfRange {m : Int} (whole : n.value = m) (outside : m < kind.least ∨ kind.greatest < m) :
      Refuses kind n (.integerOutOfRange m kind)

variable {kind : IntegerKind} {n : Json.Number} {m : Int}

theorem admits_iff : kind.Admits n m ↔ n.exactInt? = some m ∧ kind.contains m = true := by
  rw [Admits, ← contains_iff, ← Json.Number.is_iff_value_eq]
  exact and_congr_left fun inBounds => (exactInt?_eq_some_iff_of_contains inBounds).symm

end IntegerKind

variable {kind : IntegerKind} {path : Path} {n : Json.Number}

theorem bindInteger_eq_ok_iff {value : Value} :
    bindInteger kind path (.number n) = .ok value ↔
      ∃ m : Int, kind.Admits n m ∧ value = .integer m := by
  simp only [IntegerKind.admits_iff]
  rw [bindInteger]
  cases n.exactInt? with
  | none =>
    refine iff_of_false (fun bound => ?_) ?_
    · cases bound
    · rintro ⟨m, ⟨none, -⟩, -⟩
      cases none
  | some k =>
    dsimp only
    split
    · next inBounds =>
      constructor
      · rintro ⟨⟩
        exact ⟨k, ⟨rfl, inBounds⟩, rfl⟩
      · rintro ⟨m, ⟨⟨⟩, -⟩, rfl⟩
        rfl
    · next outside =>
      refine iff_of_false (fun bound => ?_) ?_
      · cases bound
      · rintro ⟨m, ⟨⟨⟩, inBounds⟩, -⟩
        exact outside inBounds

theorem refuses_of_bindInteger {v : Violation}
    (h : bindInteger kind path (.number n) = .error v) :
    v.path = path ∧ kind.Refuses n v.cause := by
  rw [bindInteger] at h
  split at h
  · next none =>
    cases h
    refine ⟨rfl, .notInteger fun m whole => Nat.not_lt.1 fun small => ?_⟩
    cases none.symm.trans (Json.Number.exactInt?_eq_some_iff_value.2 ⟨whole, small⟩)
  · next m exact =>
    split at h
    · cases h
    · next outside =>
      cases h
      rw [IntegerKind.contains_iff, not_and_or, Int.not_le, Int.not_le] at outside
      exact ⟨rfl, .outOfRange (Json.Number.exactInt?_eq_some_iff_value.1 exact).1 outside⟩

theorem IntegerKind.Refuses.coercion {v : Violation} (h : kind.Refuses n v.cause) :
    v.toToolError.kind = .argumentCoercion := by
  obtain ⟨path, cause⟩ := v
  cases h <;> rfl

/-- A number is bound to an integer exactly if this is its exact value and one of the kind, and in
every other case the argument is refused for what is the matter with it. The number in double
precision that is an integer of the kind passes the limit on the magnitude, and every one that is
taken for an integer has it as its value. -/
theorem bindInteger_exact (kind : IntegerKind) (path : Path) (n : Json.Number) :
    (∀ value, bindInteger kind path (.number n) = .ok value ↔
        ∃ m : Int, kind.Admits n m ∧ value = .integer m) ∧
      ((∀ m : Int, ¬kind.Admits n m) → ∃ v, bindInteger kind path (.number n) = .error v ∧
        v.path = path ∧ v.toToolError.kind = .argumentCoercion ∧ kind.Refuses n v.cause) ∧
      (∀ (x : Finite .double) (m : Int), kind.Admits (.float x) m →
        x.magnitudeBelow 18446744073709551616 = true ∧ x.toInt? = some m) ∧
      ∀ (x : Finite .double) (m : Int), (Json.Number.float x).exactInt? = some m → x.value = m := by
  refine ⟨fun _ => bindInteger_eq_ok_iff, fun refused => ?_, fun x m admits => ?_,
    fun x m taken => ?_⟩
  · cases outcome : bindInteger kind path (.number n) with
    | ok value =>
      obtain ⟨m, admits, -⟩ := bindInteger_eq_ok_iff.1 outcome
      exact absurd admits (refused m)
    | error v =>
      obtain ⟨place, refuses⟩ := refuses_of_bindInteger outcome
      exact ⟨v, rfl, place, refuses.coercion, refuses⟩
  · have whole : x.toInt? = some m := Finite.toInt?_eq_some_iff_value.2 admits.1
    have small := Json.Number.exactInt?_eq_some_iff_value.1 (IntegerKind.admits_iff.1 admits).1
    exact ⟨(Finite.magnitudeBelow_iff whole _).2 small.2, whole⟩
  · exact (Json.Number.exactInt?_eq_some_iff_value.1 taken).1

/-- The zero with a negative sign is the integer zero. -/
example : (Json.Number.float Finite.zero.neg).exactInt? = some 0 := by
  decide +kernel

/-- The first integer beyond those with 64 bits and a sign, in double precision. -/
def firstUnsigned : Finite .double where
  negative := false
  units := 9223372036854775808 * Format.double.unit
  representable := by
    have onGrid := Format.pow_spacing_dvd_unit (show 1 < 2 ^ Format.double.precision by decide) 63
    have power : 1 * 2 ^ 63 = 9223372036854775808 := by decide
    rw [power] at onGrid
    refine ⟨onGrid, ?_⟩
    rw [Format.bound_eq]
    exact Nat.mul_lt_mul_of_pos_right (by decide +kernel) (Format.unit_pos _)

theorem firstUnsigned_value : firstUnsigned.value = (9223372036854775808 : Int) :=
  Finite.value_of_units rfl rfl

theorem firstUnsigned_bound_exactly :
    bindInteger .u64 (.argument "n") (.number (.float firstUnsigned)) =
        .ok (.integer 9223372036854775808) ∧
      (∀ m : Int, ¬IntegerKind.i64.Admits (.float firstUnsigned) m) ∧
      ∃ v, bindInteger .i64 (.argument "n") (.number (.float firstUnsigned)) = .error v ∧
        v.path = .argument "n" ∧ v.toToolError.kind = .argumentCoercion ∧
        IntegerKind.i64.Refuses (.float firstUnsigned) v.cause := by
  have signed : ∀ m : Int, ¬IntegerKind.i64.Admits (.float firstUnsigned) m := by
    rintro m ⟨whole, -, high⟩
    have same : (9223372036854775808 : Int) = m := by
      exact_mod_cast firstUnsigned_value.symm.trans whole
    rw [← same] at high
    exact absurd high (by decide)
  refine ⟨?_, signed, (bindInteger_exact .i64 (.argument "n") (.float firstUnsigned)).2.1 signed⟩
  exact ((bindInteger_exact .u64 (.argument "n") (.float firstUnsigned)).1 _).2
    ⟨9223372036854775808, ⟨firstUnsigned_value, by decide, by decide⟩, rfl⟩

end ToolChat
