/-!
Binary floating-point formats.

A format fixes a grid of magnitudes: every finite magnitude is a whole number of units of
`2 ^ (-scale)`, written with at most `precision` significant bits, and below `2 ^ top`.
`Format.nearest` picks the grid point closest to a ratio, a tie going to the even neighbour;
`nearest_dvd` says that what it picks lies on the grid.
-/

set_option autoImplicit false

namespace ToolChat

structure Format where
  /-- Bits of a significand. -/
  precision : Nat
  /-- Finite values are whole multiples of `2 ^ (-scale)`. -/
  scale : Nat
  /-- Finite magnitudes are below `2 ^ top`. -/
  top : Nat
  precision_pos : 0 < precision := by decide
  deriving DecidableEq, Repr

namespace Format

def double : Format := ⟨53, 1074, 1024, by decide⟩

def single : Format := ⟨24, 149, 128, by decide⟩

/-- Two neighbours on the grid near `units` are `2 ^ spacing units` units apart. -/
def spacing (f : Format) (units : Nat) : Nat :=
  units.log2 + 1 - f.precision

/-- The first magnitude, in units, that is too large to be finite. -/
def bound (f : Format) : Nat :=
  Nat.pow 2 (f.top + f.scale)

/-- A count of units is representable when it lies on the grid and below the bound. -/
def Representable (f : Format) (units : Nat) : Prop :=
  Nat.pow 2 (f.spacing units) ∣ units ∧ units < f.bound

instance (f : Format) (units : Nat) : Decidable (f.Representable units) :=
  inferInstanceAs (Decidable (_ ∧ _))

/-- The whole number nearest to `num / den`, a tie going to the even one. -/
def roundHalfEven (num den : Nat) : Nat :=
  let q := num / den
  let r := num % den
  if 2 * r < den then q
  else if den < 2 * r then q + 1
  else if q % 2 = 0 then q else q + 1

/-- The grid point nearest to `num / den` units, as if the format had no largest value. -/
def nearest (f : Format) (num den : Nat) : Nat :=
  let gap := Nat.pow 2 (f.spacing (num / den))
  roundHalfEven num (den * gap) * gap

theorem roundHalfEven_le_succ (num den : Nat) :
    roundHalfEven num den ≤ num / den + 1 := by
  simp only [roundHalfEven]
  split <;> (try split) <;> (try split) <;> omega

theorem le_roundHalfEven (num den : Nat) : num / den ≤ roundHalfEven num den := by
  simp only [roundHalfEven]
  split <;> (try split) <;> (try split) <;> omega

private theorem spacing_two_pow_mul {f : Format} {m s : Nat}
    (low : Nat.pow 2 (f.precision - 1) ≤ m) (high : m < Nat.pow 2 f.precision) :
    f.spacing (m * Nat.pow 2 s) = s := by
  rw [Nat.pow_eq] at *
  have hp := f.precision_pos
  have hm : m ≠ 0 := by
    have := Nat.two_pow_pos (f.precision - 1)
    omega
  have hlog : m.log2 = f.precision - 1 := by
    apply Nat.le_antisymm
    · have := (Nat.log2_lt hm).2 high
      omega
    · exact (Nat.le_log2 hm).2 low
  have hz : m * 2 ^ s ≠ 0 := Nat.mul_ne_zero hm (Nat.ne_of_gt (Nat.two_pow_pos s))
  have hlog' : (m * 2 ^ s).log2 = f.precision - 1 + s := by
    apply Nat.le_antisymm
    · have : m * 2 ^ s < 2 ^ (f.precision + s) := by
        rw [Nat.pow_add]
        exact Nat.mul_lt_mul_of_pos_right high (Nat.two_pow_pos s)
      have := (Nat.log2_lt hz).2 this
      omega
    · apply (Nat.le_log2 hz).2
      rw [Nat.pow_add]
      exact Nat.mul_le_mul_right _ low
  simp only [spacing, hlog']
  omega

theorem nearest_dvd (f : Format) (num den : Nat) :
    Nat.pow 2 (f.spacing (f.nearest num den)) ∣ f.nearest num den := by
  rw [Nat.pow_eq]
  have hp := f.precision_pos
  generalize hn : f.nearest num den = n
  simp only [nearest, Nat.pow_eq] at hn
  generalize hs : f.spacing (num / den) = s at hn
  by_cases hzero : s = 0
  · subst hzero
    simp only [Nat.pow_zero, Nat.mul_one] at hn
    by_cases hbig : n < 2 ^ f.precision
    · have : f.spacing n = 0 := by
        by_cases h0 : n = 0
        · subst h0
          simp only [spacing, Nat.log2_zero]
          omega
        · have := (Nat.log2_lt h0).2 hbig
          simp only [spacing]
          omega
      simp [this]
    · have hq : num / den < 2 ^ f.precision := by
        by_cases h0 : num / den = 0
        · rw [h0]
          exact Nat.two_pow_pos _
        · apply (Nat.log2_lt h0).1
          simp only [spacing] at hs
          omega
      have hle := roundHalfEven_le_succ num den
      have hn' : n = 2 ^ f.precision := by omega
      subst hn'
      have : f.spacing (2 ^ f.precision) = 1 := by
        simp only [spacing, Nat.log2_two_pow]
        omega
      rw [this]
      exact Nat.pow_dvd_pow 2 hp
  · have hq0 : num / den ≠ 0 := by
      intro h0
      simp only [spacing, h0, Nat.log2_zero] at hs
      omega
    have hlog : (num / den).log2 = f.precision - 1 + s := by
      simp only [spacing] at hs
      omega
    have hlow : 2 ^ (f.precision - 1 + s) ≤ num / den :=
      (Nat.le_log2 hq0).1 (Nat.le_of_eq hlog.symm)
    have hhigh : num / den < 2 ^ (f.precision + s) := by
      apply (Nat.log2_lt hq0).1
      omega
    generalize hm : roundHalfEven num (den * 2 ^ s) = m at hn
    have hquot : num / (den * 2 ^ s) = num / den / 2 ^ s := (Nat.div_div_eq_div_mul ..).symm
    have hmlow : 2 ^ (f.precision - 1) ≤ m := by
      have h := le_roundHalfEven num (den * 2 ^ s)
      rw [hm, hquot] at h
      refine Nat.le_trans ?_ h
      rw [Nat.le_div_iff_mul_le (Nat.two_pow_pos s), ← Nat.pow_add]
      exact hlow
    have hmhigh : m ≤ 2 ^ f.precision := by
      have h := roundHalfEven_le_succ num (den * 2 ^ s)
      rw [hm, hquot] at h
      have : num / den / 2 ^ s < 2 ^ f.precision := by
        rw [Nat.div_lt_iff_lt_mul (Nat.two_pow_pos s), ← Nat.pow_add]
        exact hhigh
      omega
    subst hn
    by_cases htop : m < 2 ^ f.precision
    · have hspacing : f.spacing (m * 2 ^ s) = s := spacing_two_pow_mul hmlow htop
      rw [hspacing]
      exact Nat.dvd_mul_left _ _
    · have hm' : m = 2 ^ f.precision := by omega
      subst hm'
      rw [← Nat.pow_add]
      apply Nat.pow_dvd_pow
      simp only [spacing, Nat.log2_two_pow]
      omega

end Format

end ToolChat
