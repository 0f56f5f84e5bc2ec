import Mathlib.Data.Int.Log
import Mathlib.Data.Rat.Floor

/-!
# Binary Floating-Point Formats

Conversion of a rational number to a binary floating-point format: to the nearest number of
the format, ties to the even significand, with subnormal numbers below the normal range and
an infinity above it.

A format has `precision` significant bits, `2 ^ minExponent` is its least positive number and
all its numbers are below `2 ^ maxExponent`.

## Main results

- `BinaryFormat.round_eq_zero_iff`: what the conversion takes to zero
- `BinaryFormat.round_isSome_iff`: what it does not take to an infinity
-/

namespace RedisPvxsIoc.Foundations

/-! ## Rounding to an integer -/

/-- The nearest integer; of two nearest ones, the even one. -/
def roundEven (x : Rat) : Int :=
  if x - ⌊x⌋ < 1 / 2 then ⌊x⌋
  else if 1 / 2 < x - ⌊x⌋ then ⌊x⌋ + 1
  else if ⌊x⌋ % 2 = 0 then ⌊x⌋
  else ⌊x⌋ + 1

/-- The only fact about `roundEven` that is used: below the midpoint after `k` everything is
    rounded to at most `k`, and the midpoint itself exactly when `k` is even. -/
theorem roundEven_le_iff (x : Rat) (k : Int) :
    roundEven x ≤ k ↔ x < k + 1 / 2 ∨ (x = k + 1 / 2 ∧ k % 2 = 0) := by
  have hlow : (⌊x⌋ : Rat) ≤ x := Int.floor_le x
  have hhigh : x < ⌊x⌋ + 1 := Int.lt_floor_add_one x
  unfold roundEven
  generalize ⌊x⌋ = n at hlow hhigh ⊢
  rcases lt_trichotomy n k with hlt | rfl | hgt
  · -- both candidates are at most `k`
    have hk : (n : Rat) + 1 ≤ k := by exact_mod_cast hlt
    have hx : x < k + 1 / 2 := by linarith
    simp only [hx, true_or, iff_true]
    split_ifs <;> omega
  · split_ifs with hbelow habove heven
    · have hx : x < n + 1 / 2 := by linarith
      simp only [hx, true_or, le_refl]
    · have hx : ¬x < n + 1 / 2 := by linarith
      have hne : x ≠ n + 1 / 2 := by intro h; linarith
      simp only [hx, hne, false_and, or_self, iff_false]
      omega
    · have hx : x = n + 1 / 2 := by linarith
      simp [hx, heven]
    · have hx : x = n + 1 / 2 := by linarith
      simp only [hx, lt_irrefl, heven, and_false, or_self, iff_false]
      omega
  · have hk : (k : Rat) + 1 ≤ n := by exact_mod_cast hgt
    have hx : ¬x < k + 1 / 2 := by linarith
    have hne : x ≠ k + 1 / 2 := by intro h; linarith
    simp only [hx, hne, false_and, or_self, iff_false]
    split_ifs <;> omega

variable {x : Rat}

theorem le_roundEven {n : Int} (h : (n : Rat) ≤ x) : n ≤ roundEven x := by
  by_contra hlt
  have hle : roundEven x ≤ n - 1 := by omega
  rw [roundEven_le_iff] at hle
  push_cast at hle
  rcases hle with hx | ⟨hx, -⟩ <;> linarith

theorem roundEven_eq_zero_iff (h : 0 ≤ x) : roundEven x = 0 ↔ x ≤ 1 / 2 := by
  have hnonneg : 0 ≤ roundEven x := le_roundEven (by exact_mod_cast h)
  have hle := roundEven_le_iff x 0
  norm_num at hle
  rw [← le_iff_lt_or_eq] at hle
  constructor
  · intro hzero
    have hx := hle.mp hzero.le
    norm_num at hx ⊢
    exact hx
  · intro hx
    norm_num at hx
    exact le_antisymm (hle.mpr hx) hnonneg

/-- An even number is reached from the midpoint below it on. -/
theorem roundEven_lt_even_iff (x : Rat) {n : Int} (heven : n % 2 = 0) :
    roundEven x < n ↔ x < n - 1 / 2 := by
  have hodd : ¬(n - 1) % 2 = 0 := by omega
  have hle := roundEven_le_iff x (n - 1)
  simp only [hodd, and_false, or_false] at hle
  rw [← Int.le_sub_one_iff, hle]
  push_cast
  constructor <;> intro h <;> linarith

/-! ## Formats -/

structure BinaryFormat where
  precision : Nat
  minExponent : Int
  maxExponent : Int
  precision_pos : 0 < precision
  /-- The normal range is not empty. -/
  normal : minExponent + precision ≤ maxExponent

/-- Single precision. -/
def binary32 : BinaryFormat := ⟨24, -149, 128, by decide, by decide⟩

/-- Double precision. -/
def binary64 : BinaryFormat := ⟨53, -1074, 1024, by decide, by decide⟩

namespace BinaryFormat

variable (f : BinaryFormat)

/-- The exponent of the last bit of a number of this magnitude. -/
def lastBit (x : Rat) : Int := max (Int.log 2 x + 1 - f.precision) f.minExponent

/-- A magnitude rounded to a multiple of its last bit. -/
def magnitude (x : Rat) : Rat := roundEven (x / 2 ^ f.lastBit x) * 2 ^ f.lastBit x

/-- The number of the format that `q` is converted to, or `none` for the infinity of its
    sign. -/
def round (q : Rat) : Option Rat :=
  if f.magnitude |q| < 2 ^ f.maxExponent then
    some (if q < 0 then -f.magnitude |q| else f.magnitude |q|)
  else none

theorem minExponent_le_lastBit (x : Rat) : f.minExponent ≤ f.lastBit x := le_max_right _ _

/-- Powers of two of the rationals, with an integer exponent. -/
theorem two_zpow_pos (e : Int) : (0 : Rat) < 2 ^ e := zpow_pos (by norm_num) e

variable {e : Int}

theorem two_zpow_le {e' : Int} (h : e ≤ e') : (2 : Rat) ^ e ≤ 2 ^ e' :=
  zpow_le_zpow_right₀ (by norm_num) h

theorem two_zpow_half (e : Int) : (2 : Rat) ^ (e - 1) = 2 ^ e * (1 / 2) := by
  rw [zpow_sub_one₀ (by norm_num)]
  norm_num

/-- The quotient by a power of two, compared with a power of two. -/
theorem two_zpow_split {e' : Int} (h : e ≤ e') :
    (2 : Rat) ^ e' = ((2 ^ (e' - e).toNat : Int) : Rat) * 2 ^ e := by
  have hsum : e' = ((e' - e).toNat : Int) + e := by omega
  conv_lhs => rw [hsum]
  rw [zpow_add₀ (by norm_num), zpow_natCast]
  push_cast
  rfl

/-! ## Underflow -/

/-- Halving the last bit only matters where it is the least one of the format. -/
theorem le_half_lastBit_iff (h : 0 ≤ x) :
    x ≤ 2 ^ (f.lastBit x - 1) ↔ x ≤ 2 ^ (f.minExponent - 1) := by
  constructor
  · intro hx
    rcases h.eq_or_lt with rfl | hpos
    · exact (two_zpow_pos _).le
    · have hlog : (2 : Rat) ^ Int.log 2 x ≤ x := Int.zpow_log_le_self (by norm_num) hpos
      have hexp : Int.log 2 x ≤ f.lastBit x - 1 :=
        (zpow_le_zpow_iff_right₀ (by norm_num)).mp (hlog.trans hx)
      -- a last bit above the whole number can only be the least one
      have hleast : f.lastBit x = f.minExponent := by
        have := f.precision_pos
        unfold lastBit at hexp ⊢
        omega
      rwa [hleast] at hx
  · intro hx
    have hle := f.minExponent_le_lastBit x
    exact hx.trans (two_zpow_le (by omega))

theorem magnitude_eq_zero_iff (h : 0 ≤ x) :
    f.magnitude x = 0 ↔ x ≤ 2 ^ (f.minExponent - 1) := by
  have hpos := two_zpow_pos (f.lastBit x)
  calc f.magnitude x = 0 ↔ roundEven (x / 2 ^ f.lastBit x) = 0 := by
        simp [magnitude, hpos.ne']
    _ ↔ x / 2 ^ f.lastBit x ≤ 1 / 2 := roundEven_eq_zero_iff (div_nonneg h hpos.le)
    _ ↔ x ≤ 2 ^ (f.lastBit x - 1) := by
        rw [div_le_iff₀ hpos, two_zpow_half, mul_comm]
    _ ↔ x ≤ 2 ^ (f.minExponent - 1) := f.le_half_lastBit_iff h

/-! ## Overflow -/

/-- A magnitude of at least `2 ^ maxExponent` is not rounded below it. -/
theorem le_magnitude_of_le (h : (2 : Rat) ^ f.maxExponent ≤ x) :
    (2 : Rat) ^ f.maxExponent ≤ f.magnitude x := by
  have hpos : 0 < x := (two_zpow_pos _).trans_le h
  have hlog : f.maxExponent ≤ Int.log 2 x := by
    rw [← Int.zpow_le_iff_le_log (by norm_num) hpos]
    exact_mod_cast h
  have hbit : f.lastBit x ≤ Int.log 2 x := by
    have := f.precision_pos
    have := f.normal
    unfold lastBit
    omega
  have hx : (2 : Rat) ^ Int.log 2 x ≤ x := Int.zpow_log_le_self (by norm_num) hpos
  rw [two_zpow_split hbit] at hx
  have hround := le_roundEven ((le_div_iff₀ (two_zpow_pos (f.lastBit x))).mpr hx)
  calc (2 : Rat) ^ f.maxExponent ≤ 2 ^ Int.log 2 x := two_zpow_le hlog
    _ = ((2 ^ (Int.log 2 x - f.lastBit x).toNat : Int) : Rat) * 2 ^ f.lastBit x :=
        two_zpow_split hbit
    _ ≤ f.magnitude x :=
        mul_le_mul_of_nonneg_right (by exact_mod_cast hround) (two_zpow_pos _).le

/-- Below `2 ^ maxExponent` the limit is the midpoint under it, at the last bit of `x`. -/
theorem magnitude_lt_iff_lastBit (hbit : f.lastBit x < f.maxExponent) :
    f.magnitude x < 2 ^ f.maxExponent ↔ x < 2 ^ f.maxExponent - 2 ^ (f.lastBit x - 1) := by
  have hpos := two_zpow_pos (f.lastBit x)
  have heven : ((2 : Int) ^ (f.maxExponent - f.lastBit x).toNat) % 2 = 0 := by
    obtain ⟨k, hk⟩ : ∃ k, (f.maxExponent - f.lastBit x).toNat = k + 1 :=
      ⟨(f.maxExponent - f.lastBit x).toNat - 1, by omega⟩
    rw [hk, pow_succ]
    exact Int.mul_emod_left _ _
  rw [magnitude, two_zpow_split hbit.le, mul_lt_mul_iff_left₀ hpos, Int.cast_lt,
    roundEven_lt_even_iff _ heven, div_lt_iff₀ hpos, two_zpow_half]
  constructor <;> intro h <;> linarith

/-- The limit itself: the midpoint between the largest number and `2 ^ maxExponent`. -/
def overflowLimit : Rat := 2 ^ f.maxExponent - 2 ^ (f.maxExponent - f.precision - 1)

/-- The lower half of the range is below the limit at every last bit of the format. -/
theorem lt_sub_half_of_lt (he : e ≤ f.maxExponent) (h : x < 2 ^ (f.maxExponent - 1)) :
    x < 2 ^ f.maxExponent - 2 ^ (e - 1) := by
  have hle : (2 : Rat) ^ (e - 1) ≤ 2 ^ (f.maxExponent - 1) := two_zpow_le (by omega)
  have hhalf := two_zpow_half f.maxExponent
  linarith

theorem magnitude_lt_iff (h : 0 ≤ x) :
    f.magnitude x < 2 ^ f.maxExponent ↔ x < f.overflowLimit := by
  have hp := f.precision_pos
  have hn := f.normal
  have hlimit : f.overflowLimit < 2 ^ f.maxExponent := by
    have := two_zpow_pos (f.maxExponent - f.precision - 1)
    unfold overflowLimit
    linarith
  rcases h.eq_or_lt with rfl | hpos
  · have hmag : f.magnitude 0 = 0 := (f.magnitude_eq_zero_iff le_rfl).mpr (two_zpow_pos _).le
    have hzero : (0 : Rat) < f.overflowLimit :=
      f.lt_sub_half_of_lt (by omega) (two_zpow_pos _)
    simp only [hmag, hzero, two_zpow_pos]
  rcases le_or_gt ((2 : Rat) ^ f.maxExponent) x with hge | hlt
  · have hmag := f.le_magnitude_of_le hge
    constructor <;> intro hx <;> linarith
  have hlog : Int.log 2 x < f.maxExponent := by
    rw [← Int.lt_zpow_iff_log_lt (by norm_num) hpos]
    exact_mod_cast hlt
  have hbit : f.lastBit x ≤ f.maxExponent - f.precision := by
    unfold lastBit
    omega
  rw [f.magnitude_lt_iff_lastBit (by omega)]
  rcases hbit.eq_or_lt with heq | hfine
  · rw [heq, overflowLimit]
  · -- a finer last bit: `x` is in the lower half of the range
    have hlower : x < 2 ^ (f.maxExponent - 1) := by
      have hsmall : Int.log 2 x < f.maxExponent - 1 := by
        unfold lastBit at hfine
        omega
      rw [← Int.lt_zpow_iff_log_lt (by norm_num) hpos] at hsmall
      exact_mod_cast hsmall
    have hleft := f.lt_sub_half_of_lt (e := f.lastBit x) (by omega) hlower
    have hright : x < f.overflowLimit := f.lt_sub_half_of_lt (by omega) hlower
    exact iff_of_true hleft hright

/-! ## The conversion -/

theorem round_isSome_iff (q : Rat) : (f.round q).isSome = true ↔ |q| < f.overflowLimit := by
  rw [← f.magnitude_lt_iff (abs_nonneg q), round]
  split_ifs with h <;> simp [h]

theorem round_eq_zero_iff (q : Rat) : f.round q = some 0 ↔ |q| ≤ 2 ^ (f.minExponent - 1) := by
  rw [← f.magnitude_eq_zero_iff (abs_nonneg q), round]
  have hzero : f.magnitude |q| = 0 → f.magnitude |q| < 2 ^ f.maxExponent := by
    intro h
    rw [h]
    exact two_zpow_pos _
  split_ifs with h hneg
  · simp
  · simp
  · simp only [false_iff]
    exact fun h' => h (hzero h')

end BinaryFormat

end RedisPvxsIoc.Foundations
