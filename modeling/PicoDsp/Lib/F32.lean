/-
The `f32` operations of the firmware, as an interface.

Nothing in the control logic depends on how `f32` rounds, so the model is
written over a type `F` with the handful of operations the code uses, and two
readings of it are given: a bit pattern (`value`, `round`), which is what lies
in flash, and the exact real arithmetic of `F32 ℝ`, in which `powf` and
`log10f` are the usual functions.

A definition over `F` can be checked against the source line by line, and a theorem that
holds for every `F` holds for the hardware's `f32`, roundings and NaN included. Where a
theorem needs exact arithmetic it says so by its type, `ℝ` or an ordered field.

Constants are written with their decimal digits (`lit`), not as the pattern that the
compiler makes of them; for the patterns of the factory presets `round` does that, half to
even, in the range in which they lie. The bit patterns of a preset come from flash
unchecked, and `from_bits` is a field of the class, so nothing is assumed about what a
pattern that is no number becomes.

`clamp` is the source's, by two comparisons; over the reals it is the usual one. The
only analytic fact is that the cutoff map and its inverse belong together
(`log10_pow_1000`).
-/
import Mathlib

set_option autoImplicit false

namespace PicoDsp.Lib

/-- `core::f32::consts::PI`, with the digits it is written with. -/
def PI {K : Type} [Field K] : K := 3.14159265358979323846264338327950288

/-- The `f32` operations in use: `f32::from_bits`, constants written in the
code, the four arithmetic operations, `<`, and the two `libm` functions. -/
class F32 (F : Type) extends Add F, Sub F, Mul F, Div F where
  from_bits : UInt32 → F
  lit : ℚ → F
  lt : F → F → Bool
  powf : F → F → F
  log10f : F → F

namespace F32

variable {F : Type} [F32 F]

/-- A byte as `f32`. -/
def ofU8 (b : UInt8) : F := lit (b.toNat : ℚ)

/-- `f32::clamp`. -/
def clamp (x lo hi : F) : F :=
  let y := if lt x lo then lo else x
  if lt hi y then hi else y

/-! ## Bit patterns -/

/-- The exact value of a finite pattern; an infinity or a NaN reads as zero. -/
def value (w : UInt32) : ℚ :=
  let sign : ℚ := if w.toNat / 2 ^ 31 = 1 then -1 else 1
  let e : ℕ := w.toNat / 2 ^ 23 % 256
  let m : ℕ := w.toNat % 2 ^ 23
  if e = 255 then 0
  else if e = 0 then sign * (m / 2 ^ 149)
  else sign * ((2 ^ 23 + m) * 2 ^ e / 2 ^ 150)

/-- Round half to even. -/
def roundEven (q : ℚ) : ℕ :=
  let n := q.floor.toNat
  let r := q - n
  if r < 1 / 2 then n else if 1 / 2 < r then n + 1 else n + n % 2

/-- The pattern a decimal constant compiles to: nearest, ties to even, for zero
and for magnitudes in the normal range, where all constants of the bank lie. -/
def round (q : ℚ) : UInt32 :=
  if q = 0 then 0
  else
    let sign : ℕ := if q < 0 then 2 ^ 31 else 0
    let a := |q|
    -- biased exponent `e` with `2 ^ (e - 127) ≤ a < 2 ^ (e - 126)`
    let guess := 127 + Nat.log2 a.num.natAbs - Nat.log2 a.den
    let e := if a * 2 ^ 127 < 2 ^ guess then guess - 1 else guess
    let m := roundEven (a * 2 ^ 150 / 2 ^ e)
    -- a significand that rounds up to `2 ^ 24` carries into the exponent
    UInt32.ofNat (sign + e * 2 ^ 23 + (m - 2 ^ 23))

/-! ## Exact arithmetic -/

noncomputable instance : F32 ℝ where
  toAdd := inferInstance
  toSub := inferInstance
  toMul := inferInstance
  toDiv := inferInstance
  from_bits w := (value w : ℝ)
  lit q := (q : ℝ)
  lt a b := decide (a < b)
  powf a b := a ^ b
  log10f a := Real.logb 10 a

@[simp] theorem lit_real (q : ℚ) : (lit q : ℝ) = (q : ℝ) := rfl

@[simp] theorem lt_real (a b : ℝ) : lt a b = decide (a < b) := rfl

@[simp] theorem powf_real (a b : ℝ) : powf a b = a ^ b := rfl

@[simp] theorem log10f_real (a : ℝ) : log10f a = Real.logb 10 a := rfl

/-- A byte over the reals. -/
@[simp] theorem ofU8_real (b : UInt8) : (ofU8 b : ℝ) = (b.toNat : ℝ) := by
  simp [ofU8]

/-- Over the reals a value inside the bounds is not clamped. -/
theorem clamp_real_of_mem {x lo hi : ℝ} (h₁ : lo ≤ x) (h₂ : x ≤ hi) : clamp x lo hi = x := by
  simp only [clamp, lt_real, decide_eq_true_eq, if_neg (not_lt.mpr h₁), if_neg (not_lt.mpr h₂)]

/-- The cutoff map and its inverse: `log10(1000 ^ n) / log10(1000) = n`. -/
theorem log10_pow_1000 (n : ℝ) :
    Real.logb 10 ((20 * (1000 : ℝ) ^ n) / 20) / Real.logb 10 1000 = n := by
  have h20 : (20 * (1000 : ℝ) ^ n) / 20 = (1000 : ℝ) ^ n := by ring
  have h1000 : Real.logb 10 1000 ≠ 0 := by
    have h : Real.logb 10 1000 = 3 := by
      rw [show (1000 : ℝ) = 10 ^ (3 : ℝ) by norm_num, Real.logb_rpow (by norm_num) (by norm_num)]
    rw [h]
    norm_num
  rw [h20, Real.logb_rpow_eq_mul_logb_of_pos (by norm_num), mul_div_assoc, div_self h1000, mul_one]

end F32

end PicoDsp.Lib
