/-
Numbers as floating point has them, without its rounding.

Bit patterns reach the sound path from outside, as the fields of a preset in a bank that
an editor sent, and not all of them are numbers. Whether a step of the code ends, or
which arm of an `if` it takes, may then depend on an infinity or a NaN, while rounding has
no part in it. A value is therefore an exact number, one of the two infinities, or NaN;
sum, product and comparison follow the rules of IEEE 754 for these.

Exact numbers have one zero only, which no comparison and no conversion tells from the
negative one. The sign of a product with an infinity is that of the exact factor, so it
does not depend on a rounding; an exact number that would overflow stays exact. The
quotient is left out, as nothing here divides by something that may be zero.

The conversion to an unsigned integer saturates, and a NaN becomes zero, as `as` does it.
Comparisons are booleans, as in the code, and all of them are false for a NaN; that
`a < b` and `b ≤ a` may both be false is what this type is for.

`from_bits` reads a pattern of the 32-bit format; an exponent of ones is an infinity or a
NaN, and the infinities are exactly two patterns (`from_bits_inf_iff`).
-/
import PicoDsp.Lib.F32

set_option autoImplicit false

namespace PicoDsp.Lib

/-- An exact number, an infinity (`inf true` is the negative one), or NaN. -/
inductive Ieee (K : Type)
  | fin (x : K)
  | inf (neg : Bool)
  | nan
  deriving DecidableEq

namespace Ieee

variable {K : Type}

/-! ## Sums -/

section Sum

variable [Field K]

protected def neg : Ieee K → Ieee K
  | fin x => fin (-x)
  | inf neg => inf (!neg)
  | nan => nan

/-- The sum of infinities of different signs is not a number. -/
protected def add : Ieee K → Ieee K → Ieee K
  | fin x, fin y => fin (x + y)
  | inf s, inf t => if s = t then inf s else nan
  | inf s, fin _ => inf s
  | fin _, inf t => inf t
  | nan, _ => nan
  | _, nan => nan

instance : NatCast (Ieee K) := ⟨fun n => fin n⟩
instance : Zero (Ieee K) := ⟨fin 0⟩
instance : One (Ieee K) := ⟨fin 1⟩
instance : Neg (Ieee K) := ⟨Ieee.neg⟩
instance : Add (Ieee K) := ⟨Ieee.add⟩
instance : Sub (Ieee K) := ⟨fun a b => Ieee.add a (Ieee.neg b)⟩

@[simp] theorem natCast_eq (n : ℕ) : (n : Ieee K) = fin (n : K) := rfl

@[simp] theorem zero_eq : (0 : Ieee K) = fin 0 := rfl

@[simp] theorem one_eq : (1 : Ieee K) = fin 1 := rfl

@[simp] theorem fin_add (x y : K) : fin x + fin y = fin (x + y) := rfl

@[simp] theorem fin_sub (x y : K) : fin x - fin y = fin (x - y) :=
  congrArg fin (sub_eq_add_neg x y).symm

@[simp] theorem inf_add_fin (s : Bool) (y : K) : inf s + fin y = inf s := rfl

@[simp] theorem inf_sub_fin (s : Bool) (y : K) : inf s - fin y = inf s := rfl

@[simp] theorem fin_sub_inf (x : K) (t : Bool) : fin x - inf t = inf (!t) := rfl

@[simp] theorem fin_sub_nan (x : K) : fin x - nan = nan := rfl

end Sum

/-! ## Products -/

section Product

variable [Field K] [LinearOrder K]

/-- Zero times an infinity is not a number. -/
protected def mul : Ieee K → Ieee K → Ieee K
  | fin x, fin y => fin (x * y)
  | inf s, inf t => inf (s != t)
  | inf s, fin y => if y = 0 then nan else inf (s != decide (y < 0))
  | fin x, inf t => if x = 0 then nan else inf (decide (x < 0) != t)
  | nan, _ => nan
  | _, nan => nan

instance : Mul (Ieee K) := ⟨Ieee.mul⟩

@[simp] theorem fin_mul (x y : K) : fin x * fin y = fin (x * y) := rfl

/-- A NaN stays one. -/
@[simp] theorem nan_mul (b : Ieee K) : nan * b = nan := by
  cases b with
  | fin y => rfl
  | inf t => rfl
  | nan => rfl

/-- A positive factor leaves an infinity as it is. -/
theorem inf_mul_fin (s : Bool) {y : K} (h : 0 < y) : inf s * fin y = inf s := by
  show (if y = 0 then nan else inf (s != decide (y < 0))) = inf s
  rw [if_neg h.ne', decide_eq_false h.not_gt, Bool.bne_false]

/-- `a as usize` where an `usize` has `bits` bits: towards zero, to the nearest
bound outside of the range, and zero for NaN. -/
def as_usize [FloorRing K] (bits : ℕ) : Ieee K → ℕ
  | fin x => min ⌊x⌋₊ (2 ^ bits - 1)
  | inf neg => if neg then 0 else 2 ^ bits - 1
  | nan => 0

end Product

/-! ## Comparison -/

section Comparison

variable [LinearOrder K]

/-- `a < b`; nothing compares with NaN. -/
def lt : Ieee K → Ieee K → Bool
  | fin x, fin y => decide (x < y)
  | inf s, inf t => s && !t
  | inf s, fin _ => s
  | fin _, inf t => !t
  | nan, _ => false
  | _, nan => false

/-- `a <= b` -/
def le : Ieee K → Ieee K → Bool
  | fin x, fin y => decide (x ≤ y)
  | inf s, inf t => s || !t
  | inf s, fin _ => s
  | fin _, inf t => !t
  | nan, _ => false
  | _, nan => false

@[simp] theorem lt_fin (x y : K) : lt (fin x) (fin y) = decide (x < y) := rfl

@[simp] theorem le_fin (x y : K) : le (fin x) (fin y) = decide (x ≤ y) := rfl

end Comparison

/-! ## Bit patterns -/

/-- `f32::from_bits` -/
def from_bits (w : UInt32) : Ieee ℚ :=
  if w.toNat / 2 ^ 23 % 256 = 255 then
    if w.toNat % 2 ^ 23 = 0 then inf (decide (w.toNat / 2 ^ 31 = 1)) else nan
  else fin (F32.value w)

/-- Two patterns are an infinity. -/
theorem from_bits_inf_iff (w : UInt32) :
    (∃ neg, from_bits w = inf neg) ↔ w = 0x7F800000 ∨ w = 0xFF800000 := by
  have hlt := w.toNat_lt
  unfold from_bits
  rw [← UInt32.toNat_inj, ← UInt32.toNat_inj]
  -- an exponent of ones and no mantissa, with either sign
  show _ ↔ w.toNat = 2139095040 ∨ w.toNat = 4286578688
  by_cases hexp : w.toNat / 2 ^ 23 % 256 = 255
  · rw [if_pos hexp]
    by_cases hzero : w.toNat % 2 ^ 23 = 0
    · rw [if_pos hzero]
      constructor
      · intro _
        omega
      · intro _
        exact ⟨_, rfl⟩
    · rw [if_neg hzero]
      constructor
      · rintro ⟨neg, hneg⟩
        cases hneg
      · intro hw
        omega
  · rw [if_neg hexp]
    constructor
    · rintro ⟨neg, hneg⟩
      cases hneg
    · intro hw
      omega

example : from_bits 0x3E99999A = fin (10066330 / 2 ^ 25) := by
  decide +kernel

end Ieee

end PicoDsp.Lib
