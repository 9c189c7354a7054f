/-
Linear congruential generators modulo a power of two.

With a multiplier that is one modulo four and an odd increment the generator goes through
all of its states before it comes back to one: the state after `n` steps differs from the
start by an odd multiple of the sum of `n` powers of the multiplier, and no more twos
divide such a sum than divide `n`. The multiplier is `b + 1`, so the condition is that four
divides `b`, and the sum of its powers times `b` is a power less one (`mul_powers`).

The twos are counted by lifting the exponent (`two_pow_dvd_powers`), which is where the
condition on the multiplier goes in. Everything else is cancellation. The generator is back
exactly after a multiple of `2 ^ w` steps, so within a period no state comes twice
(`after_injOn`), and as there are as many states as steps, all of them come
(`image_after`).

What a user asks is how often an output occurs, and that is counting the states that give
it (`card_filter_after`), from whatever state the generator starts. The steps are on natural
numbers with the remainder written out, so that a word of a program's own width is a
state by its value.
-/
import Mathlib.NumberTheory.Multiplicity
import Mathlib.Tactic.Ring

set_option autoImplicit false

namespace PicoDsp.Lib.Lcg

/-- A step on the numbers below `2 ^ w`. -/
def step (w b c x : ℕ) : ℕ := (x * (b + 1) + c) % 2 ^ w

/-- The state after `n` steps. -/
def after (w b c : ℕ) : ℕ → ℕ → ℕ
  | 0, x => x
  | n + 1, x => after w b c n (step w b c x)

variable {w b c x : ℕ}

theorem after_succ (n x : ℕ) :
    after w b c (n + 1) x = after w b c n (step w b c x) := rfl

theorem after_one (x : ℕ) : after w b c (0 + 1) x = step w b c x := rfl

/-- More steps from where the first ones led. -/
theorem after_add (m n x : ℕ) : after w b c (m + n) x = after w b c n (after w b c m x) := by
  induction m generalizing x with
  | zero => rw [Nat.zero_add, after]
  | succ m ih => rw [Nat.add_right_comm, after, after, ih]

/-- The states stay below `2 ^ w`. -/
theorem after_lt (hx : x < 2 ^ w) (n : ℕ) : after w b c n x < 2 ^ w := by
  induction n generalizing x with
  | zero => exact hx
  | succ n ih => exact ih (Nat.mod_lt _ (Nat.two_pow_pos w))

/-! ## What the steps add up to -/

/-- The sum of the first `n` powers of the multiplier. -/
def powers (b : ℕ) : ℕ → ℕ
  | 0 => 0
  | n + 1 => (b + 1) * powers b n + 1

/-- The sum of the powers in closed form, without a division. -/
theorem mul_powers (b n : ℕ) : b * powers b n + 1 = (b + 1) ^ n := by
  induction n with
  | zero => rfl
  | succ n ih =>
      rw [powers, pow_succ, ← ih]
      ring

/-- Where `n` steps lead: the difference is the sum of the powers times the first one. -/
theorem after_modEq (n x : ℕ) :
    after w b c n x ≡ x + powers b n * (x * b + c) [MOD 2 ^ w] := by
  induction n generalizing x with
  | zero =>
      rw [after, powers, Nat.zero_mul, Nat.add_zero]
  | succ n ih =>
      have hstep : step w b c x ≡ x * (b + 1) + c [MOD 2 ^ w] := Nat.mod_modEq _ _
      calc after w b c (n + 1) x
          ≡ step w b c x + powers b n * (step w b c x * b + c) [MOD 2 ^ w] := ih _
        _ ≡ x * (b + 1) + c + powers b n * ((x * (b + 1) + c) * b + c) [MOD 2 ^ w] :=
            hstep.add (((hstep.mul_right b).add_right c).mul_left _)
        _ = x + powers b (n + 1) * (x * b + c) := by
            rw [powers]
            ring

/-- **The twos in a sum of powers** are those in the number of its terms. -/
theorem two_pow_dvd_powers (hb : 4 ∣ b) (n : ℕ) : 2 ^ w ∣ powers b n ↔ 2 ^ w ∣ n := by
  rcases Nat.eq_zero_or_pos b with rfl | hpos
  · -- with a factor of one the sum is `n` itself
    have hid : ∀ n, powers 0 n = n := by
      intro n
      induction n with
      | zero => rfl
      | succ n ih => rw [powers, ih, Nat.zero_add, Nat.one_mul]
    rw [hid]
  · have hdvd : (4 : ℤ) ∣ ((b + 1 : ℕ) : ℤ) - 1 := by
      push_cast
      rw [add_sub_cancel_right]
      exact_mod_cast hb
    have hodd : ¬(2 : ℤ) ∣ ((b + 1 : ℕ) : ℤ) := by omega
    -- lifting the exponent: `(b + 1) ^ n - 1` has the twos of `b` and those of `n`
    have hlift := Int.two_pow_sub_pow' n hdvd hodd
    have hsum : ((b + 1 : ℕ) : ℤ) ^ n - 1 ^ n = (b : ℤ) * (powers b n : ℤ) := by
      rw [one_pow, ← Nat.cast_pow, ← mul_powers]
      push_cast
      ring
    have hbase : ((b + 1 : ℕ) : ℤ) - 1 = (b : ℤ) := by
      push_cast
      ring
    have hfinite : FiniteMultiplicity (2 : ℤ) (b : ℤ) := by
      rw [Int.finiteMultiplicity_iff]
      exact ⟨by decide, by exact_mod_cast hpos.ne'⟩
    rw [hsum, hbase, emultiplicity_mul Int.prime_two] at hlift
    -- and `b` is cancelled
    have hsame : emultiplicity (2 : ℤ) (powers b n : ℤ) = emultiplicity (2 : ℤ) (n : ℤ) :=
      ENat.add_right_injective_of_ne_top
        (finiteMultiplicity_iff_emultiplicity_ne_top.mp hfinite) hlift
    have hiff : ((2 : ℤ) ^ w ∣ (powers b n : ℤ)) ↔ ((2 : ℤ) ^ w ∣ (n : ℤ)) := by
      rw [pow_dvd_iff_le_emultiplicity, pow_dvd_iff_le_emultiplicity, hsame]
    exact_mod_cast hiff

/-! ## The period -/

/-- The generator is back exactly after all of its states. -/
theorem after_eq_self_iff (hb : 4 ∣ b) (hc : Odd c) (hx : x < 2 ^ w) (n : ℕ) :
    after w b c n x = x ↔ 2 ^ w ∣ n := by
  have hmod := after_modEq (w := w) (b := b) (c := c) n x
  have hodd : Nat.Coprime (2 ^ w) (x * b + c) := by
    refine Nat.Coprime.pow_left w (Nat.coprime_two_left.mpr ?_)
    exact (((even_iff_two_dvd.mpr (Nat.dvd_trans (by decide) hb)).mul_left x)).add_odd hc
  rw [← two_pow_dvd_powers hb, ← hodd.dvd_mul_right]
  constructor
  · intro hback
    rw [hback] at hmod
    have hzero : x + 0 ≡ x + powers b n * (x * b + c) [MOD 2 ^ w] := hmod
    exact (Nat.modEq_zero_iff_dvd).mp (Nat.ModEq.add_left_cancel' x hzero).symm
  · intro hdvd
    have hzero : x + powers b n * (x * b + c) ≡ x + 0 [MOD 2 ^ w] :=
      Nat.ModEq.add_left x ((Nat.modEq_zero_iff_dvd).mpr hdvd)
    exact Nat.ModEq.eq_of_lt_of_lt (hmod.trans hzero) (after_lt hx n) hx

/-- **No state comes twice** within a period. -/
theorem after_injOn (hb : 4 ∣ b) (hc : Odd c) (hx : x < 2 ^ w) :
    Set.InjOn (fun n => after w b c n x) (Finset.range (2 ^ w)) := by
  have hle : ∀ m n, m ≤ n → n < 2 ^ w → after w b c m x = after w b c n x → m = n := by
    intro m n hmn hn heq
    obtain ⟨k, rfl⟩ := Nat.exists_eq_add_of_le hmn
    rw [after_add] at heq
    have hdvd := (after_eq_self_iff hb hc (after_lt hx m) k).mp heq.symm
    have hk : k = 0 := Nat.eq_zero_of_dvd_of_lt hdvd (by omega)
    rw [hk, Nat.add_zero]
  intro m hm n hn heq
  rw [Finset.coe_range, Set.mem_Iio] at hm hn
  rcases Nat.le_total m n with hmn | hnm
  · exact hle m n hmn hn heq
  · exact (hle n m hnm hm heq.symm).symm

/-- **All states come** within a period. -/
theorem image_after (hb : 4 ∣ b) (hc : Odd c) (hx : x < 2 ^ w) :
    (Finset.range (2 ^ w)).image (fun n => after w b c n x) = Finset.range (2 ^ w) := by
  refine Finset.eq_of_subset_of_card_le ?_ ?_
  · intro y hy
    obtain ⟨n, -, rfl⟩ := Finset.mem_image.mp hy
    exact Finset.mem_range.mpr (after_lt hx n)
  · rw [Finset.card_image_of_injOn (after_injOn hb hc hx)]

/-- How often a property holds in a period. -/
theorem card_filter_after (hb : 4 ∣ b) (hc : Odd c) (hx : x < 2 ^ w) (p : ℕ → Prop)
    [DecidablePred p] :
    ((Finset.range (2 ^ w)).filter fun n => p (after w b c n x)).card
      = ((Finset.range (2 ^ w)).filter p).card := by
  have hinj : Set.InjOn (fun n => after w b c n x)
      ((Finset.range (2 ^ w)).filter fun n => p (after w b c n x)) :=
    (after_injOn hb hc hx).mono (Finset.coe_subset.mpr (Finset.filter_subset _ _))
  rw [← Finset.card_image_of_injOn hinj]
  refine congrArg Finset.card ?_
  conv_rhs => rw [← image_after hb hc hx, Finset.filter_image]

end PicoDsp.Lib.Lcg
