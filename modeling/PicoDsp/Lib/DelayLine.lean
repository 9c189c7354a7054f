/-
Delay lines with feedback, and rings that implement them.

A delay line is a recursion over time: the sample `n` of the line is the input
plus a part of what a reader makes of the line so far (`lineUpTo`). Two readers
are compared. `ideal` interpolates the line at time `n - d`. `ringRead` does the
same on a ring of `L` samples, which remembers the last `L` of them only: the
time `j` is answered by the one time of the last `L` that is congruent to it
(`recent`). The two make the same line for every input exactly if `1 ≤ d ≤ L`, as long as
the delay stays below twice the length of the ring (`ringRead_eq`, `wet_impulse_ne`).

Time is an integer and a delay any number of an ordered field, so the line is a function
on the integers that is zero before the start; a delay that is no whole number is
interpolated between the two samples around it. `interp_single` says what one sample
contributes, a hat of width one on both sides, and the echo of an impulse is read off
from it.

That the ring is right between one sample and its length is a fact about congruences
(`ringRead_eq`): all the times that the reader asks for are among the last `L`. That it is
wrong elsewhere needs one input on which the two differ, and an impulse is enough. Below
one sample the ideal reader lets a part of the impulse through at once, before the
ring has it (`ringRead_start`, `ringRead_impulse_one`). Beyond the length the ring answers
with a sample that is too young and repeats the impulse too early (`ringRead_impulse`).
The bound of twice the length is where the code that uses such a ring cuts off the delay
or goes around a second time.
-/
import Mathlib.Algebra.Order.Floor.Ring
import Mathlib.Data.Int.ModEq
import Mathlib.Tactic.Linarith
import Mathlib.Tactic.Ring

set_option autoImplicit false

namespace PicoDsp.Lib.DelayLine

section Recent

/-! ## The time a ring answers for -/

/-- The one of the times `n - L`, …, `n - 1` that is congruent to `j`. -/
def recent (L : ℕ) (n j : ℤ) : ℤ := n - L + (j - n) % L

variable {L : ℕ}

/-- The ring answers with a time that has passed. -/
theorem recent_lt (hL : 0 < L) (n j : ℤ) : recent L n j < n := by
  have hlt := Int.emod_lt_of_pos (j - n) (Int.natCast_pos.mpr hL)
  unfold recent
  omega

/-- And with one that it still has. -/
theorem le_recent (hL : 0 < L) (n j : ℤ) : n - L ≤ recent L n j := by
  have hnonneg := Int.emod_nonneg (j - n) (Int.natCast_ne_zero.mpr (Nat.pos_iff_ne_zero.mp hL))
  unfold recent
  omega

/-- It lies where the time that was asked for would lie. -/
theorem recent_congr (L : ℕ) (n j : ℤ) : recent L n j ≡ j [ZMOD L] := by
  have hdvd : (L : ℤ) ∣ j - recent L n j := by
    refine ⟨(j - n) / L + 1, ?_⟩
    have hdiv := Int.emod_add_mul_ediv (j - n) L
    unfold recent
    linarith
  exact Int.modEq_iff_dvd.mpr hdvd

/-- There is no other. -/
theorem recent_unique {n i j : ℤ} (hlow : n - L ≤ i) (hhigh : i < n) (h : i ≡ j [ZMOD L]) :
    recent L n j = i := by
  have hmod : (j - n) % L = i - n + L := by
    have hcongr : (j - n) ≡ (i - n + L) [ZMOD L] := by
      have hsub := (h.symm.sub_right n).add (Int.modEq_zero_iff_dvd.mpr (dvd_refl (L : ℤ))).symm
      rw [add_zero] at hsub
      exact hsub
    rw [hcongr]
    exact Int.emod_eq_of_lt (by omega) (by omega)
  unfold recent
  omega

/-- A time that is remembered. -/
theorem recent_of_mem {n j : ℤ} (hlow : n - L ≤ j) (hhigh : j < n) : recent L n j = j :=
  recent_unique hlow hhigh (Int.ModEq.refl j)

/-- A time before the oldest sample. -/
theorem recent_before {n j : ℤ} (hlow : n - L ≤ j + L) (hhigh : j + L < n) :
    recent L n j = j + L := by
  apply recent_unique hlow hhigh
  exact Int.modEq_iff_dvd.mpr ⟨-1, by ring⟩

/-- One sample later, the ring answers as before, except for the new sample. -/
theorem recent_succ (hL : 0 < L) (n j : ℤ) :
    recent L (n + 1) j = if j ≡ n [ZMOD L] then n else recent L n j := by
  have hcongr := recent_congr L n j
  by_cases hnow : j ≡ n [ZMOD L]
  · rw [if_pos hnow]
    exact recent_unique (by omega) (by omega) hnow.symm
  · rw [if_neg hnow]
    have hlow := le_recent hL n j
    have hhigh := recent_lt hL n j
    have hne : recent L n j ≠ n - L := by
      intro heq
      apply hnow
      rw [heq] at hcongr
      have hself : n - L ≡ n [ZMOD L] := Int.modEq_iff_dvd.mpr ⟨1, by ring⟩
      exact hcongr.symm.trans hself
    exact recent_unique (by omega) (by omega) hcongr

end Recent

/-! ## A buffer that is written at its head -/

section Buffer

variable {α : Type} {L : ℕ}

/-- The buffer answers for the last `L` samples of the line. -/
def Remembers (buffer : Vector α L) (n : ℕ) (line : ℤ → α) : Prop :=
  ∀ j : ℤ, buffer[(j % L).toNat]? = some (line (recent L n j))

/-- A buffer filled with one value remembers a line that was constant. -/
theorem remembers_replicate (hL : 0 < L) (v : α) :
    Remembers (Vector.replicate L v) 0 fun _ => v := by
  intro j
  have hlt := Int.emod_lt_of_pos j (Int.natCast_pos.mpr hL)
  have hidx : (j % L).toNat < L := by omega
  rw [Vector.getElem?_eq_getElem hidx, Vector.getElem_replicate]

/-- The new sample replaces the oldest. -/
theorem Remembers.push {buffer : Vector α L} {n : ℕ} {line : ℤ → α} (h : Remembers buffer n line)
    (hL : 0 < L) (v : α) :
    Remembers (buffer.set (n % L) v (Nat.mod_lt n hL)) (n + 1) (Function.update line n v) := by
  intro j
  have hnonneg := Int.emod_nonneg j (Int.natCast_ne_zero.mpr (Nat.pos_iff_ne_zero.mp hL))
  rw [Vector.getElem?_set, Nat.cast_succ, recent_succ hL]
  have hidx : n % L = (j % L).toNat ↔ j ≡ n [ZMOD L] := by
    unfold Int.ModEq
    rw [← Int.natCast_mod]
    omega
  by_cases hnow : j ≡ n [ZMOD L]
  · rw [if_pos (hidx.mpr hnow), if_pos hnow, Function.update_self]
  · have hne : recent L n j ≠ n := by
      have hlt := recent_lt hL n j
      omega
    rw [if_neg (fun heq => hnow (hidx.mp heq)), if_neg hnow, Function.update_of_ne hne]
    exact h j

end Buffer

variable {K : Type} [Field K] [LinearOrder K] [IsStrictOrderedRing K] [FloorRing K]

/-! ## Interpolation -/

/-- Linear interpolation of the samples `f` at time `s`. -/
def interp (f : ℤ → K) (s : K) : K := f ⌊s⌋ * (1 - Int.fract s) + f (⌊s⌋ + 1) * Int.fract s

omit [IsStrictOrderedRing K] in
/-- Only the two samples around `s` matter, the later one only if `s` lies
between them. -/
theorem interp_congr {f g : ℤ → K} {s : K} (h₁ : f ⌊s⌋ = g ⌊s⌋)
    (h₂ : Int.fract s ≠ 0 → f (⌊s⌋ + 1) = g (⌊s⌋ + 1)) : interp f s = interp g s := by
  unfold interp
  rw [h₁]
  by_cases hzero : Int.fract s = 0
  · rw [hzero, mul_zero, mul_zero]
  · rw [h₂ hzero]

omit [IsStrictOrderedRing K] in
theorem interp_zero (s : K) : interp (fun _ => 0) s = 0 := by
  unfold interp
  rw [zero_mul, zero_mul, add_zero]

/-- One sample, interpolated, is a hat of width one on both sides. -/
theorem interp_single (s : K) :
    interp (fun i => if i = 0 then 1 else 0) s = max 0 (1 - |s|) := by
  have hfloor := Int.floor_le s
  have hlt := Int.lt_floor_add_one s
  have hfract : Int.fract s = s - ⌊s⌋ := rfl
  -- the sample is read at the floor and one above it
  have hcases : ⌊s⌋ ≤ -2 ∨ ⌊s⌋ = -1 ∨ ⌊s⌋ = 0 ∨ 1 ≤ ⌊s⌋ := by omega
  change (if ⌊s⌋ = 0 then 1 else 0) * (1 - Int.fract s)
    + (if ⌊s⌋ + 1 = 0 then 1 else 0) * Int.fract s = max 0 (1 - |s|)
  rcases hcases with hlow | hneg | hzero | hhigh
  · have hcast : ((⌊s⌋ : ℤ) : K) ≤ ((-2 : ℤ) : K) := Int.cast_le.mpr hlow
    push_cast at hcast
    rw [if_neg (by omega), if_neg (by omega), abs_of_neg (by linarith),
      max_eq_left (by linarith)]
    ring
  · rw [hneg] at hfloor hlt hfract ⊢
    push_cast at hfloor hlt hfract
    rw [if_neg (by omega), if_pos (by omega), abs_of_neg (by linarith),
      max_eq_right (by linarith), hfract]
    ring
  · rw [hzero] at hfloor hlt hfract ⊢
    push_cast at hfloor hlt hfract
    rw [if_pos rfl, if_neg (by omega), abs_of_nonneg (by linarith), max_eq_right (by linarith),
      hfract]
    ring
  · have hcast : ((1 : ℤ) : K) ≤ ((⌊s⌋ : ℤ) : K) := Int.cast_le.mpr hhigh
    push_cast at hcast
    rw [if_neg (by omega), if_neg (by omega), abs_of_nonneg (by linarith),
      max_eq_left (by linarith)]
    ring

/-! ## The line -/

/-- How a line is read at sample `n`, with the input there and the line so far. -/
abbrev Reader (K : Type) : Type := ℕ → K → (ℤ → K) → K

/-- The line before sample `n`, from the input `x` with feedback `fb`; zero where
nothing was written yet. -/
def lineUpTo (read : Reader K) (fb : K) (x : ℕ → K) : ℕ → ℤ → K
  | 0 => fun _ => 0
  | n + 1 => Function.update (lineUpTo read fb x n) n
      (x n + read n (x n) (lineUpTo read fb x n) * fb)

/-- What is read at sample `n`. -/
def wet (read : Reader K) (fb : K) (x : ℕ → K) (n : ℕ) : K :=
  read n (x n) (lineUpTo read fb x n)

/-- The delay by `d` samples: the line at time `n - d`, where the sample that is
not computed yet counts as the input. -/
def ideal (d : K) : Reader K := fun n v line => interp (Function.update line n v) (n - d)

/-- The same, on a ring of `L` samples. -/
def ringRead (L : ℕ) (d : K) : Reader K := fun n _ line =>
  interp (fun j => line (recent L n j)) (n - d)

section Line

variable {read : Reader K} {fb : K} {x : ℕ → K}

omit [LinearOrder K] [IsStrictOrderedRing K] [FloorRing K] in
/-- One sample of the line. -/
theorem lineUpTo_succ (n : ℕ) : lineUpTo read fb x (n + 1)
    = Function.update (lineUpTo read fb x n) n (x n + wet read fb x n * fb) := rfl

omit [LinearOrder K] [IsStrictOrderedRing K] [FloorRing K] in
/-- A sample that is written stays. -/
theorem lineUpTo_stays {i n : ℕ} (h : i < n) :
    lineUpTo read fb x n i = x i + wet read fb x i * fb := by
  induction n with
  | zero => exact absurd h (Nat.not_lt_zero i)
  | succ n ih =>
      rw [lineUpTo_succ]
      rcases Nat.lt_succ_iff_lt_or_eq.mp h with hlt | rfl
      · have hne : (i : ℤ) ≠ n := by omega
        rw [Function.update_of_ne hne, ih hlt]
      · exact Function.update_self _ _ _

omit [LinearOrder K] [IsStrictOrderedRing K] [FloorRing K] in
/-- Before the start and from `n` on, the line is zero. -/
theorem lineUpTo_zero {n : ℕ} {j : ℤ} (h : j < 0 ∨ n ≤ j) : lineUpTo read fb x n j = 0 := by
  induction n with
  | zero => rfl
  | succ n ih =>
      have hne : j ≠ n := by omega
      rw [lineUpTo_succ, Function.update_of_ne hne]
      apply ih
      omega

end Line

/-! ## Where the ring is right -/

variable {L : ℕ} {d : K}

/-- Between one sample and the length of the ring, it remembers what is asked. -/
theorem ringRead_eq (h₁ : 1 ≤ d) (hL : d ≤ L) (n : ℕ) (v : K) (line : ℤ → K) :
    ringRead L d n v line = ideal d n v line := by
  have hlow : (n : ℤ) - L ≤ ⌊(n : K) - d⌋ := by
    apply Int.le_floor.mpr
    push_cast
    linarith
  have hhigh : ⌊(n : K) - d⌋ < n := by
    apply Int.floor_lt.mpr
    push_cast
    linarith
  have hne : ∀ j : ℤ, j < n → Function.update line n v j = line j := by
    intro j hj
    exact Function.update_of_ne (by omega) _ _
  apply interp_congr
  · rw [recent_of_mem hlow hhigh, hne _ hhigh]
  · intro hfract
    -- the later sample is written, too
    have hnext : ⌊(n : K) - d⌋ + 1 < n := by
      rcases Int.lt_or_eq_of_le (Int.add_one_le_iff.mpr hhigh) with hlt | heq
      · exact hlt
      · have hfloor := Int.floor_le ((n : K) - d)
        have hcast : ((⌊(n : K) - d⌋ : ℤ) : K) + 1 = n := by exact_mod_cast heq
        exfalso
        apply hfract
        have hval : Int.fract ((n : K) - d) = (n : K) - d - ⌊(n : K) - d⌋ := rfl
        rw [hval]
        linarith
    rw [recent_of_mem (by omega) hnext, hne _ hnext]

/-- The impulse. -/
def impulse : ℕ → K := fun n => if n = 0 then 1 else 0

/-- The echo of an impulse appears `d` samples later. Up to the samples around
`2 * d`, where the echo of the echo begins, it is all there is. -/
theorem ideal_impulse (h₁ : 1 ≤ d) (fb : K) {n : ℕ} (hn : (n : ℤ) < 2 * ⌊d⌋) :
    wet (ideal d) fb impulse n = max 0 (1 - |(n : K) - d|) := by
  induction n using Nat.strong_induction_on with
  | _ n ih =>
      have hfloor := Int.floor_le d
      have hfract : Int.fract ((n : K) - d) = (n : K) - d - ⌊(n : K) - d⌋ := rfl
      have hbelow := Int.floor_le ((n : K) - d)
      have hcast : ((n : ℤ) : K) + 1 ≤ ((2 * ⌊d⌋ : ℤ) : K) := by exact_mod_cast hn
      push_cast at hcast
      -- up to `d` the line is the impulse
      have hline : ∀ j : ℤ, j < n → j < ⌊d⌋ →
          Function.update (lineUpTo (ideal d) fb impulse n) n (impulse n) j
            = if j = 0 then 1 else 0 := by
        intro j hjn hjd
        rw [Function.update_of_ne (by omega)]
        rcases Int.lt_or_le j 0 with hneg | hpos
        · rw [lineUpTo_zero (Or.inl hneg), if_neg (by omega)]
        · obtain ⟨i, rfl⟩ := Int.eq_ofNat_of_zero_le hpos
          have hi : i < n := by omega
          have hid : ((i : ℤ) : K) + 1 ≤ ⌊d⌋ := by exact_mod_cast hjd
          push_cast at hid
          rw [lineUpTo_stays hi, ih i hi (by omega), abs_of_nonpos (by linarith),
            max_eq_left (by linarith), zero_mul, add_zero]
          unfold impulse
          simp only [Int.natCast_eq_zero]
      have hhigh : ⌊(n : K) - d⌋ < n := by
        apply Int.floor_lt.mpr
        push_cast
        linarith
      have hlow : ⌊(n : K) - d⌋ < ⌊d⌋ := by
        apply Int.floor_lt.mpr
        linarith
      have hread : wet (ideal d) fb impulse n
          = interp (fun i => if i = 0 then 1 else 0) ((n : K) - d) := by
        apply interp_congr
        · exact hline _ hhigh hlow
        · intro hne
          -- between two samples of the line, and so before `d`
          have hpos := lt_of_le_of_ne (Int.fract_nonneg ((n : K) - d)) (Ne.symm hne)
          rw [hfract] at hpos
          apply hline
          · have hlt : ((⌊(n : K) - d⌋ + 1 : ℤ) : K) < ((n : ℤ) : K) := by
              push_cast
              linarith
            exact_mod_cast hlt
          · have hlt : ((⌊(n : K) - d⌋ + 1 : ℤ) : K) < ((⌊d⌋ : ℤ) : K) := by
              push_cast
              linarith
            exact_mod_cast hlt
      rw [hread, interp_single]

/-- A delay of less than a sample lets the impulse itself through. -/
theorem ideal_impulse_start (h₀ : 0 ≤ d) (h₁ : d < 1) (fb : K) :
    wet (ideal d) fb impulse 0 = 1 - d := by
  have hread : wet (ideal d) fb impulse 0
      = interp (fun i => if i = 0 then 1 else 0) (((0 : ℕ) : K) - d) := by
    have hline : ∀ j : ℤ, Function.update (lineUpTo (ideal d) fb impulse 0) (0 : ℕ) (impulse 0) j
        = if j = 0 then 1 else 0 := by
      intro j
      by_cases hj : j = 0
      · rw [hj, if_pos rfl]
        exact Function.update_self _ _ _
      · rw [if_neg hj]
        exact Function.update_of_ne hj _ _
    exact interp_congr (hline _) fun _ => hline _
  rw [hread, interp_single, Nat.cast_zero, zero_sub, abs_neg, abs_of_nonneg h₀,
    max_eq_right (by linarith)]

omit [IsStrictOrderedRing K] in
/-- The ring has nothing to say at the start. -/
theorem ringRead_start (fb : K) (x : ℕ → K) : wet (ringRead L d) fb x 0 = 0 :=
  interp_zero _

/-- One sample after the impulse, a delay of less than a sample has let that part
of it pass. -/
theorem ringRead_impulse_one (hL : 2 < L) (hd : |d| < 1) (fb : K) :
    wet (ringRead L d) fb impulse 1 = max 0 d := by
  obtain ⟨hlow, hhigh⟩ := abs_lt.mp hd
  -- around the head, the ring holds the impulse alone
  have hline : ∀ i : ℤ, 0 ≤ i → i ≤ 2 →
      lineUpTo (ringRead L d) fb impulse 1 (recent L (1 : ℕ) i) = if i = 0 then 1 else 0 := by
    intro i hnonneg hle
    rcases eq_or_ne i 0 with rfl | hne
    · have hstays : lineUpTo (ringRead L d) fb impulse 1 (0 : ℕ) = _ :=
        lineUpTo_stays Nat.one_pos
      rw [ringRead_start, zero_mul, add_zero] at hstays
      rw [recent_of_mem (by omega) (by omega), if_pos rfl]
      exact hstays
    · have hbefore : recent L (1 : ℕ) i ≠ 0 := by
        intro hzero
        have hcongr : recent L (1 : ℕ) i % L = i % L := recent_congr L (1 : ℕ) i
        rw [hzero, Int.zero_emod, Int.emod_eq_of_lt hnonneg (by omega)] at hcongr
        exact hne hcongr.symm
      have hlt := recent_lt (show 0 < L by omega) (1 : ℕ) i
      rw [if_neg hne]
      exact lineUpTo_zero (Or.inl (by omega))
  have hfloor : 0 ≤ ⌊((1 : ℕ) : K) - d⌋ := by
    apply Int.le_floor.mpr
    push_cast
    linarith
  have hfloor' : ⌊((1 : ℕ) : K) - d⌋ < 2 := by
    apply Int.floor_lt.mpr
    push_cast
    linarith
  have hread : wet (ringRead L d) fb impulse 1
      = interp (fun i => if i = 0 then 1 else 0) (((1 : ℕ) : K) - d) := by
    change interp (fun j => lineUpTo (ringRead L d) fb impulse 1 (recent L (1 : ℕ) j)) _ = _
    apply interp_congr
    · exact hline _ hfloor (by omega)
    · intro _
      exact hline _ (by omega) (by omega)
  rw [hread, interp_single, Nat.cast_one, abs_of_nonneg (by linarith), sub_sub_cancel]

/-- Beyond its length the ring repeats the impulse too early. -/
theorem ringRead_impulse (hd : L < d) (hd' : d + 1 < 2 * L) (fb : K) :
    ∃ n < L, wet (ringRead L d) fb impulse n ≠ 0 := by
  -- `n` is the delay up to a turn of the ring
  have hceil := Int.le_ceil d
  have hceil' := Int.ceil_lt_add_one d
  obtain ⟨n, hn⟩ : ∃ n : ℕ, (n : ℤ) = ⌈d⌉ - L := by
    have hpos : (L : ℤ) < ⌈d⌉ := by
      apply Int.lt_ceil.mpr
      exact_mod_cast hd
    exact ⟨(⌈d⌉ - L).toNat, by omega⟩
  have hnK : (n : K) = ⌈d⌉ - L := by exact_mod_cast congrArg (Int.cast (R := K)) hn
  have hpos : 0 < n := by
    have hlt : (0 : K) < n := by rw [hnK]; linarith
    exact_mod_cast hlt
  have hnL : n < L := by
    have hlt : (n : K) < L := by rw [hnK]; linarith
    exact_mod_cast hlt
  by_cases hone : wet (ringRead L d) fb impulse 1 = 0
  · refine ⟨n, hnL, ?_⟩
    have hfloor : ⌊(n : K) - d⌋ = -L := by
      rw [Int.floor_eq_iff, hnK]
      push_cast
      constructor
      · linarith
      · linarith
    have hfract : Int.fract ((n : K) - d) = ⌈d⌉ - d := by
      have hval : Int.fract ((n : K) - d) = (n : K) - d - ⌊(n : K) - d⌋ := rfl
      rw [hval, hfloor, hnK]
      push_cast
      ring
    -- the impulse is found, and nothing behind it
    have hfirst : lineUpTo (ringRead L d) fb impulse n (recent L n (-L)) = 1 := by
      rw [recent_before (by omega) (by omega), neg_add_cancel]
      have hstays : lineUpTo (ringRead L d) fb impulse n (0 : ℕ) = _ := lineUpTo_stays hpos
      rw [ringRead_start, zero_mul, add_zero] at hstays
      exact hstays
    have hsecond : lineUpTo (ringRead L d) fb impulse n (recent L n (-L + 1)) = 0 := by
      rcases Nat.lt_or_eq_of_le (Nat.succ_le_of_lt hpos) with hlt | heq
      · rw [recent_before (by omega) (by omega)]
        have hsum : -(L : ℤ) + 1 + L = (1 : ℕ) := by omega
        have hstays : lineUpTo (ringRead L d) fb impulse n (1 : ℕ) = _ := lineUpTo_stays hlt
        rw [hsum, hstays, hone, zero_mul, add_zero]
        rfl
      · rw [recent_of_mem (by omega) (by omega)]
        apply lineUpTo_zero
        omega
    have hread : wet (ringRead L d) fb impulse n = 1 - (⌈d⌉ - d) := by
      change lineUpTo (ringRead L d) fb impulse n (recent L n ⌊(n : K) - d⌋)
          * (1 - Int.fract ((n : K) - d))
        + lineUpTo (ringRead L d) fb impulse n (recent L n (⌊(n : K) - d⌋ + 1))
          * Int.fract ((n : K) - d) = 1 - (⌈d⌉ - d)
      rw [hfloor, hfract, hfirst, hsecond]
      ring
    rw [hread]
    intro hzero
    linarith
  · exact ⟨1, by omega, hone⟩

/-- Elsewhere the impulse tells the ring from the delay. -/
theorem wet_impulse_ne (h₀ : 0 ≤ d) (hL : 0 < L) (hd' : d + 1 < 2 * L) (h : ¬ (1 ≤ d ∧ d ≤ L))
    (fb : K) :
    ∃ n < L, wet (ringRead L d) fb impulse n ≠ wet (ideal d) fb impulse n := by
  by_cases hone : 1 ≤ d
  · have hd : (L : K) < d := lt_of_not_ge fun hle => h ⟨hone, hle⟩
    obtain ⟨n, hn, hne⟩ := ringRead_impulse hd hd' fb
    refine ⟨n, hn, ?_⟩
    have hfloor : (L : ℤ) ≤ ⌊d⌋ := by
      apply Int.le_floor.mpr
      exact_mod_cast hd.le
    have hnK : (n : K) + 1 ≤ L := by exact_mod_cast hn
    rw [ideal_impulse hone fb (by omega), abs_of_nonpos (by linarith), max_eq_left (by linarith)]
    exact hne
  · refine ⟨0, hL, ?_⟩
    rw [ringRead_start, ideal_impulse_start h₀ (lt_of_not_ge hone)]
    intro hzero
    apply hone
    linarith

end PicoDsp.Lib.DelayLine
