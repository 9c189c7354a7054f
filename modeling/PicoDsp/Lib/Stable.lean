/-
Machines that take a sample and give one, and what keeps them from running away.

A signal path is a network of small machines: delay lines, filters, gains, and sums of
them. Each has a state, and each step takes an input and the state to an output and the
next state. Whether the whole of it can run away is not seen from the outputs alone,
since an output may be small while the state grows. So a bound speaks of the state.

A machine is `Stable` if a bound on its inputs bounds its state and its outputs for ever.
It `Settles` if the bound of the state moves a part of the way down to the bound of the
inputs, whenever these have kept to theirs for long enough; so the state forgets, and with
silent inputs it dies away. Chains, sums and rows of machines inherit both.

A bound is a predicate that depends on a number (`Scale`), since what it says about a
state is different for each machine: each entry of a ring at most `B`, or the last value
of a filter at most `3 * B`. All that is asked of it is that it is monotone. The factor by
which a machine amplifies is put into the scale of its outputs (`Scale.times`), and so a
chain needs no arithmetic of its own.

`Settles` is stated from one bound `B` down to another one `C` and not to zero, because
the machine behind another one gets inputs that are on their way down themselves. For a
chain, first the front settles towards `C`, then what is behind it, with inputs that by
then keep to a bound in between (`Settles.chain`); the rates and the times only have to
exist, and repeating brings them as low as needed (`Settles.pow`).
-/
import Mathlib.Algebra.Order.Field.Basic
import Mathlib.Algebra.Order.Archimedean.Basic
import Mathlib.Tactic.Linarith
import Mathlib.Tactic.Ring

set_option autoImplicit false

namespace PicoDsp.Lib

/-! ## Mixes -/

section

variable {K : Type} [Field K] [LinearOrder K] [IsStrictOrderedRing K] {a b t A B M : K}

/-- A mix is not louder than the mix of the two bounds. -/
theorem abs_mix_le (ht : 0 ≤ t) (ht1 : t ≤ 1) (ha : |a| ≤ A) (hb : |b| ≤ B) :
    |a * (1 - t) + b * t| ≤ A * (1 - t) + B * t := by
  have ht' : 0 ≤ 1 - t := sub_nonneg.mpr ht1
  calc |a * (1 - t) + b * t| ≤ |a * (1 - t)| + |b * t| := abs_add_le _ _
    _ = |a| * (1 - t) + |b| * t := by rw [abs_mul, abs_mul, abs_of_nonneg ht', abs_of_nonneg ht]
    _ ≤ A * (1 - t) + B * t :=
        add_le_add (mul_le_mul_of_nonneg_right ha ht') (mul_le_mul_of_nonneg_right hb ht)

/-- A mix of two numbers that are not louder than `M`. -/
theorem abs_between_le (ht : 0 ≤ t) (ht1 : t ≤ 1) (ha : |a| ≤ M) (hb : |b| ≤ M) :
    |a * (1 - t) + b * t| ≤ M :=
  calc |a * (1 - t) + b * t| ≤ M * (1 - t) + M * t := abs_mix_le ht ht1 ha hb
    _ = M := by ring

end

/-- From the input and the state to the output and the next state. -/
abbrev Machine (S I O : Type) : Type := I → S → O × S

namespace Machine

variable {S T I M O P : Type}

/-- The outputs for a list of inputs, and the state in the end. -/
def run (m : Machine S I O) : List I → S → List O × S
  | [], s => ([], s)
  | x :: xs, s =>
      let (y, s) := m x s
      let (ys, s) := run m xs s
      (y :: ys, s)

/-- One behind the other. -/
def chain (m : Machine S I M) (n : Machine T M O) : Machine (S × T) I O := fun x s =>
  let (y, s₁) := m x s.1
  let (z, s₂) := n y s.2
  (z, (s₁, s₂))

/-- Two on the same input. -/
def both (m : Machine S I O) (n : Machine T I P) : Machine (S × T) I (O × P) := fun x s =>
  let (y, s₁) := m x s.1
  let (z, s₂) := n x s.2
  ((y, z), (s₁, s₂))

/-- A machine behind functions on its inputs and outputs. -/
def between (f : I → M) (m : Machine S M P) (g : P → O) : Machine S I O := fun x s =>
  let (y, s) := m (f x) s
  (g y, s)

/-- A row of machines of one kind, each behind the one before. -/
def row (m : Machine S M M) : Machine (List S) M M
  | x, [] => (x, [])
  | x, s :: ss =>
      let (y, s) := m x s
      let (z, ss) := row m y ss
      (z, s :: ss)

/-! ## Runs -/

/-- The first input and the rest. -/
theorem run_cons (m : Machine S I O) (x : I) (xs : List I) (s : S) :
    run m (x :: xs) s = ((m x s).1 :: (run m xs (m x s).2).1, (run m xs (m x s).2).2) := rfl

/-- The inputs in two parts. -/
theorem run_append (m : Machine S I O) (xs ys : List I) (s : S) :
    run m (xs ++ ys) s
      = ((run m xs s).1 ++ (run m ys (run m xs s).2).1, (run m ys (run m xs s).2).2) := by
  induction xs generalizing s with
  | nil => rfl
  | cons x xs ih =>
      rw [List.cons_append, run_cons, run_cons, ih]
      rfl

/-- The last of the inputs. -/
theorem run_concat (m : Machine S I O) (xs : List I) (x : I) (s : S) :
    (run m (xs ++ [x]) s).2 = (m x (run m xs s).2).2 := by
  rw [run_append]
  rfl

/-- One output for each input. -/
theorem run_length (m : Machine S I O) (xs : List I) (s : S) :
    (run m xs s).1.length = xs.length := by
  induction xs generalizing s with
  | nil => rfl
  | cons x xs ih => exact congrArg (· + 1) (ih (m x s).2)

/-- **What one step keeps, a run keeps.** -/
theorem run_forall {m : Machine S I O} {P : I → Prop} {Q : O → Prop} {R : S → Prop}
    (h : ∀ x s, P x → R s → Q (m x s).1 ∧ R (m x s).2) {xs : List I} {s : S}
    (hx : ∀ x ∈ xs, P x) (hs : R s) :
    (∀ y ∈ (run m xs s).1, Q y) ∧ R (run m xs s).2 := by
  induction xs generalizing s with
  | nil => exact ⟨fun y hy => absurd hy List.not_mem_nil, hs⟩
  | cons x xs ih =>
      rw [List.forall_mem_cons] at hx
      obtain ⟨hy, hnext⟩ := h x s hx.1 hs
      obtain ⟨hys, hlast⟩ := ih hx.2 hnext
      exact ⟨List.forall_mem_cons.mpr ⟨hy, hys⟩, hlast⟩

/-- The parts of a chain run by themselves. -/
theorem run_chain (m : Machine S I M) (n : Machine T M O) (xs : List I) (s : S × T) :
    run (chain m n) xs s
      = ((run n (run m xs s.1).1 s.2).1,
        ((run m xs s.1).2, (run n (run m xs s.1).1 s.2).2)) := by
  induction xs generalizing s with
  | nil => rfl
  | cons x xs ih =>
      rw [run_cons, ih]
      rfl

/-- Two machines on the same inputs go on by themselves. -/
theorem run_both (m : Machine S I O) (n : Machine T I P) (xs : List I) (s : S × T) :
    (run (both m n) xs s).2 = ((run m xs s.1).2, (run n xs s.2).2) := by
  induction xs generalizing s with
  | nil => rfl
  | cons x xs ih =>
      rw [run_cons, ih]
      rfl

/-- Functions on the inputs and outputs are applied one by one. -/
theorem run_between (f : I → M) (m : Machine S M P) (g : P → O) (xs : List I) (s : S) :
    run (between f m g) xs s = ((run m (xs.map f) s).1.map g, (run m (xs.map f) s).2) := by
  induction xs generalizing s with
  | nil => rfl
  | cons x xs ih =>
      rw [run_cons, ih]
      rfl

/-- The first of a row, and the rest behind it. -/
theorem run_row_cons (m : Machine S M M) (xs : List M) (s : S) (ss : List S) :
    run (row m) xs (s :: ss)
      = ((run (chain m (row m)) xs (s, ss)).1,
        (run (chain m (row m)) xs (s, ss)).2.1 :: (run (chain m (row m)) xs (s, ss)).2.2) := by
  induction xs generalizing s ss with
  | nil => rfl
  | cons x xs ih =>
      rw [run_cons, run_cons]
      have hstep : (row m x (s :: ss)).2
          = (chain m (row m) x (s, ss)).2.1 :: (chain m (row m) x (s, ss)).2.2 := rfl
      rw [hstep, ih]
      rfl

/-! ## Stable machines -/

section

variable {K : Type} [Field K] [LinearOrder K]

/-- A bound: what `B` allows, a larger number allows too. -/
structure Scale (K S : Type) [LE K] where
  within : K → S → Prop
  mono : ∀ {B C : K} {s : S}, B ≤ C → within B s → within C s

/-- Inputs within `B` keep the state and the outputs within `B`. -/
structure Stable (m : Machine S I O) (inp : Scale K I) (W : Scale K S) (out : Scale K O) :
    Prop where
  keeps : ∀ {B : K} {x : I} {s : S}, 0 ≤ B → inp.within B x → W.within B s →
    out.within B (m x s).1 ∧ W.within B (m x s).2

/-- After `n` inputs within `C` no more than the part `q` is left of the way from `B`
down to `C`. -/
structure Settles (m : Machine S I O) (inp : Scale K I) (W : Scale K S) (q : K) (n : ℕ) :
    Prop where
  settles : ∀ {B C : K} {xs : List I} {s : S}, 0 ≤ C → C ≤ B → W.within B s →
    (∀ x ∈ xs, inp.within C x) → n ≤ xs.length → W.within (C + q * (B - C)) (run m xs s).2

/-- The size of a number. -/
def Scale.abs [IsStrictOrderedRing K] : Scale K K where
  within B x := |x| ≤ B
  mono h hx := hx.trans h

/-- Two bounds on a pair. -/
def Scale.prod (V : Scale K S) (W : Scale K T) : Scale K (S × T) where
  within B s := V.within B s.1 ∧ W.within B s.2
  mono h hs := ⟨V.mono h hs.1, W.mono h hs.2⟩

/-- The bound for a number of its own. -/
def Scale.times [IsStrictOrderedRing K] (W : Scale K S) (g : K) (hg : 0 ≤ g) : Scale K S where
  within B s := W.within (g * B) s
  mono h hs := W.mono (mul_le_mul_of_nonneg_left h hg) hs

variable {m : Machine S I M} {n : Machine T M O} {inp : Scale K I} {mid : Scale K M}
  {out : Scale K O} {V : Scale K S} {W : Scale K T} {p q : K} {k l : ℕ}

/-- A stable machine, for ever. -/
theorem Stable.run (h : Stable m inp V mid) {B : K} (hB : 0 ≤ B) {xs : List I} {s : S}
    (hx : ∀ x ∈ xs, inp.within B x) (hs : V.within B s) :
    (∀ y ∈ (run m xs s).1, mid.within B y) ∧ V.within B (run m xs s).2 :=
  run_forall (m := m) (P := inp.within B) (fun _ _ hx hs => h.keeps hB hx hs) hx hs

/-- A chain: the bound on the outputs of the front is the one on the inputs behind it. -/
theorem Stable.chain (h₁ : Stable m inp V mid) (h₂ : Stable n mid W out) :
    Stable (chain m n) inp (V.prod W) out := by
  refine ⟨fun {B x s} hB hx hs => ?_⟩
  obtain ⟨hmid, hV⟩ := h₁.keeps hB hx hs.1
  obtain ⟨hout, hW⟩ := h₂.keeps hB hmid hs.2
  exact ⟨hout, hV, hW⟩

/-- Two machines on the same input. -/
theorem Stable.both {m' : Machine T I O} (h₁ : Stable m inp V mid) (h₂ : Stable m' inp W out) :
    Stable (both m m') inp (V.prod W) (mid.prod out) := by
  refine ⟨fun {B x s} hB hx hs => ?_⟩
  obtain ⟨hy, hV⟩ := h₁.keeps hB hx hs.1
  obtain ⟨hz, hW⟩ := h₂.keeps hB hx hs.2
  exact ⟨⟨hy, hz⟩, hV, hW⟩

/-- Functions that take bounds to bounds. -/
theorem Stable.between {f : P → I} {g : M → O} (h : Stable m inp V mid) {inp' : Scale K P}
    (hf : ∀ {B x}, 0 ≤ B → inp'.within B x → inp.within B (f x))
    (hg : ∀ {B y}, 0 ≤ B → mid.within B y → out.within B (g y)) :
    Stable (between f m g) inp' V out := by
  refine ⟨fun {B x s} hB hx hs => ?_⟩
  obtain ⟨hy, hV⟩ := h.keeps hB (hf hB hx) hs
  exact ⟨hg hB hy, hV⟩

/-! ## Machines that settle -/

variable [IsStrictOrderedRing K]

/-- A worse rate in a longer time. -/
theorem Settles.weaken {m : Machine S I O} (h : Settles m inp V p k) (hpq : p ≤ q)
    (hkl : k ≤ l) : Settles m inp V q l := by
  refine ⟨fun {B C xs s} hC hCB hs hx hlen => ?_⟩
  refine V.mono ?_ (h.settles hC hCB hs hx (hkl.trans hlen))
  have hmul := mul_le_mul_of_nonneg_right hpq (sub_nonneg.mpr hCB)
  linarith

omit [IsStrictOrderedRing K] in
/-- A function on the inputs that takes bounds to bounds. The outputs are of no concern. -/
theorem Settles.between {g : M → O} {f : P → I} (h : Settles m inp V q k) {inp' : Scale K P}
    (hf : ∀ {B x}, 0 ≤ B → inp'.within B x → inp.within B (f x)) :
    Settles (between f m g) inp' V q k := by
  refine ⟨fun {B C xs s} hC hCB hs hx hlen => ?_⟩
  rw [run_between]
  refine h.settles hC hCB hs (fun y hy => ?_) (by rw [List.length_map]; exact hlen)
  obtain ⟨x, hmem, rfl⟩ := List.mem_map.mp hy
  exact hf hC (hx x hmem)

omit [IsStrictOrderedRing K] in
/-- Two machines on the same input, at the same rate. -/
theorem Settles.both {m' : Machine T I O} (h₁ : Settles m inp V q k) (h₂ : Settles m' inp W q k) :
    Settles (both m m') inp (V.prod W) q k := by
  refine ⟨fun {B C xs s} hC hCB hs hx hlen => ?_⟩
  rw [run_both]
  exact ⟨h₁.settles hC hCB hs.1 hx hlen, h₂.settles hC hCB hs.2 hx hlen⟩

/-- **A chain settles**: first the front, and then what is behind it. -/
theorem Settles.chain (s₁ : Stable m inp V mid) (h₁ : Settles m inp V p k)
    (h₂ : Settles n mid W q l) (hp : 0 ≤ p) (hq : 0 ≤ q) (hp1 : p ≤ 1) (s₂ : Stable n mid W out) :
    Settles (chain m n) inp (V.prod W) (1 - (1 - p) * (1 - q)) (k + l) := by
  refine ⟨fun {B C xs s} hC hCB hs hx hlen => ?_⟩
  have hD : 0 ≤ B - C := sub_nonneg.mpr hCB
  have hB : 0 ≤ B := hC.trans hCB
  -- where the front is after `k` inputs, and stays
  have hfront : C ≤ C + p * (B - C) := le_add_of_nonneg_right (mul_nonneg hp hD)
  have hback : C + p * (B - C) ≤ B := by
    have hle := mul_le_mul_of_nonneg_right hp1 hD
    linarith
  have hmid : 0 ≤ C + p * (B - C) := hC.trans hfront
  have hx' : ∀ x ∈ xs, inp.within B x := fun x hmem => inp.mono hCB (hx x hmem)
  -- the first `k` inputs bring the front down, the others what is behind it
  obtain ⟨ys, zs, rfl, hys⟩ : ∃ ys zs, xs = ys ++ zs ∧ ys.length = k :=
    ⟨xs.take k, xs.drop k, (List.take_append_drop k xs).symm, by
      rw [List.length_take]; omega⟩
  rw [List.forall_mem_append] at hx hx'
  rw [List.length_append, hys] at hlen
  have hlen : l ≤ zs.length := by omega
  obtain ⟨hmids, -⟩ := s₁.run hB hx'.1 hs.1
  have hV := h₁.settles hC hCB hs.1 hx.1 (le_of_eq hys.symm)
  obtain ⟨-, hW⟩ := s₂.run hB hmids hs.2
  obtain ⟨hmids', hV'⟩ := s₁.run hmid (fun x hmem => inp.mono hfront (hx.2 x hmem)) hV
  have hW' := h₂.settles hmid hback hW hmids' (by rw [run_length]; exact hlen)
  rw [run_chain, run_append]
  refine ⟨V.mono ?_ hV', ?_⟩
  · have hpq : p ≤ 1 - (1 - p) * (1 - q) := by
      have hnonneg := mul_nonneg hq (sub_nonneg.mpr hp1)
      linarith
    have hmul := mul_le_mul_of_nonneg_right hpq hD
    linarith
  · have hsum : C + p * (B - C) + q * (B - (C + p * (B - C)))
        = C + (1 - (1 - p) * (1 - q)) * (B - C) := by ring
    rw [hsum] at hW'
    rw [run_append]
    exact hW'

/-- **Again and again.** -/
theorem Settles.pow {m : Machine S I O} (h : Settles m inp V q k) (hstable : Stable m inp V out)
    (hq : 0 ≤ q) (j : ℕ) : Settles m inp V (q ^ j) (j * k) := by
  induction j with
  | zero =>
      refine ⟨fun {B C xs s} hC hCB hs hx _ => ?_⟩
      have hall : ∀ x ∈ xs, inp.within B x := fun x hmem => inp.mono hCB (hx x hmem)
      refine V.mono (le_of_eq ?_) (hstable.run (hC.trans hCB) hall hs).2
      ring
  | succ j ih =>
      refine ⟨fun {B C xs s} hC hCB hs hx hlen => ?_⟩
      have hD : 0 ≤ B - C := sub_nonneg.mpr hCB
      obtain ⟨ys, zs, rfl, hys⟩ : ∃ ys zs, xs = ys ++ zs ∧ ys.length = j * k := by
        rw [Nat.succ_mul] at hlen
        refine ⟨xs.take (j * k), xs.drop (j * k), (List.take_append_drop _ xs).symm, ?_⟩
        rw [List.length_take]
        omega
      rw [List.forall_mem_append] at hx
      rw [List.length_append, hys, Nat.succ_mul] at hlen
      have hpart : C ≤ C + q ^ j * (B - C) :=
        le_add_of_nonneg_right (mul_nonneg (pow_nonneg hq j) hD)
      rw [run_append]
      refine V.mono (le_of_eq ?_)
        (h.settles hC hpart (ih.settles hC hCB hs hx.1 (le_of_eq hys.symm)) hx.2 (by omega))
      ring

/-- The same machine with a scale in other units. -/
theorem Settles.times {m : Machine S I O} (h : Settles m inp V q k) {g : K} (hg : 0 ≤ g) :
    Settles m (inp.times g hg) (V.times g hg) q k := by
  refine ⟨fun {B C xs s} hC hCB hs hx hlen => ?_⟩
  refine V.mono (le_of_eq ?_)
    (h.settles (mul_nonneg hg hC) (mul_le_mul_of_nonneg_left hCB hg) hs hx hlen)
  ring

/-- And its stability. -/
theorem Stable.times {m : Machine S I O} (h : Stable m inp V out) {g : K} (hg : 0 ≤ g) :
    Stable m (inp.times g hg) (V.times g hg) (out.times g hg) := by
  exact ⟨fun hB hx hs => h.keeps (mul_nonneg hg hB) hx hs⟩

/-! ## Rows -/

/-- A row of `k` machines, each with inputs that are up to `g` times as large as those of
the one before. -/
def Scale.row (V : Scale K S) (g : K) (hg : 0 ≤ g) : ℕ → Scale K (List S)
  | 0 => ⟨fun _ ss => ss = [], fun _ h => h⟩
  | k + 1 =>
      { within := fun B ss => ∃ s rest, ss = s :: rest
          ∧ (V.prod ((Scale.row V g hg k).times g hg)).within B (s, rest)
        mono := by
          rintro B C ss hle ⟨s, rest, rfl, h⟩
          exact ⟨s, rest, rfl, (V.prod ((Scale.row V g hg k).times g hg)).mono hle h⟩ }

theorem Scale.times_zero {W : Scale K S} {g : K} (hg : 0 ≤ g) {s : S}
    (h : W.within 0 s) : (W.times g hg).within 0 s :=
  W.mono (le_of_eq (mul_zero g).symm) h

/-- All machines at rest. -/
theorem Scale.row_zero {V : Scale K S} {g : K} (hg : 0 ≤ g) {ss : List S}
    (h : ∀ s ∈ ss, V.within 0 s) : (V.row g hg ss.length).within 0 ss := by
  induction ss with
  | nil => rfl
  | cons s ss ih =>
      rw [List.forall_mem_cons] at h
      exact ⟨s, ss, rfl, h.1, Scale.times_zero hg (ih h.2)⟩

variable {r : Machine S M M} {g : K}

/-- A row of stable machines, the bound growing by `g` from each to the next. -/
theorem Stable.row (hg : 0 ≤ g) (h : Stable r mid V (mid.times g hg)) (k : ℕ) :
    Stable (row r) mid (V.row g hg k) (mid.times (g ^ k) (pow_nonneg hg k)) := by
  induction k with
  | zero =>
      refine ⟨?_⟩
      rintro B x _ _ hx rfl
      refine ⟨mid.mono (le_of_eq ?_) hx, rfl⟩
      ring
  | succ k ih =>
      refine ⟨?_⟩
      rintro B x _ hB hx ⟨s, rest, rfl, hs⟩
      obtain ⟨hout, hnext⟩ := (h.chain (ih.times hg)).keeps hB hx hs
      refine ⟨mid.mono (le_of_eq ?_) hout, _, _, rfl, hnext⟩
      ring

/-- **A row settles as a chain does.** -/
theorem Settles.row (hg : 0 ≤ g) (hstable : Stable r mid V (mid.times g hg))
    (h : Settles r mid V q l) (hq : 0 ≤ q) (hq1 : q ≤ 1) (k : ℕ) :
    Settles (row r) mid (V.row g hg k) (1 - (1 - q) ^ k) (k * l) := by
  induction k with
  | zero =>
      refine ⟨?_⟩
      rintro B C xs _ _ _ rfl _ _
      have hnil : ∀ xs : List M, (run (Machine.row r) xs []).2 = [] := by
        intro xs
        induction xs with
        | nil => rfl
        | cons x xs ih => exact ih
      exact hnil xs
  | succ k ih =>
      have hpart : 0 ≤ 1 - q := sub_nonneg.mpr hq1
      have hle : (1 - q) ^ k ≤ 1 := pow_le_one₀ hpart (by linarith)
      have hchain := Settles.chain hstable h (ih.times hg) hq (by linarith) hq1
        ((Stable.row hg hstable k).times hg)
      refine ⟨?_⟩
      rintro B C xs _ hC hCB ⟨s, rest, rfl, hs⟩ hx hlen
      rw [run_row_cons]
      refine ⟨_, _, rfl, ?_⟩
      refine (V.prod ((V.row g hg k).times g hg)).mono (le_of_eq ?_)
        (hchain.settles hC hCB hs hx (by rw [Nat.succ_mul] at hlen; omega))
      ring

/-! ## Silence -/

/-- **What settles fades**: silent inputs bring the state below every bound. -/
theorem Settles.fades [Archimedean K] {m : Machine S I O} (h : Settles m inp V q k)
    (hstable : Stable m inp V out) (hq : 0 ≤ q) (hq1 : q < 1) {B ε : K} (hB : 0 ≤ B)
    (hε : 0 < ε) : ∃ j, ∀ (s : S) (xs : List I), V.within B s → (∀ x ∈ xs, inp.within 0 x)
      → j ≤ xs.length → V.within ε (run m xs s).2 := by
  obtain ⟨j, hj⟩ := exists_pow_lt_of_lt_one (div_pos hε (by linarith : 0 < B + 1)) hq1
  refine ⟨j * k, fun s xs hs hx hlen => ?_⟩
  refine V.mono ?_ ((h.pow hstable hq j).settles (le_refl 0) hB hs hx hlen)
  rw [lt_div_iff₀ (by linarith : 0 < B + 1)] at hj
  have hpow := pow_nonneg hq j
  rw [sub_zero, zero_add]
  linarith

end

end Machine

end PicoDsp.Lib
