/-
Cells behind an address decoder.

An access names a word, and the decoder `d` selects the cell that it reaches. The
decoder is any map: where lines are stuck or shorted, several words share a cell.
Filling the words in order leaves in each cell what its last word brought
(`load_fill`), so with values that are all different the words that read back
something else are those that are `Rewritten`, and there are none exactly when the
words are an array (`faithful_iff`).

A test of a memory wants to know the second and can observe the first. The two meet in
injectivity: no word is rewritten exactly if no two words share a cell (`injOn_iff`), and
words that share no cell behave as an array under all later accesses, not only those
of the test. Hence a test that fills all words and then reads them back misses no fault of
the decoder, as long as the values it writes are all different; its least failing word
is the first one that is rewritten (`Rewritten.exists_least`).

The cells hold any type of values, and there may be more of them than words or fewer. Faults
of the cells themselves are not modelled: each holds what was stored in it last.
-/
import Mathlib.Data.Set.Function
import Mathlib.Logic.Function.Basic
import Mathlib.Order.Interval.Set.Defs
import Mathlib.Data.List.Basic
import Mathlib.Data.Nat.Find
import Mathlib.Order.Bounds.Defs

set_option autoImplicit false

namespace PicoDsp.Lib.Decoder

variable {C V : Type} {d : ℕ → C} {n i : ℕ}

/-- The cell of word `i` is written again by a later one of the first `n` words. -/
def Rewritten (d : ℕ → C) (n i : ℕ) : Prop := ∃ j, i < j ∧ j < n ∧ d j = d i

/-- No two words share a cell when none is rewritten. -/
theorem injOn_iff : Set.InjOn d (Set.Iio n) ↔ ∀ i, ¬ Rewritten d n i := by
  constructor
  · rintro hinj i ⟨j, hij, hj, heq⟩
    have hsame : j = i := hinj hj (hij.trans hj) heq
    omega
  · intro hnone i hi j hj heq
    rcases Nat.lt_trichotomy i j with hlt | hsame | hgt
    · exact absurd ⟨j, hlt, hj, heq.symm⟩ (hnone i)
    · exact hsame
    · exact absurd ⟨i, hgt, hi, heq⟩ (hnone j)

/-- A word that is rewritten is one of the words. -/
theorem Rewritten.lt (h : Rewritten d n i) : i < n := by
  obtain ⟨j, hij, hj, -⟩ := h
  exact hij.trans hj

/-- There is a first word that is rewritten if there is one. -/
theorem Rewritten.exists_least (h : Rewritten d n i) :
    ∃ first, IsLeast {i | Rewritten d n i} first := by
  classical
  have hsome : ∃ i, Rewritten d n i := ⟨i, h⟩
  exact ⟨Nat.find hsome, Nat.find_spec hsome, fun _ hi => Nat.find_min' hsome hi⟩

/-! ## Accesses -/

def load (d : ℕ → C) (m : C → V) (i : ℕ) : V := m (d i)

variable [DecidableEq C]

def store (d : ℕ → C) (i : ℕ) (v : V) (m : C → V) : C → V := Function.update m (d i) v

/-- The first `n` words are written in order. -/
def fill (d : ℕ → C) (v : ℕ → V) (n : ℕ) (m : C → V) : C → V :=
  (List.range n).foldl (fun m i => store d i (v i) m) m

/-- The last word is written on top of the others. -/
theorem fill_succ (d : ℕ → C) (v : ℕ → V) (n : ℕ) (m : C → V) :
    fill d v (n + 1) m = store d n (v n) (fill d v n m) := by
  rw [fill, List.range_succ, List.foldl_append]
  rfl

/-- Words that share a cell read what either stores. -/
theorem load_store_same {j : ℕ} (h : d j = d i) (v : V) (m : C → V) :
    load d (store d i v m) j = v := by
  rw [load, store, h, Function.update_self]

/-- Words that share none do not see each other. -/
theorem load_store_other {j : ℕ} (h : d j ≠ d i) (v : V) (m : C → V) :
    load d (store d i v m) j = load d m j := by
  rw [load, store, Function.update_of_ne h, load]

/-- A word reads back the value of the last word that shares its cell. -/
theorem load_fill (v : ℕ → V) (m : C → V) (hi : i < n) :
    ∃ j, i ≤ j ∧ j < n ∧ d j = d i ∧ (∀ l, j < l → l < n → d l ≠ d i)
      ∧ load d (fill d v n m) i = v j := by
  induction n with
  | zero => exact absurd hi (Nat.not_lt_zero i)
  | succ n ih =>
      rw [fill_succ]
      by_cases hn : d i = d n
      · refine ⟨n, Nat.le_of_lt_succ hi, Nat.lt_succ_self n, hn.symm, ?_, load_store_same hn _ _⟩
        intro l hl hlt
        omega
      · -- the last word has a cell of its own, and is not `i`
        have hne : i ≠ n := by
          rintro rfl
          exact hn rfl
        obtain ⟨j, hij, hj, hcell, hlast, hval⟩ := ih (by omega)
        refine ⟨j, hij, hj.trans (Nat.lt_succ_self n), hcell, ?_, ?_⟩
        · intro l hl hlt
          rcases Nat.lt_succ_iff_lt_or_eq.mp hlt with h | h
          · exact hlast l hl h
          · rw [h]
            exact fun heq => hn heq.symm
        · rw [load_store_other hn, hval]

/-- With values that are all different, a word that is rewritten reads back something
else. -/
theorem load_fill_eq_iff {v : ℕ → V} (hv : Set.InjOn v (Set.Iio n)) (m : C → V) (hi : i < n) :
    load d (fill d v n m) i = v i ↔ ¬ Rewritten d n i := by
  obtain ⟨j, hij, hj, hcell, hlast, hval⟩ := load_fill (d := d) v m hi
  rw [hval]
  constructor
  · rintro heq ⟨l, hil, hl, hsame⟩
    have hji : j = i := hv hj hi heq
    exact hlast l (by omega) hl hsame
  · intro hnot
    rcases Nat.eq_or_lt_of_le hij with h | h
    · rw [h]
    · exact absurd ⟨j, h, hj, hcell⟩ hnot

/-! ## Arrays -/

/-- The first `n` words are an array: a word reads what was stored in it last. -/
def Faithful (V : Type) (d : ℕ → C) (n : ℕ) : Prop :=
  ∀ i < n, ∀ j < n, ∀ (v : V) (m : C → V),
    load d (store d i v m) j = if j = i then v else load d m j

/-- The words are an array when no two of them share a cell. -/
theorem faithful_iff [Nontrivial V] : Faithful V d n ↔ Set.InjOn d (Set.Iio n) := by
  constructor
  · intro h i hi j hj heq
    obtain ⟨v, w, hvw⟩ := exists_pair_ne V
    -- a store to `i` among cells that hold `w` is seen at `j`
    have hread := h i hi j hj v fun _ => w
    rw [load_store_same heq.symm] at hread
    by_contra hne
    rw [if_neg (Ne.symm hne)] at hread
    exact hvw hread
  · intro hinj i hi j hj v m
    by_cases hji : j = i
    · rw [if_pos hji, load_store_same (congrArg d hji)]
    · rw [if_neg hji, load_store_other fun heq => hji (hinj hj hi heq)]

end PicoDsp.Lib.Decoder
