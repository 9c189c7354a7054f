/-
Operations on cells of their own.

A state is read as a family of cells, and an operation is called by a key with an
argument. Where each cell belongs to one key at most, and an operation sets the
cells of its key to values that the argument alone decides and keeps the others
(`Separate`), the operations of two keys commute, the second of two operations of
one key makes the first one void, and a sequence of operations is known by the last
argument of each key (`lastArg`).

The cells may have different types. They are read by a function of the state, and the
state is determined by them, which is the one hypothesis under which an equality of states
is an equality of all cells; no cell need be a field of a record.

That the argument alone decides what a key's cells become is essential. An operation that
increments a cell commutes with the others too, and two of one key do not collapse.
-/
import Mathlib.Data.List.Induction

set_option autoImplicit false

namespace PicoDsp.Lib

section Last

variable {K A : Type} [DecidableEq K]

/-- The argument of the last operation of key `k`. -/
def lastArg (ops : List (K × A)) (k : K) : Option A :=
  ops.foldl (fun last o => if o.1 = k then some o.2 else last) none

/-- One operation more. -/
theorem lastArg_snoc (ops : List (K × A)) (o : K × A) (k : K) :
    lastArg (ops ++ [o]) k = if o.1 = k then some o.2 else lastArg ops k := by
  unfold lastArg
  rw [List.foldl_append]
  rfl

end Last

/-- The state after some operations. -/
def perform {K A S : Type} (op : K → A → S → S) (ops : List (K × A)) (s : S) : S :=
  ops.foldl (fun s o => op o.1 o.2 s) s

/-- One operation more. -/
theorem perform_snoc {K A S : Type} (op : K → A → S → S) (ops : List (K × A)) (o : K × A) (s : S) :
    perform op (ops ++ [o]) s = op o.1 o.2 (perform op ops s) :=
  List.foldl_append

/-- The operations write the cells that their keys own. -/
structure Separate {ι K A S : Type} {V : ι → Type} (get : (i : ι) → S → V i)
    (op : K → A → S → S) (Owns : K → ι → Prop) : Prop where
  ext : ∀ s t, (∀ i, get i s = get i t) → s = t
  unique : ∀ k l i, Owns k i → Owns l i → k = l
  sets : ∀ k i, Owns k i → ∀ a s t, get i (op k a s) = get i (op k a t)
  keeps : ∀ k i, ¬ Owns k i → ∀ a s, get i (op k a s) = get i s

namespace Separate

variable {ι K A S : Type} {V : ι → Type} {get : (i : ι) → S → V i} {op : K → A → S → S}
  {Owns : K → ι → Prop}

/-- **Operations of two keys commute.** Each cell belongs to one of the two keys at most, and
what the other operation did cannot be seen in it. -/
theorem comm (h : Separate get op Owns) {k l : K} (hkl : k ≠ l) (a b : A) (s : S) :
    op l b (op k a s) = op k a (op l b s) := by
  apply h.ext
  intro i
  by_cases hk : Owns k i
  · have hl : ¬ Owns l i := fun hl => hkl (h.unique k l i hk hl)
    rw [h.keeps l i hl, h.sets k i hk a s (op l b s)]
  · rw [h.keeps k i hk]
    by_cases hl : Owns l i
    · rw [h.sets l i hl b (op k a s) s]
    · rw [h.keeps l i hl, h.keeps l i hl, h.keeps k i hk]

/-- **The second of two operations of one key makes the first one void.** -/
theorem overwrite (h : Separate get op Owns) (k : K) (a b : A) (s : S) :
    op k b (op k a s) = op k b s := by
  apply h.ext
  intro i
  by_cases hk : Owns k i
  · exact h.sets k i hk b (op k a s) s
  · rw [h.keeps k i hk, h.keeps k i hk, h.keeps k i hk]

/-- A cell that no key owns is kept. -/
theorem perform_keeps (h : Separate get op Owns) {i : ι} (hi : ∀ k, ¬ Owns k i)
    (ops : List (K × A)) (s : S) : get i (perform op ops s) = get i s := by
  induction ops using List.reverseRecOn with
  | nil => rfl
  | append_singleton ops o ih => rw [perform_snoc, h.keeps o.1 i (hi o.1), ih]

variable [DecidableEq K]

/-- A cell holds what the last operation of its key gives it. -/
theorem perform_get (h : Separate get op Owns) {k : K} {i : ι} (hk : Owns k i)
    (ops : List (K × A)) (s : S) :
    get i (perform op ops s) = (lastArg ops k).elim (get i s) fun a => get i (op k a s) := by
  induction ops using List.reverseRecOn with
  | nil => rfl
  | append_singleton ops o ih =>
      rw [perform_snoc, lastArg_snoc]
      by_cases ho : o.1 = k
      · rw [if_pos ho, ho]
        exact h.sets k i hk o.2 _ s
      · have hnot : ¬ Owns o.1 i := fun howns => ho (h.unique o.1 k i howns hk)
        rw [if_neg ho, h.keeps o.1 i hnot, ih]

/-- Only the last argument of each key matters. -/
theorem perform_eq_of_lastArg (h : Separate get op Owns) {ops ops' : List (K × A)}
    (hlast : ∀ k, lastArg ops k = lastArg ops' k) (s : S) :
    perform op ops s = perform op ops' s := by
  apply h.ext
  intro i
  by_cases hi : ∃ k, Owns k i
  · obtain ⟨k, hk⟩ := hi
    rw [h.perform_get hk, h.perform_get hk, hlast]
  · rw [not_exists] at hi
    rw [h.perform_keeps hi, h.perform_keeps hi]

end Separate

end PicoDsp.Lib
