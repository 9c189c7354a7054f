/-
Lists with a capacity: the fixed-size vectors and the fixed-size channels of a
`no_std` program.

`BoundedList α n` carries its bound as a field, so a value over capacity cannot
be built and no invariant about lengths has to be threaded through the proofs.
It is used in two ways: as a vector (`push` at the end, `remove` by position)
and as a first-in first-out channel (`try_send` at the end, `try_receive` at
the front). A `push` or a `try_send` on a full value fails and changes nothing;
`offer` is the value after one whose result is ignored.

That ignored result is where such programs lose data, so `offer` has its two cases as
lemmas (`offer_items_of_not_full`, `offer_of_full`) and nothing is proved about it
without one of them, except what holds for both: a push of something new repeats
nothing, and moves nothing.

`try_receive` returns a bounded list again and not a list with a proof, so what it leaves
is described by its entries (`try_receive_cons`, `items_of_try_receive`). For
a channel of capacity one there are lemmas of its own: such a channel is empty or holds
one entry, and room means that it is empty.
-/
import Mathlib.Data.List.Basic
import Mathlib.Data.List.Nodup

set_option autoImplicit false

namespace PicoDsp.Lib

/-- A list of at most `n` entries. -/
@[ext] structure BoundedList (α : Type) (n : ℕ) where
  items : List α
  bound : items.length ≤ n

namespace BoundedList

variable {α : Type} {n : ℕ}

/-- The empty value. -/
def new : BoundedList α n := ⟨[], Nat.zero_le n⟩

/-- No free place is left. -/
def Full (v : BoundedList α n) : Prop := n ≤ v.items.length

instance (v : BoundedList α n) : Decidable v.Full :=
  inferInstanceAs (Decidable (n ≤ v.items.length))

/-- Append at the end, `none` (an `Err` in the code) when there is no place. -/
def push (v : BoundedList α n) (x : α) : Option (BoundedList α n) :=
  if h : v.items.length < n then
    some ⟨v.items ++ [x], by rw [List.length_append]; exact h⟩
  else none

/-- The value after a `push` whose result is ignored. -/
def offer (v : BoundedList α n) (x : α) : BoundedList α n := (v.push x).getD v

/-- Remove the first entry equal to `x`: `position` followed by `remove`, and
nothing when there is no such entry. -/
def removeFirst [BEq α] (v : BoundedList α n) (x : α) : BoundedList α n :=
  ⟨v.items.erase x, Nat.le_trans List.length_erase_le v.bound⟩

/-- The entry received next and the value left behind. -/
def try_receive (v : BoundedList α n) : Option (α × BoundedList α n) :=
  match h : v.items with
  | [] => none
  | x :: xs => some (x, ⟨xs, by have := v.bound; rw [h, List.length_cons] at this; omega⟩)

@[simp] theorem new_items : (new : BoundedList α n).items = [] := rfl

/-- Room, as an inequality. -/
theorem not_full_iff {v : BoundedList α n} : ¬ v.Full ↔ v.items.length < n := by
  simp [Full]

/-- A push with room appends. -/
theorem offer_items_of_not_full {v : BoundedList α n} (h : ¬ v.Full) (x : α) :
    (v.offer x).items = v.items ++ [x] := by
  rw [not_full_iff] at h
  simp [offer, push, h]

/-- A push without room changes nothing. -/
theorem offer_of_full {v : BoundedList α n} (h : v.Full) (x : α) : v.offer x = v := by
  have hlt : ¬ v.items.length < n := by rw [← not_full_iff]; exact not_not.mpr h
  simp [offer, push, hlt]

/-- What is offered to a list with room for it is appended. -/
theorem foldl_offer_items {v : BoundedList α n} {xs : List α}
    (h : v.items.length + xs.length ≤ n) : (xs.foldl offer v).items = v.items ++ xs := by
  induction xs generalizing v with
  | nil => exact (List.append_nil v.items).symm
  | cons x xs ih =>
      rw [List.length_cons] at h
      have hroom : ¬ v.Full := not_full_iff.mpr (by omega)
      have hitems := offer_items_of_not_full hroom x
      have hlen : (v.offer x).items.length + xs.length ≤ n := by
        rw [hitems, List.length_append, List.length_singleton]
        omega
      rw [List.foldl_cons, ih hlen, hitems, List.append_assoc, List.singleton_append]

/-- A push of something new repeats nothing, whatever its outcome. -/
theorem nodup_offer {v : BoundedList α n} {x : α} (h : v.items.Nodup) (hx : x ∉ v.items) :
    (v.offer x).items.Nodup := by
  by_cases hf : v.Full
  · rw [offer_of_full hf]
    exact h
  · rw [offer_items_of_not_full hf, List.nodup_append]
    refine ⟨h, List.nodup_singleton x, ?_⟩
    intro a ha b hb hab
    rw [List.mem_singleton] at hb
    exact hx (hb ▸ hab ▸ ha)

@[simp] theorem removeFirst_items [BEq α] (v : BoundedList α n) (x : α) :
    (v.removeFirst x).items = v.items.erase x := rfl

/-- Removing the entries of a list one by one. -/
theorem foldl_removeFirst_items [BEq α] [LawfulBEq α] (v : BoundedList α n) (xs : List α) :
    (xs.foldl removeFirst v).items = v.items.diff xs := by
  rw [List.diff_eq_foldl]
  induction xs generalizing v with
  | nil => rfl
  | cons x xs ih => exact ih (v.removeFirst x)

/-! ### Order -/

/-- What is left of `l` in `l'` has kept its order, and new entries stand behind it. -/
def KeepsOrder (l l' : List α) : Prop :=
  ∃ kept fresh, kept.Sublist l ∧ (∀ x ∈ fresh, x ∉ l) ∧ l' = kept ++ fresh

/-- Entries that were taken out. -/
theorem KeepsOrder.of_sublist {l l' : List α} (h : l'.Sublist l) : KeepsOrder l l' :=
  ⟨l', [], h, fun _ hx => absurd hx List.not_mem_nil, (List.append_nil l').symm⟩

theorem KeepsOrder.refl (l : List α) : KeepsOrder l l := of_sublist (List.Sublist.refl l)

/-- A push of something new, whatever its outcome. -/
theorem KeepsOrder.offer {v : BoundedList α n} {x : α} (hx : x ∉ v.items) :
    KeepsOrder v.items (v.offer x).items := by
  by_cases hf : v.Full
  · rw [offer_of_full hf]
    exact refl v.items
  · rw [offer_items_of_not_full hf]
    refine ⟨v.items, [x], List.Sublist.refl _, ?_, rfl⟩
    intro y hy
    rwa [List.mem_singleton.mp hy]

/-! ### Channels -/

/-- Nothing is received from an empty channel. -/
theorem try_receive_nil {v : BoundedList α n} (h : v.items = []) : v.try_receive = none := by
  unfold try_receive
  split
  · rfl
  · rename_i heq
    rw [h] at heq
    cases heq

/-- The oldest entry is received, and the others are left. -/
theorem try_receive_cons {v : BoundedList α n} {x : α} {xs : List α} (h : v.items = x :: xs) :
    ∃ w : BoundedList α n, v.try_receive = some (x, w) ∧ w.items = xs := by
  unfold try_receive
  split
  · rename_i heq
    rw [h] at heq
    cases heq
  · rename_i y ys heq
    rw [h, List.cons.injEq] at heq
    obtain ⟨rfl, rfl⟩ := heq
    exact ⟨_, rfl, rfl⟩

/-- First in, first out: what is received is the oldest entry, and the rest
stays in order. -/
theorem items_of_try_receive {v w : BoundedList α n} {x : α}
    (h : v.try_receive = some (x, w)) : v.items = x :: w.items := by
  cases hv : v.items with
  | nil => rw [try_receive_nil hv] at h; cases h
  | cons y ys =>
      obtain ⟨w', hw', hitems⟩ := try_receive_cons hv
      rw [hw', Option.some.injEq, Prod.mk.injEq] at h
      obtain ⟨rfl, rfl⟩ := h
      rw [hitems]

/-- A full channel has an entry to receive, and room for another one after that. -/
theorem try_receive_of_full {v : BoundedList α n} (hn : 0 < n) (h : v.Full) :
    ∃ (x : α) (w : BoundedList α n), v.try_receive = some (x, w) ∧ ¬ w.Full := by
  cases hv : v.items with
  | nil =>
      unfold Full at h
      rw [hv, List.length_nil] at h
      omega
  | cons x xs =>
      obtain ⟨w, htake, hw⟩ := try_receive_cons hv
      refine ⟨x, w, htake, ?_⟩
      have hbound := v.bound
      rw [hv, List.length_cons] at hbound
      rw [not_full_iff, hw]
      omega

/-- In a channel of capacity one, room means empty. -/
theorem not_full_one_iff {v : BoundedList α 1} : ¬ v.Full ↔ v.items = [] := by
  rw [not_full_iff, Nat.lt_one_iff, List.length_eq_zero_iff]

/-- A channel of capacity one holds nothing or a single entry. -/
theorem one_cases (v : BoundedList α 1) : v.items = [] ∨ ∃ x, v.items = [x] := by
  have hb := v.bound
  cases hv : v.items with
  | nil => exact Or.inl rfl
  | cons x xs =>
      rw [hv, List.length_cons] at hb
      have hxs : xs = [] := List.length_eq_zero_iff.mp (by omega)
      exact Or.inr ⟨x, by rw [hxs]⟩

/-- What a channel of capacity one holds is received next. -/
theorem head_of_mem_one {v : BoundedList α 1} {x : α} (h : x ∈ v.items) :
    v.items.head? = some x := by
  rcases one_cases v with hnil | ⟨y, hy⟩
  · rw [hnil] at h
    cases h
  · rw [hy, List.mem_singleton] at h
    rw [hy, h]
    rfl

/-- A receive from a channel of capacity one leaves it empty. -/
theorem try_receive_one {v w : BoundedList α 1} {x : α} (h : v.try_receive = some (x, w)) :
    v.items = [x] ∧ w.items = [] := by
  have hitems := items_of_try_receive h
  have hlen := v.bound
  rw [hitems, List.length_cons] at hlen
  have hw : w.items = [] := List.length_eq_zero_iff.mp (by omega)
  rw [hitems, hw]
  exact ⟨rfl, rfl⟩

end BoundedList

end PicoDsp.Lib
