/-
A buffer that is read and written at one position, which goes around.

A ring is a queue of a fixed length (`queue`): what is read is its oldest entry, and what is
written becomes its newest. So after as many writes as it is long it has nothing left of
what was there before (`Fresh`).

The position is an index into the buffer with the proof that it lies inside, so
reading needs no bound. `write` puts the value there and moves on, around the end by a
comparison and not by a remainder, as such code does it. One lemma relates the
arithmetic of the position to the queue (`write_queue`), and everything later is about
queues.

`Fresh` counts from the end: the last `k` entries satisfy the predicate. A write makes it
one more (`Fresh.write`), and at the length of the ring it is all of them. What stood
there before the writes does not matter, so a ring forgets, whatever it began with.
-/
import Mathlib.Data.List.Basic
import Mathlib.Tactic.Common

set_option autoImplicit false

namespace PicoDsp.Lib

/-- A buffer with a position inside of it. -/
structure RingBuffer (α : Type) where
  buffer : List α
  pos : ℕ
  inside : pos < buffer.length

namespace RingBuffer

variable {α : Type}

def new (n : ℕ) (hn : 0 < n) (v : α) : RingBuffer α where
  buffer := List.replicate n v
  pos := 0
  inside := by rw [List.length_replicate]; exact hn

def read (r : RingBuffer α) : α := r.buffer.get ⟨r.pos, r.inside⟩

/-- The position moves on, and goes around at the end. -/
def write (r : RingBuffer α) (v : α) : RingBuffer α where
  buffer := r.buffer.set r.pos v
  pos := if r.buffer.length ≤ r.pos + 1 then 0 else r.pos + 1
  inside := by
    have hpos := r.inside
    rw [List.length_set]
    split
    · omega
    · omega

/-- Filled with one value, and back at the start. -/
def fill (r : RingBuffer α) (v : α) : RingBuffer α where
  buffer := r.buffer.map fun _ => v
  pos := 0
  inside := by
    have hpos := r.inside
    rw [List.length_map]
    omega

/-- The entries, oldest first. -/
def queue (r : RingBuffer α) : List α := r.buffer.drop r.pos ++ r.buffer.take r.pos

/-- The oldest entry in front, and the others behind it. -/
theorem queue_eq (r : RingBuffer α) :
    r.queue = r.read :: (r.buffer.drop (r.pos + 1) ++ r.buffer.take r.pos) := by
  rw [queue, List.drop_eq_getElem_cons r.inside]
  rfl

/-- The queue has the entries of the buffer. -/
theorem mem_queue {r : RingBuffer α} {v : α} : v ∈ r.queue ↔ v ∈ r.buffer := by
  rw [queue, List.mem_append, or_comm, ← List.mem_append, List.take_append_drop]

/-- What is read is one of the entries. -/
theorem read_mem (r : RingBuffer α) : r.read ∈ r.buffer := List.get_mem r.buffer _

@[simp] theorem write_length (r : RingBuffer α) (v : α) :
    (r.write v).buffer.length = r.buffer.length := List.length_set

/-- **A write puts an entry behind the others**, in the place of the oldest. -/
theorem write_queue (r : RingBuffer α) (v : α) :
    (r.write v).queue = r.queue.tail ++ [v] := by
  have hpos := r.inside
  rw [queue_eq r, List.tail_cons]
  unfold queue write
  dsimp only
  split
  · -- the last place of the buffer: the position goes around
    rename_i hlast
    have hnil : r.buffer.drop (r.pos + 1) = [] := List.drop_eq_nil_of_le hlast
    rw [hnil, List.nil_append, List.drop_zero, List.take_zero, List.append_nil,
      List.set_eq_take_append_cons_drop, if_pos hpos, hnil]
  · rw [List.drop_set_of_lt (Nat.lt_succ_self r.pos), List.take_set,
      List.take_succ_eq_append_getElem hpos, List.set_append_right _ _ (by
        rw [List.length_take]; omega), List.length_take, Nat.min_eq_left (by omega),
      Nat.sub_self, List.append_assoc]
    rfl

/-! ## New entries -/

/-- All but the oldest entries, of which at most `length - k` are left, satisfy `P`. -/
def Fresh (P : α → Prop) (k : ℕ) (r : RingBuffer α) : Prop :=
  ∃ old new, r.queue = old ++ new ∧ (∀ v ∈ new, P v) ∧ old.length ≤ r.buffer.length - k

variable {P : α → Prop} {r : RingBuffer α} {k : ℕ} {v : α}

/-- Before the first write nothing is known. -/
theorem fresh_zero (P : α → Prop) (r : RingBuffer α) : Fresh P 0 r := by
  refine ⟨r.queue, [], (List.append_nil _).symm, fun v hv => absurd hv List.not_mem_nil, ?_⟩
  rw [queue, List.length_append, List.length_drop, List.length_take]
  omega

/-- A write makes one more entry new. -/
theorem Fresh.write (h : Fresh P k r) (hv : P v) : Fresh P (k + 1) (r.write v) := by
  obtain ⟨old, new, hqueue, hnew, hlen⟩ := h
  have hnew' : ∀ u ∈ new ++ [v], P u := by
    rw [List.forall_mem_append]
    exact ⟨hnew, List.forall_mem_singleton.mpr hv⟩
  rw [Fresh, write_queue, write_length, hqueue]
  cases old with
  | nil =>
      refine ⟨[], new.tail ++ [v], rfl, fun u hu => hnew' u ?_, Nat.zero_le _⟩
      rcases List.mem_append.mp hu with htail | hlast
      · exact List.mem_append_left _ (List.mem_of_mem_tail htail)
      · exact List.mem_append_right _ hlast
  | cons o os =>
      rw [List.length_cons] at hlen
      exact ⟨os, new ++ [v], List.append_assoc os new [v], hnew', by omega⟩

/-- After as many writes as the ring is long, all entries are new. -/
theorem Fresh.forall_mem (h : Fresh P k r) (hk : r.buffer.length ≤ k) : ∀ v ∈ r.buffer, P v := by
  obtain ⟨old, new, hqueue, hnew, hlen⟩ := h
  have hnil : old = [] := List.length_eq_zero_iff.mp (by omega)
  intro v hv
  rw [← mem_queue, hqueue, hnil] at hv
  exact hnew v hv

/-- What holds of all entries and of the new one. -/
theorem forall_mem_write (h : ∀ u ∈ r.buffer, P u) (hv : P v) :
    ∀ u ∈ (r.write v).buffer, P u := by
  intro u hu
  rcases List.mem_or_eq_of_mem_set hu with hold | rfl
  · exact h u hold
  · exact hv

end RingBuffer

end PicoDsp.Lib
