/-
A stream that grows at its end and is read at a position.

What has come in is `items`; what lies in front of `pos` has been taken or passed
over. Taking advances the position, skipping moves it to the end, and new items leave
what was ahead as it was (`extend_ahead`).

A reader that cuts a stream of blocks into packets of another size keeps an index into
the current block, and starts the next one where it ends. Seen from outside the
blocks are one list and the index a position in it, and no packet boundary is special.
What was taken is never dropped from the list, so that a statement can say which
items a packet is made of.
-/
import Mathlib.Data.List.Basic
import Mathlib.Algebra.Order.Group.Nat

set_option autoImplicit false

namespace PicoDsp.Lib

structure Tape (α : Type) where
  items : List α
  pos : ℕ

namespace Tape

variable {α : Type}

def new : Tape α := ⟨[], 0⟩

/-- What has not been taken yet. -/
def ahead (t : Tape α) : List α := t.items.drop t.pos

def extend (t : Tape α) (xs : List α) : Tape α := { t with items := t.items ++ xs }

def advance (t : Tape α) (n : ℕ) : Tape α := { t with pos := t.pos + n }

def skip (t : Tape α) : Tape α := { t with pos := t.items.length }

@[simp] theorem extend_items (t : Tape α) (xs : List α) : (t.extend xs).items = t.items ++ xs := rfl

@[simp] theorem extend_pos (t : Tape α) (xs : List α) : (t.extend xs).pos = t.pos := rfl

@[simp] theorem advance_items (t : Tape α) (n : ℕ) : (t.advance n).items = t.items := rfl

@[simp] theorem advance_pos (t : Tape α) (n : ℕ) : (t.advance n).pos = t.pos + n := rfl

/-- How many items are ahead. -/
theorem ahead_length (t : Tape α) : t.ahead.length = t.items.length - t.pos := List.length_drop

@[simp] theorem skip_ahead (t : Tape α) : t.skip.ahead = [] := List.drop_length

/-- Taking some of them. -/
theorem advance_ahead (t : Tape α) (n : ℕ) : (t.advance n).ahead = t.ahead.drop n := by
  rw [ahead, ahead, advance_items, advance_pos, List.drop_drop]

/-- What comes in is behind what was ahead. -/
theorem extend_ahead {t : Tape α} (h : t.pos ≤ t.items.length) (xs : List α) :
    (t.extend xs).ahead = t.ahead ++ xs := by
  rw [ahead, ahead, extend_items, extend_pos, List.drop_append_of_le_length h]

end Tape

end PicoDsp.Lib
