/-
The note stack and the soft-pedal latch (`NoteStack` in `control/midi.rs`).

`notes` holds the keys that sound, oldest first, and `pending_off` those of
them that were released while the sustain pedal was down. Both are vectors of
16 entries whose failing `push` is ignored, so a key struck while `notes` is
full is not recorded anywhere (`BoundedList.offer`).

The methods are translated one by one. `position` with `remove` is
`removeFirst`, which takes out one occurrence; that there is never a second one is the
invariant of `Control/StackInvariant.lean` and no part of the definitions. The velocity is no part of the stack: a key that comes back
when a later one is released plays with the velocity of that later one.

The latch stands in this record because the source keeps it here. No method but
`soft_pedal` touches it.
-/
import PicoDsp.Lib.Bounded

set_option autoImplicit false

namespace PicoDsp

open Lib

structure NoteStack where
  notes : BoundedList UInt8 16
  pending_off : BoundedList UInt8 16
  sustain_active : Bool
  soft_pedal_held : Bool

namespace NoteStack

def new : NoteStack := ⟨BoundedList.new, BoundedList.new, false, false⟩

/-- The latch and the release edge of the soft pedal. -/
def soft_pedal (s : NoteStack) (pressed : Bool) : Bool × NoteStack :=
  (s.soft_pedal_held && !pressed, { s with soft_pedal_held := pressed })

def note_on (s : NoteStack) (note : UInt8) : NoteStack :=
  let pending_off := s.pending_off.removeFirst note
  if s.notes.items.contains note then { s with pending_off := pending_off }
  else { s with pending_off := pending_off, notes := s.notes.offer note }

def note_off (s : NoteStack) (note : UInt8) : NoteStack :=
  if s.sustain_active then
    if s.notes.items.contains note && !s.pending_off.items.contains note then
      { s with pending_off := s.pending_off.offer note }
    else s
  else { s with notes := s.notes.removeFirst note }

def set_sustain (s : NoteStack) (active : Bool) : NoteStack :=
  if active then { s with sustain_active := true }
  else
    { s with
      sustain_active := false
      notes := s.pending_off.items.foldl BoundedList.removeFirst s.notes
      pending_off := BoundedList.new }

def clear (s : NoteStack) : NoteStack :=
  { s with notes := BoundedList.new, pending_off := BoundedList.new, sustain_active := false }

def active_note (s : NoteStack) : Option UInt8 := s.notes.items.getLast?

/-! ## The top of the stack and the soft pedal -/

/-- Some key is the active one exactly if the stack is not empty. -/
theorem active_note_isSome (s : NoteStack) : s.active_note.isSome = true ↔ s.notes.items ≠ [] := by
  rw [active_note, List.getLast?_isSome]

/-- Pressing the pedal never completes a gesture. -/
theorem soft_pedal_press (s : NoteStack) : (s.soft_pedal true).1 = false := by
  simp [soft_pedal]

end NoteStack

end PicoDsp
