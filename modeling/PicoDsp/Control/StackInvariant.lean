/-
The representation invariant of the note stack (`control/midi.rs`).

`NoteStack` is two bounded vectors, a pedal flag and the latch of the soft pedal, and
its methods assume things about them that no type says: no key is listed twice,
`pending_off` lists keys of `notes`, and without the pedal it is empty. The stack is
whole (`Wf`) when this is so, and that is the case exactly when it lists what some
keyboard holds (`wf_iff_holds`). The invariant over the calls is therefore the
simulation of `Control/KeyTracking.lean` with one lemma for each call (`Holds.call`), and
the run lemma is an induction over the calls that knows nothing of lists.

What the ignored result of `push` could hide in `note_off` is excluded by it:
`pending_off` is part of `notes`, and the key that is pushed is not in it yet, so that
16 places are always enough (`Wf.push`).

The fate of a released key under the pedal needs a look into the future: it stays until
the pedal goes up and is gone then, unless it was struck again in between. The calls up
to the lift are those of `Waits`, and the key is followed through them on the keyboard,
where a release only moves it from the held to the sustained keys (`Wf.waiting`,
`Wf.released`). That no call changes the order of what stays is about the lists alone
(`KeepsOrders`), and it is what last-note priority rests on.
-/
import PicoDsp.Control.KeyTracking

set_option autoImplicit false

namespace PicoDsp.NoteStack

open Lib

/-! ## The calls -/

/-- A call of a method that changes the stack. -/
inductive Call
  | note_on (note : UInt8)
  | note_off (note : UInt8)
  | set_sustain (active : Bool)
  | clear
  | soft_pedal (pressed : Bool)
  deriving DecidableEq

def call (s : NoteStack) : Call → NoteStack
  | .note_on note => s.note_on note
  | .note_off note => s.note_off note
  | .set_sustain active => s.set_sustain active
  | .clear => s.clear
  | .soft_pedal pressed => (s.soft_pedal pressed).2

/-- The stack after some calls. -/
def calls (s : NoteStack) (cs : List Call) : NoteStack := cs.foldl call s

def Call.keyEvent : Call → KeyEvent UInt8
  | .note_on note => .press note
  | .note_off note => .release note
  | .set_sustain active => .pedal active
  | .clear => .clear
  | .soft_pedal _ => .other

/-- One call more, at the end. -/
theorem calls_snoc (s : NoteStack) (cs : List Call) (c : Call) :
    s.calls (cs ++ [c]) = (s.calls cs).call c := by
  rw [calls, List.foldl_append]
  rfl

variable {s : NoteStack} {kb : Keyboard UInt8}

/-- Every call is an event at a keyboard with room for 16 keys. -/
theorem Holds.call (h : Holds s kb) (c : Call) :
    Holds (s.call c) (kb.track 16 c.keyEvent) := by
  cases c with
  | note_on note => exact h.note_on note
  | note_off note => exact h.note_off note
  | set_sustain active => exact h.set_sustain active
  | clear => exact holds_clear s
  | soft_pedal pressed => exact h.congr rfl

/-- After any calls the stack lists the keyboard of their events. -/
theorem Holds.calls (h : Holds s kb) (cs : List Call) :
    Holds (s.calls cs) ((cs.map Call.keyEvent).foldl (Keyboard.track 16) kb) := by
  induction cs generalizing s kb with
  | nil => exact h
  | cons c cs ih => exact ih (h.call c)

/-! ## The invariant -/

/-- The representation invariant of the stack. -/
structure Wf (s : NoteStack) : Prop where
  notes_nodup : s.notes.items.Nodup
  pending_nodup : s.pending_off.items.Nodup
  pending_notes : ∀ note ∈ s.pending_off.items, note ∈ s.notes.items
  pending_up : s.sustain_active = false → s.pending_off.items = []

/-- A stack that lists a keyboard is whole: all of its invariant is said by the sets. -/
theorem Holds.wf (h : Holds s kb) : s.Wf where
  notes_nodup := h.notes_nodup
  pending_nodup := h.pending_nodup
  pending_notes note hnote := by
    rw [h.mem_notes, Keyboard.mem_sounding]
    exact Or.inr ((h.mem_pending note).mp hnote)
  pending_up hup := by
    have hnone := kb.pedal_up (h.pedal ▸ hup)
    rw [List.eq_nil_iff_forall_not_mem]
    intro note hnote
    rw [h.mem_pending, hnone] at hnote
    exact Finset.notMem_empty note hnote

/-- The keyboard of a whole stack: the notes that are not pending are held. -/
def Wf.keyboard (h : s.Wf) : Keyboard UInt8 where
  held := s.notes.items.toFinset \ s.pending_off.items.toFinset
  sustained := s.pending_off.items.toFinset
  pedal := s.sustain_active
  disjoint := Finset.sdiff_disjoint
  pedal_up hup := by rw [h.pending_up hup, List.toFinset_nil]

/-- A whole stack lists a keyboard, the one that holds the notes that are not pending. -/
theorem Wf.holds (h : s.Wf) : Holds s h.keyboard where
  notes_nodup := h.notes_nodup
  pending_nodup := h.pending_nodup
  mem_notes note := by
    have hpending := h.pending_notes note
    rw [Keyboard.mem_sounding]
    simp only [Wf.keyboard, Finset.mem_sdiff, List.mem_toFinset]
    tauto
  mem_pending note := List.mem_toFinset.symm
  pedal := rfl

/-- **The invariant says that some keyboard is listed.** -/
theorem wf_iff_holds : s.Wf ↔ ∃ kb, Holds s kb :=
  ⟨fun h => ⟨h.keyboard, h.holds⟩, fun ⟨_, h⟩ => h.wf⟩

theorem wf_new : new.Wf := holds_new.wf

/-- Every call keeps the stack whole. -/
theorem Wf.call (h : s.Wf) (c : Call) : (s.call c).Wf := (h.holds.call c).wf

/-- So do any number of them. -/
theorem Wf.calls (h : s.Wf) (cs : List Call) : (s.calls cs).Wf := by
  induction cs generalizing s with
  | nil => exact h
  | cons c cs ih => exact ih (h.call c)

/-! ## The push -/

/-- The push of `note_off` succeeds. -/
theorem Wf.push (h : s.Wf) {note : UInt8} (hdown : s.sustain_active = true)
    (hnotes : note ∈ s.notes.items) (hpending : note ∉ s.pending_off.items) :
    ∃ p, s.pending_off.push note = some p ∧ (s.note_off note).pending_off = p := by
  -- the pending notes and this one are different entries of `notes`
  have hlen : (note :: s.pending_off.items).length ≤ s.notes.items.length := by
    apply (List.nodup_cons.mpr ⟨hpending, h.pending_nodup⟩).length_le_of_subset
    exact List.cons_subset.mpr ⟨hnotes, h.pending_notes⟩
  have hroom : s.pending_off.items.length < 16 := by
    have hbound := s.notes.bound
    rw [List.length_cons] at hlen
    omega
  have htest : (s.notes.items.contains note && !s.pending_off.items.contains note) = true := by
    simp [hnotes, hpending]
  have hpush : s.pending_off.push note
      = some ⟨s.pending_off.items ++ [note], by rw [List.length_append]; exact hroom⟩ :=
    dif_pos hroom
  refine ⟨_, hpush, ?_⟩
  rw [note_off, if_pos hdown, if_pos htest, BoundedList.offer, hpush, Option.getD_some]

/-! ## A release under the pedal -/

/-- After a release no call but a strike makes the key held. -/
theorem not_held (kb : Keyboard UInt8) (note : UInt8) {later : List Call}
    (hlater : ∀ c ∈ later, c ≠ .note_on note) :
    note ∉ ((later.map Call.keyEvent).foldl (Keyboard.track 16) (kb.release note)).held := by
  apply Keyboard.not_held_foldl_track (kb.notMem_held_release note)
  intro e he
  obtain ⟨c, hc, rfl⟩ := List.mem_map.mp he
  intro heq
  cases c with
  | note_on k =>
      rw [Call.keyEvent, KeyEvent.press.injEq] at heq
      exact hlater _ hc (heq ▸ rfl)
  | note_off k => cases heq
  | set_sustain active => cases heq
  | clear => cases heq
  | soft_pedal pressed => cases heq

/-- What the lift leaves is what is held. -/
theorem Holds.mem_lifted (h : Holds s kb) (note : UInt8) :
    note ∈ (s.set_sustain false).notes.items ↔ note ∈ kb.held := by
  rw [(h.set_sustain false).mem_notes, Keyboard.sounding_of_pedal_up rfl]
  rfl

/-- Without a strike the release takes effect at the lift. -/
theorem Wf.released (h : s.Wf) {note : UInt8} {later : List Call}
    (hlater : ∀ c ∈ later, c ≠ .note_on note) :
    note ∉ ((s.note_off note).calls (later ++ [.set_sustain false])).notes.items := by
  rw [calls_snoc, NoteStack.call, ((h.holds.note_off note).calls later).mem_lifted]
  exact not_held h.keyboard note hlater

/-- The pedal is not lifted and the stack is not cleared. -/
def Waits (later : List Call) : Prop := ∀ c ∈ later, c ≠ .set_sustain false ∧ c ≠ .clear

instance (later : List Call) : Decidable (Waits later) :=
  inferInstanceAs (Decidable (∀ c ∈ later, c ≠ .set_sustain false ∧ c ≠ .clear))

/-- Up to the lift no event lifts the pedal or clears the keyboard. -/
theorem Waits.keyEvents {later : List Call} (h : Waits later) :
    ∀ e ∈ later.map Call.keyEvent, e ≠ .pedal false ∧ e ≠ .clear := by
  intro e he
  obtain ⟨c, hc, rfl⟩ := List.mem_map.mp he
  obtain ⟨hup, hclear⟩ := h c hc
  cases c with
  | note_on note => exact ⟨nofun, nofun⟩
  | note_off note => exact ⟨nofun, nofun⟩
  | set_sustain active =>
      refine ⟨?_, nofun⟩
      intro heq
      rw [Call.keyEvent, KeyEvent.pedal.injEq] at heq
      exact hup (heq ▸ rfl)
  | clear => exact absurd rfl hclear
  | soft_pedal pressed => exact ⟨nofun, nofun⟩

/-- Until the lift a released note stays, and the lift leaves it if it was struck again. -/
theorem Wf.waiting (h : s.Wf) {note : UInt8} (hdown : s.sustain_active = true)
    (hnotes : note ∈ s.notes.items) {later : List Call} (hlater : Waits later) :
    note ∈ ((s.note_off note).calls later).notes.items
      ∧ (note ∈ ((s.note_off note).calls (later ++ [.set_sustain false])).notes.items
        ↔ HeldBy (later.map Call.keyEvent) note) := by
  have hafter := (h.holds.note_off note).calls later
  -- the release is a step of a key that sounds under the pedal
  have hsounds : note ∈ h.keyboard.sounding := (h.holds.mem_notes note).mp hnotes
  have hstep : note ∈ (h.keyboard.release note).sounding
      ∧ (h.keyboard.release note).pedal = true :=
    Keyboard.sounding_track 16 hsounds hdown (e := .release note) nofun nofun
  obtain ⟨hin, hheld⟩ := Keyboard.sounding_foldl_track 16 hstep.1 hstep.2 hlater.keyEvents
  rw [decide_eq_false (h.keyboard.notMem_held_release note), Keyboard.foldl_holdsKey_iff] at hheld
  refine ⟨(hafter.mem_notes note).mpr hin, ?_⟩
  rw [calls_snoc, NoteStack.call, hafter.mem_lifted]
  exact hheld

/-! ## The order -/

/-- No call changes the order of what stays, in either list. -/
def KeepsOrders (s s' : NoteStack) : Prop :=
  BoundedList.KeepsOrder s.notes.items s'.notes.items
    ∧ BoundedList.KeepsOrder s.pending_off.items s'.pending_off.items

/-- A strike adds at the end, and takes the key out of `pending_off`. -/
theorem keepsOrders_note_on (s : NoteStack) (note : UInt8) : KeepsOrders s (s.note_on note) := by
  have hpending : BoundedList.KeepsOrder s.pending_off.items
      (s.pending_off.removeFirst note).items := .of_sublist List.erase_sublist
  unfold note_on
  by_cases hnote : s.notes.items.contains note = true
  · rw [if_pos hnote]
    exact ⟨.refl _, hpending⟩
  · rw [if_neg hnote]
    exact ⟨.offer fun hmem => hnote (List.contains_iff_mem.mpr hmem), hpending⟩

/-- A release takes the key out of `notes`, or adds it at the end of `pending_off`. -/
theorem keepsOrders_note_off (s : NoteStack) (note : UInt8) : KeepsOrders s (s.note_off note) := by
  unfold note_off
  by_cases hdown : s.sustain_active = true
  · rw [if_pos hdown]
    by_cases htest : (s.notes.items.contains note && !s.pending_off.items.contains note) = true
    · have hnew : note ∉ s.pending_off.items := by
        rw [Bool.and_eq_true, Bool.not_eq_true'] at htest
        intro hmem
        rw [List.contains_iff_mem.mpr hmem] at htest
        cases htest.2
      rw [if_pos htest]
      exact ⟨.refl _, .offer hnew⟩
    · rw [if_neg htest]
      exact ⟨.refl _, .refl _⟩
  · rw [if_neg hdown]
    exact ⟨.of_sublist List.erase_sublist, .refl _⟩

/-- The lift takes keys out, wherever they stand. -/
theorem keepsOrders_set_sustain (s : NoteStack) (active : Bool) :
    KeepsOrders s (s.set_sustain active) := by
  cases active with
  | true => exact ⟨.refl _, .refl _⟩
  | false =>
      refine ⟨.of_sublist ?_, .of_sublist (List.nil_sublist _)⟩
      have hitems : (s.set_sustain false).notes.items = s.notes.items.diff s.pending_off.items :=
        BoundedList.foldl_removeFirst_items _ _
      rw [hitems]
      exact List.diff_sublist _ _

/-- Every call: what stays keeps its order. -/
theorem keepsOrders_call (s : NoteStack) (c : Call) : KeepsOrders s (s.call c) := by
  cases c with
  | note_on note => exact keepsOrders_note_on s note
  | note_off note => exact keepsOrders_note_off s note
  | set_sustain active => exact keepsOrders_set_sustain s active
  | clear => exact ⟨.of_sublist (List.nil_sublist _), .of_sublist (List.nil_sublist _)⟩
  | soft_pedal pressed => exact ⟨.refl _, .refl _⟩

/-! ## From the start -/

/-- **The note stack keeps its representation invariant.** After any calls the stack is
whole; the push of `note_off` succeeds; a note that is released under the pedal stays
until the pedal is lifted and is gone then, unless it was struck again; and no call
changes the order of the notes that stay. -/
theorem representation_invariant (cs : List Call) :
    (new.calls cs).Wf
      ∧ (∀ note, (new.calls cs).sustain_active = true → note ∈ (new.calls cs).notes.items →
          (note ∉ (new.calls cs).pending_off.items →
            ∃ p, (new.calls cs).pending_off.push note = some p
              ∧ ((new.calls cs).note_off note).pending_off = p)
          ∧ (∀ later, (∀ c ∈ later, c ≠ .note_on note) →
            note ∉ (((new.calls cs).note_off note).calls
              (later ++ [.set_sustain false])).notes.items)
          ∧ ∀ later, Waits later →
            note ∈ (((new.calls cs).note_off note).calls later).notes.items
              ∧ (note ∈ (((new.calls cs).note_off note).calls
                  (later ++ [.set_sustain false])).notes.items
                ↔ HeldBy (later.map Call.keyEvent) note))
      ∧ ∀ c, KeepsOrders (new.calls cs) ((new.calls cs).call c) := by
  have hwf : (new.calls cs).Wf := wf_new.calls cs
  refine ⟨hwf, ?_, keepsOrders_call _⟩
  intro note hdown hnotes
  refine ⟨hwf.push hdown hnotes, ?_, ?_⟩
  · intro later hlater
    exact hwf.released hlater
  · intro later hlater
    exact hwf.waiting hdown hnotes hlater

/-- The note that is let go under the pedal is gone at the lift, the other one stays. -/
example : (new.calls [.note_on 60, .note_on 64, .set_sustain true, .note_off 60, .note_on 64,
    .set_sustain false]).notes.items = [64] := by decide

end PicoDsp.NoteStack
