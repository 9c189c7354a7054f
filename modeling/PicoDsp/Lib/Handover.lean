/-
A value handed over through a mailbox with one place.

A writer owns a value and a reader works with a copy of it. The writer sends
its value to a mailbox that holds one; the reader takes it out and installs it
some time later. A send that finds the mailbox full is lost. The writer may also
store its value straight at the reader.

The reader catches up with the writer as long as no send is lost that differs
from the copy in its way, and no store overtakes a different copy on its way
(`Timely`). What carries the argument is the value the reader ends up with if it
is left alone (`latest`). The condition is exact: after a move that is not timely
that value is a wrong one (`latest_of_untimely`).

An edit of the writer's value and the send or the store that belongs to it are two moves,
since others may move in between; what the writer owes the reader is a part of the state
for that reason. While a copy is being installed the reader's own value is unsettled, and
`disturb` lets it become anything: the installation may proceed in parts, and
whoever reads in the middle sees a mixture. So the statement is about the moments at
which nothing is under way (`Quiet`).

The invariant `InStep` says that what is under way is the writer's value unless it is
owed, and one step lemma goes through all moves. The condition is on the state in front
of the move and not on what the move does, so in a run it can be checked as it goes.
-/
import PicoDsp.Lib.Transition

set_option autoImplicit false

namespace PicoDsp.Lib

/-- The writer's value, whether it still owes the reader a send or a store of
it, and the copies on the way. -/
structure Handover (β : Type) where
  want : β
  owed : Bool
  slot : Option β
  installing : Option β
  live : β

namespace Handover

/-- What the two parties do. -/
inductive Move (β : Type)
  /-- The writer changes its value. -/
  | edit (b : β)
  /-- The writer sends its value, lost when the mailbox is full. -/
  | send
  /-- The writer stores its value at the reader. -/
  | store
  /-- The reader takes the copy out of the mailbox. -/
  | take
  /-- The reader installs the copy it took, for the last time or not. -/
  | install (last : Bool)
  /-- The reader's copy is disturbed, with a later one under way. -/
  | disturb (b : β)

variable {β : Type}

def step (s : Handover β) : Move β → Option (Handover β)
  | .edit b => some { s with want := b, owed := true }
  | .send => some { s with slot := s.slot.or (some s.want), owed := false }
  | .store => some { s with live := s.want, owed := false }
  | .take => s.slot.map fun b => { s with slot := none, installing := some b }
  | .install last =>
      s.installing.map fun b => { s with live := b, installing := if last then none else some b }
  | .disturb b =>
      if s.owed ∨ s.installing.isSome then some { s with live := b } else none

/-- The copy that is installed next if the reader is left alone. -/
def underway (s : Handover β) : Option β := s.slot.or s.installing

/-- What the reader ends up with if it is left alone. -/
def latest (s : Handover β) : β := s.underway.getD s.live

/-- No send is lost, and no store overtaken by a copy, that makes a difference. -/
def Timely (s : Handover β) : Move β → Prop
  | .send => ∀ b, s.slot = some b → b = s.want
  | .store => ∀ b, s.underway = some b → b = s.want
  | _ => True

/-- What is under way is the writer's value, unless the writer owes it. -/
def InStep (s : Handover β) : Prop := s.owed = false → s.latest = s.want

/-- Nothing is under way. -/
structure Quiet (s : Handover β) : Prop where
  owed : s.owed = false
  slot : s.slot = none
  installing : s.installing = none

/-- At rest the reader has what it ends up with. -/
theorem Quiet.live_eq {s : Handover β} (h : Quiet s) : s.latest = s.live := by
  rw [latest, underway, h.slot, h.installing]
  rfl

/-- Taking the copy out of the mailbox does not change where it is going. -/
theorem latest_take {s : Handover β} {b : β} (h : s.slot = some b) :
    ({ s with slot := none, installing := some b } : Handover β).latest = s.latest := by
  rw [latest, latest, underway, underway, h]
  rfl

/-- Neither does installing it, or a part of it. -/
theorem latest_install {s : Handover β} {b : β} (h : s.installing = some b) (last : Bool) :
    ({ s with live := b, installing := if last then none else some b } : Handover β).latest
      = s.latest := by
  rw [latest, latest, underway, underway, h]
  cases s.slot with
  | some c => rfl
  | none =>
      cases last with
      | true => rfl
      | false => rfl

/-- What is live does not matter while a copy is installed. -/
theorem latest_disturb {s : Handover β} (h : s.installing.isSome = true) (b : β) :
    ({ s with live := b } : Handover β).latest = s.latest := by
  obtain ⟨c, hc⟩ := Option.isSome_iff_exists.mp h
  rw [latest, latest, underway, underway, hc]
  cases s.slot with
  | some d => rfl
  | none => rfl

/-- While a copy is installed the reader's value may be anything. -/
theorem disturb_of_installing {s : Handover β} (h : s.installing.isSome = true) (b : β) :
    s.step (.disturb b) = some { s with live := b } := if_pos (Or.inr h)

/-- With nothing owed that is the only time at which it may. -/
theorem disturb_cases {s s' : Handover β} {b : β} (howed : s.owed = false)
    (h : s.step (.disturb b) = some s') :
    s.installing.isSome = true ∧ s' = { s with live := b } := by
  rw [step] at h
  split at h
  · rename_i hway
    cases h
    exact ⟨hway.resolve_left fun hup => Bool.false_ne_true (howed.symm.trans hup), rfl⟩
  · cases h

/-- **The step lemma.** -/
theorem InStep.step {s s' : Handover β} {m : Move β} (h : InStep s) (hm : Timely s m)
    (hstep : s.step m = some s') : InStep s' := by
  intro howed
  cases m with
  | edit b =>
      cases hstep
      cases howed
  | send =>
      cases hstep
      -- the copy that was in the way, or the one that was sent
      cases hslot : s.slot with
      | none => simp [latest, underway]
      | some b =>
          have hb := hm b hslot
          simp [latest, underway, hb]
  | store =>
      cases hstep
      have hm' : ∀ b, s.underway = some b → b = s.want := hm
      show s.underway.getD s.want = s.want
      cases hway : s.underway with
      | none => rfl
      | some b => exact hm' b hway
  | take =>
      obtain ⟨b, hslot, rfl⟩ := Option.map_eq_some_iff.mp hstep
      rw [latest_take hslot]
      exact h howed
  | install last =>
      obtain ⟨b, hinst, rfl⟩ := Option.map_eq_some_iff.mp hstep
      rw [latest_install hinst]
      exact h howed
  | disturb b =>
      have howed' : s.owed = false := by
        rw [Handover.step] at hstep
        split at hstep
        · cases hstep
          exact howed
        · cases hstep
      obtain ⟨hinst, rfl⟩ := disturb_cases howed' hstep
      rw [latest_disturb hinst]
      exact h howed

/-- **In a run of timely moves the reader is right whenever nothing is under way.** -/
theorem live_eq_want {s t : Handover β} (hs : InStep s)
    (h : Transition.ReachedBy step Timely s t) (hq : Quiet t) : t.live = t.want := by
  have ht : InStep t := h.invariant (fun _ _ _ hin hm hstep => hin.step hm hstep) hs
  rw [← hq.live_eq]
  exact ht hq.owed

/-! ## The condition is exact -/

/-- The moves of the reader. -/
def Move.OfReader : Move β → Prop
  | .take | .install _ | .disturb _ => True
  | _ => False

/-- The moves of the reader are always timely. -/
theorem timely_of_reader {s : Handover β} {m : Move β} (h : m.OfReader) : Timely s m := by
  cases m with
  | take => trivial
  | install last => trivial
  | disturb b => trivial
  | edit b => exact h.elim
  | send => exact h.elim
  | store => exact h.elim

/-- With nothing owed the reader alone changes neither what it ends up with nor
the writer's value. -/
theorem latest_of_reader {s t : Handover β} (howed : s.owed = false)
    (h : Transition.ReachedBy step (fun _ m => m.OfReader) s t) :
    t.latest = s.latest ∧ t.want = s.want := by
  have hkeep : ∀ (u : Handover β) (m : Move β) (v : Handover β),
      (u.owed = false ∧ u.latest = s.latest ∧ u.want = s.want) → m.OfReader →
      u.step m = some v → v.owed = false ∧ v.latest = s.latest ∧ v.want = s.want := by
    rintro u m v ⟨hu, hlatest, hwant⟩ hm hstep
    cases m with
    | take =>
        obtain ⟨b, hslot, rfl⟩ := Option.map_eq_some_iff.mp hstep
        exact ⟨hu, (latest_take hslot).trans hlatest, hwant⟩
    | install last =>
        obtain ⟨b, hinst, rfl⟩ := Option.map_eq_some_iff.mp hstep
        exact ⟨hu, (latest_install hinst last).trans hlatest, hwant⟩
    | disturb b =>
        obtain ⟨hinst, rfl⟩ := disturb_cases hu hstep
        exact ⟨hu, (latest_disturb hinst b).trans hlatest, hwant⟩
    | edit b => exact hm.elim
    | send => exact hm.elim
    | store => exact hm.elim
  exact (h.invariant hkeep ⟨howed, rfl, rfl⟩).2

/-- **After a move that is not timely the reader ends up with a wrong value.** -/
theorem latest_of_untimely {s s' : Handover β} {m : Move β} (hm : ¬ Timely s m)
    (hstep : s.step m = some s') : s'.latest ≠ s'.want := by
  cases m with
  | send =>
      cases hstep
      rw [Timely] at hm
      push Not at hm
      obtain ⟨b, hslot, hne⟩ := hm
      rw [latest, underway, hslot]
      exact hne
  | store =>
      cases hstep
      rw [Timely] at hm
      push Not at hm
      obtain ⟨b, hway, hne⟩ := hm
      show s.underway.getD s.want ≠ s.want
      rw [hway]
      exact hne
  | edit b => exact absurd trivial hm
  | take => exact absurd trivial hm
  | install last => exact absurd trivial hm
  | disturb b => exact absurd trivial hm

end Handover

end PicoDsp.Lib
