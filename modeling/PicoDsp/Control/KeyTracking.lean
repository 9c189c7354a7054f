/-
The gate and the keys (`NoteStack` of `control/midi.rs` and the handlers of
`midi_task` that call it).

`NoteStack` is a keyboard with room for 16 sounding keys: `notes` lists the keys
it tracks and `pending_off` the sustained ones among them. A key struck while 16
others sound is not recorded, so the gate follows the tracked keys, which are
all sounding keys as long as no key was struck in vain.

The keyboard itself is `Lib/Keyboard.lean`: a set of held keys, a set of sustained
ones and a pedal, with no lists and no order. `Holds` says which keyboard a stack
lists, and each operation of the stack is shown to be an event of the keyboard
(`Holds.note_on`, `Holds.note_off`, `Holds.set_sustain`). Both lists are without
repetitions, and that is what makes the capacities fit: `pending_off` lists some of the
keys of `notes`, so a key that has to be put there always finds room.

The gate is a live control and not a variable of the task, so a statement about it is
one about effects: `controlsAfter` is what the stores among the effects make of the
controls. Work that is no event of the keyboard, loading presets and SysEx included,
stores no gate (`work_stays_keys`), and an event of the keyboard ends in `follow_stack`
or in a store of its own (`key_work`). One lemma for a piece of work, and the run lemma
by induction on the work from it.

The result is stated both ways round: the gate is open exactly while a tracked key
sounds, always; and the tracked keys are the sounding ones from silence on as long as
each key struck finds a place. The 17th key shows that the second part needs its
condition (`gate_misses_seventeenth`).
-/
import PicoDsp.Lib.Keyboard
import PicoDsp.Control.MidiRun

set_option autoImplicit false

namespace PicoDsp

open Lib

/-! ## The stack as a bounded keyboard -/

namespace NoteStack

/-- The stack without the soft-pedal latch. -/
def keys (n : NoteStack) : BoundedList UInt8 16 × BoundedList UInt8 16 × Bool :=
  (n.notes, n.pending_off, n.sustain_active)

/-- The stack lists what the keyboard `s` holds: the sounding keys in `notes`,
the sustained ones in `pending_off`, none twice. -/
structure Holds (n : NoteStack) (s : Keyboard UInt8) : Prop where
  notes_nodup : n.notes.items.Nodup
  pending_nodup : n.pending_off.items.Nodup
  mem_notes : ∀ k, k ∈ n.notes.items ↔ k ∈ s.sounding
  mem_pending : ∀ k, k ∈ n.pending_off.items ↔ k ∈ s.sustained
  pedal : n.sustain_active = s.pedal

variable {n n' : NoteStack} {s : Keyboard UInt8}

/-- The latch is no part of it. -/
theorem Holds.congr (h : Holds n s) (heq : n'.keys = n.keys) : Holds n' s := by
  obtain ⟨hnotes, hrest⟩ := Prod.mk.inj heq
  obtain ⟨hpending, hsustain⟩ := Prod.mk.inj hrest
  refine ⟨?_, ?_, ?_, ?_, ?_⟩
  · rw [hnotes]
    exact h.notes_nodup
  · rw [hpending]
    exact h.pending_nodup
  · rw [hnotes]
    exact h.mem_notes
  · rw [hpending]
    exact h.mem_pending
  · rw [hsustain]
    exact h.pedal

/-- An empty stack lists an empty keyboard. -/
theorem holds_new : Holds new Keyboard.new where
  notes_nodup := List.nodup_nil
  pending_nodup := List.nodup_nil
  mem_notes k := by simp [new, Keyboard.sounding, Keyboard.new]
  mem_pending k := by simp [new, Keyboard.new]
  pedal := rfl

/-- The stack is as long as there are sounding keys: full at 16 of them. -/
theorem Holds.length_notes (h : Holds n s) : n.notes.items.length = s.sounding.card := by
  have hset : n.notes.items.toFinset = s.sounding := by
    ext k
    rw [List.mem_toFinset, h.mem_notes]
  rw [← hset, List.toFinset_card_of_nodup h.notes_nodup]

/-- And as many of them are pending as are sustained. -/
theorem Holds.length_pending (h : Holds n s) : n.pending_off.items.length = s.sustained.card := by
  have hset : n.pending_off.items.toFinset = s.sustained := by
    ext k
    rw [List.mem_toFinset, h.mem_pending]
  rw [← hset, List.toFinset_card_of_nodup h.pending_nodup]

/-- The search through the stack decides whether the key sounds. -/
theorem Holds.contains_iff (h : Holds n s) (k : UInt8) :
    n.notes.items.contains k = true ↔ k ∈ s.sounding := by
  rw [List.contains_iff_mem, h.mem_notes]

/-- What is taken out of `pending_off` for a key. -/
theorem Holds.mem_pending_erase (h : Holds n s) (k j : UInt8) :
    j ∈ n.pending_off.items.erase k ↔ j ≠ k ∧ j ∈ s.sustained := by
  rw [h.pending_nodup.mem_erase_iff, h.mem_pending]

/-- A key that sounds already is struck again. -/
theorem Holds.note_on_again (h : Holds n s) {k : UInt8} (hk : k ∈ s.sounding) :
    Holds { n with pending_off := n.pending_off.removeFirst k } (s.press k) := by
  refine ⟨h.notes_nodup, h.pending_nodup.erase k, ?_, ?_, h.pedal⟩
  · intro j
    rw [Keyboard.mem_sounding_press, ← h.mem_notes]
    constructor
    · exact Or.inr
    · rintro (rfl | hj)
      · exact (h.mem_notes j).mpr hk
      · exact hj
  · intro j
    rw [Keyboard.press, Finset.mem_erase]
    exact h.mem_pending_erase k j

/-- A key that there is no room for is not noticed: it was not pending either. -/
theorem Holds.note_on_full (h : Holds n s) {k : UInt8} (hroom : ¬ s.Room 16 k) :
    Holds { n with pending_off := n.pending_off.removeFirst k } s := by
  refine ⟨h.notes_nodup, h.pending_nodup.erase k, h.mem_notes, ?_, h.pedal⟩
  intro j
  rw [BoundedList.removeFirst_items, h.mem_pending_erase]
  constructor
  · exact And.right
  · intro hj
    refine ⟨?_, hj⟩
    rintro rfl
    exact hroom (Or.inl (Keyboard.mem_sounding.mpr (Or.inr hj)))

/-- A new key is pushed. -/
theorem Holds.note_on_push (h : Holds n s) {k : UInt8} (hk : k ∉ n.notes.items)
    (hfull : ¬ n.notes.Full) :
    Holds { n with notes := n.notes.offer k, pending_off := n.pending_off.removeFirst k }
      (s.press k) := by
  refine ⟨BoundedList.nodup_offer h.notes_nodup hk, h.pending_nodup.erase k, ?_, ?_, h.pedal⟩
  · intro j
    rw [BoundedList.offer_items_of_not_full hfull, List.mem_append, List.mem_singleton,
      Keyboard.mem_sounding_press, ← h.mem_notes, or_comm]
  · intro j
    rw [Keyboard.press, Finset.mem_erase]
    exact h.mem_pending_erase k j

/-- A Note On is a press that is noticed when there is room. -/
theorem Holds.note_on (h : Holds n s) (k : UInt8) :
    Holds (n.note_on k) (s.track 16 (.press k)) := by
  unfold NoteStack.note_on
  by_cases hk : n.notes.items.contains k = true
  · have hmem : k ∈ s.sounding := (h.contains_iff k).mp hk
    have hstep : s.track 16 (.press k) = s.press k := if_pos (Or.inl hmem)
    rw [if_pos hk, hstep]
    exact h.note_on_again hmem
  · have hmem : k ∉ n.notes.items := fun hin => hk (List.contains_iff_mem.mpr hin)
    rw [if_neg hk]
    by_cases hfull : n.notes.Full
    · have hroom : ¬ s.Room 16 k := by
        rintro (hin | hlt)
        · exact hmem ((h.mem_notes k).mpr hin)
        · rw [BoundedList.Full, h.length_notes] at hfull
          omega
      rw [Keyboard.track_of_full hroom, BoundedList.offer_of_full hfull]
      exact h.note_on_full hroom
    · have hroom : s.Room 16 k := by
        have hlt := hfull
        rw [BoundedList.not_full_iff, h.length_notes] at hlt
        exact Or.inr hlt
      have hstep : s.track 16 (.press k) = s.press k := if_pos hroom
      rw [hstep]
      exact h.note_on_push hmem hfull

/-- The test of `note_off`: the key is held. -/
theorem Holds.held_iff (h : Holds n s) (k : UInt8) :
    (n.notes.items.contains k && !n.pending_off.items.contains k) = true ↔ k ∈ s.held := by
  rw [Bool.and_eq_true, Bool.not_eq_true', h.contains_iff, Bool.eq_false_iff, ne_eq,
    List.contains_iff_mem, h.mem_pending, Keyboard.mem_sounding]
  constructor
  · rintro ⟨hheld | hsustained, hnot⟩
    · exact hheld
    · exact absurd hsustained hnot
  · intro hheld
    exact ⟨Or.inl hheld, Keyboard.notMem_sustained hheld⟩

/-- With the pedal down a held key becomes pending. There is room for it, because
it sounds and is not pending yet. -/
theorem Holds.note_off_pending (h : Holds n s) {k : UInt8} (hdown : s.pedal = true)
    (hk : k ∈ s.held) :
    Holds { n with pending_off := n.pending_off.offer k } (s.letGo k) := by
  have hnotfull : ¬ n.pending_off.Full := by
    have hlt := Keyboard.sustained_card_lt hk
    have hbound := n.notes.bound
    rw [h.length_notes] at hbound
    rw [BoundedList.not_full_iff, h.length_pending]
    omega
  have hnew : k ∉ n.pending_off.items := by
    rw [h.mem_pending]
    exact Keyboard.notMem_sustained hk
  refine ⟨h.notes_nodup, BoundedList.nodup_offer h.pending_nodup hnew, ?_, ?_, h.pedal⟩
  · intro j
    rw [h.mem_notes, Keyboard.mem_sounding, Keyboard.mem_sounding]
    simp only [Keyboard.letGo, hdown, if_true, Finset.mem_erase, Finset.mem_insert]
    by_cases hj : j = k
    · simp [hj, hk]
    · simp [hj]
  · intro j
    rw [BoundedList.offer_items_of_not_full hnotfull, List.mem_append, List.mem_singleton,
      h.mem_pending]
    simp only [Keyboard.letGo, hdown, if_true, Finset.mem_insert]
    exact or_comm

/-- With the pedal up only held keys sound, and one that is let go stops. -/
theorem Holds.note_off_up (h : Holds n s) (k : UInt8) (hup : s.pedal = false) :
    Holds { n with notes := n.notes.removeFirst k } (if k ∈ s.held then s.letGo k else s) := by
  have hnone := s.pedal_up hup
  -- with the pedal up a key sounds just when it is held
  have hsounding : ∀ j, j ∈ s.sounding ↔ j ∈ s.held := by
    intro j
    rw [Keyboard.mem_sounding, hnone]
    simp
  have hnotes : ∀ j, j ∈ n.notes.items.erase k ↔ j ≠ k ∧ j ∈ s.held := by
    intro j
    rw [h.notes_nodup.mem_erase_iff, h.mem_notes, hsounding]
  by_cases hk : k ∈ s.held
  · rw [if_pos hk]
    refine ⟨h.notes_nodup.erase k, h.pending_nodup, ?_, ?_, h.pedal⟩
    · intro j
      rw [BoundedList.removeFirst_items, hnotes, Keyboard.mem_sounding]
      simp [Keyboard.letGo, hup, hnone]
    · intro j
      rw [h.mem_pending]
      simp [Keyboard.letGo, hup]
  · rw [if_neg hk]
    refine ⟨h.notes_nodup.erase k, h.pending_nodup, ?_, h.mem_pending, h.pedal⟩
    intro j
    rw [BoundedList.removeFirst_items, hnotes, hsounding]
    constructor
    · exact And.right
    · intro hj
      refine ⟨?_, hj⟩
      rintro rfl
      exact hk hj

/-- A Note Off is a release. -/
theorem Holds.note_off (h : Holds n s) (k : UInt8) : Holds (n.note_off k) (s.release k) := by
  unfold NoteStack.note_off Keyboard.release
  by_cases hpedal : n.sustain_active = true
  · have hdown : s.pedal = true := by rw [← h.pedal, hpedal]
    rw [if_pos hpedal]
    by_cases hk : k ∈ s.held
    · rw [if_pos ((h.held_iff k).mpr hk), if_pos hk]
      exact h.note_off_pending hdown hk
    · rw [if_neg (fun hin => hk ((h.held_iff k).mp hin)), if_neg hk]
      exact h
  · have hup : s.pedal = false := by
      rw [← h.pedal]
      exact Bool.eq_false_iff.mpr hpedal
    rw [if_neg hpedal]
    exact h.note_off_up k hup

/-- CC64 is the pedal. -/
theorem Holds.set_sustain (h : Holds n s) (down : Bool) :
    Holds (n.set_sustain down) (s.setPedal down) := by
  cases down with
  | true => exact ⟨h.notes_nodup, h.pending_nodup, h.mem_notes, h.mem_pending, rfl⟩
  | false =>
      have hitems : (n.set_sustain false).notes.items = n.notes.items.diff n.pending_off.items :=
        BoundedList.foldl_removeFirst_items _ _
      refine ⟨?_, List.nodup_nil, ?_, ?_, rfl⟩
      · rw [hitems]
        exact h.notes_nodup.diff
      · intro j
        rw [hitems, h.notes_nodup.mem_sdiff_iff, h.mem_notes, h.mem_pending, Keyboard.mem_sounding,
          Keyboard.mem_sounding]
        simp only [Keyboard.setPedal, Bool.false_eq_true, if_false, Finset.notMem_empty, or_false]
        constructor
        · rintro ⟨hj | hj, hnot⟩
          · exact hj
          · exact absurd hj hnot
        · intro hj
          exact ⟨Or.inl hj, Keyboard.notMem_sustained hj⟩
      · intro j
        simp [NoteStack.set_sustain, Keyboard.setPedal]

/-- A cleared stack lists an empty keyboard. The latch of the soft pedal survives, and is
not part of it. -/
theorem holds_clear (n : NoteStack) : Holds n.clear Keyboard.new :=
  holds_new.congr rfl

/-- The top of the stack is there when a key sounds. -/
theorem Holds.active_note (h : Holds n s) :
    n.active_note.isSome = true ↔ s.sounding.Nonempty := by
  rw [active_note_isSome]
  constructor
  · intro hne
    obtain ⟨k, hk⟩ := List.exists_mem_of_ne_nil _ hne
    exact ⟨k, (h.mem_notes k).mp hk⟩
  · rintro ⟨k, hk⟩
    exact List.ne_nil_of_mem ((h.mem_notes k).mpr hk)

end NoteStack

namespace MidiTask

open Sysex Storage

/-! ## The events of a keyboard in the work of the task -/

def VoiceKind.keyEvent : VoiceKind → KeyEvent UInt8
  | .note_on key _ => .press key
  | .note_off key => .release key
  | .sustain value => .pedal (64 ≤ value)
  | .all_off => .clear
  | _ => .other

def Work.keyEvent : Work → KeyEvent UInt8
  | .voice status d1 d2 => (voiceKind status d1 d2).keyEvent
  | _ => .other

variable {F : Type}

/-- The stores to the live controls among some effects. -/
def controlsOf (es : List (Effect F)) : List (ControlOp F) :=
  es.filterMap fun e => match e with
    | .control op => some op
    | _ => none

/-- The live controls after some effects. -/
def controlsAfter (es : List (Effect F)) (c : MidiControl F) : MidiControl F :=
  ControlOp.applyAll (controlsOf es) c

@[simp] theorem controlsAfter_nil (c : MidiControl F) : controlsAfter [] c = c := rfl

/-- Effects one after the other. -/
theorem controlsAfter_append (es fs : List (Effect F)) (c : MidiControl F) :
    controlsAfter (es ++ fs) c = controlsAfter fs (controlsAfter es c) := by
  rw [controlsAfter, controlsOf, List.filterMap_append, ControlOp.applyAll_append]
  rfl

@[simp] theorem controlsAfter_controls (ops : List (ControlOp F)) (c : MidiControl F) :
    controlsAfter (ops.map Effect.control) c = ControlOp.applyAll ops c := by
  rw [controlsAfter, controlsOf, List.filterMap_map]
  congr 1
  exact List.filterMap_some

/-- The effect does not touch the gate. -/
def KeepsGate : Effect F → Prop
  | .control (.gate _) => False
  | _ => True

/-- Effects that do not touch the gate leave it. -/
theorem controlsAfter_gate {es : List (Effect F)} (h : ∀ e ∈ es, KeepsGate e) (c : MidiControl F) :
    (controlsAfter es c).gate = c.gate := by
  induction es generalizing c with
  | nil => rfl
  | cons e es ih =>
      have hes : ∀ e ∈ es, KeepsGate e := fun x hx => h x (List.mem_cons_of_mem e hx)
      have he : KeepsGate e := h e List.mem_cons_self
      rw [← List.singleton_append, controlsAfter_append, ih hes]
      cases e with
      | control op =>
          cases op with
          | store a v => rfl
          | gate b => exact he.elim
          | gate_reset b => rfl
      | preset_send p => rfl
      | led on => rfl
      | write_packet p => rfl
      | flash op => rfl
      | handle_sysex call => rfl

/-- The gate after some effects depends on no other control. -/
theorem controlsAfter_gate_congr {c c' : MidiControl F} (h : c.gate = c'.gate)
    (es : List (Effect F)) : (controlsAfter es c).gate = (controlsAfter es c').gate := by
  have hops : ∀ (ops : List (ControlOp F)) (c c' : MidiControl F), c.gate = c'.gate →
      (ControlOp.applyAll ops c).gate = (ControlOp.applyAll ops c').gate := by
    intro ops
    induction ops with
    | nil => exact fun _ _ h => h
    | cons op ops ih =>
        intro c c' h
        apply ih
        cases op with
        | store a v => exact h
        | gate b => rfl
        | gate_reset b => exact h
  exact hops _ c c' h

/-! ## Work that is no event of the keyboard -/

section Stays

variable [F32 F] {v : BoundedList UInt8 16 × BoundedList UInt8 16 × Bool}

/-- The program leaves the keys and the gate alone. -/
def StaysKeys (v : BoundedList UInt8 16 × BoundedList UInt8 16 × Bool) {α : Type}
    (m : Proc (MidiTask F) (Effect F) α) : Prop :=
  Proc.Stays (fun t : MidiTask F => t.notes.keys) v KeepsGate m

omit [F32 F] in
/-- A function of `Storage` knows neither keys nor controls. -/
theorem storage_stays_keys {α : Type} (m : Proc Flash FlashOp α) :
    StaysKeys (F := F) v (storage m) :=
  Proc.Stays.zoom (fun _ _ => rfl) fun _ => trivial

/-- A preset that is loaded stores controls, and the gate is not among them. -/
theorem load_stays_keys (i : ℕ) : StaysKeys (F := F) v (load_and_apply_preset i) := by
  apply Proc.Stays.bind (storage_stays_keys _)
  intro r
  cases r with
  | none => exact Proc.Stays.pure ()
  | some record =>
      refine Proc.Stays.bind (Proc.Stays.emits ?_) fun _ => ?_
      · intro e he
        obtain ⟨op, hop, rfl⟩ := List.mem_map.mp he
        obtain ⟨av, -, rfl⟩ := List.mem_map.mp hop
        trivial
      · exact Proc.Stays.bind (Proc.Stays.modify fun t => rfl) fun _ => Proc.Stays.emit trivial

/-- The soft pedal changes the latch, and may load a preset. -/
theorem soft_pedal_stays_keys (value : UInt8) :
    StaysKeys (F := F) v (voice_soft_pedal value) := by
  intro t ht
  cases hpedal : (t.notes.soft_pedal (64 ≤ value)).1 with
  | false => exact Proc.ends_of_run (soft_pedal_idle hpedal) (by simp) ht
  | true =>
      by_cases hn : 0 < presetCount t.flash
      · have hload := load_stays_keys (F := F) (nextIndex t) (tapped value t) ht
        rw [soft_pedal_next hpedal hn]
        exact ⟨List.forall_mem_cons.mpr ⟨trivial, hload.1⟩, hload.2⟩
      · have hempty := soft_pedal_empty hpedal (Nat.eq_zero_of_not_pos hn)
        exact Proc.ends_of_run hempty (List.forall_mem_cons.mpr ⟨trivial, by simp⟩) ht

/-- No controller of a preset is the gate. -/
theorem parameter_stays_keys (cc value : UInt8) :
    StaysKeys (F := F) v (voice_parameter cc value) := by
  apply Proc.Stays.bind Proc.Stays.get
  intro t
  cases CcMap.apply_cc cc value t.working_preset with
  | continuous p a x =>
      refine Proc.Stays.bind (Proc.Stays.modify fun t => rfl) fun _ => ?_
      exact Proc.Stays.emits (List.forall_mem_cons.mpr ⟨trivial, by simp⟩)
  | structural p =>
      refine Proc.Stays.bind (Proc.Stays.modify fun t => rfl) fun _ => ?_
      exact Proc.Stays.emit trivial
  | unmapped => exact Proc.Stays.pure ()

/-- So do all arms of `handle_voice_message` that are no event of the keyboard. -/
theorem voice_stays_keys {k : VoiceKind} (hk : k.keyEvent = .other) :
    StaysKeys (F := F) v (handleKind k) := by
  cases k with
  | note_on key velocity => cases hk
  | note_off key => cases hk
  | sustain value => cases hk
  | all_off => cases hk
  | mod_wheel value => exact Proc.Stays.emits (List.forall_mem_cons.mpr ⟨trivial, by simp⟩)
  | pitch_bend d1 d2 => exact Proc.Stays.emits (List.forall_mem_cons.mpr ⟨trivial, by simp⟩)
  | soft_pedal value => exact soft_pedal_stays_keys value
  | parameter cc value => exact parameter_stays_keys cc value
  | program index =>
      exact Proc.Stays.bind (Proc.Stays.modify fun t => rfl) fun _ => load_stays_keys _
  | ignored => exact Proc.Stays.pure ()

omit [F32 F] in
/-- A reply to the host does not touch the gate. -/
theorem keepsGate_packets (ps : List Packet) :
    ∀ e ∈ ps.map (Effect.write_packet (F := F)), KeepsGate e := by
  intro e he
  obtain ⟨p, -, rfl⟩ := List.mem_map.mp he
  trivial

omit [F32 F] in
/-- Neither does a flash access. -/
theorem keepsGate_flash (ops : List FlashOp) :
    ∀ e ∈ ops.map (Effect.flash (F := F)), KeepsGate e := by
  intro e he
  obtain ⟨op, -, rfl⟩ := List.mem_map.mp he
  trivial

/-- A bank that is written has the current preset loaded again. -/
theorem write_req_stays_keys (n : ℕ) (ov : Bool) :
    StaysKeys (F := F) v (handle_write_req n ov) := by
  intro t ht
  by_cases hlen : ov = true ∨ n ≠ STORAGE_IMAGE_SIZE
  · exact Proc.ends_of_run (write_req_bad_length hlen t) (keepsGate_packets _) ht
  · rw [not_or, Bool.not_eq_true, ne_eq, not_not] at hlen
    obtain ⟨rfl, rfl⟩ := hlen
    by_cases hvalid : (StorageHeader.from_bytes t.rx.image.toList).Valid
    · have hload := load_stays_keys (F := F) t.current_preset_index
        { t with flash := written t.flash t.rx.image.toList } ht
      rw [write_req_accepted hvalid]
      refine ⟨?_, hload.2⟩
      intro e he
      rw [List.mem_append, List.mem_append] at he
      rcases he with he | he | he
      · exact keepsGate_flash _ e he
      · exact keepsGate_packets _ e he
      · exact hload.1 e he
    · exact Proc.ends_of_run (write_req_bad_magic hvalid) (keepsGate_packets _) ht

/-- SysEx of any kind. -/
theorem sysex_stays_keys (call : SysexCall) : StaysKeys (F := F) v (handle_sysex call) := by
  intro t ht
  by_cases hdump : call.cmd = CMD_DUMP_REQ
  · have hrun := handle_sysex_dump hdump t
    rw [dump_req_run] at hrun
    refine Proc.ends_of_run hrun ?_ ht
    exact List.forall_mem_cons.mpr
      ⟨trivial, List.forall_mem_cons.mpr ⟨trivial, keepsGate_packets _⟩⟩
  by_cases hwrite : call.cmd = CMD_WRITE_REQ
  · have hreq := write_req_stays_keys (F := F) call.raw_len call.overflow t ht
    rw [handle_sysex_write hwrite]
    exact ⟨List.forall_mem_cons.mpr ⟨trivial, hreq.1⟩, hreq.2⟩
  · have hrun := handle_sysex_other hdump hwrite t
    exact Proc.ends_of_run hrun (List.forall_mem_cons.mpr ⟨trivial, by simp⟩) ht

/-- **Work that is no event of the keyboard leaves the keys and the gate alone.** -/
theorem work_stays_keys {w : Work} (hw : w.keyEvent = .other) :
    StaysKeys (F := F) v (handle_work w) := by
  cases w with
  | voice status d1 d2 =>
      rw [handle_work, handle_voice_message_eq]
      exact voice_stays_keys hw
  | sysex_byte b =>
      intro t ht
      cases hcall : (t.rx.receive b).2 with
      | none =>
          exact Proc.ends_of_run (m := handle_sysex_byte b) (sysex_byte_quiet hcall) (by simp) ht
      | some call =>
          rw [handle_work, sysex_byte_call hcall]
          exact sysex_stays_keys call _ ht
  | reset_storage => exact storage_stays_keys _

end Stays

/-! ## The gate follows the tracked keys -/

section Gate

variable [F32 F]

/-- Work that is an event of the keyboard. -/
theorem key_work {w : Work} (hw : w.keyEvent ≠ .other) :
    ∃ k : VoiceKind, handle_work (F := F) w = handleKind k ∧ w.keyEvent = k.keyEvent
      ∧ ((∃ key velocity, k = .note_on key velocity) ∨ (∃ key, k = .note_off key)
        ∨ (∃ value, k = .sustain value) ∨ k = .all_off) := by
  cases w with
  | sysex_byte b => exact absurd rfl hw
  | reset_storage => exact absurd rfl hw
  | voice status d1 d2 =>
      refine ⟨voiceKind status d1 d2, ?_, rfl, ?_⟩
      · rw [handle_work, handle_voice_message_eq]
      · rw [Work.keyEvent] at hw
        cases hkind : voiceKind status d1 d2 with
        | note_on key velocity => exact Or.inl ⟨key, velocity, rfl⟩
        | note_off key => exact Or.inr (Or.inl ⟨key, rfl⟩)
        | sustain value => exact Or.inr (Or.inr (Or.inl ⟨value, rfl⟩))
        | all_off => exact Or.inr (Or.inr (Or.inr rfl))
        | mod_wheel value => exact absurd (by rw [hkind]; rfl) hw
        | soft_pedal value => exact absurd (by rw [hkind]; rfl) hw
        | parameter cc value => exact absurd (by rw [hkind]; rfl) hw
        | program index => exact absurd (by rw [hkind]; rfl) hw
        | pitch_bend d1 d2 => exact absurd (by rw [hkind]; rfl) hw
        | ignored => exact absurd (by rw [hkind]; rfl) hw

/-- The stack lists the keys of `s`, and the gate is open when one sounds. -/
structure InStep (t : MidiTask F) (c : MidiControl F) (s : Keyboard UInt8) : Prop where
  holds : t.notes.Holds s
  gate : c.gate = true ↔ s.sounding.Nonempty

/-- `follow_stack` opens the gate when the stack is not empty. -/
theorem followEffects_gate (n : NoteStack) (c : MidiControl F) :
    (controlsAfter (followEffects n) c).gate = n.active_note.isSome := by
  unfold followEffects
  cases n.active_note with
  | some k =>
      show (controlsAfter (List.map Effect.control _) c).gate = true
      rw [controlsAfter_controls, ControlOp.applyAll_cons, ControlOp.applyAll_set_gate]
  | none =>
      rw [controlsAfter_append, controlsAfter_controls]
      exact ControlOp.applyAll_set_gate false c

/-- After `follow_stack` the gate is as the keys have it. -/
theorem InStep.of_follow {t : MidiTask F} {s : Keyboard UInt8} (h : t.notes.Holds s)
    (c : MidiControl F) : InStep t (controlsAfter (followEffects t.notes) c) s := by
  refine ⟨h, ?_⟩
  rw [followEffects_gate]
  exact h.active_note

/-- A Note On keeps the gate in step, whether or not the key finds a place: with all 16
taken the gate was open before. -/
theorem note_on_in_step {t t' : MidiTask F} {c : MidiControl F} {s : Keyboard UInt8}
    {es : List (Effect F)} {key velocity : UInt8} (h : InStep t c s)
    (hrun : voice_note_on key velocity t = (es, some ((), t'))) :
    InStep t' (controlsAfter es c) (s.track 16 (.press key)) := by
  obtain ⟨v, freq, heq⟩ := note_on_run key velocity t
  rw [heq] at hrun
  cases hrun
  have hholds := h.holds.note_on key
  refine ⟨hholds, ?_⟩
  -- the gate opens, and something sounds: the key itself, or the 16 others
  have hsounds : (s.track 16 (.press key)).sounding.Nonempty := by
    by_cases hroom : s.Room 16 key
    · refine ⟨key, ?_⟩
      rw [Keyboard.track, if_pos hroom, Keyboard.mem_sounding_press]
      exact Or.inl rfl
    · rw [Keyboard.track_of_full hroom, ← Finset.card_pos]
      rw [Keyboard.Room, not_or] at hroom
      omega
  exact iff_of_true rfl hsounds

/-- CC64 keeps the gate in step. Above 63 nothing is stored: pressing the pedal
silences no key. -/
theorem sustain_in_step {t t' : MidiTask F} {c : MidiControl F} {s : Keyboard UInt8}
    {es : List (Effect F)} {value : UInt8} (h : InStep t c s)
    (hrun : voice_sustain value t = (es, some ((), t'))) :
    InStep t' (controlsAfter es c) (s.setPedal (64 ≤ value)) := by
  rw [sustain_run] at hrun
  have hholds := h.holds.set_sustain (64 ≤ value)
  by_cases hdown : 64 ≤ value
  · -- a pedal that goes down leaves everything sounding
    rw [if_pos hdown] at hrun
    cases hrun
    refine ⟨hholds, ?_⟩
    have hsame : (s.setPedal (decide (64 ≤ value))).sounding = s.sounding := by
      simp [Keyboard.sounding, Keyboard.setPedal, hdown]
    rw [controlsAfter_nil, hsame]
    exact h.gate
  · rw [if_neg hdown] at hrun
    cases hrun
    rw [decide_eq_false hdown] at hholds ⊢
    exact InStep.of_follow (t := { t with notes := t.notes.set_sustain false }) hholds c

/-- **One piece of work keeps the stack, the gate and the tracked keys in step.** -/
theorem work_in_step {w : Work} {t t' : MidiTask F} {c : MidiControl F} {s : Keyboard UInt8}
    {es : List (Effect F)} (h : InStep t c s)
    (hrun : handle_work w t = (es, some ((), t'))) :
    InStep t' (controlsAfter es c) (s.track 16 w.keyEvent) := by
  by_cases hother : w.keyEvent = .other
  · obtain ⟨hev, hpost⟩ := work_stays_keys (F := F) hother t rfl
    rw [hrun] at hev hpost
    rw [hother]
    refine ⟨h.holds.congr (hpost () t' rfl), ?_⟩
    rw [controlsAfter_gate hev]
    exact h.gate
  · obtain ⟨k, hwork, hevent, hk⟩ := key_work (F := F) hother
    rw [hwork] at hrun
    rw [hevent]
    rcases hk with ⟨key, velocity, rfl⟩ | ⟨key, rfl⟩ | ⟨value, rfl⟩ | rfl
    · exact note_on_in_step h hrun
    · rw [handleKind, note_off_run] at hrun
      cases hrun
      exact InStep.of_follow (t := { t with notes := t.notes.note_off key })
        (h.holds.note_off key) c
    · exact sustain_in_step h hrun
    · rw [handleKind, all_off_run] at hrun
      cases hrun
      refine ⟨NoteStack.holds_clear _, ?_⟩
      rw [controlsAfter_append, controlsAfter_controls]
      exact iff_of_false Bool.false_ne_true Finset.not_nonempty_empty

/-- An event of the keyboard does not halt the task. -/
theorem key_work_ends {w : Work} (hw : w.keyEvent ≠ .other) (t : MidiTask F) :
    ∃ es t', handle_work w t = (es, some ((), t')) := by
  obtain ⟨k, hwork, -, hk⟩ := key_work (F := F) hw
  rw [hwork]
  rcases hk with ⟨key, velocity, rfl⟩ | ⟨key, rfl⟩ | ⟨value, rfl⟩ | rfl
  · obtain ⟨v, freq, hrun⟩ := note_on_run (F := F) key velocity t
    exact ⟨_, _, hrun⟩
  · exact ⟨_, _, note_off_run key t⟩
  · exact ⟨_, _, sustain_run value t⟩
  · exact ⟨_, _, all_off_run t⟩

/-- The same whether or not the work halts the task. -/
theorem work_in_step_final {w : Work} {t : MidiTask F} {c : MidiControl F} {s : Keyboard UInt8}
    (h : InStep t c s) :
    InStep ((Proc.final (handle_work w) t).getD t) (controlsAfter (handle_work w t).1 c)
      (s.track 16 w.keyEvent) := by
  rcases hrun : handle_work w t with ⟨es, _ | ⟨⟨⟩, t'⟩⟩
  · -- no event of the keyboard halts it
    have hother : w.keyEvent = .other := by
      by_contra hne
      obtain ⟨es', t', hends⟩ := key_work_ends hne t
      rw [hrun] at hends
      cases hends
    obtain ⟨hev, -⟩ := work_stays_keys (F := F) hother t rfl
    rw [hrun] at hev
    rw [Proc.final, hrun, hother]
    refine ⟨h.holds, ?_⟩
    rw [controlsAfter_gate hev]
    exact h.gate
  · rw [Proc.final, hrun]
    exact work_in_step h hrun

/-- **The run lemma.** -/
theorem run_in_step {ws : List Work} {t t' : MidiTask F} {c : MidiControl F}
    {s : Keyboard UInt8} {es : List (Effect F)} (h : InStep t c s)
    (hrun : Proc.each handle_work ws t = (es, some ((), t'))) :
    InStep t' (controlsAfter es c) ((ws.map Work.keyEvent).foldl (Keyboard.track 16) s) := by
  induction ws generalizing t c s es with
  | nil =>
      cases hrun
      exact h
  | cons w ws ih =>
      obtain ⟨es₁, t₁, es₂, hw, hrest, rfl⟩ := Proc.each_cons_eq_some hrun
      rw [controlsAfter_append]
      exact ih (work_in_step h hw) hrest

/-- The task enters its loop with no key down and the gate shut. -/
theorem entered_in_step (f : Flash) :
    InStep (entered F f) MidiControl.new Keyboard.new :=
  ⟨NoteStack.holds_new, iff_of_false Bool.false_ne_true Finset.not_nonempty_empty⟩

/-- After any work, the gate is open exactly while a tracked key sounds. -/
theorem gate_iff_tracked {f : Flash} {ws : List Work} {t' : MidiTask F} {es : List (Effect F)}
    (hrun : Proc.each handle_work ws (entered F f) = (es, some ((), t'))) :
    (controlsAfter es MidiControl.new).gate = true
      ↔ (Keyboard.tracked 16 (ws.map Work.keyEvent)).sounding.Nonempty :=
  (run_in_step (entered_in_step f) hrun).gate

/-- **The gate is open exactly while a tracked key is held or sustained.** Every
tracked key is held or sustained by the history of messages, and from silence on
the two agree as long as every key struck finds one of 16 places. -/
theorem gate_follows_keys {f : Flash} {ws : List Work} {t' : MidiTask F} {es : List (Effect F)}
    (hrun : Proc.each handle_work ws (entered F (bootFlash f)) = (es, some ((), t'))) :
    ((controlsAfter es MidiControl.new).gate = true
        ↔ ∃ k, k ∈ (Keyboard.tracked 16 (ws.map Work.keyEvent)).sounding)
    ∧ (∀ k ∈ (Keyboard.tracked 16 (ws.map Work.keyEvent)).sounding,
        HeldBy (ws.map Work.keyEvent) k ∨ SustainedBy (ws.map Work.keyEvent) k)
    ∧ ∀ past late, ws.map Work.keyEvent = past ++ late →
        (¬ ∃ k, HeldBy past k ∨ SustainedBy past k) → Keyboard.RoomThroughout 16 past late →
        ((controlsAfter es MidiControl.new).gate = true
          ↔ ∃ k, HeldBy (ws.map Work.keyEvent) k ∨ SustainedBy (ws.map Work.keyEvent) k) := by
  have hgate := gate_iff_tracked hrun
  refine ⟨hgate, ?_, ?_⟩
  · intro k hk
    exact Keyboard.mem_sounding_iff.mp (Keyboard.tracked_subset 16 _ hk)
  · intro past late heq hsilent hroom
    have hempty : (Keyboard.after past).sounding = ∅ := by
      rw [Finset.eq_empty_iff_forall_notMem]
      intro k hk
      exact hsilent ⟨k, Keyboard.mem_sounding_iff.mp hk⟩
    rw [hgate, heq, Keyboard.tracked_eq_of_room hempty hroom]
    constructor
    · rintro ⟨k, hk⟩
      exact ⟨k, Keyboard.mem_sounding_iff.mp hk⟩
    · rintro ⟨k, hk⟩
      exact ⟨k, Keyboard.mem_sounding_iff.mpr hk⟩

/-- Note messages never halt the task. -/
theorem notes_end (f : Flash) {ws : List Work}
    (h : ∀ w ∈ ws, (∃ key, w = .voice NOTE_ON key 100) ∨ ∃ key, w = .voice NOTE_OFF key 0) :
    ∃ es t', Proc.each handle_work ws (entered F (bootFlash f)) = (es, some ((), t')) := by
  rw [run_ends_iff (entered_sound f)]
  intro pre w post heq es t _ hpast
  have hmem : w ∈ ws := by
    rw [heq]
    exact List.mem_append_right _ List.mem_cons_self
  -- neither kind of message selects a preset
  rcases h w hmem with ⟨key, rfl⟩ | ⟨key, rfl⟩
  · obtain ⟨i, hsel, -⟩ := hpast
    have hkind : voiceKind NOTE_ON key 100 = .note_on key 100 := rfl
    rw [hkind] at hsel
    cases hsel
  · obtain ⟨i, hsel, -⟩ := hpast
    have hkind : voiceKind NOTE_OFF key 0 = .note_off key := rfl
    rw [hkind] at hsel
    cases hsel

end Gate

/-- The strikes of the keys from 60 on. -/
def strikes (n : ℕ) : List Work :=
  (List.range n).map fun i => .voice NOTE_ON (UInt8.ofNat (60 + i)) 100

/-- Their releases. -/
def releases (n : ℕ) : List Work :=
  (List.range n).map fun i => .voice NOTE_OFF (UInt8.ofNat (60 + i)) 0

/-- All of them are note messages. -/
theorem strikes_releases_notes (n m : ℕ) :
    ∀ w ∈ strikes n ++ releases m,
      (∃ key, w = .voice NOTE_ON key 100) ∨ ∃ key, w = .voice NOTE_OFF key 0 := by
  intro w hw
  rcases List.mem_append.mp hw with h | h
  · obtain ⟨i, -, rfl⟩ := List.mem_map.mp h
    exact Or.inl ⟨_, rfl⟩
  · obtain ⟨i, -, rfl⟩ := List.mem_map.mp h
    exact Or.inr ⟨_, rfl⟩

/-- Sixteen keys struck and fifteen released leave the gate open. -/
theorem gate_follows_keys_sixteen :
    ∃ es t', Proc.each handle_work (strikes 16 ++ releases 15)
        (entered ℝ (bootFlash fun _ => 0)) = (es, some ((), t'))
      ∧ (controlsAfter es MidiControl.new).gate = true := by
  obtain ⟨es, t', hrun⟩ := notes_end (F := ℝ) (fun _ => 0) (strikes_releases_notes 16 15)
  have hsounds : (Keyboard.tracked 16
      ((strikes 16 ++ releases 15).map Work.keyEvent)).sounding.Nonempty := by decide +kernel
  have hgate := (gate_follows_keys hrun).1
  exact ⟨es, t', hrun, hgate.mpr hsounds⟩

/-- Seventeen keys struck and the first sixteen released: the last one is still
held, and the gate is closed. -/
theorem gate_misses_seventeenth :
    ¬ ∀ (f : Flash) (ws : List Work) es t', AllVoice ws →
      Proc.each handle_work ws (entered ℝ (bootFlash f)) = (es, some ((), t')) →
        ((controlsAfter es MidiControl.new).gate = true
          ↔ ∃ k, HeldBy (ws.map Work.keyEvent) k ∨ SustainedBy (ws.map Work.keyEvent) k) := by
  intro hclaim
  have hnotes := strikes_releases_notes 17 16
  obtain ⟨es, t', hrun⟩ := notes_end (F := ℝ) (fun _ => 0) hnotes
  have hvoice : AllVoice (strikes 17 ++ releases 16) := by
    intro w hw
    rcases hnotes w hw with ⟨key, rfl⟩ | ⟨key, rfl⟩
    · exact ⟨_, _, _, rfl⟩
    · exact ⟨_, _, _, rfl⟩
  have hsounds : 76 ∈ (Keyboard.after
      ((strikes 17 ++ releases 16).map Work.keyEvent)).sounding := by decide +kernel
  have hmissed : (Keyboard.tracked 16
      ((strikes 17 ++ releases 16).map Work.keyEvent)).sounding = ∅ := by decide +kernel
  have hopen := (hclaim _ _ es t' hvoice hrun).mpr ⟨76, Keyboard.mem_sounding_iff.mp hsounds⟩
  rw [gate_iff_tracked hrun, hmissed] at hopen
  exact Finset.not_nonempty_empty hopen

end MidiTask

end PicoDsp
