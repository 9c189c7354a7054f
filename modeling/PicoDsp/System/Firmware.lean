/-
The tasks of the firmware over their shared statics.

`midi_task` is suspended between any two accesses to what others see, so the
effects of the message it is handling wait in `todo` and are made one by one;
its variables are its own and change at once. `core1_task` moves on its own, and
of `bluetooth_task` the model has what reaches `BLE_MIDI_CHANNEL`: notifications
while the link is up, and the All Notes Off after a paired session. The audio and
log channels are left out.

To let the variables of `midi_task` change at the beginning of a message and its effects
come later is an order that nobody can tell from the true one, as no one else reads them
and no effect depends on what another task does in between, apart from the waits. A
message that panics halfway leaves the effects that it had made, and the task halted behind
them. The waits are effects that are enabled only when their condition holds; which of
them is skipped because core1 is not up is decided when the access before it is made
(`rest`).

The labels say who moves and on what input: a read over USB, a notification, the link
coming up or going, a command, a message of `midi_task` that is begun, an access of it, an
access of core1. Nothing is assumed about the order, so a theorem about every run is
about every schedule of the two cores. The other modules of this folder state their
results over this system, or over one that is shown to be a part of it.

What a step can do is given once for each label (`handle_cases`, `access_cases`, and
`outer_arrives` for the inputs and the link), and these are what later proofs take apart.
-/
import PicoDsp.Bt.BleMidi
import PicoDsp.Lib.Transition
import PicoDsp.System.Core1

set_option autoImplicit false

namespace PicoDsp

open Lib MidiTask

/-- The BLE link as `central_loop` sees it. -/
inductive Link
  /-- No session yet. -/
  | idle
  /-- Paired, and in `run_gatt`. -/
  | up
  /-- A paired session is over. -/
  | dropped
  deriving DecidableEq

structure Firmware (F : Type) where
  midi : MidiTask F
  /-- The effects of the current message that are still to come. -/
  todo : List (Effect F)
  /-- The messages of the current input that are still to come. -/
  backlog : List Work
  /-- `midi_task` panicked. -/
  halted : Bool
  link : Link
  shared : Shared F
  core1 : Core1 F

/-- Who moves. -/
inductive Label
  /-- `read_packet` of `midi_task` returns. -/
  | usb_read (data : List UInt8)
  /-- `COMMAND_CHANNEL` delivers. -/
  | command
  /-- `BLE_MIDI_CHANNEL` delivers. -/
  | ble_receive
  /-- `midi_task` begins the next message. -/
  | handle
  /-- `midi_task` makes its next access to shared state. -/
  | access
  | core1
  /-- A notification arrives. -/
  | notify (packet : List UInt8)
  /-- A link is encrypted. -/
  | paired
  /-- `run_gatt` returns. -/
  | link_lost

namespace Firmware

variable {F : Type}

/-- `midi_task` is in its `select3`. -/
def Idle (s : Firmware F) : Prop := s.todo = [] ∧ s.backlog = [] ∧ s.halted = false

instance (s : Firmware F) : Decidable s.Idle :=
  inferInstanceAs (Decidable (s.todo = [] ∧ s.backlog = [] ∧ s.halted = false))

/-- The effects to come after the first one. Without core1 there is no wait for
its acknowledgement. -/
def rest (running : Bool) : List (Effect F) → List (Effect F)
  | .flash .gate_running :: .flash .gate_ack :: es =>
      if running then .flash .gate_ack :: es else es
  | es => es.tail

/-- `try_send` of every message in turn, results ignored. -/
def forward (ms : List BleMidi.Message) (ch : BoundedList BleMidi.Message 16) :
    BoundedList BleMidi.Message 16 :=
  ms.foldl BoundedList.offer ch

/-- The message pushed after a session. -/
def ALL_NOTES_OFF : BleMidi.Message := (0xB0, 123, 0)

variable [F32 F]

def step (s : Firmware F) : Label → Option (Firmware F)
  | .usb_read data =>
      if s.Idle then some { s with backlog := (Input.usb_read data).works } else none
  | .command => if s.Idle then some { s with backlog := Input.command.works } else none
  | .ble_receive =>
      if s.Idle then
        s.shared.ble_channel.try_receive.map fun r =>
          { s with
            backlog := (Input.ble r.1.1 r.1.2.1 r.1.2.2).works
            shared := { s.shared with ble_channel := r.2 } }
      else none
  | .handle =>
      match s.todo, s.backlog, s.halted with
      | [], w :: ws, false =>
          some { s with
            midi := (Proc.final (handle_work w) s.midi).getD s.midi
            todo := (handle_work w s.midi).1
            backlog := ws
            halted := (handle_work w s.midi).2.isNone }
      | _, _, _ => none
  | .access =>
      match s.todo with
      | [] => none
      | e :: es =>
          (s.shared.exec e).map fun sh =>
            { s with shared := sh, todo := rest s.shared.core1_running (e :: es) }
  | .core1 =>
      some { s with
        shared := (Core1.step s.shared s.core1).1
        core1 := (Core1.step s.shared s.core1).2 }
  | .notify packet =>
      if s.link = .up then
        some { s with
          shared := { s.shared with
            ble_channel := forward (BleMidi.parse_ble_midi packet) s.shared.ble_channel } }
      else none
  | .paired => if s.link = .up then none else some { s with link := .up }
  | .link_lost =>
      if s.link = .up then
        some { s with
          link := .dropped
          shared := { s.shared with
            ble_channel := s.shared.ble_channel.offer ALL_NOTES_OFF } }
      else none

/-- The device with the preset `p` at boot: `midi_task` enters its loop while
core1 begins to build its first voice. -/
structure Boot (p : Preset F) (s : Firmware F) : Prop where
  working : s.midi.working_preset = p
  notes : s.midi.notes = NoteStack.new
  todo : s.todo = []
  backlog : s.backlog = []
  halted : s.halted = false
  link : s.link = .idle
  core1 : s.core1 = Core1.start p
  gate : s.shared.control.gate = false
  preset_channel : s.shared.preset_channel.items = []
  ble_channel : s.shared.ble_channel.items = []
  gate_req : s.shared.gate_req = false
  gate_ack : s.shared.gate_ack = false
  core1_running : s.shared.core1_running = false

/-- A device at boot, with an empty flash. -/
def atBoot (p : Preset F) : Firmware F where
  midi := ⟨fun _ => 0xFF, NoteStack.new, 4, p, Sysex.SysexRx.new⟩
  todo := []
  backlog := []
  halted := false
  link := .idle
  shared := ⟨MidiControl.new, .new, .new, false, false, false⟩
  core1 := Core1.start p

/-- It is one of the devices that the results are about. -/
theorem atBoot_boot (p : Preset F) : Boot p (atBoot p) :=
  ⟨rfl, rfl, rfl, rfl, rfl, rfl, rfl, rfl, rfl, rfl, rfl, rfl, rfl⟩

/-! ## What a step can do -/

omit [F32 F] in
/-- The rest of the effects, without the first and perhaps a wait. -/
theorem rest_cases (running : Bool) (e : Effect F) (es : List (Effect F)) :
    rest running (e :: es) = es ∨ es = .flash .gate_ack :: rest running (e :: es) := by
  unfold rest
  split
  · rename_i heq
    obtain ⟨-, rfl⟩ := List.cons.inj heq
    cases running with
    | true => exact Or.inl rfl
    | false => exact Or.inr rfl
  · exact Or.inl rfl

/-- What the beginning of a message is: the task is idle, takes the first piece of work that
waits, and has its effects to make. -/
theorem handle_cases {s s' : Firmware F} (h : s.step .handle = some s') :
    ∃ w ws, s.todo = [] ∧ s.backlog = w :: ws ∧ s.halted = false
      ∧ s' = { s with
          midi := (Proc.final (handle_work w) s.midi).getD s.midi
          todo := (handle_work w s.midi).1
          backlog := ws
          halted := (handle_work w s.midi).2.isNone } := by
  rw [step] at h
  split at h
  · rename_i w ws htodo hbacklog hhalted
    rw [Option.some.injEq] at h
    exact ⟨w, ws, htodo, hbacklog, hhalted, h.symm⟩
  · cases h

/-- What an access is: the first of the effects to come is made. -/
theorem access_cases {s s' : Firmware F} (h : s.step .access = some s') :
    ∃ e es sh, s.todo = e :: es ∧ s.shared.exec e = some sh
      ∧ s' = { s with shared := sh, todo := rest s.shared.core1_running (e :: es) } := by
  rw [step] at h
  split at h
  · cases h
  · rename_i e es htodo
    obtain ⟨sh, hexec, rfl⟩ := Option.map_eq_some_iff.mp h
    exact ⟨e, es, sh, htodo, hexec, rfl⟩

/-- The labels of the inputs and of the link. -/
def Outer : Label → Prop
  | .handle | .access | .core1 => False
  | _ => True

/-- Every label is an input or an event of the link, or one of three. -/
theorem outer_or_inner (l : Label) : Outer l ∨ l = .handle ∨ l = .access ∨ l = .core1 := by
  cases l with
  | handle => exact Or.inr (Or.inl rfl)
  | access => exact Or.inr (Or.inr (Or.inl rfl))
  | core1 => exact Or.inr (Or.inr (Or.inr rfl))
  | usb_read data => exact Or.inl trivial
  | command => exact Or.inl trivial
  | ble_receive => exact Or.inl trivial
  | notify packet => exact Or.inl trivial
  | paired => exact Or.inl trivial
  | link_lost => exact Or.inl trivial

/-- The inputs and the events of the link, with what each of them waits for. -/
inductive Arrives (s : Firmware F) : Label → Firmware F → Prop
  | usb_read {data : List UInt8} (hidle : s.Idle) :
      Arrives s (.usb_read data) { s with backlog := (Input.usb_read data).works }
  | command (hidle : s.Idle) : Arrives s .command { s with backlog := Input.command.works }
  | ble_receive {m : BleMidi.Message} {ch : BoundedList BleMidi.Message 16} (hidle : s.Idle)
      (htake : s.shared.ble_channel.try_receive = some (m, ch)) :
      Arrives s .ble_receive
        { s with
          backlog := (Input.ble m.1 m.2.1 m.2.2).works
          shared := { s.shared with ble_channel := ch } }
  | notify {packet : List UInt8} (hup : s.link = .up) :
      Arrives s (.notify packet)
        { s with shared := { s.shared with
          ble_channel := forward (BleMidi.parse_ble_midi packet) s.shared.ble_channel } }
  | paired (hdown : s.link ≠ .up) : Arrives s .paired { s with link := .up }
  | link_lost (hup : s.link = .up) :
      Arrives s .link_lost
        { s with
          link := .dropped
          shared := { s.shared with ble_channel := s.shared.ble_channel.offer ALL_NOTES_OFF } }

/-- A step with such a label is one of them. -/
theorem outer_arrives {s s' : Firmware F} {l : Label} (hl : Outer l) (h : s.step l = some s') :
    Arrives s l s' := by
  cases l with
  | usb_read data =>
      obtain ⟨hidle, hnext⟩ := Option.ite_none_right_eq_some.mp h
      cases hnext
      exact .usb_read hidle
  | command =>
      obtain ⟨hidle, hnext⟩ := Option.ite_none_right_eq_some.mp h
      cases hnext
      exact .command hidle
  -- the message leaves the channel and becomes the backlog
  | ble_receive =>
      obtain ⟨hidle, hnext⟩ := Option.ite_none_right_eq_some.mp h
      obtain ⟨r, htake, rfl⟩ := Option.map_eq_some_iff.mp hnext
      exact .ble_receive hidle htake
  | notify packet =>
      obtain ⟨hup, hnext⟩ := Option.ite_none_right_eq_some.mp h
      cases hnext
      exact .notify hup
  | paired =>
      obtain ⟨hdown, hnext⟩ := Option.ite_none_left_eq_some.mp h
      cases hnext
      exact .paired hdown
  | link_lost =>
      obtain ⟨hup, hnext⟩ := Option.ite_none_right_eq_some.mp h
      cases hnext
      exact .link_lost hup
  | handle => exact hl.elim
  | access => exact hl.elim
  | core1 => exact hl.elim

/-- What presets and live controls are made of. -/
structure SameSound (s s' : Firmware F) : Prop where
  midi : s'.midi = s.midi
  todo : s'.todo = s.todo
  core1 : s'.core1 = s.core1
  preset_channel : s'.shared.preset_channel = s.shared.preset_channel
  control : s'.shared.control = s.shared.control

/-- Inputs and events of the link do not touch the sound. -/
theorem outer_same {s s' : Firmware F} {l : Label} (hl : Outer l) (h : s.step l = some s') :
    SameSound s s' := by
  cases outer_arrives hl h with
  | _ => exact ⟨rfl, rfl, rfl, rfl, rfl⟩

/-- The other tasks leave core1 where it is. -/
theorem step_core1 {s s' : Firmware F} {l : Label} (hl : l ≠ .core1) (h : s.step l = some s') :
    s'.core1 = s.core1 := by
  rcases outer_or_inner l with houter | rfl | rfl | rfl
  · exact (outer_same houter h).core1
  · obtain ⟨w, ws, -, -, -, rfl⟩ := handle_cases h
    rfl
  · obtain ⟨e, es, sh, -, -, rfl⟩ := access_cases h
    rfl
  · exact absurd rfl hl

/-! ## core1 moving alone -/

/-- Only core1 moves. -/
def OnlyCore1 (_ : Firmware F) (l : Label) : Prop := l = .core1

/-- core1 alone is a run in which the others stand still. -/
theorem reached_of_alone {s : Firmware F} {r : Shared F × Core1 F}
    (h : Core1.Alone (s.shared, s.core1) r) :
    Transition.ReachedBy step OnlyCore1 s { s with shared := r.1, core1 := r.2 } := by
  induction h with
  | refl => exact ⟨[], .nil s⟩
  | tail _ hstep ih =>
      refine ih.trans ⟨[.core1], .cons rfl ?_ (.nil _)⟩
      rw [hstep]
      rfl

/-- **With the gate open core1 alone empties `PRESET_CHANNEL` and ends its
rebuild.** -/
theorem core1_comes_to_rest (s : Firmware F) (h : s.shared.gate_req = false) :
    ∃ sh c, Transition.ReachedBy step OnlyCore1 s { s with shared := sh, core1 := c }
      ∧ sh.preset_channel.items = [] ∧ c.pc.Settled := by
  obtain ⟨sh, c, hrun, hempty, hset⟩ := Core1.comes_to_rest s.shared s.core1 h
  exact ⟨sh, c, reached_of_alone hrun, hempty, hset⟩

end Firmware

end PicoDsp
