/-
What comes out of the audio path (`tasks/core0.rs`, `tasks/core1.rs`).

The DAC gets one DMA buffer of silence and then every block that core1 has rendered,
once, whole and in order, however the tasks and the DMA interleave: that is a
conservation law between the frames rendered, those on the way and the words read. The
USB stream is a best-effort copy. Its packets are made of frames of the same blocks, in
order, but blocks may be missing; and it has no influence on anything else. That half is
in `System/UsbTee.lean`.

The law is `RunBy.conserves` of `Lib/Flow.lean`, and what it asks for is one equation for
each step: the words that the step plays, and those held behind it, are those held
before it and the words that it renders. What is held has to be listed in the order in
which it will be played (`held`): the rest of the transfer, the buffer behind it, the block
that is being converted, those in `AUDIO_CHANNEL`, and the one that core1 has
rendered and not yet sent.

The delicate part is the two halves of `DMA_BUFFER`. `main_task` converts a block into the
back half while the DMA reads the front half, word for word, at its own pace. `Sound` says
which half a transfer reads, and up to where the back half holds the words of the block in
hand; with it a word that is written is not one that is read
(`convert_front`, `convert_ahead`). It speaks of `main_task` and the DMA alone, so all
steps of other tasks are out of the way at once.

How late the words are is counted at the end: two buffers in the hands of `main_task` and
four in the channel, and one that waits to be sent, are seven at most (`held_length`).
-/
import PicoDsp.Lib.Flow
import PicoDsp.System.AudioRun

set_option autoImplicit false

namespace PicoDsp

open Lib Transition

/-! ## The DMA buffer -/

namespace MainTask

open MicrophoneTask

section

variable {F : Type}

/-- One more entry of a buffer that is written from its front. -/
theorem take_set {n : ℕ} (buffer : Vector UInt32 n) {i : ℕ} (hi : i < n) (word : UInt32) :
    (buffer.set i word).toList.take (i + 1) = buffer.toList.take i ++ [word] := by
  have hlen : i < (buffer.toList.set i word).length := by
    rw [List.length_set, Vector.length_toList]
    exact hi
  rw [Vector.toList_set, List.take_succ_eq_append_getElem hlen, List.getElem_set_self,
    List.take_set_of_le (Nat.le_refl i)]

/-- What the transfer has still to read. -/
def unread (m : MainTask F) : List UInt32 :=
  match m.dma with
  | some (half, n) => (m.dma_buffer half).toList.drop n
  | none => []

end

variable {F : Type} [F32 F] [CastI16 F]

/-- A block as words of the I2S output. -/
def words (block : AudioData F) : List UInt32 := (frames block).map pack

/-- A block has as many words as a buffer. -/
theorem words_length (block : AudioData F) : (words block).length = BUFFER_SIZE := by
  rw [words, List.length_map, frames_length]
  rfl

/-- A word is a frame, packed. -/
theorem words_getElem (block : AudioData F) (i : Fin BUFFER_SIZE)
    (h : i.val < (words block).length) : (words block)[i.val] = pack (frame block i) := by
  refine (List.getElem_map pack).trans (congrArg pack ?_)
  exact List.getElem_ofFn _

/-- Full scale on both sides. -/
theorem pack_one : pack ((1 : ℝ), (1 : ℝ)) = 0x7FFF7FFF := by
  have hcast : CastI16.as_i16 ((1 : ℝ) * I16_SCALE) = 32767 := by
    have hscale : (1 : ℝ) * I16_SCALE = (32767 : ℤ) := by simp [I16_SCALE]
    have hle : (0 : ℝ) ≤ (32767 : ℤ) := by norm_num
    show Int16.ofInt (max (-32768) (min 32767 (if 0 ≤ (1 : ℝ) * I16_SCALE then _ else _))) = 32767
    rw [hscale, if_pos hle, Int.floor_intCast]
    rfl
  rw [pack, to_u32, hcast]
  rfl

/-- One more word. -/
theorem words_take (block : AudioData F) (i : Fin BUFFER_SIZE) :
    (words block).take (i.val + 1) = (words block).take i ++ [pack (frame block i)] := by
  rw [List.take_succ_eq_append_getElem (by rw [words_length]; exact i.isLt), words_getElem]

/-- The words that the task has and the DMA has not read: the rest of the transfer, and
the next buffer where there is one. -/
def ahead (m : MainTask F) : List UInt32 :=
  match m.pc with
  | .write => (m.dma_buffer m.front_buffer).toList
  | .len | .fetch_min _ | .fetch_add | .receive => m.unread
  | .try_send block | .convert block _ => m.unread ++ words block
  | .dma_wait => m.unread ++ (m.dma_buffer m.back_buffer).toList

/-- A transfer is going on. -/
def Transfers : Pc F → Prop
  | .write => False
  | _ => True

omit [F32 F] [CastI16 F] in
/-- A transfer is going on except in front of the `write`. -/
theorem write_or_transfers (pc : Pc F) : pc = .write ∨ Transfers pc := by
  cases pc with
  | write => exact Or.inl rfl
  | len => exact Or.inr trivial
  | fetch_min fill => exact Or.inr trivial
  | fetch_add => exact Or.inr trivial
  | receive => exact Or.inr trivial
  | try_send block => exact Or.inr trivial
  | convert block i => exact Or.inr trivial
  | dma_wait => exact Or.inr trivial

/-- The task writes one half while the DMA reads the other, and has written the words of
its block as far as it is. -/
structure Sound (m : MainTask F) : Prop where
  apart : m.back_buffer ≠ m.front_buffer
  idle : m.pc = .write → m.dma = none
  transfer : Transfers m.pc → ∃ n, n ≤ BUFFER_SIZE ∧ m.dma = some (m.front_buffer, n)
  converted : ∀ block i, m.pc = .convert block i →
    (m.dma_buffer m.back_buffer).toList.take i = (words block).take i

/-- At the start both halves are silent. -/
theorem sound_start : Sound (start (F := F)) where
  apart := Bool.false_ne_true
  idle _ := rfl
  transfer h := h.elim
  converted _ _ h := by cases h

section Step

variable {m : MainTask F}

/-- A move that touches neither the buffers nor the transfer, and is not into the
conversion. -/
theorem Sound.moved (h : Sound m) (pc : Pc F) (htransfer : Transfers m.pc) (hpc : Transfers pc)
    (hconvert : ∀ block i, pc ≠ .convert block i) : Sound { m with pc := pc } where
  apart := h.apart
  idle hw := by
    change pc = .write at hw
    rw [hw] at hpc
    exact hpc.elim
  transfer _ := h.transfer htransfer
  converted block i hc := absurd hc (hconvert block i)

/-- A transfer begins. -/
theorem Sound.written (h : Sound m) :
    Sound ({ m with pc := .len, dma := some (m.front_buffer, 0) } : MainTask F) where
  apart := h.apart
  idle hw := by cases hw
  transfer _ := ⟨0, Nat.zero_le _, rfl⟩
  converted _ _ hc := by cases hc

/-- The conversion begins. -/
theorem Sound.sent (h : Sound m) {block : AudioData F} (hpc : m.pc = .try_send block) :
    Sound { m with pc := .convert block ⟨0, by decide⟩ } where
  apart := h.apart
  idle hw := by cases hw
  transfer _ := h.transfer (by rw [hpc]; trivial)
  converted _ _ hc := by
    cases hc
    rfl

/-- The DMA reads a word. -/
theorem Sound.read (h : Sound m) {half : Bool} {n : ℕ} {word : UInt32}
    (hdma : m.dma = some (half, n)) (hword : (m.dma_buffer half)[n]? = some word) :
    Sound { m with dma := some (half, n + 1) } where
  apart := h.apart
  idle hw := by
    have hnone := h.idle hw
    rw [hdma] at hnone
    cases hnone
  transfer ht := by
    obtain ⟨k, hk, hfront⟩ := h.transfer ht
    rw [hdma] at hfront
    cases hfront
    refine ⟨n + 1, ?_, rfl⟩
    exact (Vector.getElem?_eq_some_iff.mp hword).1
  converted := h.converted

/-- The slices change their places. -/
theorem Sound.swapped (h : Sound m) :
    Sound ({ m with
      pc := .write
      back_buffer := m.front_buffer
      front_buffer := m.back_buffer
      dma := none } : MainTask F) where
  apart := h.apart.symm
  idle _ := rfl
  transfer ht := ht.elim
  converted _ _ hc := by cases hc

section Convert

variable {block : AudioData F} {i : Fin BUFFER_SIZE}

/-- The buffers after the conversion of a frame. -/
theorem convert_back :
    ((m.convert block i).dma_buffer (m.convert block i).back_buffer).toList.take (i + 1)
      = (m.dma_buffer m.back_buffer).toList.take i ++ [pack (frame block i)] := by
  have hback : (m.convert block i).dma_buffer (m.convert block i).back_buffer
      = (m.dma_buffer m.back_buffer).set i (pack (frame block i)) := Function.update_self _ _ _
  rw [hback, take_set]

/-- The half that the DMA reads is not written. -/
theorem convert_front (h : Sound m) :
    (m.convert block i).dma_buffer m.front_buffer = m.dma_buffer m.front_buffer :=
  Function.update_of_ne h.apart.symm _ _

/-- So far the words of the block are in the back buffer. -/
theorem convert_words (h : Sound m) (hpc : m.pc = .convert block i) :
    ((m.convert block i).dma_buffer (m.convert block i).back_buffer).toList.take (i + 1)
      = (words block).take (i + 1) := by
  rw [convert_back, h.converted block i hpc, words_take]

/-- Behind a frame the next one is converted, or the transfer is awaited. -/
theorem convert_pc (m : MainTask F) (block : AudioData F) (i : Fin BUFFER_SIZE) :
    (∃ h : i.val + 1 < BUFFER_SIZE, (m.convert block i).pc = .convert block ⟨i + 1, h⟩)
      ∨ (i.val + 1 = BUFFER_SIZE ∧ (m.convert block i).pc = .dma_wait) := by
  by_cases hi : i.val + 1 < BUFFER_SIZE
  · exact Or.inl ⟨hi, dif_pos hi⟩
  · exact Or.inr ⟨Nat.le_antisymm i.isLt (Nat.not_lt.mp hi), dif_neg hi⟩

/-- A frame is written into the half that no transfer reads. -/
theorem Sound.convert (h : Sound m) (hpc : m.pc = .convert block i) :
    Sound (m.convert block i) where
  apart := h.apart
  idle hw := by
    rcases convert_pc m block i with ⟨_, hpc'⟩ | ⟨-, hpc'⟩
    · rw [hpc'] at hw
      cases hw
    · rw [hpc'] at hw
      cases hw
  transfer _ := h.transfer (by rw [hpc]; trivial)
  converted block' j hj := by
    rcases convert_pc m block i with ⟨hi, hpc'⟩ | ⟨-, hpc'⟩
    · rw [hpc'] at hj
      cases hj
      exact convert_words h hpc
    · rw [hpc'] at hj
      cases hj

/-- The transfer goes on as it was. -/
theorem convert_unread (h : Sound m) (hpc : m.pc = .convert block i) :
    (m.convert block i).unread = m.unread := by
  obtain ⟨n, -, hdma⟩ := h.transfer (by rw [hpc]; trivial)
  have hdma' : (m.convert block i).dma = some (m.front_buffer, n) := hdma
  rw [unread, unread, hdma, hdma']
  simp only [convert_front h]

/-- **The conversion passes the block on.** -/
theorem convert_ahead (h : Sound m) (hpc : m.pc = .convert block i) :
    (m.convert block i).ahead = m.ahead := by
  have hbefore : m.ahead = m.unread ++ words block := by
    unfold ahead
    rw [hpc]
  rcases convert_pc m block i with ⟨hi, hpc'⟩ | ⟨hi, hpc'⟩
  · unfold ahead
    rw [hpc', hpc]
    simp only [convert_unread h hpc]
  · -- the last frame: the back buffer is the block
    have hall := convert_words h hpc
    rw [hi, List.take_of_length_le (by rw [Vector.length_toList]),
      List.take_of_length_le (by rw [words_length])] at hall
    rw [hbefore]
    unfold ahead
    rw [hpc']
    simp only [convert_unread h hpc, hall]

end Convert

/-- What is ahead when a transfer begins. -/
theorem written_ahead (hpc : m.pc = .write) :
    ({ m with pc := .len, dma := some (m.front_buffer, 0) } : MainTask F).ahead = m.ahead := by
  unfold ahead
  rw [hpc]
  rfl

/-- What is ahead when the slices change their places: the transfer is over. -/
theorem swapped_ahead {half : Bool} (hpc : m.pc = .dma_wait)
    (hdma : m.dma = some (half, BUFFER_SIZE)) :
    ({ m with
      pc := .write
      back_buffer := m.front_buffer
      front_buffer := m.back_buffer
      dma := none } : MainTask F).ahead = m.ahead := by
  unfold ahead
  rw [hpc]
  have hnone : m.unread = [] := by
    rw [unread, hdma]
    exact List.drop_eq_nil_of_le (by rw [Vector.length_toList])
  simp only [hnone, List.nil_append]

omit [F32 F] [CastI16 F] in
/-- What the transfer has still to read, without the word it reads. -/
theorem read_unread {half : Bool} {n : ℕ} {word : UInt32} (hdma : m.dma = some (half, n))
    (hword : (m.dma_buffer half)[n]? = some word) :
    m.unread = word :: ({ m with dma := some (half, n + 1) } : MainTask F).unread := by
  obtain ⟨hn, hget⟩ := Vector.getElem?_eq_some_iff.mp hword
  have hlen : n < (m.dma_buffer half).toList.length := by
    rw [Vector.length_toList]
    exact hn
  rw [unread, unread, hdma]
  simp only
  rw [List.drop_eq_getElem_cons hlen, Vector.getElem_toList, hget]

/-- A transfer reads the front buffer. -/
theorem Sound.transfer_half (h : Sound m) {half : Bool} {n : ℕ} (hdma : m.dma = some (half, n)) :
    half ≠ m.back_buffer := by
  rcases write_or_transfers m.pc with hpc | ht
  · rw [h.idle hpc] at hdma
    cases hdma
  · obtain ⟨k, -, hfront⟩ := h.transfer ht
    rw [hdma] at hfront
    cases hfront
    exact h.apart.symm

/-- A word that is read was ahead of all others. -/
theorem read_ahead (h : Sound m) {half : Bool} {n : ℕ} {word : UInt32}
    (hdma : m.dma = some (half, n)) (hword : (m.dma_buffer half)[n]? = some word) :
    m.ahead = word :: ({ m with dma := some (half, n + 1) } : MainTask F).ahead := by
  have hunread := read_unread hdma hword
  cases hpc : m.pc with
  | write =>
      have hnone := h.idle hpc
      rw [hdma] at hnone
      cases hnone
  | len => simp only [ahead, hpc, hunread]
  | fetch_min fill => simp only [ahead, hpc, hunread]
  | fetch_add => simp only [ahead, hpc, hunread]
  | receive => simp only [ahead, hpc, hunread]
  | try_send block => simp only [ahead, hpc, hunread, List.cons_append]
  | convert block i => simp only [ahead, hpc, hunread, List.cons_append]
  | dma_wait => simp only [ahead, hpc, hunread, List.cons_append]

end Step

end MainTask

/-! ## From core1 to the DAC -/

/-- In its loop core1 has a voice. -/
theorem Core1.step_voiced {F : Type} [F32 F] {sh : Shared F} {c : Core1 F}
    (h : c.pc.Settled → c.voice.isSome) :
    (Core1.step sh c).2.pc.Settled → (Core1.step sh c).2.voice.isSome := by
  have hmoved := Core1.step_moved sh c
  generalize Core1.step sh c = r at hmoved
  obtain ⟨sh', c'⟩ := r
  intro hset'
  cases hmoved with
  | looped hset => exact h hset
  | stored hpending => exact hset'.elim
  | built hpending hset => rfl
  | taken hset htake => exact hset'.elim

namespace AudioPath

open MainTask (words)

section

variable {F : Type}

/-- The block that core1 has rendered and not yet sent. -/
def rendering (s : AudioPath F) : List (AudioData F) :=
  match s.firmware.core1.pc with
  | .send => [s.dsp.buffer]
  | _ => []

/-- Nothing is rendered and not sent, except in front of the `send`. -/
theorem rendering_nil {s : AudioPath F} (h : s.firmware.core1.pc ≠ .send) : s.rendering = [] := by
  unfold rendering
  split
  · rename_i hpc
    exact absurd hpc h
  · rfl

/-- There it is the block in the buffer. -/
theorem rendering_send {s : AudioPath F} (h : s.firmware.core1.pc = .send) :
    s.rendering = [s.dsp.buffer] := by
  unfold rendering
  rw [h]

end

variable {F : Type} [F32 F]

/-- The other tasks of the firmware leave it. -/
theorem rendering_task {s : AudioPath F} {l : Label} {firmware : Firmware F} (hl : l ≠ .core1)
    (h : s.firmware.step l = some firmware) :
    AudioPath.rendering { s with firmware := firmware } = s.rendering := by
  unfold rendering
  simp only [Firmware.step_core1 hl h]

/-- Outside of `process` and `send` there is none, before and after. -/
theorem rendering_access {s : AudioPath F} (hprocess : s.firmware.core1.pc ≠ .process)
    (hsend : s.firmware.core1.pc ≠ .send) (dsp : DspLoop F) :
    AudioPath.rendering { s.advance with dsp := dsp } = s.rendering := by
  rw [rendering_nil hsend]
  exact rendering_nil (s := { s.advance with dsp := dsp }) (advance_pc hprocess)

/-- `process` leaves its block in the buffer. -/
theorem rendering_process {s : AudioPath F} (hpc : s.firmware.core1.pc = .process)
    (dsp : DspLoop F) :
    s.rendering = [] ∧ AudioPath.rendering { s.advance with dsp := dsp } = [dsp.buffer] :=
  ⟨rendering_nil (by rw [hpc]; exact nofun),
    rendering_send (s := { s.advance with dsp := dsp }) (advance_process hpc)⟩

/-- And the `send` gives it away. -/
theorem rendering_sent {s : AudioPath F} (hpc : s.firmware.core1.pc = .send) :
    s.rendering = [s.dsp.buffer] ∧ s.advance.rendering = [] := by
  refine ⟨rendering_send hpc, rendering_nil ?_⟩
  rw [advance_send hpc]
  exact nofun

variable [CastI16 F]

/-- core1 has a voice in its loop, and `main_task` is sound. -/
structure Inv (s : AudioPath F) : Prop where
  main : s.main.Sound
  voice : s.firmware.core1.pc.Settled → s.firmware.core1.voice.isSome

/-- The words of all frames that are rendered and not played. -/
def held (s : AudioPath F) : List UInt32 :=
  s.main.ahead ++ (s.shared.audio_channel.items ++ s.rendering).flatMap words

/-- At boot the tasks are in front of their loops. -/
theorem Boot.inv {p : Preset F} {s : AudioPath F} (h : Boot p s) : Inv s where
  main := by
    rw [h.main]
    exact MainTask.sound_start
  voice hset := by
    rw [h.firmware.core1] at hset
    exact hset.elim

/-- At boot the DMA buffer is silent. -/
theorem Boot.held {p : Preset F} {s : AudioPath F} (h : Boot p s) :
    s.held = List.replicate MainTask.BUFFER_SIZE 0 := by
  have hrendering : s.rendering = [] := by
    apply rendering_nil
    rw [h.firmware.core1]
    exact nofun
  rw [AudioPath.held, hrendering, h.audio_channel, h.main]
  rfl

variable [DecidableEq F]

omit [F32 F] [CastI16 F] [DecidableEq F] in
/-- The blocks that come in with an event of `microphone_task`. -/
def taken : MicrophoneTask.Event F → List (AudioData F)
  | .drain block | .receive block => [block]
  | .load _ | .round | .write _ _ => []

omit [F32 F] [CastI16 F] in
/-- What comes in was at the head of the channel. -/
theorem hear_takes {a a' : AudioShared F} {e : MicrophoneTask.Event F} (h : hear a e = some a') :
    ∃ ch, a' = { a with usb_audio_channel := ch }
      ∧ a.usb_audio_channel.items = taken e ++ ch.items := by
  have htake : ∀ block : AudioData F, hear a (.drain block) = some a' →
      ∃ ch, a' = { a with usb_audio_channel := ch }
        ∧ a.usb_audio_channel.items = block :: ch.items := by
    intro block hmatch
    simp only [hear] at hmatch
    split at hmatch
    · rename_i b ch hch
      obtain ⟨rfl, hsome⟩ := Option.ite_none_right_eq_some.mp hmatch
      cases hsome
      exact ⟨ch, rfl, BoundedList.items_of_try_receive hch⟩
    · cases hmatch
  cases e with
  | load streaming =>
      obtain ⟨-, hsome⟩ := Option.ite_none_right_eq_some.mp h
      cases hsome
      exact ⟨_, rfl, rfl⟩
  | drain block => exact htake block h
  | round =>
      cases h
      exact ⟨_, rfl, rfl⟩
  | receive block => exact htake block h
  | write packet timed_out =>
      cases h
      exact ⟨_, rfl, rfl⟩

/-- **Every step keeps the invariant.** -/
theorem Inv.moves {s s' : AudioPath F} {l : AudioLabel F} (h : Inv s) (hmoves : Moves s l s') :
    Inv s' := by
  have hvoiced := @Core1.step_voiced F _ s.firmware.shared _ h.voice
  cases hmoves with
  | task hl hstep =>
      refine ⟨h.main, ?_⟩
      rw [Firmware.step_core1 hl hstep]
      exact h.voice
  | status hstatus hroom => exact ⟨h.main, h.voice⟩
  | access hprocess hsend hstatus => exact ⟨h.main, hvoiced⟩
  | process block us hpc hstatus => exact ⟨h.main, hvoiced⟩
  | swap_underruns hstage => exact ⟨h.main, h.voice⟩
  | swap_min hstage => exact ⟨h.main, h.voice⟩
  | report hstage => exact ⟨h.main, h.voice⟩
  | send hstage hroom => exact ⟨h.main, hvoiced⟩
  -- `main_task`
  | write hpc => exact ⟨h.main.written, h.voice⟩
  | len hpc =>
      refine ⟨h.main.moved _ ?_ trivial nofun, h.voice⟩
      rw [hpc]
      trivial
  | @low_water fill hpc =>
      refine ⟨h.main.moved _ ?_ ?_ ?_, h.voice⟩
      · rw [hpc]
        trivial
      · split
        · trivial
        · trivial
      · intro block i
        split
        · exact nofun
        · exact nofun
  | underrun hpc =>
      refine ⟨h.main.moved _ ?_ trivial nofun, h.voice⟩
      rw [hpc]
      trivial
  | receive hpc htake =>
      refine ⟨h.main.moved _ ?_ trivial nofun, h.voice⟩
      rw [hpc]
      trivial
  | try_send hpc => exact ⟨h.main.sent hpc, h.voice⟩
  | convert hpc => exact ⟨h.main.convert hpc, h.voice⟩
  | swap hpc hdma => exact ⟨h.main.swapped, h.voice⟩
  | dma hdma hword => exact ⟨h.main.read hdma hword, h.voice⟩
  -- the others see only what was put into their channels
  | microphone hhear hstep => exact ⟨h.main, h.voice⟩
  | streaming on => exact ⟨h.main, h.voice⟩
  | logger htake => exact ⟨h.main, h.voice⟩
  | logger_status htake => exact ⟨h.main, h.voice⟩
  | log_storage text hbusy => exact ⟨h.main, h.voice⟩

omit [DecidableEq F] in
/-- With a voice the buffer is what it rendered. -/
theorem Inv.rendered {s : AudioPath F} (h : Inv s) (hpc : s.firmware.core1.pc = .process)
    (block : AudioData F) : s.rendered block = block := by
  have hvoice : s.firmware.core1.voice.isSome := by
    apply h.voice
    rw [hpc]
    trivial
  exact if_pos hvoice

/-- **Every step conserves the words**: what it plays was first among those held, and
what it renders comes last. -/
theorem Inv.conserves {s s' : AudioPath F} {l : AudioLabel F} (h : Inv s)
    (hmoves : Moves s l s') :
    l.played ++ s'.held = s.held ++ l.rendered.flatMap words := by
  -- for the moves that play and render nothing
  have hsame : ∀ t : AudioPath F, t.held = s.held →
      [] ++ t.held = s.held ++ ([] : List (AudioData F)).flatMap words := by
    intro t ht
    rw [ht, List.nil_append, List.flatMap_nil, List.append_nil]
  cases hmoves with
  | @task l firmware hl hstep =>
      apply hsame
      show s.main.ahead ++ (s.shared.audio_channel.items
        ++ AudioPath.rendering { s with firmware := firmware }).flatMap words = s.held
      rw [rendering_task hl hstep]
      rfl
  | status hstatus hroom => exact hsame _ rfl
  | access hprocess hsend hstatus =>
      apply hsame
      show s.main.ahead ++ (s.shared.audio_channel.items
        ++ AudioPath.rendering { s.advance with dsp := _ }).flatMap words = _
      rw [rendering_access hprocess hsend, held]
  | process block us hpc hstatus =>
      -- the block is the last that is held
      obtain ⟨hbefore, hafter⟩ := rendering_process hpc (s.dsp.processed (s.rendered block) us)
      show [] ++ (s.main.ahead ++ (s.shared.audio_channel.items
        ++ AudioPath.rendering { s.advance with dsp := _ }).flatMap words) = _
      rw [hafter, held, hbefore]
      show [] ++ (s.main.ahead ++ (s.shared.audio_channel.items
        ++ [s.rendered block]).flatMap words) = _ ++ [block].flatMap words
      rw [h.rendered hpc, List.append_nil, List.flatMap_append, List.nil_append, List.append_assoc]
  | swap_underruns hstage => exact hsame _ rfl
  | swap_min hstage => exact hsame _ rfl
  | report hstage => exact hsame _ rfl
  | send hstage hroom =>
      apply hsame
      obtain ⟨hbefore, hafter⟩ := rendering_sent (stage_some hstage).1
      show s.main.ahead ++ ((s.shared.audio_channel.offer s.dsp.buffer).items
        ++ s.advance.rendering).flatMap words = _
      rw [hafter, held, hbefore, BoundedList.offer_items_of_not_full hroom, List.append_nil]
  | write hpc =>
      apply hsame
      rw [held, held]
      congr 1
      exact MainTask.written_ahead hpc
  | len hpc =>
      apply hsame
      rw [held, held]
      congr 1
      simp only [MainTask.ahead, hpc]
      rfl
  | @low_water fill hpc =>
      apply hsame
      rw [held, held]
      congr 1
      by_cases hfill : fill = 0
      · simp only [MainTask.ahead, hpc, if_pos hfill]
        rfl
      · simp only [MainTask.ahead, hpc, if_neg hfill]
        rfl
  | underrun hpc =>
      apply hsame
      rw [held, held]
      congr 1
      simp only [MainTask.ahead, hpc]
      rfl
  | @receive block ch hpc htake =>
      -- from the front of the channel to the end of what the task has
      apply hsame
      rw [held, held, BoundedList.items_of_try_receive htake]
      simp only [MainTask.ahead, hpc, List.cons_append, List.flatMap_cons]
      rw [List.append_assoc]
      rfl
  | try_send hpc =>
      apply hsame
      rw [held, held]
      congr 1
      simp only [MainTask.ahead, hpc]
      rfl
  | convert hpc =>
      apply hsame
      rw [held, held]
      congr 1
      exact MainTask.convert_ahead h.main hpc
  | swap hpc hdma =>
      apply hsame
      rw [held, held]
      congr 1
      exact MainTask.swapped_ahead hpc hdma
  | @dma half n word hdma hword =>
      have hahead := MainTask.read_ahead h.main hdma hword
      show [word] ++ (_ ++ _) = s.held ++ [].flatMap words
      rw [List.flatMap_nil, List.append_nil, held, hahead]
      rfl
  | microphone hhear hstep =>
      apply hsame
      obtain ⟨ch, rfl, -⟩ := hear_takes hhear
      rfl
  | streaming on => exact hsame _ rfl
  | logger htake => exact hsame _ rfl
  | logger_status htake => exact hsame _ rfl
  | log_storage text hbusy => exact hsame _ rfl

/-! ### How much is on the way -/

omit [F32 F] [CastI16 F] [DecidableEq F] in
/-- A transfer has at most one buffer to read. -/
theorem unread_length (m : MainTask F) : m.unread.length ≤ MainTask.BUFFER_SIZE := by
  unfold MainTask.unread
  split
  · rw [List.length_drop, Vector.length_toList]
    exact Nat.sub_le _ _
  · exact Nat.zero_le _

omit [DecidableEq F] in
/-- At most two buffers are in the hands of `main_task`. -/
theorem ahead_length (m : MainTask F) : m.ahead.length ≤ 2 * MainTask.BUFFER_SIZE := by
  have hunread := unread_length m
  unfold MainTask.ahead
  split
  · rw [Vector.length_toList]
    omega
  · omega
  · omega
  · omega
  · omega
  · rw [List.length_append, MainTask.words_length]
    omega
  · rw [List.length_append, MainTask.words_length]
    omega
  · rw [List.length_append, Vector.length_toList]
    omega

omit [DecidableEq F] in
/-- The words of some blocks, counted. -/
theorem words_flatMap_length (blocks : List (AudioData F)) :
    (blocks.flatMap words).length = MainTask.BUFFER_SIZE * blocks.length := by
  rw [List.length_flatMap, List.map_congr_left fun block _ => MainTask.words_length block,
    List.map_const', List.sum_replicate, smul_eq_mul, Nat.mul_comm]

omit [DecidableEq F] in
/-- At most seven buffers are on the way. -/
theorem held_length (s : AudioPath F) : s.held.length ≤ 7 * MainTask.BUFFER_SIZE := by
  have hahead := ahead_length s.main
  have hchannel := s.shared.audio_channel.bound
  have hrendering : s.rendering.length ≤ 1 := by
    unfold rendering
    split
    · exact le_refl 1
    · exact Nat.zero_le 1
  rw [held, List.length_append, words_flatMap_length, List.length_append]
  have hblocks : s.shared.audio_channel.items.length + s.rendering.length ≤ 5 := by omega
  have hwords := Nat.mul_le_mul_left MainTask.BUFFER_SIZE hblocks
  omega

/-- What has been played and what is on the way is what has been rendered. -/
theorem played_held {p : Preset F} {s t : AudioPath F} {ls : List (AudioLabel F)}
    (hs : Boot p s) (h : run step s ls = some t) :
    Inv t ∧ ls.flatMap AudioLabel.played ++ t.held
      = List.replicate MainTask.BUFFER_SIZE 0
        ++ (ls.flatMap AudioLabel.rendered).flatMap words := by
  have hrun := RunBy.of_run (P := fun _ => True) h fun _ _ => trivial
  have hlaw := hrun.conserves AudioLabel.played (fun l => l.rendered.flatMap words) held
    (fun _ _ _ hinv _ hstep => ⟨hinv.moves (step_moves hstep), hinv.conserves (step_moves hstep)⟩)
    hs.inv
  rw [hs.held] at hlaw
  refine ⟨hrun.invariant (fun _ _ _ hinv _ hstep => hinv.moves (step_moves hstep)) hs.inv, ?_⟩
  rw [hlaw, List.flatMap_assoc]

/-- **The DAC plays every block once, whole and in order**, behind one DMA buffer of
silence and at most six blocks late, and the half that a transfer reads is not the one
that `main_task` writes. -/
theorem dac_plays_everything {p : Preset F} {s t : AudioPath F} {ls : List (AudioLabel F)}
    (hs : Boot p s) (h : run step s ls = some t) :
    ls.flatMap AudioLabel.played <+: List.replicate MainTask.BUFFER_SIZE 0
        ++ (ls.flatMap AudioLabel.rendered).flatMap words
      ∧ MainTask.BUFFER_SIZE * (ls.flatMap AudioLabel.rendered).length
        ≤ (ls.flatMap AudioLabel.played).length + 6 * MainTask.BUFFER_SIZE
      ∧ ∀ half n, t.main.dma = some (half, n) → half ≠ t.main.back_buffer := by
  obtain ⟨hinv, hlaw⟩ := played_held hs h
  refine ⟨⟨t.held, hlaw⟩, ?_, ?_⟩
  · have hcount := congrArg List.length hlaw
    rw [List.length_append, List.length_append, List.length_replicate, words_flatMap_length]
      at hcount
    have hheld := held_length t
    omega
  · exact fun half n hdma => hinv.main.transfer_half hdma

/-- A block at full scale, behind the buffer of silence. -/
theorem dac_plays_everything_block : ∃ (ls : List (AudioLabel ℝ)) (t : AudioPath ℝ),
    run step (atBoot (default_preset.map F32.lit)) ls = some t
      ∧ ls.flatMap AudioLabel.rendered = [Vector.replicate MicrophoneTask.BLOCK_SIZE 1]
      ∧ ls.flatMap AudioLabel.played
        = List.replicate 128 0 ++ List.replicate 128 0x7FFF7FFF := by
  obtain ⟨s, half, hfirst, hpc, hdma, -⟩ := first_block (F := ℝ) (default_preset.map F32.lit)
    (Vector.replicate MicrophoneTask.BLOCK_SIZE 1)
  obtain ⟨t, hplays⟩ := plays_block hpc hdma
  obtain ⟨ls, hrun, hrendered, -, hplayed, -⟩ := hfirst.trans hplays
  obtain ⟨hpart, -⟩ := dac_plays_everything (atBoot_boot _) hrun
  refine ⟨ls, t, hrun, hrendered, ?_⟩
  have hwords : words (Vector.replicate MicrophoneTask.BLOCK_SIZE (1 : ℝ))
      = List.replicate 128 0x7FFF7FFF := by
    rw [words, MicrophoneTask.frames_replicate, List.map_replicate, MainTask.pack_one]
  have hall : (ls.flatMap AudioLabel.rendered).flatMap words = List.replicate 128 0x7FFF7FFF := by
    rw [hrendered, List.append_nil, List.flatMap_singleton, hwords]
  rw [hall] at hpart
  -- as many words as there are
  refine hpart.eq_of_length ?_
  rw [hplayed, List.length_append, List.length_replicate, List.length_replicate]
  rfl
end AudioPath

end PicoDsp
