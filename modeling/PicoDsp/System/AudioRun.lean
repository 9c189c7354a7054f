/-
Runs of the audio path that are known to exist.

The invariants of the modules behind this one say what holds in every run. Here it is the
other way round: the device comes up, renders a block and sends it, `main_task` puts it
into `DMA_BUFFER`, the DMA reads it, and `microphone_task` makes a packet of it. None of
these steps depends on what is in the block, so they are shown for any preset and any
block, by walking along the program counters of the tasks.

What a run does is kept in a ledger (`Goes`): the blocks it renders, how many it sends, how
many words it plays, and what `microphone_task` hears. Ledgers add up (`Goes.trans`), so
a long run is put together from stretches that are a few steps or an induction each, and
no state in the middle of it has to be written down. Which words are played is not
followed here; that is what the invariants are for, and a run of known length together
with them gives the words as well.

The stretches are the loops of the tasks: core1 building its first voice with all the
messages that it logs on the way, a block of core1 from the top of its loop to the `send`,
a round of `main_task` with its conversion of 128 frames, a DMA transfer, and a packet. A
stretch says what it needs of the state it begins in and no more, so the tasks that do
not move in it stay arbitrary; where the next stretch needs something of them, it is
carried along as an equation (`SameOut`).
-/
import PicoDsp.System.AudioPath

set_option autoImplicit false

namespace PicoDsp

open Lib Transition

/-! ## What a step shows -/

/-- The blocks that `synth.process` leaves in a step. -/
def AudioLabel.rendered {F : Type} : AudioLabel F → List (AudioData F)
  | .core1 (.process block _) => [block]
  | _ => []

/-- The words that go out in a step. -/
def AudioLabel.played {F : Type} : AudioLabel F → List UInt32
  | .dma word => [word]
  | _ => []

/-- A block goes into `AUDIO_CHANNEL`. -/
def AudioLabel.isSend {F : Type} : AudioLabel F → Bool
  | .core1 (.send _) => true
  | _ => false

/-- The events of `microphone_task` in a step. -/
def AudioLabel.heard {F : Type} : AudioLabel F → List (MicrophoneTask.Event F)
  | .microphone e => [e]
  | _ => []

namespace AudioPath

/-! ## Where core1 is -/

section

variable {F : Type}

/-- A block is on its way through the stages exactly in front of the `send`. -/
theorem stage_some {s : AudioPath F} {stage : DspLoop.Stage} (h : s.stage = some stage) :
    s.firmware.core1.pc = .send ∧ s.dsp.stage = stage := by
  unfold AudioPath.stage at h
  split at h
  · rename_i hpc
    exact ⟨hpc, Option.some.inj h⟩
  · cases h

/-- Elsewhere there is no stage. -/
theorem stage_none {s : AudioPath F} (h : s.firmware.core1.pc ≠ .send) : s.stage = none := by
  unfold stage
  split
  · rename_i hsend
    exact absurd hsend h
  · rfl

/-- In front of it the stage is that of the loop. -/
theorem stage_send {s : AudioPath F} (hpc : s.firmware.core1.pc = .send) :
    s.stage = some s.dsp.stage := by
  unfold stage
  rw [hpc]

/-- On its way through the stages core1 stays in front of its `send`, so the stage is read
off the variables of the loop. -/
theorem stage_within {s : AudioPath F} {st : DspLoop.Stage} (h : s.stage = some st)
    (dsp : DspLoop F) (shared : AudioShared F) :
    AudioPath.stage { s with dsp := dsp, shared := shared } = some dsp.stage :=
  stage_send (s := { s with dsp := dsp, shared := shared }) (stage_some h).1

end

section

variable {F : Type} [F32 F]

/-- Only `process` leads to `send`. -/
theorem advance_pc {s : AudioPath F} (hprocess : s.firmware.core1.pc ≠ .process) :
    s.advance.firmware.core1.pc ≠ .send :=
  (Core1.step_steps s.firmware.shared s.firmware.core1).ne_send hprocess

/-- From `process` to `send`. -/
theorem advance_process {s : AudioPath F} (hpc : s.firmware.core1.pc = .process) :
    s.advance.firmware.core1.pc = .send := by
  show (Core1.step s.firmware.shared s.firmware.core1).2.pc = .send
  simp only [Core1.step, hpc]

/-- And back to the top of the loop. -/
theorem advance_send {s : AudioPath F} (hpc : s.firmware.core1.pc = .send) :
    s.advance.firmware.core1.pc = .top := by
  show (Core1.step s.firmware.shared s.firmware.core1).2.pc = .top
  simp only [Core1.step, hpc]

/-- The other tasks of the firmware leave the stage. -/
theorem stage_task {s : AudioPath F} {l : Label} {firmware : Firmware F} (hl : l ≠ .core1)
    (h : s.firmware.step l = some firmware) :
    AudioPath.stage { s with firmware := firmware } = s.stage := by
  unfold stage
  simp only [Firmware.step_core1 hl h]

/-- Outside of `process` and `send` there is no report. -/
theorem stage_advance {s : AudioPath F} (hprocess : s.firmware.core1.pc ≠ .process)
    (dsp : DspLoop F) : AudioPath.stage { s.advance with dsp := dsp } = none :=
  stage_none (s := { s.advance with dsp := dsp }) (advance_pc hprocess)

/-- Nor is there one behind the `send`. -/
theorem stage_sent {s : AudioPath F} (hpc : s.firmware.core1.pc = .send) (dsp : DspLoop F) :
    AudioPath.stage { s.advance with dsp := dsp } = none :=
  stage_advance (by rw [hpc]; exact nofun) dsp

/-- The stage after `process`: a report, or none. -/
theorem stage_process {s : AudioPath F} (hpc : s.firmware.core1.pc = .process) (dsp : DspLoop F) :
    AudioPath.stage { s.advance with dsp := dsp } = some dsp.stage :=
  stage_send (s := { s.advance with dsp := dsp }) (advance_process hpc)

end

/-! ## The ledger of a run -/

variable {F : Type} [F32 F] [CastI16 F] [DecidableEq F]

/-- A run that renders `blocks`, sends `k` of them, plays `n` words, and in which
`microphone_task` hears `es`. -/
def Goes (s : AudioPath F) (blocks : List (AudioData F)) (k n : ℕ)
    (es : List (MicrophoneTask.Event F)) (t : AudioPath F) : Prop :=
  ∃ ls, run step s ls = some t ∧ ls.flatMap AudioLabel.rendered = blocks
    ∧ (ls.filter AudioLabel.isSend).length = k ∧ (ls.flatMap AudioLabel.played).length = n
    ∧ ls.flatMap AudioLabel.heard = es

section Goes

variable {s t u : AudioPath F} {blocks blocks' : List (AudioData F)} {k k' n m : ℕ}
  {es es' : List (MicrophoneTask.Event F)}

/-- No step at all. -/
theorem Goes.refl (s : AudioPath F) : Goes s [] 0 0 [] s := ⟨[], rfl, rfl, rfl, rfl, rfl⟩

/-- One stretch behind another: the ledgers add up. -/
theorem Goes.trans (h : Goes s blocks k n es t) (h' : Goes t blocks' k' m es' u) :
    Goes s (blocks ++ blocks') (k + k') (n + m) (es ++ es') u := by
  obtain ⟨ls, hrun, rfl, rfl, rfl, rfl⟩ := h
  obtain ⟨ks, hrun', rfl, rfl, rfl, rfl⟩ := h'
  refine ⟨ls ++ ks, run_trans hrun hrun', List.flatMap_append, ?_, ?_, List.flatMap_append⟩
  · rw [List.filter_append, List.length_append]
  · rw [List.flatMap_append, List.length_append]

/-- One step, with what it shows. -/
theorem Goes.move {l : AudioLabel F} (h : Moves s l t) :
    Goes s l.rendered (if l.isSend then 1 else 0) l.played.length l.heard t := by
  refine ⟨[l], run_step h.step_eq rfl, List.flatMap_singleton _ _, ?_, ?_,
    List.flatMap_singleton _ _⟩
  · rw [List.filter_singleton]
    cases l.isSend with
    | true => rfl
    | false => rfl
  · rw [List.flatMap_singleton]

end Goes

/-! ## A device that comes up -/

omit [F32 F] [CastI16 F] [DecidableEq F] in
/-- The same device with core1 elsewhere, and its messages in the channel or received. -/
def withCore1 (s : AudioPath F) (sh : Shared F) (c : Core1 F) (ch : BoundedList StatusMessage 4) :
    AudioPath F :=
  { s with
    firmware := { s.firmware with shared := sh, core1 := c }
    dsp := { s.dsp with status := [] }
    shared := { s.shared with system_status_channel := ch } }

/-- core1 sends its messages, and `logger_task` makes room for them. -/
theorem status_goes (status : List StatusMessage) {s : AudioPath F}
    (hstatus : s.dsp.status = status) :
    ∃ ch, Goes s [] 0 0 [] (s.withCore1 s.firmware.shared s.firmware.core1 ch) := by
  induction status generalizing s with
  | nil =>
      refine ⟨s.shared.system_status_channel, ?_⟩
      have hsame : s.withCore1 s.firmware.shared s.firmware.core1 s.shared.system_status_channel
          = s := by
        rw [withCore1, ← hstatus]
      rw [hsame]
      exact Goes.refl s
  | cons msg rest ih =>
      by_cases hroom : s.shared.system_status_channel.Full
      · obtain ⟨m, ch, htake, hfree⟩ := BoundedList.try_receive_of_full (by decide) hroom
        have hdrain := Goes.move (Moves.logger_status htake)
        have hsend := Goes.move (Moves.status
          (s := { s with shared := { s.shared with system_status_channel := ch } }) hstatus hfree)
        obtain ⟨ch', hrest⟩ := ih (s := { s with
          dsp := { s.dsp with status := rest }
          shared := { s.shared with system_status_channel := ch.offer msg } }) rfl
        exact ⟨ch', (hdrain.trans hsend).trans hrest⟩
      · have hsend := Goes.move (Moves.status hstatus hroom)
        obtain ⟨ch', hrest⟩ := ih (s := { s with
          dsp := { s.dsp with status := rest }
          shared := { s.shared with
            system_status_channel := s.shared.system_status_channel.offer msg } }) rfl
        exact ⟨ch', hsend.trans hrest⟩

/-- A move of core1 outside of `process` and `send`, and its messages. -/
theorem access_goes {s : AudioPath F} {sh : Shared F} {c : Core1 F}
    (hprocess : s.firmware.core1.pc ≠ .process) (hsend : s.firmware.core1.pc ≠ .send)
    (hstatus : s.dsp.status = [])
    (hstep : Core1.step s.firmware.shared s.firmware.core1 = (sh, c)) :
    ∃ ch, Goes s [] 0 0 [] (s.withCore1 sh c ch) := by
  have hmoves := Goes.move (Moves.access hprocess hsend hstatus)
  rw [advance, hstep] at hmoves
  obtain ⟨ch, htold⟩ := status_goes _ (s := { s with
    firmware := { s.firmware with shared := sh, core1 := c }
    dsp := { s.dsp with
      status := DspLoop.messages s.firmware.shared s.firmware.core1 } }) rfl
  exact ⟨ch, hmoves.trans htold⟩

/-- The first voice is built, and core1 goes live. -/
theorem building_goes_live (q : Preset F) (rest : List (Atom × F)) {s : AudioPath F}
    (hpc : s.firmware.core1.pc = .building q rest) (hstatus : s.dsp.status = [])
    (hdead : s.firmware.shared.core1_running = false) :
    ∃ sh c ch, Goes s [] 0 0 [] (s.withCore1 sh c ch) ∧ Core1.Undisturbed s.firmware.shared sh
      ∧ c.pc = .top ∧ c.voice.isSome ∧ sh.core1_running = true := by
  induction rest generalizing s with
  | nil =>
      have hbuilt : Core1.step s.firmware.shared s.firmware.core1
          = (s.firmware.shared, ⟨.announce, some q⟩) := by
        simp only [Core1.step, hpc, hdead, Bool.false_eq_true, if_false]
      obtain ⟨ch, hfirst⟩ :=
        access_goes (by simp [hpc]) (by simp [hpc]) hstatus hbuilt
      obtain ⟨ch', hsecond⟩ := access_goes
        (s := s.withCore1 s.firmware.shared ⟨.announce, some q⟩ ch) (by simp [withCore1])
        (by simp [withCore1]) rfl rfl
      exact ⟨_, _, ch', hfirst.trans hsecond, ⟨rfl, rfl⟩, rfl, rfl, rfl⟩
  | cons av rest ih =>
      obtain ⟨a, v⟩ := av
      set sh₁ : Shared F :=
        { s.firmware.shared with control := (ControlOp.store a v).apply s.firmware.shared.control }
        with hsh₁
      have hstored : Core1.step s.firmware.shared s.firmware.core1
          = (sh₁, { s.firmware.core1 with pc := .building q rest }) := by
        simp only [Core1.step, hpc, hsh₁]
      obtain ⟨ch₁, hfirst⟩ :=
        access_goes (by simp [hpc]) (by simp [hpc]) hstatus hstored
      obtain ⟨sh, c, ch, hrun, hsame, hend⟩ :=
        ih (s := s.withCore1 sh₁ { s.firmware.core1 with pc := .building q rest } ch₁) rfl rfl hdead
      have hkept : Core1.Undisturbed s.firmware.shared sh₁ := ⟨rfl, rfl⟩
      exact ⟨sh, c, ch, hfirst.trans hrun, hkept.trans hsame, hend⟩

/-- A device comes up. -/
theorem goes_live (p : Preset F) :
    ∃ sh c ch, Goes (atBoot p) [] 0 0 [] ((atBoot p).withCore1 sh c ch)
      ∧ Core1.Undisturbed (atBoot p).firmware.shared sh ∧ c.pc = .top ∧ c.voice.isSome
      ∧ sh.core1_running = true := by
  obtain ⟨ch₀, hstart⟩ := status_goes _ (s := atBoot p) rfl
  obtain ⟨ch₁, hfirst⟩ := access_goes
    (s := (atBoot p).withCore1 (atBoot p).firmware.shared (atBoot p).firmware.core1 ch₀)
    (by simp [withCore1, atBoot, Firmware.atBoot, Core1.start])
    (by simp [withCore1, atBoot, Firmware.atBoot, Core1.start]) rfl rfl
  obtain ⟨sh, c, ch, hrun, hsame, hend⟩ :=
    building_goes_live p (MidiControl.seed_from_preset p) (s := (atBoot p).withCore1
      (atBoot p).advance.firmware.shared (atBoot p).advance.firmware.core1 ch₁) rfl rfl rfl
  have hkept : Core1.Undisturbed (atBoot p).firmware.shared (atBoot p).advance.firmware.shared :=
    ⟨rfl, rfl⟩
  exact ⟨sh, c, ch, (hstart.trans hfirst).trans hrun, hkept.trans hsame, hend⟩

/-! ## A block of core1 -/

omit [F32 F] [CastI16 F] [DecidableEq F] in
/-- What core1 does not touch before it sends. -/
structure SameOut (s t : AudioPath F) : Prop where
  main : t.main = s.main
  microphone : t.microphone = s.microphone
  audio_channel : t.shared.audio_channel = s.shared.audio_channel
  usb_audio_channel : t.shared.usb_audio_channel = s.shared.usb_audio_channel
  usb_audio_streaming : t.shared.usb_audio_streaming = s.shared.usb_audio_streaming

/-- With the gate open and no preset to take, core1 gets from the top of its loop to
`synth.process`. -/
theorem goes_to_process {s : AudioPath F} (htop : s.firmware.core1.pc = .top)
    (hreq : s.firmware.shared.gate_req = false)
    (hempty : s.firmware.shared.preset_channel.items = []) (hstatus : s.dsp.status = []) :
    ∃ ch, Goes s [] 0 0 [] (s.withCore1 s.firmware.shared
      { s.firmware.core1 with pc := .process } ch) := by
  have hpast : Core1.step s.firmware.shared s.firmware.core1
      = (s.firmware.shared, { s.firmware.core1 with pc := .receive }) := by
    simp only [Core1.step, htop, hreq, Bool.false_eq_true, if_false]
  have hnone := BoundedList.try_receive_nil hempty
  have hreceived : Core1.step s.firmware.shared { s.firmware.core1 with pc := .receive }
      = (s.firmware.shared, { s.firmware.core1 with pc := .process }) := by
    simp only [Core1.step, hnone]
  obtain ⟨ch₀, hgate⟩ :=
    access_goes (by simp [htop]) (by simp [htop]) hstatus hpast
  obtain ⟨ch, hnext⟩ := access_goes
    (s := s.withCore1 s.firmware.shared { s.firmware.core1 with pc := .receive } ch₀)
    (by simp [withCore1]) (by simp [withCore1]) rfl hreceived
  exact ⟨ch, hgate.trans hnext⟩

/-- A block whose number is due is rendered and reported. -/
theorem reports_block {s : AudioPath F} (block : AudioData F) (us : UInt64)
    (hpc : s.firmware.core1.pc = .process) (hstatus : s.dsp.status = [])
    (hdue : DspLoop.report_due s.dsp.frame_index = true) :
    ∃ u m data t, run step s [.core1 (.process block us), .core1 (.swap_underruns u),
        .core1 (.swap_min m), .core1 (.report data)] = some t
      ∧ t.stage = some .ready ∧ t.dsp.buffer = s.rendered block ∧ SameOut s t := by
  have hprocess := (Moves.process (s := s) block us hpc hstatus).step_eq
  set s₁ : AudioPath F :=
    { s.advance with dsp := s.dsp.processed (s.rendered block) us } with hs₁
  have hstage₁ : s₁.stage = some .swap_underruns := by
    rw [hs₁, stage_process hpc, DspLoop.processed]
    exact congrArg some (if_pos hdue)
  have hunder := (Moves.swap_underruns hstage₁).step_eq
  set u := s₁.shared.audio_underruns with hu
  set s₂ : AudioPath F := { s₁ with
    dsp := { s₁.dsp with stage := .swap_min u }
    shared := { s₁.shared with audio_underruns := 0 } } with hs₂
  have hstage₂ : s₂.stage = some (.swap_min u) := stage_within hstage₁ _ _
  have hmin := (Moves.swap_min hstage₂).step_eq
  set m := s₂.shared.audio_queue_min with hm
  set s₃ : AudioPath F := { s₂ with
    dsp := { s₂.dsp with stage := .log u m }
    shared := { s₂.shared with audio_queue_min := 0xFFFFFFFF } } with hs₃
  have hstage₃ : s₃.stage = some (.log u m) := stage_within hstage₂ _ _
  have hreport := (Moves.report hstage₃).step_eq
  refine ⟨u, m, s₃.dsp.log_data u m,
    { s₃ with
      dsp := { s₃.dsp with peak_duration_us := 0, stage := .ready }
      shared := { s₃.shared with
        log_channel := s₃.shared.log_channel.offer (s₃.dsp.log_data u m) } },
    ?_, stage_within hstage₃ _ _, rfl, ⟨rfl, rfl, rfl, rfl, rfl⟩⟩
  exact run_step hprocess (run_step hunder (run_step hmin (run_step hreport rfl)))

/-! ## A block of `main_task` -/

/-- `main_task` starts the transfer of the front buffer, and takes the next block. -/
theorem takes_block {s : AudioPath F} {block : AudioData F} {rest : List (AudioData F)}
    (hpc : s.main.pc = .write) (hitems : s.shared.audio_channel.items = block :: rest) :
    ∃ t, Goes s [] 0 0 [] t
      ∧ t.main.pc = .convert block ⟨0, by decide⟩ ∧ t.main.dma = some (s.main.front_buffer, 0)
      ∧ t.microphone = s.microphone
      ∧ t.shared.usb_audio_channel = s.shared.usb_audio_channel.offer block
      ∧ t.shared.usb_audio_streaming = s.shared.usb_audio_streaming := by
  have hwrite := Goes.move (Moves.write hpc)
  set s₁ : AudioPath F :=
    { s with main := { s.main with pc := .len, dma := some (s.main.front_buffer, 0) } } with hs₁
  have hlen := Goes.move (Moves.len (s := s₁) rfl)
  set fill := UInt32.ofNat s₁.shared.audio_channel.items.length with hfill
  set s₂ : AudioPath F := { s₁ with main := { s₁.main with pc := .fetch_min fill } } with hs₂
  have hmin : s₂.main.pc = .fetch_min fill := rfl
  have hlow := Goes.move (Moves.low_water hmin)
  obtain ⟨ch, htake, -⟩ := BoundedList.try_receive_cons hitems
  -- from `receive` on; an empty channel would have been counted on the way
  have hlast : ∀ s₃ : AudioPath F, s₃.main = { s₁.main with pc := .receive } →
      s₃.microphone = s.microphone → s₃.shared.audio_channel = s.shared.audio_channel →
      s₃.shared.usb_audio_channel = s.shared.usb_audio_channel →
      s₃.shared.usb_audio_streaming = s.shared.usb_audio_streaming →
      ∃ t, Goes s₃ [] 0 0 [] t
        ∧ t.main.pc = .convert block ⟨0, by decide⟩ ∧ t.main.dma = some (s.main.front_buffer, 0)
        ∧ t.microphone = s.microphone
        ∧ t.shared.usb_audio_channel = s.shared.usb_audio_channel.offer block
        ∧ t.shared.usb_audio_streaming = s.shared.usb_audio_streaming := by
    intro s₃ hmain hmic haudio husb hon
    have hpc₃ : s₃.main.pc = .receive := by rw [hmain]
    have htake₃ : s₃.shared.audio_channel.try_receive = some (block, ch) := by
      rw [haudio]
      exact htake
    have hreceive := Goes.move (Moves.receive hpc₃ htake₃)
    have hoffer : MainTask.pc { s₃.main with pc := .try_send block } = .try_send block := rfl
    have hsend := Goes.move (Moves.try_send (s := { s₃ with
      shared := { s₃.shared with audio_channel := ch }
      main := { s₃.main with pc := .try_send block } }) hoffer)
    refine ⟨_, hreceive.trans hsend, rfl, congrArg MainTask.dma hmain, hmic, ?_, hon⟩
    show s₃.shared.usb_audio_channel.offer block = _
    rw [husb]
  by_cases hzero : fill = 0
  · rw [if_pos hzero] at hlow
    have hcount := Goes.move (Moves.underrun (s := { s₁ with
      shared := { s₁.shared with audio_queue_min := min s₁.shared.audio_queue_min fill }
      main := { s₁.main with pc := .fetch_add } }) rfl)
    obtain ⟨t, hgoes, hend⟩ := hlast { s₁ with
      shared := { s₁.shared with
        audio_queue_min := min s₁.shared.audio_queue_min fill
        audio_underruns := s₁.shared.audio_underruns + 1 }
      main := { s₁.main with pc := .receive } } rfl rfl rfl rfl rfl
    exact ⟨t, (((hwrite.trans hlen).trans hlow).trans hcount).trans hgoes, hend⟩
  · rw [if_neg hzero] at hlow
    obtain ⟨t, hgoes, hend⟩ := hlast { s₁ with
      shared := { s₁.shared with audio_queue_min := min s₁.shared.audio_queue_min fill }
      main := { s₁.main with pc := .receive } } rfl rfl rfl rfl rfl
    exact ⟨t, ((hwrite.trans hlen).trans hlow).trans hgoes, hend⟩

/-- The conversion comes to its end, frame by frame. -/
theorem converts (k : ℕ) {s : AudioPath F} {block : AudioData F} {i : Fin MainTask.BUFFER_SIZE}
    (hpc : s.main.pc = .convert block i) (hk : i.val + 1 + k = MainTask.BUFFER_SIZE) :
    ∃ m, Goes s [] 0 0 [] { s with main := m } ∧ m.pc = .dma_wait ∧ m.dma = s.main.dma := by
  have hstep := Goes.move (Moves.convert hpc)
  induction k generalizing s i with
  | zero =>
      refine ⟨_, hstep, ?_, rfl⟩
      exact dif_neg (by omega)
  | succ k ih =>
      have hlt : i.val + 1 < MainTask.BUFFER_SIZE := by omega
      have hpc' : (s.main.convert block i).pc = .convert block ⟨i + 1, hlt⟩ := dif_pos hlt
      obtain ⟨m, hgoes, hend, hdma⟩ := ih (s := { s with main := s.main.convert block i }) hpc'
        (by show i.val + 1 + 1 + k = _; omega) (Goes.move (Moves.convert hpc'))
      exact ⟨m, hstep.trans hgoes, hend, hdma⟩

/-- The DMA reads `k` words. -/
theorem plays (k : ℕ) {s : AudioPath F} {half : Bool} {n : ℕ}
    (hdma : s.main.dma = some (half, n)) (hk : n + k ≤ MainTask.BUFFER_SIZE) :
    Goes s [] 0 k [] { s with main := { s.main with dma := some (half, n + k) } } := by
  induction k with
  | zero =>
      have hsame : { s with main := { s.main with dma := some (half, n + 0) } } = s := by
        rw [Nat.add_zero, ← hdma]
      rw [hsame]
      exact Goes.refl s
  | succ k ih =>
      have hlt : n + k < MainTask.BUFFER_SIZE := by omega
      exact (ih (by omega)).trans (Goes.move (Moves.dma
        (s := { s with main := { s.main with dma := some (half, n + k) } }) rfl
        (Vector.getElem?_eq_getElem hlt)))

/-- A block that waits to be converted is played behind the front buffer, whole. -/
theorem plays_block {s : AudioPath F} {block : AudioData F} {half : Bool}
    (hpc : s.main.pc = .convert block ⟨0, by decide⟩) (hdma : s.main.dma = some (half, 0)) :
    ∃ t, Goes s [] 0 (2 * MainTask.BUFFER_SIZE) [] t := by
  obtain ⟨m, hconvert, hwait, hsame⟩ := converts 127 hpc rfl
  have hfirst := plays MainTask.BUFFER_SIZE (s := { s with main := m }) (hsame.trans hdma)
    (Nat.le_of_eq (Nat.zero_add _))
  rw [Nat.zero_add] at hfirst
  have hplayed : MainTask.dma { m with dma := some (half, MainTask.BUFFER_SIZE) }
      = some (half, MainTask.BUFFER_SIZE) := rfl
  have hswap := Goes.move (Moves.swap
    (s := { s with main := { m with dma := some (half, MainTask.BUFFER_SIZE) } }) hwait hplayed)
  have hwrite := Goes.move (Moves.write (s := { s with main := { m with
    pc := .write
    back_buffer := m.front_buffer
    front_buffer := m.back_buffer
    dma := none } }) rfl)
  set m' : MainTask F := { m with
    pc := .len
    back_buffer := m.front_buffer
    front_buffer := m.back_buffer
    dma := some (m.back_buffer, 0) }
  have hfront : m'.dma = some (m.back_buffer, 0) := rfl
  have hsecond := plays MainTask.BUFFER_SIZE (s := { s with main := m' }) hfront
    (Nat.le_of_eq (Nat.zero_add _))
  have hall := (((hconvert.trans hfirst).trans hswap).trans hwrite).trans hsecond
  exact ⟨_, hall⟩

/-! ## The first block -/

/-- From power-up to the first block in `AUDIO_CHANNEL`: it is rendered, reported and
sent. -/
theorem sends_block (p : Preset F) (block : AudioData F) (us : UInt64) :
    ∃ s u m data t, Goes (atBoot p) [] 0 0 [] s
      ∧ run step s [.core1 (.process block us), .core1 (.swap_underruns u),
        .core1 (.swap_min m), .core1 (.report data), .core1 (.send block)] = some t
      ∧ t.shared.audio_channel.items = [block] ∧ t.main = MainTask.start
      ∧ t.microphone = MicrophoneTask.start ∧ t.shared.usb_audio_channel.items = [] := by
  obtain ⟨sh, c, ch, hlive, hsame, htop, hvoice, -⟩ := goes_live p
  obtain ⟨ch', hready⟩ := goes_to_process (s := (atBoot p).withCore1 sh c ch) htop
    hsame.gate_req (congrArg BoundedList.items hsame.preset_channel) rfl
  set s₀ := ((atBoot p).withCore1 sh c ch).withCore1 sh { c with pc := .process } ch'
  obtain ⟨u, m, data, s₁, hreport, hstage, hbuffer, hout⟩ := reports_block block us
    (s := s₀) rfl rfl rfl
  have hrendered : s₁.dsp.buffer = block := hbuffer.trans (if_pos hvoice)
  have hempty : s₁.shared.audio_channel.items = [] := congrArg BoundedList.items hout.audio_channel
  have hroom : ¬ s₁.shared.audio_channel.Full := by
    rw [BoundedList.not_full_iff, hempty]
    exact Nat.zero_lt_succ 3
  have hsend := (Moves.send hstage hroom).step_eq
  rw [hrendered] at hsend
  refine ⟨s₀, u, m, data, _, hlive.trans hready, run_trans hreport (run_step hsend rfl), ?_,
    hout.main, hout.microphone, congrArg BoundedList.items hout.usb_audio_channel⟩
  show (s₁.shared.audio_channel.offer block).items = [block]
  rw [BoundedList.offer_items_of_not_full hroom, hempty]
  rfl

/-- From there to its conversion. `main_task` has offered it to the USB side, which has not
moved. -/
theorem first_block (p : Preset F) (block : AudioData F) :
    ∃ t half, Goes (atBoot p) [block] 1 0 [] t
      ∧ t.main.pc = .convert block ⟨0, by decide⟩ ∧ t.main.dma = some (half, 0)
      ∧ t.microphone = MicrophoneTask.start ∧ t.shared.usb_audio_channel.items = [block] := by
  obtain ⟨s, u, m, data, s₁, hlive, hsent, hitems, hmain, hmic, husb⟩ := sends_block p block 0
  have hblock : Goes s [block] 1 0 [] s₁ := ⟨_, hsent, rfl, rfl, rfl, rfl⟩
  have hwrite : s₁.main.pc = .write := by rw [hmain]; rfl
  obtain ⟨t, htake, hpc, hdma, hmic', husb', -⟩ := takes_block hwrite hitems
  refine ⟨t, _, (hlive.trans hblock).trans htake, hpc, hdma, hmic'.trans hmic, ?_⟩
  have hroom : ¬ s₁.shared.usb_audio_channel.Full := by
    rw [BoundedList.not_full_iff, husb]
    exact Nat.zero_lt_succ 1
  rw [husb', BoundedList.offer_items_of_not_full hroom, husb]
  rfl

/-! ## The first packet -/

/-- `microphone_task` receives a block and writes a packet, if it can do so by itself. -/
theorem hears_packet {s : AudioPath F} {block : AudioData F} {rest : List (AudioData F)}
    {packet : List UInt8} {timed_out : Bool} {m : MicrophoneTask.Microphone F}
    (hon : s.shared.usb_audio_streaming = true)
    (hitems : s.shared.usb_audio_channel.items = block :: rest)
    (hrun : run MicrophoneTask.step s.microphone
      [.load true, .round, .receive block, .round, .write packet timed_out] = some m) :
    ∃ t, Goes s [] 0 0 [.load true, .round, .receive block, .round, .write packet timed_out] t := by
  simp only [run_cons, run_nil, Option.bind_eq_some_iff] at hrun
  obtain ⟨m₁, hload, m₂, hwait, m₃, hreceive, m₄, hfull, m₅, hwrite, -⟩ := hrun
  obtain ⟨ch, htake, -⟩ := BoundedList.try_receive_cons hitems
  have hheard : hear s.shared (.receive block)
      = some { s.shared with usb_audio_channel := ch } := by
    simp only [hear, htake, if_true]
  have hl := Goes.move (Moves.microphone (s := s) (e := .load true) (if_pos hon) hload)
  have hw := Goes.move (Moves.microphone (s := { s with microphone := m₁ }) (e := .round) rfl hwait)
  have hr := Goes.move (Moves.microphone (s := { s with microphone := m₂ }) hheard hreceive)
  set s₃ : AudioPath F :=
    { s with shared := { s.shared with usb_audio_channel := ch }, microphone := m₃ } with hs₃
  have hf := Goes.move (Moves.microphone (s := s₃) (e := .round) rfl hfull)
  have ho := Goes.move (Moves.microphone (s := { s₃ with microphone := m₄ })
    (e := .write packet timed_out) rfl hwrite)
  exact ⟨_, (((hl.trans hw).trans hr).trans hf).trans ho⟩

/-- From power-up to the first packet of a stream that the host has opened. -/
theorem first_packet (p : Preset F) (block : AudioData F) : ∃ packet t,
    Goes (atBoot p) [block] 1 0
      [.load true, .round, .receive block, .round, .write packet false] t := by
  obtain ⟨s, half, hfirst, -, -, hmic, hitems⟩ := first_block p block
  have hopen := Goes.move (Moves.streaming (s := s) true)
  obtain ⟨t, hpacket⟩ := hears_packet
    (s := { s with shared := { s.shared with usb_audio_streaming := true } }) rfl hitems
    (by rw [hmic]; exact MicrophoneTask.packet_fresh _ block false)
  exact ⟨_, t, (hfirst.trans hopen).trans hpacket⟩

end AudioPath

end PicoDsp
