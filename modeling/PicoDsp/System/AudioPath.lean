/-
The audio from core1 to the DAC and to USB: the DSP loop of `core1_task`
(`tasks/core1.rs`), `main_task` and `microphone_task` (`tasks/core0.rs`), and the
channels and counters of `common/shared.rs` between them.

The tasks of `Firmware` go on as before, except that core1 waits in
`AUDIO_CHANNEL.send(..)` and in `SYSTEM_STATUS_CHANNEL.send(..)` while the channel is
full. `main_task` moves one access at a time, and a word at a time in its conversion loop,
since the DMA transfer it has started reads the other half of `DMA_BUFFER` meanwhile.
Times, the numbers in the messages and the priority of the DMA channel are left out.

What `synth.process` makes of a block is an input of the step: any block, in any time. So
the results hold for all sounds, and for a DSP that is too slow. The time a block took
enters through the peak of the statistics alone.

The stages of the DSP loop between `synth.process` and the end of its `send` are kept beside
the program counter of core1, which stands in front of its `send` meanwhile; `stage`
reads both. The messages that core1 has to send before its next access wait in a list, and
it cannot go on until the list is empty.

`Moves` gives, for each thing that a task can do, what it needs and the state behind it, and
is as strong as the step function: `step_iff_moves` has both directions. All invariants
about this system are proved by cases on it, and all runs that are constructed are made
of it, so no later module unfolds a step.
-/
import PicoDsp.System.Firmware
import PicoDsp.Usb.MicrophoneTask

set_option autoImplicit false

namespace PicoDsp

open Lib

/-- The buffer of an `AudioData`. -/
abbrev AudioData (F : Type) : Type := Vector F MicrophoneTask.BLOCK_SIZE

/-- A report of core1 to `logger_task`. -/
structure LogData (F : Type) where
  sample : F
  duration_us : UInt64
  load_percent : F
  underruns : UInt32
  queue_min : UInt32
  deriving DecidableEq

/-- What `SYSTEM_STATUS_CHANNEL` carries: the messages of core1, without their numbers, and
those of `log_storage!`. -/
inductive StatusMessage
  | starting
  | heap_free_before_build
  | build_synth_ok
  | chain_initialized
  | memory_used
  | memory_free
  | stack_used
  | dsp_running
  | switching_preset
  | preset_switched
  | storage (text : String)
  deriving DecidableEq

/-- The statics of the audio path. -/
structure AudioShared (F : Type) where
  audio_channel : BoundedList (AudioData F) 4
  usb_audio_channel : BoundedList (AudioData F) 2
  audio_underruns : UInt32
  audio_queue_min : UInt32
  log_channel : BoundedList (LogData F) 4
  system_status_channel : BoundedList StatusMessage 4
  usb_audio_streaming : Bool

/-! ## core1 -/

/-- What core1 does next between `synth.process` and the end of its `send`. -/
inductive DspLoop.Stage
  /-- `AUDIO_UNDERRUNS.swap(0)` -/
  | swap_underruns
  /-- `AUDIO_QUEUE_MIN.swap(u32::MAX)` -/
  | swap_min (underruns : UInt32)
  /-- `LOG_CHANNEL.try_send(..)` -/
  | log (underruns queue_min : UInt32)
  /-- `AUDIO_CHANNEL.send(..)` -/
  | ready
  deriving DecidableEq

/-- The variables of the DSP loop, and the messages that core1 sends before its next
access. -/
structure DspLoop (F : Type) where
  buffer : AudioData F
  frame_index : UInt64
  peak_duration_us : UInt64
  stage : DspLoop.Stage
  status : List StatusMessage

namespace DspLoop

variable {F : Type} [F32 F]

/-- `(BLOCK_SIZE as f32 / 2.0 / SAMPLE_RATE * 1_000_000.0) as u64` -/
def max_duration_us : UInt64 := 2666

/-- `frame_index % (SAMPLE_RATE as u64) < (BLOCK_SIZE as u64 / 2)` -/
def report_due (frame_index : UInt64) : Bool := frame_index % 48000 < 256 / 2

/-- The task at its start. -/
def start : DspLoop F := ⟨Vector.replicate _ (F32.lit 0), 0, 0, .ready, [.starting]⟩

/-- The messages of `print_stats`. -/
def print_stats : List StatusMessage := [.chain_initialized, .memory_used, .memory_free, .stack_used]

/-- The messages between an access of core1 and the next one. -/
def messages (sh : Shared F) (c : Core1 F) : List StatusMessage :=
  match c.pc with
  | .switching _ => if sh.core1_running then [] else [.heap_free_before_build]
  | .building _ [] =>
      if sh.core1_running then .preset_switched :: print_stats
      else .build_synth_ok :: (print_stats ++ [.dsp_running])
  | .receive =>
      match sh.preset_channel.try_receive with
      | some _ => .switching_preset :: print_stats
      | none => []
  | _ => []

omit [F32 F] in
/-- After `synth.process`, which took `us`. -/
def processed (d : DspLoop F) (block : AudioData F) (us : UInt64) : DspLoop F :=
  { d with
    buffer := block
    peak_duration_us := if us > d.peak_duration_us then us else d.peak_duration_us
    stage := if report_due d.frame_index then .swap_underruns else .ready }

/-- The report: a low-water mark that nobody has lowered is written as 0. -/
def log_data (d : DspLoop F) (underruns queue_min : UInt32) : LogData F where
  sample := d.buffer.get ⟨0, by unfold MicrophoneTask.BLOCK_SIZE; omega⟩
  duration_us := d.peak_duration_us
  load_percent := F32.lit (d.peak_duration_us.toNat : ℚ) / F32.lit (max_duration_us.toNat : ℚ)
    * F32.lit 100
  underruns := underruns
  queue_min := if queue_min = 0xFFFFFFFF then 0 else queue_min

end DspLoop

/-! ## main_task -/

namespace MainTask

open MicrophoneTask

/-- u32 I2S frames per DMA buffer. -/
def BUFFER_SIZE : ℕ := BLOCK_SIZE / 2

/-- Where the task waits, or the access it makes next. -/
inductive Pc (F : Type)
  /-- `i2s.write(front_buffer)` -/
  | write
  /-- `AUDIO_CHANNEL.len()` -/
  | len
  /-- `AUDIO_QUEUE_MIN.fetch_min(fill)` -/
  | fetch_min (fill : UInt32)
  /-- `AUDIO_UNDERRUNS.fetch_add(1)`, where `fill` was 0. -/
  | fetch_add
  /-- `AUDIO_CHANNEL.receive().await` -/
  | receive
  /-- `USB_AUDIO_CHANNEL.try_send(audio_data)` -/
  | try_send (audio_data : AudioData F)
  /-- The conversion loop, in front of frame `i`. -/
  | convert (audio_data : AudioData F) (i : Fin BUFFER_SIZE)
  /-- `dma_future.await` -/
  | dma_wait

end MainTask

open MainTask in
/-- `DMA_BUFFER` by its halves, which half each of the two slices is, and the transfer
that goes on: the half it reads, and how many words it has read. -/
structure MainTask (F : Type) where
  pc : MainTask.Pc F
  dma_buffer : Bool → Vector UInt32 BUFFER_SIZE
  back_buffer : Bool
  front_buffer : Bool
  dma : Option (Bool × ℕ)

/-- What `main_task` does that is counted. -/
inductive MainEvent
  /-- It moves on. -/
  | turn
  /-- It lowers the low-water mark to `fill`, if that is less. -/
  | low_water (fill : UInt32)
  /-- It counts an underrun. -/
  | underrun

namespace MainTask

open MicrophoneTask

variable {F : Type}

/-- The task in front of its loop. -/
def start : MainTask F := ⟨.write, fun _ => Vector.replicate _ 0, false, true, none⟩

section

variable [F32 F] [CastI16 F]

/-- `(x * I16_SCALE) as i16 as u16 as u32` -/
def to_u32 (x : F) : UInt32 := (CastI16.as_i16 (x * I16_SCALE)).toUInt16.toUInt32

/-- `(l << 16) | r` -/
def pack (frame : F × F) : UInt32 := to_u32 frame.1 <<< 16 ||| to_u32 frame.2

omit [F32 F] [CastI16 F] in
/-- Chunk `i` of `audio_data.buffer.chunks_exact(2)`. -/
def frame (audio_data : AudioData F) (i : Fin BUFFER_SIZE) : F × F :=
  (audio_data.get ⟨2 * i, by have h := i.isLt; unfold BUFFER_SIZE BLOCK_SIZE at *; omega⟩,
    audio_data.get ⟨2 * i + 1, by have h := i.isLt; unfold BUFFER_SIZE BLOCK_SIZE at *; omega⟩)

/-- The conversion of frame `i` into the back buffer. -/
def convert (m : MainTask F) (audio_data : AudioData F) (i : Fin BUFFER_SIZE) : MainTask F :=
  { m with
    pc := if h : i.val + 1 < BUFFER_SIZE then .convert audio_data ⟨i + 1, h⟩ else .dma_wait
    dma_buffer := Function.update m.dma_buffer m.back_buffer
      ((m.dma_buffer m.back_buffer).set i (pack (frame audio_data i))) }

/-- The next access of `main_task`, with its effect on the statics. -/
def step (a : AudioShared F) (m : MainTask F) : MainEvent → Option (AudioShared F × MainTask F)
  | .turn =>
      match m.pc with
      | .write => some (a, { m with pc := .len, dma := some (m.front_buffer, 0) })
      | .len => some (a, { m with pc := .fetch_min (UInt32.ofNat a.audio_channel.items.length) })
      | .receive =>
          a.audio_channel.try_receive.map fun r =>
            ({ a with audio_channel := r.2 }, { m with pc := .try_send r.1 })
      | .try_send audio_data =>
          some ({ a with usb_audio_channel := a.usb_audio_channel.offer audio_data },
            { m with pc := .convert audio_data ⟨0, by decide⟩ })
      | .convert audio_data i => some (a, m.convert audio_data i)
      | .dma_wait =>
          match m.dma with
          | some (_, n) =>
              if n = BUFFER_SIZE then
                some (a, { m with
                  pc := .write
                  back_buffer := m.front_buffer
                  front_buffer := m.back_buffer
                  dma := none })
              else none
          | none => none
      | .fetch_min _ | .fetch_add => none
  | .low_water fill =>
      match m.pc with
      | .fetch_min n =>
          if n = fill then
            some ({ a with audio_queue_min := min a.audio_queue_min fill },
              { m with pc := if fill = 0 then .fetch_add else .receive })
          else none
      | _ => none
  | .underrun =>
      match m.pc with
      | .fetch_add =>
          some ({ a with audio_underruns := a.audio_underruns + 1 }, { m with pc := .receive })
      | _ => none

omit [F32 F] [CastI16 F] in
/-- The DMA reads a word. -/
def dma_step (m : MainTask F) (word : UInt32) : Option (MainTask F) :=
  match m.dma with
  | some (half, n) =>
      if (m.dma_buffer half)[n]? = some word then some { m with dma := some (half, n + 1) }
      else none
  | none => none

end

end MainTask

/-! ## The tasks together -/

structure AudioPath (F : Type) where
  firmware : Firmware F
  dsp : DspLoop F
  shared : AudioShared F
  main : MainTask F
  microphone : MicrophoneTask.Microphone F

/-- What core1 does. -/
inductive Core1Event (F : Type)
  /-- `SYSTEM_STATUS_CHANNEL.send(msg)` -/
  | status (msg : StatusMessage)
  /-- An access that has nothing to do with audio. -/
  | access
  /-- `synth.process` leaves `block` in the buffer and takes `us`. -/
  | process (block : AudioData F) (us : UInt64)
  | swap_underruns (underruns : UInt32)
  | swap_min (queue_min : UInt32)
  /-- `LOG_CHANNEL.try_send(..)`, which may fail. -/
  | report (data : LogData F)
  | send (block : AudioData F)

/-- Who moves. -/
inductive AudioLabel (F : Type)
  /-- A task of `Firmware` other than core1, or an input. -/
  | task (l : Label)
  | core1 (e : Core1Event F)
  | main (e : MainEvent)
  /-- The DMA moves a word to the I2S output. -/
  | dma (word : UInt32)
  | microphone (e : MicrophoneTask.Event F)
  /-- The host opens or closes the stream. -/
  | streaming (on : Bool)
  /-- `logger_task` receives a report. -/
  | logger
  /-- `logger_task` receives a status message. -/
  | logger_status
  /-- `midi_task` is in `log_storage!`. -/
  | log_storage (text : String)

namespace AudioPath

open MicrophoneTask (Event)

variable {F : Type} [F32 F] [CastI16 F] [DecidableEq F]

omit [CastI16 F] [DecidableEq F] in
/-- core1 makes its next access to the statics of `Firmware`. -/
def advance (s : AudioPath F) : AudioPath F :=
  { s with firmware :=
    { s.firmware with
      shared := (Core1.step s.firmware.shared s.firmware.core1).1
      core1 := (Core1.step s.firmware.shared s.firmware.core1).2 } }

omit [F32 F] [CastI16 F] [DecidableEq F] in
/-- Where core1 is, in its DSP loop. -/
def stage (s : AudioPath F) : Option DspLoop.Stage :=
  match s.firmware.core1.pc with
  | .send => some s.dsp.stage
  | _ => none

omit [CastI16 F] [DecidableEq F] in
/-- Without a voice the buffer is filled with zeros. -/
def rendered (s : AudioPath F) (block : AudioData F) : AudioData F :=
  if s.firmware.core1.voice.isSome then block else Vector.replicate _ (F32.lit 0)

omit [CastI16 F] in
def core1_step (s : AudioPath F) : Core1Event F → Option (AudioPath F)
  | .status msg =>
      match s.dsp.status with
      | m :: rest =>
          if m = msg ∧ ¬ s.shared.system_status_channel.Full then
            some { s with
              dsp := { s.dsp with status := rest }
              shared := { s.shared with
                system_status_channel := s.shared.system_status_channel.offer m } }
          else none
      | [] => none
  | .access =>
      match s.firmware.core1.pc, s.dsp.status with
      | .process, _ | .send, _ | _, _ :: _ => none
      | _, [] => some { s.advance with dsp := { s.dsp with
          status := DspLoop.messages s.firmware.shared s.firmware.core1 } }
  | .process block us =>
      match s.firmware.core1.pc, s.dsp.status with
      | .process, [] => some { s.advance with dsp := s.dsp.processed (s.rendered block) us }
      | _, _ => none
  | .swap_underruns underruns =>
      match s.stage with
      | some .swap_underruns =>
          if s.shared.audio_underruns = underruns then
            some { s with
              dsp := { s.dsp with stage := .swap_min underruns }
              shared := { s.shared with audio_underruns := 0 } }
          else none
      | _ => none
  | .swap_min queue_min =>
      match s.stage with
      | some (.swap_min underruns) =>
          if s.shared.audio_queue_min = queue_min then
            some { s with
              dsp := { s.dsp with stage := .log underruns queue_min }
              shared := { s.shared with audio_queue_min := 0xFFFFFFFF } }
          else none
      | _ => none
  | .report data =>
      match s.stage with
      | some (.log underruns queue_min) =>
          if s.dsp.log_data underruns queue_min = data then
            some { s with
              dsp := { s.dsp with stage := .ready, peak_duration_us := 0 }
              shared := { s.shared with log_channel := s.shared.log_channel.offer data } }
          else none
      | _ => none
  | .send block =>
      match s.stage with
      | some .ready =>
          if s.dsp.buffer = block ∧ ¬ s.shared.audio_channel.Full then
            some { s.advance with
              dsp := { s.dsp with frame_index := s.dsp.frame_index + 256 / 2 }
              shared := { s.shared with audio_channel := s.shared.audio_channel.offer block } }
          else none
      | _ => none

omit [F32 F] [CastI16 F] in
/-- What an event of `microphone_task` needs of the statics, and what it leaves. -/
def hear (a : AudioShared F) : Event F → Option (AudioShared F)
  | .load streaming => if a.usb_audio_streaming = streaming then some a else none
  | .drain block | .receive block =>
      match a.usb_audio_channel.try_receive with
      | some (b, ch) => if b = block then some { a with usb_audio_channel := ch } else none
      | none => none
  | .round | .write _ _ => some a

def step (s : AudioPath F) : AudioLabel F → Option (AudioPath F)
  | .task .core1 => none
  | .task l => (s.firmware.step l).map fun firmware => { s with firmware := firmware }
  | .core1 e => s.core1_step e
  | .main e => (s.main.step s.shared e).map fun r => { s with shared := r.1, main := r.2 }
  | .dma word => (s.main.dma_step word).map fun main => { s with main := main }
  | .microphone e =>
      match hear s.shared e, MicrophoneTask.step s.microphone e with
      | some shared, some microphone => some { s with shared := shared, microphone := microphone }
      | _, _ => none
  | .streaming on => some { s with shared := { s.shared with usb_audio_streaming := on } }
  | .logger =>
      s.shared.log_channel.try_receive.map fun r =>
        { s with shared := { s.shared with log_channel := r.2 } }
  | .logger_status =>
      s.shared.system_status_channel.try_receive.map fun r =>
        { s with shared := { s.shared with system_status_channel := r.2 } }
  | .log_storage text =>
      match s.firmware.todo with
      | .flash .gate_ack :: _ => none
      | _ => some { s with shared := { s.shared with
          system_status_channel := s.shared.system_status_channel.offer (.storage text) } }

omit [DecidableEq F] [CastI16 F] in
/-- The device at boot: every task of the audio path at its start. The storage may have
logged something by then. -/
structure Boot (p : Preset F) (s : AudioPath F) : Prop where
  firmware : Firmware.Boot p s.firmware
  dsp : s.dsp = DspLoop.start
  main : s.main = MainTask.start
  microphone : s.microphone = MicrophoneTask.start
  audio_channel : s.shared.audio_channel.items = []
  usb_audio_channel : s.shared.usb_audio_channel.items = []
  audio_underruns : s.shared.audio_underruns = 0
  audio_queue_min : s.shared.audio_queue_min = 0xFFFFFFFF
  log_channel : s.shared.log_channel.items = []
  usb_audio_streaming : s.shared.usb_audio_streaming = false

omit [CastI16 F] [DecidableEq F] in
/-- A device at boot, with an empty flash. -/
def atBoot (p : Preset F) : AudioPath F where
  firmware := Firmware.atBoot p
  dsp := DspLoop.start
  shared := ⟨.new, .new, 0, 0xFFFFFFFF, .new, .new, false⟩
  main := MainTask.start
  microphone := MicrophoneTask.start

omit [CastI16 F] [DecidableEq F] in
/-- It is one of the devices that the results are about. -/
theorem atBoot_boot (p : Preset F) : Boot p (atBoot p) :=
  ⟨Firmware.atBoot_boot p, rfl, rfl, rfl, rfl, rfl, rfl, rfl, rfl, rfl⟩

/-! ## What a step can do -/

/-- The state after a step, by who moved and where it was. -/
inductive Moves (s : AudioPath F) : AudioLabel F → AudioPath F → Prop
  | task {l : Label} {firmware : Firmware F} (hl : l ≠ .core1)
      (h : s.firmware.step l = some firmware) : Moves s (.task l) { s with firmware := firmware }
  | status {msg : StatusMessage} {rest : List StatusMessage} (hstatus : s.dsp.status = msg :: rest)
      (hroom : ¬ s.shared.system_status_channel.Full) :
      Moves s (.core1 (.status msg))
        { s with
          dsp := { s.dsp with status := rest }
          shared := { s.shared with
            system_status_channel := s.shared.system_status_channel.offer msg } }
  | access (hprocess : s.firmware.core1.pc ≠ .process) (hsend : s.firmware.core1.pc ≠ .send)
      (hstatus : s.dsp.status = []) :
      Moves s (.core1 .access)
        { s.advance with dsp := { s.dsp with
          status := DspLoop.messages s.firmware.shared s.firmware.core1 } }
  | process (block : AudioData F) (us : UInt64) (hpc : s.firmware.core1.pc = .process)
      (hstatus : s.dsp.status = []) :
      Moves s (.core1 (.process block us))
        { s.advance with dsp := s.dsp.processed (s.rendered block) us }
  | swap_underruns (hstage : s.stage = some .swap_underruns) :
      Moves s (.core1 (.swap_underruns s.shared.audio_underruns))
        { s with
          dsp := { s.dsp with stage := .swap_min s.shared.audio_underruns }
          shared := { s.shared with audio_underruns := 0 } }
  | swap_min {underruns : UInt32} (hstage : s.stage = some (.swap_min underruns)) :
      Moves s (.core1 (.swap_min s.shared.audio_queue_min))
        { s with
          dsp := { s.dsp with stage := .log underruns s.shared.audio_queue_min }
          shared := { s.shared with audio_queue_min := 0xFFFFFFFF } }
  | report {underruns queue_min : UInt32} (hstage : s.stage = some (.log underruns queue_min)) :
      Moves s (.core1 (.report (s.dsp.log_data underruns queue_min)))
        { s with
          dsp := { s.dsp with stage := .ready, peak_duration_us := 0 }
          shared := { s.shared with
            log_channel := s.shared.log_channel.offer (s.dsp.log_data underruns queue_min) } }
  | send (hstage : s.stage = some .ready) (hroom : ¬ s.shared.audio_channel.Full) :
      Moves s (.core1 (.send s.dsp.buffer))
        { s.advance with
          dsp := { s.dsp with frame_index := s.dsp.frame_index + 256 / 2 }
          shared := { s.shared with
            audio_channel := s.shared.audio_channel.offer s.dsp.buffer } }
  | write (hpc : s.main.pc = .write) :
      Moves s (.main .turn)
        { s with main := { s.main with pc := .len, dma := some (s.main.front_buffer, 0) } }
  | len (hpc : s.main.pc = .len) :
      Moves s (.main .turn)
        { s with main := { s.main with
          pc := .fetch_min (UInt32.ofNat s.shared.audio_channel.items.length) } }
  | low_water {fill : UInt32} (hpc : s.main.pc = .fetch_min fill) :
      Moves s (.main (.low_water fill))
        { s with
          shared := { s.shared with audio_queue_min := min s.shared.audio_queue_min fill }
          main := { s.main with pc := if fill = 0 then .fetch_add else .receive } }
  | underrun (hpc : s.main.pc = .fetch_add) :
      Moves s (.main .underrun)
        { s with
          shared := { s.shared with audio_underruns := s.shared.audio_underruns + 1 }
          main := { s.main with pc := .receive } }
  | receive {block : AudioData F} {ch : BoundedList (AudioData F) 4} (hpc : s.main.pc = .receive)
      (htake : s.shared.audio_channel.try_receive = some (block, ch)) :
      Moves s (.main .turn)
        { s with
          shared := { s.shared with audio_channel := ch }
          main := { s.main with pc := .try_send block } }
  | try_send {block : AudioData F} (hpc : s.main.pc = .try_send block) :
      Moves s (.main .turn)
        { s with
          shared := { s.shared with usb_audio_channel := s.shared.usb_audio_channel.offer block }
          main := { s.main with pc := .convert block ⟨0, by decide⟩ } }
  | convert {block : AudioData F} {i : Fin MainTask.BUFFER_SIZE}
      (hpc : s.main.pc = .convert block i) :
      Moves s (.main .turn) { s with main := s.main.convert block i }
  | swap {half : Bool} (hpc : s.main.pc = .dma_wait)
      (hdma : s.main.dma = some (half, MainTask.BUFFER_SIZE)) :
      Moves s (.main .turn)
        { s with main := { s.main with
          pc := .write
          back_buffer := s.main.front_buffer
          front_buffer := s.main.back_buffer
          dma := none } }
  | dma {half : Bool} {n : ℕ} {word : UInt32} (hdma : s.main.dma = some (half, n))
      (hword : (s.main.dma_buffer half)[n]? = some word) :
      Moves s (.dma word) { s with main := { s.main with dma := some (half, n + 1) } }
  | microphone {e : Event F} {shared : AudioShared F} {microphone : MicrophoneTask.Microphone F}
      (hhear : hear s.shared e = some shared)
      (hstep : MicrophoneTask.step s.microphone e = some microphone) :
      Moves s (.microphone e) { s with shared := shared, microphone := microphone }
  | streaming (on : Bool) :
      Moves s (.streaming on) { s with shared := { s.shared with usb_audio_streaming := on } }
  | logger {data : LogData F} {ch : BoundedList (LogData F) 4}
      (htake : s.shared.log_channel.try_receive = some (data, ch)) :
      Moves s .logger { s with shared := { s.shared with log_channel := ch } }
  | logger_status {msg : StatusMessage} {ch : BoundedList StatusMessage 4}
      (htake : s.shared.system_status_channel.try_receive = some (msg, ch)) :
      Moves s .logger_status { s with shared := { s.shared with system_status_channel := ch } }
  | log_storage (text : String) (hbusy : ∀ es, s.firmware.todo ≠ .flash .gate_ack :: es) :
      Moves s (.log_storage text) { s with shared := { s.shared with
        system_status_channel := s.shared.system_status_channel.offer (.storage text) } }

section Steps

variable {s s' : AudioPath F}

/-- What core1 can do. -/
theorem core1_moves {e : Core1Event F} (h : s.core1_step e = some s') :
    Moves s (.core1 e) s' := by
  cases e with
  | status msg =>
      simp only [core1_step] at h
      split at h
      · rename_i m rest hstatus
        obtain ⟨⟨rfl, hroom⟩, hnext⟩ := Option.ite_none_right_eq_some.mp h
        cases hnext
        exact .status hstatus hroom
      · cases h
  | access =>
      simp only [core1_step] at h
      split at h
      · cases h
      · cases h
      · cases h
      · rename_i hstatus hprocess hsend
        cases h
        exact .access hprocess hsend hstatus
  | process block us =>
      simp only [core1_step] at h
      split at h
      · rename_i hpc hstatus
        cases h
        exact .process block us hpc hstatus
      · cases h
  | swap_underruns underruns =>
      simp only [core1_step] at h
      split at h
      · rename_i hstage
        obtain ⟨rfl, h⟩ := Option.ite_none_right_eq_some.mp h
        cases h
        exact .swap_underruns hstage
      · cases h
  | swap_min queue_min =>
      simp only [core1_step] at h
      split at h
      · rename_i underruns hstage
        obtain ⟨rfl, h⟩ := Option.ite_none_right_eq_some.mp h
        cases h
        exact .swap_min hstage
      · cases h
  | report data =>
      simp only [core1_step] at h
      split at h
      · rename_i underruns queue_min hstage
        obtain ⟨rfl, h⟩ := Option.ite_none_right_eq_some.mp h
        cases h
        exact .report hstage
      · cases h
  | send block =>
      simp only [core1_step] at h
      split at h
      · rename_i hstage
        obtain ⟨⟨rfl, hroom⟩, h⟩ := Option.ite_none_right_eq_some.mp h
        cases h
        exact .send hstage hroom
      · cases h

/-- What `main_task` can do. -/
theorem main_moves {e : MainEvent} {r : AudioShared F × MainTask F}
    (h : s.main.step s.shared e = some r) :
    Moves s (.main e) { s with shared := r.1, main := r.2 } := by
  cases e with
  | turn =>
      simp only [MainTask.step] at h
      split at h
      · rename_i hpc
        cases h
        exact .write hpc
      · rename_i hpc
        cases h
        exact .len hpc
      · rename_i hpc
        obtain ⟨⟨block, ch⟩, htake, rfl⟩ := Option.map_eq_some_iff.mp h
        exact .receive hpc htake
      · rename_i block hpc
        cases h
        exact .try_send hpc
      · rename_i block i hpc
        cases h
        exact .convert hpc
      · rename_i hpc
        split at h
        · rename_i half n hdma
          obtain ⟨rfl, h⟩ := Option.ite_none_right_eq_some.mp h
          cases h
          exact .swap hpc hdma
        · cases h
      · cases h
      · cases h
  | low_water fill =>
      simp only [MainTask.step] at h
      split at h
      · rename_i n hpc
        obtain ⟨rfl, h⟩ := Option.ite_none_right_eq_some.mp h
        cases h
        exact .low_water hpc
      · cases h
  | underrun =>
      simp only [MainTask.step] at h
      split at h
      · rename_i hpc
        cases h
        exact .underrun hpc
      · cases h

/-- **The step lemma of the audio path.** -/
theorem step_moves {l : AudioLabel F} (h : s.step l = some s') : Moves s l s' := by
  cases l with
  | task l =>
      have hl : l ≠ .core1 := by
        rintro rfl
        cases h
      have h' : (s.firmware.step l).map (fun firmware => { s with firmware := firmware })
          = some s' := by
        cases l with
        | core1 => exact absurd rfl hl
        | usb_read data => exact h
        | command => exact h
        | ble_receive => exact h
        | handle => exact h
        | access => exact h
        | notify packet => exact h
        | paired => exact h
        | link_lost => exact h
      obtain ⟨firmware, hstep, rfl⟩ := Option.map_eq_some_iff.mp h'
      exact .task hl hstep
  | core1 e => exact core1_moves h
  | main e =>
      obtain ⟨r, hr, rfl⟩ := Option.map_eq_some_iff.mp h
      exact main_moves hr
  | dma word =>
      obtain ⟨main, hmain, rfl⟩ := Option.map_eq_some_iff.mp h
      simp only [MainTask.dma_step] at hmain
      split at hmain
      · rename_i half n hdma
        obtain ⟨hword, hmain⟩ := Option.ite_none_right_eq_some.mp hmain
        cases hmain
        exact .dma hdma hword
      · cases hmain
  | microphone e =>
      simp only [step] at h
      split at h
      · rename_i shared microphone hhear hmic
        cases h
        exact .microphone hhear hmic
      · cases h
  | streaming on =>
      cases h
      exact .streaming on
  | logger =>
      obtain ⟨⟨data, ch⟩, htake, rfl⟩ := Option.map_eq_some_iff.mp h
      exact .logger htake
  | logger_status =>
      obtain ⟨⟨msg, ch⟩, htake, rfl⟩ := Option.map_eq_some_iff.mp h
      exact .logger_status htake
  | log_storage text =>
      simp only [step] at h
      split at h
      · cases h
      · rename_i hbusy
        cases h
        exact .log_storage text hbusy

/-- And all of it can be done. -/
theorem Moves.step_eq {l : AudioLabel F} (h : Moves s l s') : s.step l = some s' := by
  cases h with
  | @task l firmware hl h =>
      have hstep : (s.firmware.step l).map (fun firmware => { s with firmware := firmware })
          = some { s with firmware := firmware } := by rw [h, Option.map_some]
      cases l with
      | core1 => exact absurd rfl hl
      | usb_read data => exact hstep
      | command => exact hstep
      | ble_receive => exact hstep
      | handle => exact hstep
      | access => exact hstep
      | notify packet => exact hstep
      | paired => exact hstep
      | link_lost => exact hstep
  | status hstatus hroom =>
      simp only [step, core1_step, hstatus, hroom, not_false_eq_true, and_self, if_true]
  | access hprocess hsend hstatus => simp only [step, core1_step, hstatus]
  | process block us hpc hstatus => simp only [step, core1_step, hpc, hstatus]
  | swap_underruns hstage => simp only [step, core1_step, hstage, if_true]
  | swap_min hstage => simp only [step, core1_step, hstage, if_true]
  | report hstage => simp only [step, core1_step, hstage, if_true]
  | send hstage hroom =>
      simp only [step, core1_step, hstage, hroom, not_false_eq_true, and_self, if_true]
  | write hpc => simp only [step, MainTask.step, hpc, Option.map_some]
  | len hpc => simp only [step, MainTask.step, hpc, Option.map_some]
  | low_water hpc => simp only [step, MainTask.step, hpc, if_true, Option.map_some]
  | underrun hpc => simp only [step, MainTask.step, hpc, Option.map_some]
  | receive hpc htake => simp only [step, MainTask.step, hpc, htake, Option.map_some]
  | try_send hpc => simp only [step, MainTask.step, hpc, Option.map_some]
  | convert hpc => simp only [step, MainTask.step, hpc, Option.map_some]
  | swap hpc hdma => simp only [step, MainTask.step, hpc, hdma, if_true, Option.map_some]
  | dma hdma hword => simp only [step, MainTask.dma_step, hdma, hword, if_true, Option.map_some]
  | microphone hhear hstep => simp only [step, hhear, hstep]
  | streaming on => rfl
  | logger htake => simp only [step, htake, Option.map_some]
  | logger_status htake => simp only [step, htake, Option.map_some]
  | log_storage text hbusy => simp only [step]

/-- `Moves` says all that a step can do, and no more. -/
theorem step_iff_moves {l : AudioLabel F} : s.step l = some s' ↔ Moves s l s' :=
  ⟨step_moves, Moves.step_eq⟩

end Steps

end AudioPath

end PicoDsp
