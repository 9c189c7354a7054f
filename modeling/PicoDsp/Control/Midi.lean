/-
`midi_task` (`control/midi.rs`): the handlers of channel-voice and SysEx
messages, the commands, and the start of the task.

The private variables of the task, flash included, are the state of a `Proc`;
everything another task or the host can see is an `Effect`, emitted in program
order. Both loops of the task wait for the same three sources and keep all
variables outside, so a step of the task is the handling of one `Work`.

The flash counts as private because no other task accesses it once the task runs: `main`
has read the boot preset before, and core1 reads no flash. An `Effect` of it is the
access itself, which is what the statements about safety and about restarts look at.
A handler that panics has the effects made so far and no result.

What a `select3` delivers is an `Input`: a read of up to 64 bytes, a change of the link, a
command, or a message that came over the radio. A read is cut into events of four
bytes and these into `Work`; a SysEx event is one `Work` for each data byte, so a run
may be looked at in the middle of a message. Reads of any length are admitted.

The logs are left out, apart from the one that computes the last index of an empty bank
(`Storage.load_preset`): it is where the subtraction goes below zero.
-/
import PicoDsp.Control.CcMap
import PicoDsp.Control.NoteStack
import PicoDsp.Control.Sysex

set_option autoImplicit false

namespace PicoDsp

open Lib Sysex

def NOTE_OFF : UInt8 := 0x80
def NOTE_ON : UInt8 := 0x90
def CONTROL_CHANGE : UInt8 := 0xB0
def PROGRAM_CHANGE : UInt8 := 0xC0
def PITCH_BEND : UInt8 := 0xE0

def CC_MOD_WHEEL : UInt8 := 1
def CC_SUSTAIN : UInt8 := 64
def CC_SOFT_PEDAL : UInt8 := 67
def CC_ALL_SOUND_OFF : UInt8 := 120
def CC_ALL_NOTES_OFF : UInt8 := 123

/-- What `midi_task` does that others can see. -/
inductive Effect (F : Type)
  /-- A store to the shared live controls. -/
  | control (op : ControlOp F)
  /-- `PRESET_CHANNEL.try_send(p)`, result ignored. -/
  | preset_send (p : Preset F)
  /-- `LED_SIGNAL_CHANNEL.try_send(on)`, result ignored. -/
  | led (on : Bool)
  /-- `sender.write_packet(..)` -/
  | write_packet (p : Packet)
  /-- An access to the flash or the PSRAM gate. -/
  | flash (op : Storage.FlashOp)
  /-- `handle_sysex` is entered. -/
  | handle_sysex (call : SysexCall)

/-- The variables of `midi_task`. -/
structure MidiTask (F : Type) where
  flash : Storage.Flash
  notes : NoteStack
  current_preset_index : ℕ
  working_preset : Preset F
  rx : SysexRx

namespace MidiTask

variable {F : Type} [F32 F]

/-- Run a function of `Storage`. -/
def storage {α : Type} (m : Proc Storage.Flash Storage.FlashOp α) :
    Proc (MidiTask F) (Effect F) α :=
  Proc.zoom MidiTask.flash (fun f t => { t with flash := f }) Effect.flash m

def controls (ops : List (ControlOp F)) : Proc (MidiTask F) (Effect F) Unit :=
  Proc.emits (ops.map Effect.control)

def midi_to_freq (note : UInt8) : F :=
  F32.lit 440 * F32.powf (F32.lit 2) ((F32.ofU8 note - F32.lit 69) / F32.lit 12)

/-! ## Presets -/

def load_and_apply_preset (index : ℕ) : Proc (MidiTask F) (Effect F) Unit := do
  match ← storage (Storage.load_preset index) with
  | some record => do
      let preset : Preset F := record.map F32.from_bits
      controls ((MidiControl.seed_from_preset preset).map fun av => .store av.1 av.2)
      Proc.modify fun t => { t with working_preset := preset }
      Proc.emit (.preset_send preset)
  | none => pure ()

/-! ## Channel-voice messages -/

def voice_note_on (d1 d2 : UInt8) : Proc (MidiTask F) (Effect F) Unit := do
  let freq : F := midi_to_freq d1
  Proc.modify fun t => { t with notes := t.notes.note_on d1 }
  controls [.store .velocity (F32.clamp (F32.ofU8 d2 / F32.lit 127) (F32.lit 0) (F32.lit 1))]
  controls [.store .target_freq freq]
  controls (MidiControl.set_gate true)
  Proc.emit (.led true)

/-- The gate follows the stack: the last key still there, or closed. -/
def follow_stack : Proc (MidiTask F) (Effect F) Unit := do
  let t ← Proc.get
  match t.notes.active_note with
  | some last_note => do
      controls [.store .target_freq (midi_to_freq last_note)]
      controls (MidiControl.set_gate true)
  | none => do
      controls (MidiControl.set_gate false)
      Proc.emit (.led false)

def voice_note_off (d1 : UInt8) : Proc (MidiTask F) (Effect F) Unit := do
  Proc.modify fun t => { t with notes := t.notes.note_off d1 }
  follow_stack

def voice_sustain (d2 : UInt8) : Proc (MidiTask F) (Effect F) Unit := do
  let sustain_on : Bool := 64 ≤ d2
  Proc.modify fun t => { t with notes := t.notes.set_sustain sustain_on }
  if !sustain_on then follow_stack else pure ()

def voice_soft_pedal (d2 : UInt8) : Proc (MidiTask F) (Effect F) Unit := do
  let t ← Proc.get
  let (released, notes) := t.notes.soft_pedal (64 ≤ d2)
  Proc.modify fun t => { t with notes := notes }
  if released then do
    let count ← storage Storage.num_presets
    if 0 < count then do
      Proc.modify fun t => { t with current_preset_index := (t.current_preset_index + 1) % count }
      let t ← Proc.get
      load_and_apply_preset t.current_preset_index
    else pure ()
  else pure ()

def voice_all_off : Proc (MidiTask F) (Effect F) Unit := do
  Proc.modify fun t => { t with notes := t.notes.clear }
  controls MidiControl.reset
  Proc.emit (.led false)

def voice_parameter (cc value : UInt8) : Proc (MidiTask F) (Effect F) Unit := do
  let t ← Proc.get
  match CcMap.apply_cc cc value t.working_preset with
  | .continuous p a v => do
      Proc.modify fun t => { t with working_preset := p }
      controls [.store a v]
  | .structural p => do
      Proc.modify fun t => { t with working_preset := p }
      Proc.emit (.preset_send p)
  | .unmapped => pure ()

def voice_control_change (d1 d2 : UInt8) : Proc (MidiTask F) (Effect F) Unit :=
  if d1 = CC_MOD_WHEEL then controls [.store .mod_wheel (F32.ofU8 d2 / F32.lit 127)]
  else if d1 = CC_SUSTAIN then voice_sustain d2
  else if d1 = CC_SOFT_PEDAL then voice_soft_pedal d2
  else if d1 = CC_ALL_SOUND_OFF ∨ d1 = CC_ALL_NOTES_OFF then voice_all_off
  else voice_parameter d1 d2

def voice_program_change (d1 : UInt8) : Proc (MidiTask F) (Effect F) Unit := do
  Proc.modify fun t => { t with current_preset_index := d1.toNat }
  load_and_apply_preset d1.toNat

def voice_pitch_bend (d1 d2 : UInt8) : Proc (MidiTask F) (Effect F) Unit := do
  let val : ℕ := (d2.toNat <<< 7) ||| d1.toNat
  let norm : F := (F32.lit val - F32.lit 8192) / F32.lit 8192
  controls [.store .pitch_bend (F32.powf (F32.lit 2) (norm * F32.lit 2 / F32.lit 12))]

def handle_voice_message (status d1 d2 : UInt8) : Proc (MidiTask F) (Effect F) Unit :=
  let cmd := status &&& 0xF0
  if cmd = NOTE_ON ∧ 0 < d2 then voice_note_on d1 d2
  else if cmd = NOTE_OFF ∨ cmd = NOTE_ON then voice_note_off d1
  else if cmd = CONTROL_CHANGE then voice_control_change d1 d2
  else if cmd = PROGRAM_CHANGE then voice_program_change d1
  else if cmd = PITCH_BEND then voice_pitch_bend d1 d2
  else pure ()

/-! ## SysEx -/

def write_packets (ps : List Packet) : Proc (MidiTask F) (Effect F) Unit :=
  Proc.emits (ps.map Effect.write_packet)

/-- `CMD_DUMP_REQ`: the bank is read into the receiver's image buffer. -/
def handle_dump_req : Proc (MidiTask F) (Effect F) Unit := do
  let bytes ← storage (Storage.read_raw Storage.STORAGE_IMAGE_SIZE)
  Proc.modify fun t => { t with rx := { t.rx with image := Vector.ofFn fun i => bytes.getD i 0 } }
  let t ← Proc.get
  write_packets (send_sysex_dump t.rx.image.toList)

def handle_write_req (raw_len : ℕ) (overflow : Bool) : Proc (MidiTask F) (Effect F) Unit := do
  if overflow ∨ raw_len ≠ Storage.STORAGE_IMAGE_SIZE then
    write_packets (send_sysex_status CMD_WRITE_ERROR (some ERR_BAD_LENGTH))
  else do
    let t ← Proc.get
    let header := Storage.StorageHeader.from_bytes t.rx.image.toList
    if header.magic = Storage.MAGIC ∧ header.version = Storage.VERSION then do
      storage (Storage.write_raw (t.rx.image.toList.take raw_len))
      write_packets (send_sysex_status CMD_WRITE_SUCCESS none)
      load_and_apply_preset t.current_preset_index
    else write_packets (send_sysex_status CMD_WRITE_ERROR (some ERR_BAD_MAGIC))

def handle_sysex (call : SysexCall) : Proc (MidiTask F) (Effect F) Unit := do
  Proc.emit (.handle_sysex call)
  if call.cmd = CMD_DUMP_REQ then handle_dump_req
  else if call.cmd = CMD_WRITE_REQ then handle_write_req call.raw_len call.overflow
  else pure ()

/-- One data byte of a SysEx event. -/
def handle_sysex_byte (b : UInt8) : Proc (MidiTask F) (Effect F) Unit := do
  let t ← Proc.get
  let (rx, call) := t.rx.receive b
  Proc.modify fun t => { t with rx := rx }
  match call with
  | some call => handle_sysex call
  | none => pure ()

/-! ## The task -/

/-- What the task does between two awaits of its `select3`, or between two
bytes or events of one USB read. -/
inductive Work
  | voice (status d1 d2 : UInt8)
  | sysex_byte (b : UInt8)
  | reset_storage
  deriving DecidableEq

def handle_work : Work → Proc (MidiTask F) (Effect F) Unit
  | .voice status d1 d2 => handle_voice_message status d1 d2
  | .sysex_byte b => handle_sysex_byte b
  | .reset_storage => storage Storage.format

/-- What one event asks for. -/
def packet_work (p : Packet) : List Work :=
  match p.sysex_bytes with
  | some bs => bs.map Work.sysex_byte
  | none => [.voice p.b1 p.b2 p.b3]

/-- What `select3` can deliver. -/
inductive Input
  /-- `Ok(n)` from `read_packet`. -/
  | usb_read (data : List UInt8)
  /-- The link came up, or `Err(_)` from `read_packet`. -/
  | usb_link
  | command
  | ble (status d1 d2 : UInt8)
  deriving DecidableEq

def Input.works : Input → List Work
  | .usb_read data => (chunks4 data).flatMap packet_work
  | .usb_link => []
  | .command => [.reset_storage]
  | .ble status d1 d2 => [.voice status d1 d2]

/-- The task working through a list of inputs. -/
def handle_inputs (ins : List Input) : Proc (MidiTask F) (Effect F) Unit :=
  Proc.each handle_work (ins.flatMap Input.works)

/-- The variables of the task before its loop; the boot preset is the stored
one or the default. -/
def enter_loop : Proc Storage.Flash Storage.FlashOp (MidiTask F) := do
  let working ← Storage.load_preset 4
  let flash ← Proc.get
  pure
    { flash := flash
      notes := NoteStack.new
      current_preset_index := 4
      working_preset := (working.getD Preset.default).map F32.from_bits
      rx := SysexRx.new }

/-- The task up to its loop. The deferred format waits for core1 first. -/
def start (needs_format : Bool) : Proc Storage.Flash Storage.FlashOp (MidiTask F) :=
  if needs_format then do
    Storage.format
    enter_loop
  else enter_loop

/-- Boot: `main` decides about the format, `midi_task` does it. -/
def boot : Proc Storage.Flash Storage.FlashOp (MidiTask F) := do
  let needs_format ← Storage.needs_format
  start needs_format

end MidiTask

end PicoDsp
