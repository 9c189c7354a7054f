/-
What the handlers of `midi_task` (`control/midi.rs`) do, one lemma for each.

`Control/Midi.lean` writes the handlers down as programs that read and change the
task's variables and put out effects: flash accesses, stores to the live controls,
presets for `core1`, packets for the host. A proof about the task that unfolded them
would go through every branch of every handler again, so each handler has a lemma here
that gives all of it at once, the effects in their order and the state behind them,
and nothing later unfolds a handler.

A channel-voice message is first sorted into its kind (`voiceKind`), which is
the whole of what `handle_voice_message` looks at: the upper half of the status byte,
whether a Note On has a velocity, and the number of a controller. Everything later is
stated on kinds, so a statement about notes does not see controllers.

Loading a preset has three outcomes. An index at or above the count changes nothing
(`load_missing`), a record inside of the flash is loaded (`load_found`), and a record
past its end stops the task (`load_halts`): the read is refused and the code unwraps
it. Only a bank whose `num_presets` is far above `MAX_PRESETS` gets that far.

The last section is a frame statement. A channel-voice message writes no flash and
leaves a SysEx message in progress alone, and it is stated over any predicate on
effects that allows what such messages do (`Allows`), so that the same induction
over the handlers' structure serves every party that watches the task.
-/
import PicoDsp.Control.Midi
import PicoDsp.Data.StorageSpec

set_option autoImplicit false

namespace PicoDsp.MidiTask

open Lib Sysex Storage

variable {F : Type}

/-! ## Kinds of messages -/

/-- The meaning of a channel-voice message. -/
inductive VoiceKind
  | note_on (key velocity : UInt8)
  | note_off (key : UInt8)
  | mod_wheel (value : UInt8)
  | sustain (value : UInt8)
  | soft_pedal (value : UInt8)
  | all_off
  | parameter (cc value : UInt8)
  | program (index : UInt8)
  | pitch_bend (d1 d2 : UInt8)
  | ignored
  deriving DecidableEq

def voiceKind (status d1 d2 : UInt8) : VoiceKind :=
  let cmd := status &&& 0xF0
  if cmd = NOTE_ON ∧ 0 < d2 then .note_on d1 d2
  else if cmd = NOTE_OFF ∨ cmd = NOTE_ON then .note_off d1
  else if cmd = CONTROL_CHANGE then
    if d1 = CC_MOD_WHEEL then .mod_wheel d2
    else if d1 = CC_SUSTAIN then .sustain d2
    else if d1 = CC_SOFT_PEDAL then .soft_pedal d2
    else if d1 = CC_ALL_SOUND_OFF ∨ d1 = CC_ALL_NOTES_OFF then .all_off
    else .parameter d1 d2
  else if cmd = PROGRAM_CHANGE then .program d1
  else if cmd = PITCH_BEND then .pitch_bend d1 d2
  else .ignored

section Arms

variable [F32 F]

/-- The arm of `handle_voice_message` for a kind. -/
def handleKind : VoiceKind → Proc (MidiTask F) (Effect F) Unit
  | .note_on key velocity => voice_note_on key velocity
  | .note_off key => voice_note_off key
  | .mod_wheel value => controls [.store .mod_wheel (F32.ofU8 value / F32.lit 127)]
  | .sustain value => voice_sustain value
  | .soft_pedal value => voice_soft_pedal value
  | .all_off => voice_all_off
  | .parameter cc value => voice_parameter cc value
  | .program index => voice_program_change index
  | .pitch_bend d1 d2 => voice_pitch_bend d1 d2
  | .ignored => pure ()

/-- `handle_voice_message` is its kind and the arm for it. The `match` of the source has
overlapping guards, and this is the only place at which their order is looked at. -/
theorem handle_voice_message_eq (status d1 d2 : UInt8) :
    handle_voice_message (F := F) status d1 d2 = handleKind (voiceKind status d1 d2) := by
  have hpush : ∀ (c : Prop) [Decidable c] (a b : VoiceKind),
      handleKind (F := F) (if c then a else b) = if c then handleKind a else handleKind b := by
    intro c _ a b
    split <;> rfl
  unfold handle_voice_message voiceKind voice_control_change
  simp only [hpush]
  rfl

end Arms

/-! ## Small steps -/

/-- Stores to the live controls change no variable of the task. -/
@[simp] theorem controls_run (ops : List (ControlOp F)) (t : MidiTask F) :
    controls ops t = (ops.map Effect.control, some ((), t)) := rfl

@[simp] theorem controls_bind_run {β : Type} (ops : List (ControlOp F))
    (f : Unit → Proc (MidiTask F) (Effect F) β) (t : MidiTask F) :
    (controls ops >>= f) t = (ops.map Effect.control ++ (f () t).1, (f () t).2) :=
  Proc.emits_bind_run _ _ _

/-- Packets for the host change no variable of the task. -/
@[simp] theorem write_packets_run (ps : List Packet) (t : MidiTask F) :
    write_packets ps t = (ps.map Effect.write_packet, some ((), t)) := rfl

@[simp] theorem write_packets_bind_run {β : Type} (ps : List Packet)
    (f : Unit → Proc (MidiTask F) (Effect F) β) (t : MidiTask F) :
    (write_packets ps >>= f) t = (ps.map Effect.write_packet ++ (f () t).1, (f () t).2) :=
  Proc.emits_bind_run _ _ _

/-- A function of `Storage` that ends. -/
theorem storage_some {α : Type} {m : Proc Flash FlashOp α} {t : MidiTask F} {es : List FlashOp}
    {a : α} {f : Flash} (h : m t.flash = (es, some (a, f))) :
    storage m t = (es.map Effect.flash, some (a, { t with flash := f })) := by
  rw [storage, Proc.zoom_run, h]
  rfl

/-- A function of `Storage` that halts the device. -/
theorem storage_none {α : Type} {m : Proc Flash FlashOp α} {t : MidiTask F} {es : List FlashOp}
    (h : m t.flash = (es, none)) :
    (storage m : Proc (MidiTask F) (Effect F) α) t = (es.map Effect.flash, none) := by
  rw [storage, Proc.zoom_run, h]
  rfl

/-! ## Loading a preset -/

section Handlers

variable [F32 F]

/-- Record `i` as the synth reads it. -/
def loaded (F : Type) [F32 F] (f : Flash) (i : ℕ) : Preset F := (recordAt f i).map F32.from_bits

/-- The flash accesses for an index at or above the count. -/
def missOps (f : Flash) : List FlashOp :=
  .read ADDR_OFFSET 16 :: if presetCount f = 0 then [.underflow] else []

/-- The flash accesses for an index below the count. -/
def hitOps (i : ℕ) : List FlashOp := [.read ADDR_OFFSET 16, .read (recordAddr i) PRESET_SIZE]

/-- The live controls stored for a preset. -/
def seedEffects (p : Preset F) : List (Effect F) :=
  (MidiControl.seed_from_preset p).map fun av => .control (.store av.1 av.2)

/-- **An index at or above the count.** The count is read and nothing else happens; the
working preset stays. -/
theorem load_missing {t : MidiTask F} {i : ℕ} (h : presetCount t.flash ≤ i) :
    load_and_apply_preset i t = ((missOps t.flash).map Effect.flash, some ((), t)) := by
  rw [load_and_apply_preset, Proc.bind_some (storage_some (load_preset_missing h))]
  simp only [Proc.pure_run, List.append_nil]
  rfl

/-- **An index below the count, and the record inside of the flash.** It becomes the working
preset, its controls are stored one after the other, and last the whole of it goes
to `core1`. The order matters: between the stores `core1` may render a block. -/
theorem load_found {t : MidiTask F} {i : ℕ} (h : i < presetCount t.flash)
    (hi : i ≤ LAST_RECORD) :
    load_and_apply_preset i t
      = ((hitOps i).map Effect.flash ++ (seedEffects (loaded F t.flash i)
            ++ [.preset_send (loaded F t.flash i)]),
          some ((), { t with working_preset := loaded F t.flash i })) := by
  rw [load_and_apply_preset, Proc.bind_some (storage_some (load_preset_found h hi))]
  simp only [controls_bind_run, Proc.modify_bind_run, Proc.emit_run, List.map_map]
  rfl

/-- **A record past the end of the flash.** The count is the image's own, so an index below it
may still lie behind the end of the flash; the read is unwrapped and the task is gone. -/
theorem load_halts {t : MidiTask F} {i : ℕ} (h : i < presetCount t.flash)
    (hi : LAST_RECORD < i) (hbound : i < 2 ^ 24) :
    load_and_apply_preset i t = ((hitOps i).map Effect.flash, none) := by
  rw [load_and_apply_preset, Proc.bind_none (storage_none (load_preset_halts h hi hbound))]
  rfl

/-! ## The arms of `handle_voice_message` -/

/-- The stores and the LED message of `follow_stack`. -/
def followEffects (s : NoteStack) : List (Effect F) :=
  match s.active_note with
  | some last_note =>
      (ControlOp.store .target_freq (midi_to_freq last_note) :: MidiControl.set_gate true).map
        Effect.control
  | none => (MidiControl.set_gate false).map Effect.control ++ [.led false]

/-- The gate and the pitch follow the note stack. -/
theorem follow_stack_run (t : MidiTask F) :
    follow_stack t = (followEffects t.notes, some ((), t)) := by
  unfold follow_stack followEffects
  rw [Proc.get_bind_run]
  cases t.notes.active_note with
  | none => rfl
  | some last_note => rfl

/-- A Note On opens the gate, whether or not it was open. The velocity and the frequency
are existential: where they matter, `Control/KeyTracking.lean` says what they are. -/
theorem note_on_run (key velocity : UInt8) (t : MidiTask F) :
    ∃ v freq : F, voice_note_on key velocity t
      = ([.control (.store .velocity v), .control (.store .target_freq freq),
            .control (.gate true), .led true],
          some ((), { t with notes := t.notes.note_on key })) :=
  ⟨_, _, rfl⟩

/-- A Note Off takes the key off the stack, and the gate follows what is left. -/
theorem note_off_run (key : UInt8) (t : MidiTask F) :
    voice_note_off key t
      = (followEffects (t.notes.note_off key),
          some ((), { t with notes := t.notes.note_off key })) := by
  rw [voice_note_off, Proc.modify_bind_run, follow_stack_run]

/-- The sustain pedal goes down silently; going up it may release keys, and the gate follows. -/
theorem sustain_run (value : UInt8) (t : MidiTask F) :
    voice_sustain value t
      = (if 64 ≤ value then [] else followEffects (t.notes.set_sustain false),
          some ((), { t with notes := t.notes.set_sustain (64 ≤ value) })) := by
  unfold voice_sustain
  by_cases hon : 64 ≤ value
  · simp only [hon, decide_true, Proc.modify_bind_run, if_true]
    rfl
  · simp only [hon, decide_false, Proc.modify_bind_run, if_false, Bool.not_false, if_true]
    rw [follow_stack_run]

/-- All Notes Off resets the controls without looking at the stack. -/
theorem all_off_run (t : MidiTask F) :
    voice_all_off t
      = (MidiControl.reset.map Effect.control ++ [.led false],
          some ((), { t with notes := t.notes.clear })) := rfl

/-- A soft-pedal message that does not complete a gesture, or finds an empty
bank, changes the latch only. -/
theorem soft_pedal_idle {value : UInt8} {t : MidiTask F}
    (h : (t.notes.soft_pedal (64 ≤ value)).1 = false) :
    voice_soft_pedal value t
      = ([], some ((), { t with notes := (t.notes.soft_pedal (64 ≤ value)).2 })) := by
  simp only [voice_soft_pedal, Proc.get_bind_run, Proc.modify_bind_run, h]
  rfl

/-- A completed gesture over an empty bank reads the header and does nothing else: the
remainder by the count is guarded. -/
theorem soft_pedal_empty {value : UInt8} {t : MidiTask F}
    (h : (t.notes.soft_pedal (64 ≤ value)).1 = true) (hn : presetCount t.flash = 0) :
    voice_soft_pedal value t
      = ([.flash (.read ADDR_OFFSET 16)],
          some ((), { t with notes := (t.notes.soft_pedal (64 ≤ value)).2 })) := by
  have hcount := storage_some (t := { t with notes := (t.notes.soft_pedal (64 ≤ value)).2 })
    (num_presets_run t.flash)
  simp only [voice_soft_pedal, Proc.get_bind_run, Proc.modify_bind_run, h, if_true]
  rw [Proc.bind_some hcount, hn]
  rfl

/-- The index after the current one, modulo the count. -/
def nextIndex (t : MidiTask F) : ℕ := (t.current_preset_index + 1) % presetCount t.flash

/-- The task after a completed gesture, before the load. -/
def tapped (value : UInt8) (t : MidiTask F) : MidiTask F :=
  { t with
    notes := (t.notes.soft_pedal (64 ≤ value)).2
    current_preset_index := nextIndex t }

/-- A completed gesture selects the next index. -/
theorem soft_pedal_next {value : UInt8} {t : MidiTask F}
    (h : (t.notes.soft_pedal (64 ≤ value)).1 = true) (hn : 0 < presetCount t.flash) :
    voice_soft_pedal value t
      = (.flash (.read ADDR_OFFSET 16) :: (load_and_apply_preset (nextIndex t) (tapped value t)).1,
          (load_and_apply_preset (nextIndex t) (tapped value t)).2) := by
  have hcount := storage_some (t := { t with notes := (t.notes.soft_pedal (64 ≤ value)).2 })
    (num_presets_run t.flash)
  simp only [voice_soft_pedal, Proc.get_bind_run, Proc.modify_bind_run, h, if_true]
  rw [Proc.bind_some hcount]
  simp only [if_pos hn, Proc.modify_bind_run, Proc.get_bind_run]
  rfl

/-- A Program Change keeps its index even where the load then finds no such preset. -/
theorem program_run (index : UInt8) (t : MidiTask F) :
    voice_program_change index t
      = load_and_apply_preset index.toNat { t with current_preset_index := index.toNat } := by
  rw [voice_program_change, Proc.modify_bind_run]

/-- A continuous controller changes one field of the working preset and the live control
that belongs to it, and sends nothing to `core1`. -/
theorem parameter_continuous {cc value : UInt8} {t : MidiTask F} {p : Preset F} {a : Atom} {v : F}
    (h : CcMap.apply_cc cc value t.working_preset = .continuous p a v) :
    voice_parameter cc value t
      = ([.control (.store a v)], some ((), { t with working_preset := p })) := by
  rw [voice_parameter, Proc.get_bind_run, h]
  rfl

/-- A structural controller sends the whole working preset, and stores no live control. -/
theorem parameter_structural {cc value : UInt8} {t : MidiTask F} {p : Preset F}
    (h : CcMap.apply_cc cc value t.working_preset = .structural p) :
    voice_parameter cc value t
      = ([.preset_send p], some ((), { t with working_preset := p })) := by
  rw [voice_parameter, Proc.get_bind_run, h]
  rfl

/-- A controller without a meaning leaves everything as it was. -/
theorem parameter_unmapped {cc value : UInt8} {t : MidiTask F}
    (h : CcMap.apply_cc cc value t.working_preset = .unmapped) :
    voice_parameter cc value t = ([], some ((), t)) := by
  rw [voice_parameter, Proc.get_bind_run, h]
  rfl

/-! ## SysEx -/

/-- The image part of the storage region. -/
def bank (f : Flash) : List UInt8 := NorFlash.read f ADDR_OFFSET STORAGE_IMAGE_SIZE

/-- A list of image length as the receiver's buffer. -/
def imageOf (bs : List UInt8) : Vector UInt8 STORAGE_IMAGE_SIZE := Vector.ofFn fun i => bs.getD i 0

private theorem ofFn_getD_toList {n : ℕ} {bs : List UInt8} (h : bs.length = n) :
    (Vector.ofFn fun i : Fin n => bs.getD i 0).toList = bs := by
  refine List.ext_getElem (by rw [Vector.length_toList, h]) fun k h₁ h₂ => ?_
  rw [Vector.getElem_toList, Vector.getElem_ofFn, List.getD_eq_getElem _ _ h₂]

/-- A list of image length is what its buffer holds. -/
theorem imageOf_toList {bs : List UInt8} (h : bs.length = STORAGE_IMAGE_SIZE) :
    (imageOf bs).toList = bs := ofFn_getD_toList h

private theorem ofFn_getD_getD {n : ℕ} (bs : List UInt8) {k : ℕ} (hk : k < n) :
    (Vector.ofFn fun i : Fin n => bs.getD i 0).toList.getD k 0 = bs.getD k 0 := by
  rw [List.getD_eq_getElem _ _ (by rw [Vector.length_toList]; exact hk), Vector.getElem_toList,
    Vector.getElem_ofFn]

/-- The header of a buffer is the header of the list it was filled from. -/
theorem header_imageOf (bs : List UInt8) :
    StorageHeader.from_bytes (imageOf bs).toList = StorageHeader.from_bytes bs := by
  have hsize : 16 ≤ STORAGE_IMAGE_SIZE := by decide
  exact from_bytes_congr fun k hk => ofFn_getD_getD bs (Nat.lt_of_lt_of_le hk hsize)

/-- The image part of the region has the image's length. -/
theorem bank_length (f : Flash) : (bank f).length = STORAGE_IMAGE_SIZE := NorFlash.read_length _ _ _

omit [F32 F] in
/-- A dump request copies the image into the receive buffer and sends it. The buffer is the
one a message in progress is collected in, which is why the request ends such a message. -/
theorem dump_req_run (t : MidiTask F) :
    handle_dump_req t
      = (.flash (.read ADDR_OFFSET STORAGE_IMAGE_SIZE)
            :: (send_sysex_dump (bank t.flash)).map Effect.write_packet,
          some ((), { t with rx := { t.rx with image := imageOf (bank t.flash) } })) := by
  have hread : read_raw STORAGE_IMAGE_SIZE t.flash
      = ([.read ADDR_OFFSET STORAGE_IMAGE_SIZE], some (bank t.flash, t.flash)) :=
    read_raw_run t.flash STORAGE_IMAGE_SIZE
  have himage := imageOf_toList (bank_length t.flash)
  rw [handle_dump_req, Proc.bind_some (storage_some hread)]
  simp only [Proc.modify_bind_run, Proc.get_bind_run, write_packets_run]
  unfold imageOf at himage ⊢
  rw [himage]
  rfl

/-- A message that overflowed, or has not the image's length, is refused and changes nothing. -/
theorem write_req_bad_length {n : ℕ} {ov : Bool} (h : ov = true ∨ n ≠ STORAGE_IMAGE_SIZE)
    (t : MidiTask F) :
    handle_write_req n ov t
      = ((send_sysex_status CMD_WRITE_ERROR (some ERR_BAD_LENGTH)).map Effect.write_packet,
          some ((), t)) := by
  rw [handle_write_req, if_pos h]
  rfl

/-- An image without a valid header is refused and changes nothing. -/
theorem write_req_bad_magic {t : MidiTask F}
    (h : ¬ (StorageHeader.from_bytes t.rx.image.toList).Valid) :
    handle_write_req STORAGE_IMAGE_SIZE false t
      = ((send_sysex_status CMD_WRITE_ERROR (some ERR_BAD_MAGIC)).map Effect.write_packet,
          some ((), t)) := by
  have hlen : ¬ (false = true ∨ STORAGE_IMAGE_SIZE ≠ STORAGE_IMAGE_SIZE) := by simp
  rw [handle_write_req, if_neg hlen, Proc.get_bind_run]
  simp only [StorageHeader.Valid] at h
  simp only [if_neg h, write_packets_run]

/-- An accepted image is written, acknowledged, and the current preset is
loaded again. -/
theorem write_req_accepted {t : MidiTask F}
    (h : (StorageHeader.from_bytes t.rx.image.toList).Valid) :
    handle_write_req STORAGE_IMAGE_SIZE false t
      = ((writeOps t.rx.image.toList).map Effect.flash
            ++ ((send_sysex_status CMD_WRITE_SUCCESS none).map Effect.write_packet
              ++ (load_and_apply_preset t.current_preset_index
                { t with flash := written t.flash t.rx.image.toList }).1),
          (load_and_apply_preset t.current_preset_index
            { t with flash := written t.flash t.rx.image.toList }).2) := by
  have hlen : ¬ (false = true ∨ STORAGE_IMAGE_SIZE ≠ STORAGE_IMAGE_SIZE) := by simp
  have htake : t.rx.image.toList.take STORAGE_IMAGE_SIZE = t.rx.image.toList :=
    List.take_of_length_le (Nat.le_of_eq (Vector.length_toList))
  rw [handle_write_req, if_neg hlen, Proc.get_bind_run]
  simp only [StorageHeader.Valid] at h
  simp only [if_pos h, htake]
  rw [Proc.bind_some (storage_some (write_raw_run t.rx.image.toList t.flash)),
    write_packets_bind_run]

/-- A call with the dump command is the dump request. -/
theorem handle_sysex_dump {call : SysexCall} (h : call.cmd = CMD_DUMP_REQ) (t : MidiTask F) :
    handle_sysex call t
      = (.handle_sysex call :: (handle_dump_req t).1, (handle_dump_req t).2) := by
  rw [handle_sysex, Proc.emit_bind_run, if_pos h]

/-- A call with the write command is the write request. -/
theorem handle_sysex_write {call : SysexCall} (h : call.cmd = CMD_WRITE_REQ) (t : MidiTask F) :
    handle_sysex call t
      = (.handle_sysex call :: (handle_write_req call.raw_len call.overflow t).1,
          (handle_write_req call.raw_len call.overflow t).2) := by
  have hdump : ¬ call.cmd = CMD_DUMP_REQ := by
    rw [h]
    decide
  rw [handle_sysex, Proc.emit_bind_run, if_neg hdump, if_pos h]

/-- Other commands are dropped without a reply. -/
theorem handle_sysex_other {call : SysexCall} (hdump : call.cmd ≠ CMD_DUMP_REQ)
    (hwrite : call.cmd ≠ CMD_WRITE_REQ) (t : MidiTask F) :
    handle_sysex call t = ([.handle_sysex call], some ((), t)) := by
  rw [handle_sysex, Proc.emit_bind_run, if_neg hdump, if_neg hwrite]
  rfl

/-- A byte that completes no message changes the receiver only. -/
theorem sysex_byte_quiet {b : UInt8} {t : MidiTask F} (h : (t.rx.receive b).2 = none) :
    handle_sysex_byte b t = ([], some ((), { t with rx := (t.rx.receive b).1 })) := by
  rw [handle_sysex_byte, Proc.get_bind_run]
  simp only [h, Proc.modify_bind_run]
  rfl

/-- A byte that completes a message has it handled at once. -/
theorem sysex_byte_call {b : UInt8} {t : MidiTask F} {call : SysexCall}
    (h : (t.rx.receive b).2 = some call) :
    handle_sysex_byte b t = handle_sysex call { t with rx := (t.rx.receive b).1 } := by
  rw [handle_sysex_byte, Proc.get_bind_run]
  simp only [h, Proc.modify_bind_run]

/-- `ResetStorage` writes the empty image without asking whether `core1` is up. -/
theorem reset_storage_run (t : MidiTask F) :
    handle_work .reset_storage t
      = ((writeOps format_image).map Effect.flash,
          some ((), { t with flash := written t.flash format_image })) :=
  storage_some (format_run t.flash)

/-! ## What a voice message can do

A channel-voice message leaves the flash contents and the SysEx receiver alone,
and every effect it has is of a kind that any of the parties below allows. -/

/-- `ok` allows the effects of channel-voice messages on flash contents `f`. -/
structure Allows (ok : Effect F → Prop) (f : Flash) : Prop where
  control : ∀ op, ok (.control op)
  preset_send : ∀ p, ok (.preset_send p)
  led : ∀ on, ok (.led on)
  header : ok (.flash (.read ADDR_OFFSET 16))
  load : ∀ i, ∀ op ∈ (Storage.load_preset i f).1, ok (.flash op)

/-- The program has allowed effects only, and leaves the flash and the SysEx
receiver as they are. -/
def Leaves (ok : Effect F → Prop) (f : Flash) {α : Type} (m : Proc (MidiTask F) (Effect F) α) :
    Prop :=
  ∀ rx, Proc.Stays (fun t : MidiTask F => (t.flash, t.rx)) (f, rx) ok m

section Rules

omit [F32 F]

variable {ok : Effect F → Prop} {f : Flash}

theorem Leaves.pure {α : Type} (a : α) : Leaves ok f (Pure.pure a) :=
  fun _ => Proc.Stays.pure a

theorem Leaves.bind {α β : Type} {m : Proc (MidiTask F) (Effect F) α}
    {k : α → Proc (MidiTask F) (Effect F) β} (hm : Leaves ok f m) (hk : ∀ a, Leaves ok f (k a)) :
    Leaves ok f (m >>= k) :=
  fun rx => (hm rx).bind fun a => hk a rx

theorem Leaves.get : Leaves ok f (Proc.get : Proc (MidiTask F) (Effect F) (MidiTask F)) :=
  fun _ => Proc.Stays.get

theorem Leaves.modify {g : MidiTask F → MidiTask F}
    (h : ∀ t, (g t).flash = t.flash ∧ (g t).rx = t.rx) : Leaves ok f (Proc.modify g) :=
  fun _ => Proc.Stays.modify fun t => by rw [(h t).1, (h t).2]

theorem Leaves.emit {e : Effect F} (he : ok e) : Leaves ok f (Proc.emit e) :=
  fun _ => Proc.Stays.emit he

theorem Leaves.ite {α : Type} {c : Prop} [Decidable c] {m m' : Proc (MidiTask F) (Effect F) α}
    (h : Leaves ok f m) (h' : Leaves ok f m') : Leaves ok f (if c then m else m') :=
  fun rx => (h rx).ite (h' rx)

/-- Every party allows stores to the live controls. -/
theorem Leaves.controls (hok : Allows ok f) (ops : List (ControlOp F)) :
    Leaves ok f (MidiTask.controls ops) := by
  intro rx
  apply Proc.Stays.emits
  intro e he
  obtain ⟨op, -, rfl⟩ := List.mem_map.mp he
  exact hok.control op

/-- The header is read, whatever it says. -/
theorem Leaves.num_presets (hok : Allows ok f) :
    Leaves ok f (MidiTask.storage (F := F) Storage.num_presets) := by
  intro rx t ht
  obtain ⟨rfl, rfl⟩ := Prod.mk.inj ht
  rw [storage_some (num_presets_run t.flash)]
  refine ⟨by simpa using hok.header, ?_⟩
  intro n t' h
  cases h
  rfl

/-- A record is read, or the task ends at the attempt. -/
theorem Leaves.load_preset (hok : Allows ok f) (i : ℕ) :
    Leaves ok f (MidiTask.storage (F := F) (Storage.load_preset i)) := by
  intro rx
  have hload : Proc.Triple (fun g => g = f) (Storage.load_preset i) (fun op => ok (.flash op))
      (fun _ g => g = f) := by
    rintro g rfl
    exact ⟨hok.load i, (load_preset_reads i g).2⟩
  apply hload.zoom
  · intro t ht
    exact (Prod.mk.inj ht).1
  · intro op hop
    exact hop
  · intro t r g ht hg
    exact Prod.ext hg (Prod.mk.inj ht).2

end Rules

section Voice

variable {ok : Effect F → Prop} {f : Flash}

/-- Neither outcome of a load writes flash. -/
theorem load_leaves (hok : Allows ok f) (i : ℕ) : Leaves ok f (load_and_apply_preset i) := by
  unfold load_and_apply_preset
  refine Leaves.bind (Leaves.load_preset hok i) fun r => ?_
  cases r with
  | none => exact Leaves.pure ()
  | some record =>
      refine Leaves.bind (Leaves.controls hok _) fun _ => ?_
      refine Leaves.bind (Leaves.modify fun t => ⟨rfl, rfl⟩) fun _ => ?_
      exact Leaves.emit (hok.preset_send _)

theorem follow_stack_leaves (hok : Allows ok f) : Leaves ok f (follow_stack (F := F)) := by
  unfold follow_stack
  refine Leaves.bind Leaves.get fun t => ?_
  cases t.notes.active_note with
  | none => exact Leaves.bind (Leaves.controls hok _) fun _ => Leaves.emit (hok.led _)
  | some k => exact Leaves.bind (Leaves.controls hok _) fun _ => Leaves.controls hok _

theorem soft_pedal_leaves (hok : Allows ok f) (value : UInt8) :
    Leaves ok f (voice_soft_pedal (F := F) value) := by
  unfold voice_soft_pedal
  refine Leaves.bind Leaves.get fun t => ?_
  refine Leaves.bind (Leaves.modify fun t => ⟨rfl, rfl⟩) fun _ => ?_
  refine Leaves.ite (Leaves.bind (Leaves.num_presets hok) fun count => ?_) (Leaves.pure ())
  refine Leaves.ite (Leaves.bind (Leaves.modify fun t => ⟨rfl, rfl⟩) fun _ => ?_) (Leaves.pure ())
  exact Leaves.bind Leaves.get fun t => load_leaves hok _

theorem parameter_leaves (hok : Allows ok f) (cc value : UInt8) :
    Leaves ok f (voice_parameter (F := F) cc value) := by
  unfold voice_parameter
  refine Leaves.bind Leaves.get fun t => ?_
  cases CcMap.apply_cc cc value t.working_preset with
  | continuous p a v =>
      exact Leaves.bind (Leaves.modify fun t => ⟨rfl, rfl⟩) fun _ => Leaves.controls hok _
  | structural p =>
      refine Leaves.bind (Leaves.modify fun t => ⟨rfl, rfl⟩) fun _ => ?_
      exact Leaves.emit (hok.preset_send p)
  | unmapped => exact Leaves.pure ()

/-- **A channel-voice message has allowed effects only, and leaves the flash and
a SysEx message in progress alone.** -/
theorem voice_leaves (hok : Allows ok f) (k : VoiceKind) : Leaves ok f (handleKind (F := F) k) := by
  -- only the soft pedal and a program change come near the flash, and they read
  cases k with
  | note_on key velocity =>
      refine Leaves.bind (Leaves.modify fun t => ⟨rfl, rfl⟩) fun _ => ?_
      refine Leaves.bind (Leaves.controls hok _) fun _ => ?_
      refine Leaves.bind (Leaves.controls hok _) fun _ => ?_
      exact Leaves.bind (Leaves.controls hok _) fun _ => Leaves.emit (hok.led _)
  | note_off key =>
      exact Leaves.bind (Leaves.modify fun t => ⟨rfl, rfl⟩) fun _ => follow_stack_leaves hok
  | mod_wheel value => exact Leaves.controls hok _
  | sustain value =>
      refine Leaves.bind (Leaves.modify fun t => ⟨rfl, rfl⟩) fun _ => ?_
      exact Leaves.ite (follow_stack_leaves hok) (Leaves.pure ())
  | soft_pedal value => exact soft_pedal_leaves hok value
  | all_off =>
      refine Leaves.bind (Leaves.modify fun t => ⟨rfl, rfl⟩) fun _ => ?_
      exact Leaves.bind (Leaves.controls hok _) fun _ => Leaves.emit (hok.led _)
  | parameter cc value => exact parameter_leaves hok cc value
  | program index =>
      exact Leaves.bind (Leaves.modify fun t => ⟨rfl, rfl⟩) fun _ => load_leaves hok _
  | pitch_bend d1 d2 => exact Leaves.controls hok _
  | ignored => exact Leaves.pure ()

end Voice

/-- Neither a flash write nor a reply to the host. -/
def Quiet : Effect F → Prop
  | .control _ | .preset_send _ | .led _ => True
  | .flash (.read _ _) | .flash .underflow => True
  | _ => False

omit [F32 F] in
/-- What channel-voice messages do is quiet. -/
theorem quiet_allows (f : Flash) : Allows (Quiet (F := F)) f where
  control _ := trivial
  preset_send _ := trivial
  led _ := trivial
  header := trivial
  load i op hop := by
    rcases (load_preset_reads i f).1 op hop with ⟨addr, len, rfl⟩ | rfl
    · trivial
    · trivial

/-- What a message that ends leaves as it was. -/
theorem voice_frame {status d1 d2 : UInt8} {t t' : MidiTask F} {es : List (Effect F)}
    (h : handle_work (.voice status d1 d2) t = (es, some ((), t'))) :
    t'.flash = t.flash ∧ t'.rx = t.rx ∧ ∀ e ∈ es, Quiet e := by
  rw [handle_work, handle_voice_message_eq] at h
  obtain ⟨hev, hpost⟩ :=
    voice_leaves (quiet_allows t.flash) (voiceKind status d1 d2) t.rx t rfl
  rw [h] at hev hpost
  obtain ⟨hflash, hrx⟩ := Prod.mk.inj (hpost () t' rfl)
  exact ⟨hflash, hrx, hev⟩

/-- Channel-voice messages only. -/
def AllVoice (ws : List Work) : Prop := ∀ w ∈ ws, ∃ status d1 d2, w = .voice status d1 d2

/-- No channel-voice message writes flash or answers the host, however many of them come. -/
theorem voices_quiet {ws : List Work} (h : AllVoice ws) (t : MidiTask F) :
    ∀ e ∈ (Proc.each handle_work ws t).1, Quiet e := by
  have hstep : ∀ w ∈ ws, Proc.Triple (fun _ => True) (handle_work (F := F) w) Quiet
      (fun _ _ => True) := by
    intro w hw s _
    obtain ⟨status, d1, d2, rfl⟩ := h w hw
    rw [handle_work, handle_voice_message_eq]
    exact ⟨(voice_leaves (quiet_allows s.flash) _ s.rx s rfl).1, fun _ _ _ => trivial⟩
  exact (Proc.Triple.each hstep t trivial).1

end Handlers

end PicoDsp.MidiTask
