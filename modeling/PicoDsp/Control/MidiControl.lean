/-
The live controls shared by the two cores (`MidiControl` in
`control/midi.rs`).

The source has one atomic for every control; here they are the values of one
function on `Atom`, which names the `f32` atomics, and the two flags of the
gate. A method is the list of its atomic accesses in program order, so that
another party can act between any two of them.

All accesses are relaxed in the source, and each control is an atomic of its own. Here a
store is seen by the next load of the same control, and stores to different controls are
seen in the order of the list.

The 28 slots of `cont` are an array in the source, indexed by constants; a slot is a
`Fin 28` and the accessors of an oscillator compute its three slots from its number.
`seed_from_preset` is a list of pairs and not of stores, because later modules look
controls up in it, and because its keys, the controls that a preset has anything to do
with, are a constant (`seededAtoms`). The pitch, the gate, the velocity and the wheels
are not among them.

The frequency of the filter is kept as a norm from 0 to 1 (`parameter_1`), while a preset
has it in Hz; `cutoff_norm` is the map between the two.
-/
import PicoDsp.Data.Presets

set_option autoImplicit false

namespace PicoDsp

open Lib

/-! ## The slots of `cont` -/

namespace slot

def OSC1_LEVEL : Fin 28 := 0
/-- Stores the frequency multiplier `2^octave`, not the octave itself. -/
def OSC1_OCTAVE : Fin 28 := 1
def OSC1_DETUNE : Fin 28 := 2
def OSC2_LEVEL : Fin 28 := 3
def OSC2_OCTAVE : Fin 28 := 4
def OSC2_DETUNE : Fin 28 := 5
def OSC3_LEVEL : Fin 28 := 6
def OSC3_OCTAVE : Fin 28 := 7
def OSC3_DETUNE : Fin 28 := 8
def NOISE : Fin 28 := 9
def FILT_ENV_AMT : Fin 28 := 10
def FILT_ATTACK : Fin 28 := 11
def FILT_DECAY : Fin 28 := 12
def FILT_SUSTAIN : Fin 28 := 13
def FILT_RELEASE : Fin 28 := 14
def AMP_ATTACK : Fin 28 := 15
def AMP_DECAY : Fin 28 := 16
def AMP_SUSTAIN : Fin 28 := 17
def AMP_RELEASE : Fin 28 := 18
def DELAY_TIME : Fin 28 := 19
def DELAY_FEEDBACK : Fin 28 := 20
def DELAY_MIX : Fin 28 := 21
def REVERB_SIZE : Fin 28 := 22
def REVERB_DAMPING : Fin 28 := 23
def REVERB_MIX : Fin 28 := 24
def LFO_FREQ : Fin 28 := 25
def LFO_VIB_AMT : Fin 28 := 26
def LFO_FILT_AMT : Fin 28 := 27

def osc_level (idx : Fin 3) : Fin 28 :=
  match idx with
  | 0 => OSC1_LEVEL
  | 1 => OSC2_LEVEL
  | _ => OSC3_LEVEL

def osc_octave (idx : Fin 3) : Fin 28 :=
  match idx with
  | 0 => OSC1_OCTAVE
  | 1 => OSC2_OCTAVE
  | _ => OSC3_OCTAVE

def osc_detune (idx : Fin 3) : Fin 28 :=
  match idx with
  | 0 => OSC1_DETUNE
  | 1 => OSC2_DETUNE
  | _ => OSC3_DETUNE

end slot

/-- The `f32` atomics of `MidiControl`. -/
inductive Atom
  | target_freq
  | portamento_amount
  | pitch_bend
  | mod_wheel
  | velocity
  | parameter_1
  | parameter_2
  | cont (slot : Fin 28)
  deriving DecidableEq

@[ext] structure MidiControl (F : Type) where
  value : Atom → F
  gate : Bool
  gate_reset : Bool

/-- One atomic store. -/
inductive ControlOp (F : Type)
  | store (a : Atom) (v : F)
  | gate (b : Bool)
  | gate_reset (b : Bool)

namespace MidiControl

variable {F : Type}

section

variable [F32 F]

def new : MidiControl F where
  value a := match a with
    | .target_freq => F32.lit 440
    | .pitch_bend => F32.lit 1
    | .velocity => F32.lit 1
    | .parameter_1 => F32.lit 0.5
    | _ => F32.lit 0
  gate := false
  gate_reset := false

/-- `log10(cutoff / 20) / log10(1000)`, clamped to 0..1. -/
def cutoff_norm (cutoff : F) : F :=
  F32.clamp (F32.log10f (cutoff / F32.lit 20) / F32.log10f (F32.lit 1000)) (F32.lit 0) (F32.lit 1)

/-- Oscillators are numbered from 0. -/
instance : NeZero 3 := ⟨by decide⟩

/-- The stores of one oscillator in `seed_from_preset`. -/
def seed_osc (idx : Fin 3) (osc : OscSettings F) : List (Atom × F) :=
  [(.cont (slot.osc_level idx), osc.level),
    (.cont (slot.osc_octave idx), F32.powf (F32.lit 2) osc.octave),
    (.cont (slot.osc_detune idx), osc.detune)]

/-- The stores of `seed_from_preset` behind the oscillators. -/
def seed_slots (p : Preset F) : List (Atom × F) :=
  [(.cont slot.NOISE, p.noise_level),
    (.cont slot.FILT_ENV_AMT, p.filter.env_amount),
    (.cont slot.FILT_ATTACK, p.filter.attack),
    (.cont slot.FILT_DECAY, p.filter.decay),
    (.cont slot.FILT_SUSTAIN, p.filter.sustain),
    (.cont slot.FILT_RELEASE, p.filter.release),
    (.cont slot.AMP_ATTACK, p.amp.attack),
    (.cont slot.AMP_DECAY, p.amp.decay),
    (.cont slot.AMP_SUSTAIN, p.amp.sustain),
    (.cont slot.AMP_RELEASE, p.amp.release),
    (.cont slot.DELAY_TIME, p.delay.time),
    (.cont slot.DELAY_FEEDBACK, p.delay.feedback),
    (.cont slot.DELAY_MIX, p.delay.mix),
    (.cont slot.REVERB_SIZE, p.reverb.size),
    (.cont slot.REVERB_DAMPING, p.reverb.damping),
    (.cont slot.REVERB_MIX, p.reverb.mix),
    (.cont slot.LFO_FREQ, p.lfo.frequency),
    (.cont slot.LFO_VIB_AMT, p.lfo.vibrato_amount),
    (.cont slot.LFO_FILT_AMT, p.lfo.filter_amount)]

/-- `seed_from_preset`: what it stores, in order. -/
def seed_from_preset (p : Preset F) : List (Atom × F) :=
  (.parameter_1, cutoff_norm p.filter.cutoff)
    :: (.parameter_2, F32.clamp p.filter.resonance (F32.lit 0) (F32.lit 1))
    :: (.portamento_amount, p.portamento)
    :: (seed_osc 0 p.osc1 ++ (seed_osc 1 p.osc2 ++ (seed_osc 2 p.osc3 ++ seed_slots p)))

def reset : List (ControlOp F) :=
  [.gate false, .gate_reset false, .store .pitch_bend (F32.lit 1), .store .mod_wheel (F32.lit 0)]

end

def set_gate (g : Bool) : List (ControlOp F) :=
  .gate g :: if g then [] else [.gate_reset true]

def get_cont (c : MidiControl F) (s : Fin 28) : F := c.value (.cont s)

/-- `take_gate_reset`: the swap on the one-shot flag. -/
def take_gate_reset (c : MidiControl F) : Bool × MidiControl F :=
  (c.gate_reset, { c with gate_reset := false })

end MidiControl

/-! ## What a store does -/

namespace ControlOp

variable {F : Type}

def apply : ControlOp F → MidiControl F → MidiControl F
  | .store a v, c => { c with value := Function.update c.value a v }
  | .gate b, c => { c with gate := b }
  | .gate_reset b, c => { c with gate_reset := b }

/-- The controls after a list of stores. -/
def applyAll (ops : List (ControlOp F)) (c : MidiControl F) : MidiControl F :=
  ops.foldl (fun c op => op.apply c) c

@[simp] theorem applyAll_nil (c : MidiControl F) : applyAll [] c = c := rfl

@[simp] theorem applyAll_cons (op : ControlOp F) (ops : List (ControlOp F)) (c : MidiControl F) :
    applyAll (op :: ops) c = applyAll ops (op.apply c) := rfl

/-- Stores one after the other. -/
theorem applyAll_append (ops ops' : List (ControlOp F)) (c : MidiControl F) :
    applyAll (ops ++ ops') c = applyAll ops' (applyAll ops c) :=
  List.foldl_append

@[simp] theorem apply_store_gate (a : Atom) (v : F) (c : MidiControl F) :
    ((ControlOp.store a v).apply c).gate = c.gate := rfl

@[simp] theorem apply_gate_gate (b : Bool) (c : MidiControl F) :
    ((ControlOp.gate b).apply c).gate = b := rfl

@[simp] theorem apply_gate_reset_gate (b : Bool) (c : MidiControl F) :
    ((ControlOp.gate_reset b).apply c).gate = c.gate := rfl

/-- `set_gate` leaves the gate as asked. -/
@[simp] theorem applyAll_set_gate (g : Bool) (c : MidiControl F) :
    (applyAll (MidiControl.set_gate g) c).gate = g := by
  unfold MidiControl.set_gate
  cases g <;> rfl

/-- `reset` closes the gate. -/
@[simp] theorem applyAll_reset [Lib.F32 F] (c : MidiControl F) :
    (applyAll MidiControl.reset c).gate = false := rfl

end ControlOp

/-! ## Agreement with a preset -/

section Agreement

variable {F : Type} [F32 F]

/-- Every live control that `seed_from_preset` writes holds the value it would
write for `p`. -/
def MidiControl.Agrees (c : MidiControl F) (p : Preset F) : Prop :=
  ∀ av ∈ MidiControl.seed_from_preset p, c.value av.1 = av.2

/-- The atoms `seed_from_preset` writes. -/
def seededAtoms : List Atom :=
  [.parameter_1, .parameter_2, .portamento_amount] ++ (List.finRange 28).map Atom.cont

/-- The same atoms are written whatever the preset, each exactly once. -/
theorem seed_from_preset_atoms (p : Preset F) :
    (MidiControl.seed_from_preset p).map Prod.fst = seededAtoms := rfl

/-- No control is seeded twice. -/
theorem seededAtoms_nodup : seededAtoms.Nodup := by decide +kernel

end Agreement

end PicoDsp
