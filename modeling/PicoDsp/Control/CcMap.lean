/-
The map from controller numbers to DSP parameters (`control/cc_map.rs`).

`apply_cc` returns everything it does at once: a continuous parameter changes
the working preset and stores one live control, a structural one changes the
working preset only. In the source the store to the live control is made inside of
`apply_cc`, behind the change of the preset, and the caller is told by the `Some(false)`
that nothing is left to do; nobody can look at the preset in between, so the result
names both.

The arms stand in the order of the source. Arms of one kind, such as the level of
each of the three oscillators, are one definition with the oscillator as its parameter
(`set_level` and its neighbours), and keep their own line under the controller's name.

The value of a message is a byte. Its norm `n` divides by 127, and a byte above 127,
which no keyboard sends, gives a norm above one; the settings with a few choices take the
byte itself, cut off at the last choice. A switch is on from 64.
-/
import PicoDsp.Control.MidiControl

set_option autoImplicit false

namespace PicoDsp.CcMap

open Lib

def CC_PORTAMENTO : UInt8 := 5
def CC_RESONANCE : UInt8 := 71
def CC_CUTOFF : UInt8 := 74

def CC_OSC1_LEVEL : UInt8 := 16
def CC_OSC1_OCTAVE : UInt8 := 17
def CC_OSC1_DETUNE : UInt8 := 18
def CC_OSC2_LEVEL : UInt8 := 19
def CC_OSC2_OCTAVE : UInt8 := 20
def CC_OSC2_DETUNE : UInt8 := 21
def CC_OSC3_LEVEL : UInt8 := 22
def CC_OSC3_OCTAVE : UInt8 := 23
def CC_OSC3_DETUNE : UInt8 := 24
def CC_NOISE : UInt8 := 25
def CC_FILT_ENV_AMT : UInt8 := 26
def CC_FILT_ATTACK : UInt8 := 27
def CC_FILT_DECAY : UInt8 := 28
def CC_FILT_SUSTAIN : UInt8 := 29
def CC_FILT_RELEASE : UInt8 := 30
def CC_AMP_ATTACK : UInt8 := 31
def CC_AMP_DECAY : UInt8 := 102
def CC_AMP_SUSTAIN : UInt8 := 103
def CC_AMP_RELEASE : UInt8 := 104
def CC_DELAY_TIME : UInt8 := 105
def CC_DELAY_FEEDBACK : UInt8 := 106
def CC_DELAY_MIX : UInt8 := 107
def CC_REVERB_SIZE : UInt8 := 108
def CC_REVERB_DAMPING : UInt8 := 109
def CC_REVERB_MIX : UInt8 := 110

def CC_LFO_FREQ : UInt8 := 86
def CC_LFO_VIB_AMT : UInt8 := 88
def CC_LFO_FILT_AMT : UInt8 := 89

def CC_OSC1_WAVEFORM : UInt8 := 111
def CC_OSC1_VIBRATO : UInt8 := 112
def CC_OSC2_WAVEFORM : UInt8 := 113
def CC_OSC2_VIBRATO : UInt8 := 114
def CC_OSC3_WAVEFORM : UInt8 := 115
def CC_OSC3_VIBRATO : UInt8 := 116
def CC_DELAY_ENABLED : UInt8 := 117
def CC_REVERB_ENABLED : UInt8 := 118
def CC_LFO_ENABLED : UInt8 := 85
def CC_LFO_WAVEFORM : UInt8 := 87

section

variable {F : Type}

/-- What `apply_cc` returns and writes. -/
inductive CcResult (F : Type)
  /-- `Some(false)`: the preset `p` and the live control `a` were written. -/
  | continuous (p : Preset F) (a : Atom) (v : F)
  /-- `Some(true)`: only the preset was written. -/
  | structural (p : Preset F)
  /-- `None`: not a DSP parameter. -/
  | unmapped

variable [F32 F]

def MAX_DELAY_SECONDS : F := F32.lit 0.3

/-- Map a normalized 0..1 onto a linear range. -/
def lin (n lo hi : F) : F := lo + n * (hi - lo)

/-- Change oscillator `idx` (`osc_mut`). -/
def with_osc (p : Preset F) (idx : Fin 3) (g : OscSettings F → OscSettings F) : Preset F :=
  match idx with
  | 0 => { p with osc1 := g p.osc1 }
  | 1 => { p with osc2 := g p.osc2 }
  | _ => { p with osc3 := g p.osc3 }

def set_level (p : Preset F) (idx : Fin 3) (n : F) : CcResult F :=
  .continuous (with_osc p idx fun o => { o with level := n }) (.cont (slot.osc_level idx)) n

def set_octave (p : Preset F) (idx : Fin 3) (n : F) : CcResult F :=
  let oct := lin n (F32.lit (-2)) (F32.lit 2)
  .continuous (with_osc p idx fun o => { o with octave := oct }) (.cont (slot.osc_octave idx))
    (F32.powf (F32.lit 2) oct)

def set_detune (p : Preset F) (idx : Fin 3) (n : F) : CcResult F :=
  let det := lin n (F32.lit (-100)) (F32.lit 100)
  .continuous (with_osc p idx fun o => { o with detune := det }) (.cont (slot.osc_detune idx)) det

/-- `(value >= 64) as u32` -/
def switch (value : UInt8) : UInt32 := if 64 ≤ value then 1 else 0

/-- `value.min(top) as u32` -/
def choice (value top : UInt8) : UInt32 := UInt32.ofNat (min value.toNat top.toNat)

def apply_cc (cc value : UInt8) (p : Preset F) : CcResult F :=
  let n : F := F32.ofU8 value / F32.lit 127
  -- continuous
  if cc = CC_PORTAMENTO then
    .continuous { p with portamento := n } .portamento_amount n
  else if cc = CC_RESONANCE then
    .continuous { p with filter := { p.filter with resonance := n } } .parameter_2 n
  else if cc = CC_CUTOFF then
    -- the live slot holds the normalized value, the preset the resolved Hz
    let hz := F32.lit 20 * F32.powf (F32.lit 1000) n
    .continuous { p with filter := { p.filter with cutoff := hz } } .parameter_1 n
  else if cc = CC_OSC1_LEVEL then set_level p 0 n
  else if cc = CC_OSC2_LEVEL then set_level p 1 n
  else if cc = CC_OSC3_LEVEL then set_level p 2 n
  else if cc = CC_OSC1_OCTAVE then set_octave p 0 n
  else if cc = CC_OSC2_OCTAVE then set_octave p 1 n
  else if cc = CC_OSC3_OCTAVE then set_octave p 2 n
  else if cc = CC_OSC1_DETUNE then set_detune p 0 n
  else if cc = CC_OSC2_DETUNE then set_detune p 1 n
  else if cc = CC_OSC3_DETUNE then set_detune p 2 n
  else if cc = CC_NOISE then
    .continuous { p with noise_level := n } (.cont slot.NOISE) n
  else if cc = CC_FILT_ENV_AMT then
    let v := lin n (F32.lit (-10000)) (F32.lit 10000)
    .continuous { p with filter := { p.filter with env_amount := v } } (.cont slot.FILT_ENV_AMT) v
  else if cc = CC_FILT_ATTACK then
    let v := lin n (F32.lit 0) (F32.lit 5)
    .continuous { p with filter := { p.filter with attack := v } } (.cont slot.FILT_ATTACK) v
  else if cc = CC_FILT_DECAY then
    let v := lin n (F32.lit 0) (F32.lit 5)
    .continuous { p with filter := { p.filter with decay := v } } (.cont slot.FILT_DECAY) v
  else if cc = CC_FILT_SUSTAIN then
    .continuous { p with filter := { p.filter with sustain := n } } (.cont slot.FILT_SUSTAIN) n
  else if cc = CC_FILT_RELEASE then
    let v := lin n (F32.lit 0) (F32.lit 5)
    .continuous { p with filter := { p.filter with release := v } } (.cont slot.FILT_RELEASE) v
  else if cc = CC_AMP_ATTACK then
    let v := lin n (F32.lit 0) (F32.lit 5)
    .continuous { p with amp := { p.amp with attack := v } } (.cont slot.AMP_ATTACK) v
  else if cc = CC_AMP_DECAY then
    let v := lin n (F32.lit 0) (F32.lit 5)
    .continuous { p with amp := { p.amp with decay := v } } (.cont slot.AMP_DECAY) v
  else if cc = CC_AMP_SUSTAIN then
    .continuous { p with amp := { p.amp with sustain := n } } (.cont slot.AMP_SUSTAIN) n
  else if cc = CC_AMP_RELEASE then
    let v := lin n (F32.lit 0) (F32.lit 5)
    .continuous { p with amp := { p.amp with release := v } } (.cont slot.AMP_RELEASE) v
  else if cc = CC_DELAY_TIME then
    let v := lin n (F32.lit 0) MAX_DELAY_SECONDS
    .continuous { p with delay := { p.delay with time := v } } (.cont slot.DELAY_TIME) v
  else if cc = CC_DELAY_FEEDBACK then
    .continuous { p with delay := { p.delay with feedback := n } } (.cont slot.DELAY_FEEDBACK) n
  else if cc = CC_DELAY_MIX then
    .continuous { p with delay := { p.delay with mix := n } } (.cont slot.DELAY_MIX) n
  else if cc = CC_REVERB_SIZE then
    .continuous { p with reverb := { p.reverb with size := n } } (.cont slot.REVERB_SIZE) n
  else if cc = CC_REVERB_DAMPING then
    .continuous { p with reverb := { p.reverb with damping := n } } (.cont slot.REVERB_DAMPING) n
  else if cc = CC_REVERB_MIX then
    .continuous { p with reverb := { p.reverb with mix := n } } (.cont slot.REVERB_MIX) n
  else if cc = CC_LFO_FREQ then
    let v := lin n (F32.lit 0) (F32.lit 20)
    .continuous { p with lfo := { p.lfo with frequency := v } } (.cont slot.LFO_FREQ) v
  else if cc = CC_LFO_VIB_AMT then
    let v := lin n (F32.lit 0) (F32.lit 20)
    .continuous { p with lfo := { p.lfo with vibrato_amount := v } } (.cont slot.LFO_VIB_AMT) v
  else if cc = CC_LFO_FILT_AMT then
    let v := lin n (F32.lit 0) (F32.lit 5000)
    .continuous { p with lfo := { p.lfo with filter_amount := v } } (.cont slot.LFO_FILT_AMT) v
  -- structural (rebuild voice)
  else if cc = CC_OSC1_WAVEFORM then
    .structural (with_osc p 0 fun o => { o with waveform := choice value 4 })
  else if cc = CC_OSC2_WAVEFORM then
    .structural (with_osc p 1 fun o => { o with waveform := choice value 4 })
  else if cc = CC_OSC3_WAVEFORM then
    .structural (with_osc p 2 fun o => { o with waveform := choice value 4 })
  else if cc = CC_OSC1_VIBRATO then
    .structural (with_osc p 0 fun o => { o with enable_vibrato := switch value })
  else if cc = CC_OSC2_VIBRATO then
    .structural (with_osc p 1 fun o => { o with enable_vibrato := switch value })
  else if cc = CC_OSC3_VIBRATO then
    .structural (with_osc p 2 fun o => { o with enable_vibrato := switch value })
  else if cc = CC_DELAY_ENABLED then
    .structural { p with delay := { p.delay with enabled := switch value } }
  else if cc = CC_REVERB_ENABLED then
    .structural { p with reverb := { p.reverb with enabled := switch value } }
  else if cc = CC_LFO_ENABLED then
    .structural { p with lfo_enabled := switch value }
  else if cc = CC_LFO_WAVEFORM then
    .structural { p with lfo := { p.lfo with waveform := choice value 3 } }
  else .unmapped

end

end PicoDsp.CcMap
