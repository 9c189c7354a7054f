/-
The preset record (`data/presets.rs`).

`Preset F` is the record over a type `F` of `f32` values. Three readings occur:
`Preset UInt32` is the record as it lies in flash, `Preset ℚ` is a record as the factory
bank spells it, in decimals, and `Preset F` for an `F32 F` is what the synth computes
with. `map` takes one reading to another, and on that way a patch of the bank becomes a
record in flash and then the settings of a voice.

The `#[repr(C)]` layout is `to_bytes`/`from_bytes`: 32 name bytes, 41 little-endian words
and 4 padding bytes, 200 in all. The name and the padding are vectors, so the layout has
its length by construction, and reading back what was written needs no well-formedness
of the record (`Preset.from_bytes_to_bytes`). The other direction is not needed: the
firmware reads records out of bytes that it has not checked, and every bit pattern is a
value of a `u32` or an `f32`.
-/
import PicoDsp.Lib.Bytes
import PicoDsp.Lib.F32

set_option autoImplicit false

namespace PicoDsp

open Lib

/-- `infinitedsp_core::synthesis::oscillator::Waveform`. -/
inductive Waveform
  | Sine | Triangle | Saw | Square | WhiteNoise
  deriving DecidableEq, Repr

/-- `infinitedsp_core::synthesis::lfo::LfoWaveform`. -/
inductive LfoWaveform
  | Sine | Triangle | Saw | Square | SampleAndHold
  deriving DecidableEq, Repr

structure OscSettings (F : Type) where
  waveform : UInt32
  level : F
  octave : F
  detune : F
  enable_vibrato : UInt32
  deriving DecidableEq

structure FilterSettings (F : Type) where
  cutoff : F
  resonance : F
  env_amount : F
  attack : F
  decay : F
  sustain : F
  release : F
  deriving DecidableEq

structure EnvelopeSettings (F : Type) where
  attack : F
  decay : F
  sustain : F
  release : F
  deriving DecidableEq

structure LfoSettings (F : Type) where
  frequency : F
  waveform : UInt32
  vibrato_amount : F
  filter_amount : F
  deriving DecidableEq

structure DelaySettings (F : Type) where
  time : F
  feedback : F
  mix : F
  enabled : UInt32
  deriving DecidableEq

structure ReverbSettings (F : Type) where
  size : F
  damping : F
  mix : F
  enabled : UInt32
  deriving DecidableEq

/-- One patch. `name` and `padding` carry their lengths, so a record that does
not fill its 200 bytes cannot be built. -/
structure Preset (F : Type) where
  name : Vector UInt8 32
  osc1 : OscSettings F
  osc2 : OscSettings F
  osc3 : OscSettings F
  noise_level : F
  portamento : F
  filter : FilterSettings F
  amp : EnvelopeSettings F
  lfo_enabled : UInt32
  lfo : LfoSettings F
  delay : DelaySettings F
  reverb : ReverbSettings F
  padding : Vector UInt8 4
  deriving DecidableEq

/-! ## Changing the reading of the `f32` fields -/

section Map

variable {F G : Type} (f : F → G)

def OscSettings.map (o : OscSettings F) : OscSettings G :=
  ⟨o.waveform, f o.level, f o.octave, f o.detune, o.enable_vibrato⟩

def FilterSettings.map (o : FilterSettings F) : FilterSettings G :=
  ⟨f o.cutoff, f o.resonance, f o.env_amount, f o.attack, f o.decay, f o.sustain, f o.release⟩

def EnvelopeSettings.map (o : EnvelopeSettings F) : EnvelopeSettings G :=
  ⟨f o.attack, f o.decay, f o.sustain, f o.release⟩

def LfoSettings.map (o : LfoSettings F) : LfoSettings G :=
  ⟨f o.frequency, o.waveform, f o.vibrato_amount, f o.filter_amount⟩

def DelaySettings.map (o : DelaySettings F) : DelaySettings G :=
  ⟨f o.time, f o.feedback, f o.mix, o.enabled⟩

def ReverbSettings.map (o : ReverbSettings F) : ReverbSettings G :=
  ⟨f o.size, f o.damping, f o.mix, o.enabled⟩

/-- The same record with every `f32` field read another way. -/
def Preset.map (p : Preset F) : Preset G where
  name := p.name
  osc1 := p.osc1.map f
  osc2 := p.osc2.map f
  osc3 := p.osc3.map f
  noise_level := f p.noise_level
  portamento := f p.portamento
  filter := p.filter.map f
  amp := p.amp.map f
  lfo_enabled := p.lfo_enabled
  lfo := p.lfo.map f
  delay := p.delay.map f
  reverb := p.reverb.map f
  padding := p.padding

end Map

/-! ## What the voice is built from -/

def OscSettings.get_waveform {F : Type} (o : OscSettings F) : Waveform :=
  match o.waveform.toNat with
  | 0 => .Sine
  | 1 => .Triangle
  | 2 => .Saw
  | 3 => .Square
  | 4 => .WhiteNoise
  | _ => .Saw

def OscSettings.is_vibrato_enabled {F : Type} (o : OscSettings F) : Bool := o.enable_vibrato != 0

def LfoSettings.get_waveform {F : Type} (o : LfoSettings F) : LfoWaveform :=
  match o.waveform.toNat with
  | 0 => .Sine
  | 1 => .Triangle
  | 2 => .Saw
  | 3 => .Square
  | _ => .Sine

/-! ## The `#[repr(C)]` layout -/

/-- `size_of::<Preset>()`. -/
def PRESET_SIZE : ℕ := 200

def OscSettings.words (o : OscSettings UInt32) : List UInt32 :=
  [o.waveform, o.level, o.octave, o.detune, o.enable_vibrato]

def FilterSettings.words (o : FilterSettings UInt32) : List UInt32 :=
  [o.cutoff, o.resonance, o.env_amount, o.attack, o.decay, o.sustain, o.release]

def EnvelopeSettings.words (o : EnvelopeSettings UInt32) : List UInt32 :=
  [o.attack, o.decay, o.sustain, o.release]

def LfoSettings.words (o : LfoSettings UInt32) : List UInt32 :=
  [o.frequency, o.waveform, o.vibrato_amount, o.filter_amount]

def DelaySettings.words (o : DelaySettings UInt32) : List UInt32 :=
  [o.time, o.feedback, o.mix, o.enabled]

def ReverbSettings.words (o : ReverbSettings UInt32) : List UInt32 :=
  [o.size, o.damping, o.mix, o.enabled]

/-- The 41 words between the name and the padding. -/
def Preset.words (p : Preset UInt32) : List UInt32 :=
  p.osc1.words ++ p.osc2.words ++ p.osc3.words ++ [p.noise_level, p.portamento]
    ++ p.filter.words ++ p.amp.words ++ [p.lfo_enabled] ++ p.lfo.words ++ p.delay.words
    ++ p.reverb.words

/-- The bytes of a record. -/
def Preset.to_bytes (p : Preset UInt32) : List UInt8 :=
  p.name.toList ++ p.words.flatMap Bytes.to_le_bytes ++ p.padding.toList

def OscSettings.from_bytes (bs : List UInt8) (off : ℕ) : OscSettings UInt32 :=
  ⟨Bytes.u32At bs off, Bytes.u32At bs (off + 4), Bytes.u32At bs (off + 8),
    Bytes.u32At bs (off + 12), Bytes.u32At bs (off + 16)⟩

/-- The record at the start of a buffer (`core::ptr::read`). -/
def Preset.from_bytes (bs : List UInt8) : Preset UInt32 where
  name := Vector.ofFn fun i => bs.getD i 0
  osc1 := OscSettings.from_bytes bs 32
  osc2 := OscSettings.from_bytes bs 52
  osc3 := OscSettings.from_bytes bs 72
  noise_level := Bytes.u32At bs 92
  portamento := Bytes.u32At bs 96
  filter := ⟨Bytes.u32At bs 100, Bytes.u32At bs 104, Bytes.u32At bs 108, Bytes.u32At bs 112,
    Bytes.u32At bs 116, Bytes.u32At bs 120, Bytes.u32At bs 124⟩
  amp := ⟨Bytes.u32At bs 128, Bytes.u32At bs 132, Bytes.u32At bs 136, Bytes.u32At bs 140⟩
  lfo_enabled := Bytes.u32At bs 144
  lfo := ⟨Bytes.u32At bs 148, Bytes.u32At bs 152, Bytes.u32At bs 156, Bytes.u32At bs 160⟩
  delay := ⟨Bytes.u32At bs 164, Bytes.u32At bs 168, Bytes.u32At bs 172, Bytes.u32At bs 176⟩
  reverb := ⟨Bytes.u32At bs 180, Bytes.u32At bs 184, Bytes.u32At bs 188, Bytes.u32At bs 192⟩
  padding := Vector.ofFn fun i => bs.getD (196 + i) 0

/-- 41 words. -/
theorem Preset.words_length (p : Preset UInt32) : p.words.length = 41 := rfl

/-- Four bytes for each word. -/
private theorem flatMap_le_bytes_length (ws : List UInt32) :
    (ws.flatMap Bytes.to_le_bytes).length = 4 * ws.length := by
  induction ws with
  | nil => rfl
  | cons w ws ih =>
      rw [List.flatMap_cons, List.length_append, ih, Bytes.to_le_bytes_length, List.length_cons]
      omega

/-- A record is 200 bytes long. -/
theorem Preset.to_bytes_length (p : Preset UInt32) : p.to_bytes.length = PRESET_SIZE := by
  have hwords : (p.words.flatMap Bytes.to_le_bytes).length = 164 := by
    rw [flatMap_le_bytes_length, Preset.words_length]
  simp only [Preset.to_bytes, List.length_append, Vector.length_toList, hwords, PRESET_SIZE]

/-- A vector read out of a buffer that holds it. -/
private theorem vector_of_bytes {n : ℕ} (v : Vector UInt8 n) {bs : List UInt8} {off : ℕ}
    (h : ∀ i (hi : i < n), bs.getD (off + i) 0 = v[i]) :
    (Vector.ofFn fun i : Fin n => bs.getD (off + i) 0) = v := by
  ext i hi
  rw [Vector.getElem_ofFn, h i hi]

/-- A record is its name, its words and its padding. -/
private theorem from_bytes_of_words {p : Preset UInt32} {bs : List UInt8}
    (hname : (Vector.ofFn fun i : Fin 32 => bs.getD i 0) = p.name)
    (hpadding : (Vector.ofFn fun i : Fin 4 => bs.getD (196 + i) 0) = p.padding)
    (hword : ∀ k : Fin 41, Bytes.u32At bs (32 + 4 * k) = p.words.getD k 0) :
    Preset.from_bytes bs = p := by
  obtain ⟨name, ⟨_, _, _, _, _⟩, ⟨_, _, _, _, _⟩, ⟨_, _, _, _, _⟩, _, _, ⟨_, _, _, _, _, _, _⟩,
    ⟨_, _, _, _⟩, _, ⟨_, _, _, _⟩, ⟨_, _, _, _⟩, ⟨_, _, _, _⟩, padding⟩ := p
  simp only [Preset.from_bytes, OscSettings.from_bytes, hname, hpadding, Preset.mk.injEq,
    OscSettings.mk.injEq, FilterSettings.mk.injEq, EnvelopeSettings.mk.injEq,
    LfoSettings.mk.injEq, DelaySettings.mk.injEq, ReverbSettings.mk.injEq, true_and, and_true]
  simp only [Preset.words, OscSettings.words, FilterSettings.words, EnvelopeSettings.words,
    LfoSettings.words, DelaySettings.words, ReverbSettings.words, List.cons_append,
    List.nil_append] at hword
  -- field by field, in the order of the layout
  exact ⟨⟨hword 0, hword 1, hword 2, hword 3, hword 4⟩,
    ⟨hword 5, hword 6, hword 7, hword 8, hword 9⟩,
    ⟨hword 10, hword 11, hword 12, hword 13, hword 14⟩, hword 15, hword 16,
    ⟨hword 17, hword 18, hword 19, hword 20, hword 21, hword 22, hword 23⟩,
    ⟨hword 24, hword 25, hword 26, hword 27⟩, hword 28,
    ⟨hword 29, hword 30, hword 31, hword 32⟩, ⟨hword 33, hword 34, hword 35, hword 36⟩,
    ⟨hword 37, hword 38, hword 39, hword 40⟩⟩

/-- A record read back from its bytes. -/
theorem Preset.from_bytes_to_bytes (p : Preset UInt32) : Preset.from_bytes p.to_bytes = p := by
  have hname : p.name.toList.length = 32 := Vector.length_toList
  have hwords : (p.words.flatMap Bytes.to_le_bytes).length = 164 := by
    rw [flatMap_le_bytes_length, Preset.words_length]
  have hbytes : p.to_bytes
      = p.name.toList ++ (p.words.flatMap Bytes.to_le_bytes ++ p.padding.toList) :=
    List.append_assoc _ _ _
  have hword : ∀ k, k < 41 → Bytes.u32At p.to_bytes (32 + 4 * k) = p.words.getD k 0 := by
    intro k hk
    have hright := Bytes.u32At_append_right p.name.toList
      (p.words.flatMap Bytes.to_le_bytes ++ p.padding.toList) (4 * k)
    rw [hname, ← hbytes] at hright
    rw [hright]
    exact Bytes.u32At_words (by rw [Preset.words_length]; exact hk) _
  -- the name in front of the words and the padding behind them
  have hfront : (Vector.ofFn fun i : Fin 32 => p.to_bytes.getD (0 + i) 0) = p.name := by
    refine vector_of_bytes p.name fun i hi => ?_
    rw [Nat.zero_add, hbytes, List.getD_append _ _ _ _ (by omega),
      List.getD_eq_getElem _ _ (by omega), Vector.getElem_toList]
  have hback : (Vector.ofFn fun i : Fin 4 => p.to_bytes.getD (196 + i) 0) = p.padding := by
    refine vector_of_bytes p.padding fun i hi => ?_
    have hpad : p.padding.toList.length = 4 := Vector.length_toList
    have hoff : 196 + i = p.name.toList.length + ((p.words.flatMap Bytes.to_le_bytes).length + i) := by
      omega
    rw [hoff, hbytes, List.getD_append_right _ _ _ _ (Nat.le_add_right _ _),
      Nat.add_sub_cancel_left, List.getD_append_right _ _ _ _ (Nat.le_add_right _ _),
      Nat.add_sub_cancel_left, List.getD_eq_getElem _ _ (by omega), Vector.getElem_toList]
  simp only [Nat.zero_add] at hfront
  exact from_bytes_of_words hfront hback fun k => hword k k.isLt

/-! ## The helpers the presets are written with -/

/-- `make_name`: at most 32 bytes of the text, padded with zeros. -/
def make_name (s : String) : Vector UInt8 32 :=
  Vector.ofFn fun i => s.toUTF8.data.toList.getD i 0

def osc (wf : Waveform) (level octave detune : ℚ) (vib : Bool) : OscSettings ℚ where
  waveform := match wf with
    | .Sine => 0
    | .Triangle => 1
    | .Saw => 2
    | .Square => 3
    | .WhiteNoise => 4
  level := level
  octave := octave
  detune := detune
  enable_vibrato := if vib then 1 else 0

def lfo (freq : ℚ) (wf : LfoWaveform) (vib filt : ℚ) : LfoSettings ℚ where
  frequency := freq
  waveform := match wf with
    | .Sine => 0
    | .Triangle => 1
    | .Saw => 2
    | .Square => 3
    | _ => 0
  vibrato_amount := vib
  filter_amount := filt

def delay_set (time feedback mix : ℚ) (enabled : Bool) : DelaySettings ℚ :=
  ⟨time, feedback, mix, if enabled then 1 else 0⟩

def reverb_set (size damping mix : ℚ) (enabled : Bool) : ReverbSettings ℚ :=
  ⟨size, damping, mix, if enabled then 1 else 0⟩

def filt (cutoff resonance env_amount attack decay sustain release : ℚ) : FilterSettings ℚ :=
  ⟨cutoff, resonance, env_amount, attack, decay, sustain, release⟩

def env (attack decay sustain release : ℚ) : EnvelopeSettings ℚ :=
  ⟨attack, decay, sustain, release⟩

/-- `impl Default for Preset`, in decimals. -/
def default_preset : Preset ℚ where
  name := make_name "Init Patch"
  osc1 := osc .Saw 1.0 0.0 0.0 true
  osc2 := osc .Saw 0.0 0.0 0.0 true
  osc3 := osc .Saw 0.0 0.0 0.0 true
  noise_level := 0.0
  portamento := 0.0
  filter := filt 20000.0 0.0 0.0 0.0 0.0 1.0 0.0
  amp := env 0.01 0.1 1.0 0.1
  lfo_enabled := 0
  lfo := lfo 1.0 .Sine 0.0 0.0
  delay := delay_set 0.25 0.3 0.3 false
  reverb := reverb_set 0.5 0.5 0.1 false
  padding := Vector.replicate 4 0

/-- `Preset::default()` as the device holds it. -/
def Preset.default : Preset UInt32 := default_preset.map F32.round

end PicoDsp
