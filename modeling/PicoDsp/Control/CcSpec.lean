/-
What a controller changes: the configuration the voice is built from, or one
live control (`apply_cc` of `control/cc_map.rs`).

A voice takes some of a preset when it is built and reads the rest anew for every block
from the live controls. `apply_cc` tells its caller which of the two a controller has
changed: `structural` makes the caller send the preset, so that a voice is built anew,
and `continuous` makes it store one live control. If it were wrong about that, a knob
would have no effect until something else rebuilds the voice, or would rebuild it
for nothing.

A continuous controller leaves the configuration alone (`apply_cc_configuration`) and
stores what `seed_from_preset` would store for the changed preset; a structural one leaves
everything `seed_from_preset` stores alone (`apply_cc_reflects`). Both are stated on the
result of `apply_cc` as one predicate, so that the case split over the arms is made
once for each.

For the cutoff this rests on exact arithmetic: the preset keeps the frequency and the
live control a number from 0 to 1, and seeding maps back by a logarithm what the
controller mapped by a power. For the cutoff and the resonance, which seeding clamps, it
rests on a value of at most 127, as every data byte of MIDI has.
-/
import PicoDsp.Control.CcMap

set_option autoImplicit false

namespace PicoDsp

open Lib

/-- What is fixed when a voice is built. -/
structure VoiceConfig where
  waveform1 : Waveform
  waveform2 : Waveform
  waveform3 : Waveform
  vibrato1 : Bool
  vibrato2 : Bool
  vibrato3 : Bool
  lfo_enabled : Bool
  lfo_waveform : LfoWaveform
  delay_enabled : Bool
  reverb_enabled : Bool
  deriving DecidableEq

/-- The configuration of a voice built from `p`. -/
def Preset.configuration {F : Type} (p : Preset F) : VoiceConfig where
  waveform1 := p.osc1.get_waveform
  waveform2 := p.osc2.get_waveform
  waveform3 := p.osc3.get_waveform
  vibrato1 := p.osc1.is_vibrato_enabled
  vibrato2 := p.osc2.is_vibrato_enabled
  vibrato3 := p.osc3.is_vibrato_enabled
  lfo_enabled := p.lfo_enabled != 0
  lfo_waveform := p.lfo.get_waveform
  delay_enabled := p.delay.enabled != 0
  reverb_enabled := p.reverb.enabled != 0

namespace CcMap

/-- A property of both arms. -/
theorem of_ite {α : Type} {P : α → Prop} {c : Prop} [Decidable c] {x y : α} (hx : P x)
    (hy : P y) : P (if c then x else y) := by
  split
  · exact hx
  · exact hy

section Configuration

variable {F : Type} [F32 F]

/-- A continuous result keeps the configuration of `p`. -/
def KeepsConfiguration (p : Preset F) : CcResult F → Prop
  | .continuous p' _ _ => p'.configuration = p.configuration
  | _ => True

/-- **A continuous controller leaves the configuration of the voice alone.** -/
theorem apply_cc_configuration (cc value : UInt8) (p : Preset F) :
    KeepsConfiguration p (apply_cc cc value p) := by
  unfold apply_cc
  repeat' apply of_ite
  all_goals first | exact trivial | exact rfl

end Configuration

section Seeds

variable {F : Type} [F32 F]

/-- The list with the value for `a` replaced by `v`. -/
def reseeded (a : Atom) (v : F) (seeds : List (Atom × F)) : List (Atom × F) :=
  seeds.map fun bw => (bw.1, if bw.1 = a then v else bw.2)

/-- The result is what `seed_from_preset` makes of the changed preset. -/
def Reflects (p : Preset F) : CcResult F → Prop
  | .continuous p' a v => a ∈ seededAtoms ∧
      MidiControl.seed_from_preset p' = reseeded a v (MidiControl.seed_from_preset p)
  | .structural p' => MidiControl.seed_from_preset p' = MidiControl.seed_from_preset p
  | .unmapped => True

end Seeds

/-- A data byte as a number from 0 to 1. -/
theorem norm_mem {value : UInt8} (h : value ≤ 127) :
    0 ≤ (F32.ofU8 value / F32.lit 127 : ℝ) ∧ (F32.ofU8 value / F32.lit 127 : ℝ) ≤ 1 := by
  have hle : (value.toNat : ℝ) ≤ 127 := by
    have hnat : value.toNat ≤ 127 := UInt8.le_iff_toNat_le.mp h
    exact_mod_cast hnat
  have hpos : (0 : ℝ) ≤ value.toNat := Nat.cast_nonneg _
  rw [F32.ofU8_real, F32.lit_real]
  constructor
  · positivity
  · rw [div_le_one (by norm_num)]
    exact_mod_cast hle

/-- The cutoff in Hz is mapped back to the value it was made from. -/
theorem cutoff_norm_of_norm {n : ℝ} (h₀ : 0 ≤ n) (h₁ : n ≤ 1) :
    MidiControl.cutoff_norm (F32.lit 20 * F32.powf (F32.lit 1000) n) = n := by
  have hlog := F32.log10_pow_1000 n
  simp only [MidiControl.cutoff_norm, F32.lit_real, F32.powf_real, F32.log10f_real]
  norm_num at hlog ⊢
  rw [hlog]
  exact F32.clamp_real_of_mem h₀ h₁

/-- The resonance is stored as it is seeded. -/
theorem resonance_reflects {n : ℝ} (h₀ : 0 ≤ n) (h₁ : n ≤ 1) (p : Preset ℝ) :
    Reflects p
      (.continuous { p with filter := { p.filter with resonance := n } } .parameter_2 n) := by
  have hclamp : F32.clamp n (F32.lit 0) (F32.lit 1) = n := by
    rw [F32.lit_real, F32.lit_real]
    exact F32.clamp_real_of_mem (by exact_mod_cast h₀) (by exact_mod_cast h₁)
  refine ⟨by decide, ?_⟩
  exact congrArg (fun r => (Atom.parameter_1, MidiControl.cutoff_norm p.filter.cutoff)
    :: (Atom.parameter_2, r) :: (MidiControl.seed_from_preset p).drop 2) hclamp

/-- The live slot of the cutoff holds the norm, the preset the Hz. -/
theorem cutoff_reflects {n : ℝ} (h₀ : 0 ≤ n) (h₁ : n ≤ 1) (p : Preset ℝ) :
    Reflects p
      (.continuous { p with filter :=
          { p.filter with cutoff := F32.lit 20 * F32.powf (F32.lit 1000) n } } .parameter_1 n) := by
  refine ⟨by decide, ?_⟩
  exact congrArg (fun c => (Atom.parameter_1, c) :: (MidiControl.seed_from_preset p).drop 1)
    (cutoff_norm_of_norm h₀ h₁)

/-- **A live control and the preset are changed alike.** -/
theorem apply_cc_reflects (cc : UInt8) {value : UInt8} (hvalue : value ≤ 127) (p : Preset ℝ) :
    Reflects p (apply_cc cc value p) := by
  obtain ⟨h₀, h₁⟩ := norm_mem hvalue
  unfold apply_cc
  simp only
  generalize (F32.ofU8 value / F32.lit 127 : ℝ) = n at h₀ h₁ ⊢
  repeat' apply of_ite
  -- the cutoff and the resonance are seeded through a function, the others as they are
  all_goals first
    | exact trivial
    | exact rfl
    | exact ⟨by decide, rfl⟩
    | exact resonance_reflects h₀ h₁ p
    | exact cutoff_reflects h₀ h₁ p

end CcMap

end PicoDsp
