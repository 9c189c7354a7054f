/-
The oscillators of a voice (`MoogOscillatorSection` in `dsp/moog.rs`).

Each of the three oscillators has a pitch node of its own, and an oscillator
whose level is next to zero is skipped, its pitch node with it. So a pitch is the
glide over those blocks alone in which its oscillator was processed
(`pitchAfter`), and whether the oscillators of a block are at one pitch is a
question about the levels, targets and portamento of the blocks before it.

What else an oscillator keeps and what it makes of the pitch, octave, detune, vibrato and
the wave itself, is a parameter (`Render`, over a state of any type). None of it reaches
back to the pitch node, so the result holds for whatever the waves are, and what is
compared are the samples of the pitch nodes.

`glides_together_iff` is an equivalence over all runs of blocks. The condition
(`Meeting`) is on the pitches in front of a block, which are a function of the blocks
before it: two oscillators that are processed have to meet in its first chunk. An
oscillator that was muted during a glide has missed some chunks, and comes back at
another pitch (`glides_apart`); without portamento that makes no difference
(`glides_together_iff_quick`).
-/
import PicoDsp.Dsp.MidiFreq

set_option autoImplicit false

namespace PicoDsp

open Lib MidiFreq

/-- An oscillator: its pitch node, and what its other nodes keep. -/
structure Oscillator (K S : Type) where
  pitch : MidiFreq K
  state : S

structure MoogOscillatorSection (K S : Type) where
  osc1 : Oscillator K S
  osc2 : Oscillator K S
  osc3 : Oscillator K S
  /-- The noise has no pitch node. -/
  noise : S

section

variable {K S : Type} [Field K] [LinearOrder K]

/-- What an oscillator makes of the samples of its pitch node: octave, detune and
vibrato, and the wave. -/
abbrev Render (K S : Type) : Type := MidiControl K → List K → S → List K × S

def Oscillator.process (render : Render K S) (control : MidiControl K) (len : ℕ)
    (self : Oscillator K S) : List K × Oscillator K S :=
  let (freq_buffer, pitch) := MidiFreq.process control (List.replicate len 0) self.pitch
  let (out, state) := render control freq_buffer self.state
  (out, ⟨pitch, state⟩)

namespace MoogOscillatorSection

/-- Add an oscillator to the buffer. -/
def mix (render : Render K S) (control : MidiControl K) (len : ℕ) (level : K) (buffer : List K)
    (osc : Oscillator K S) : List K × Oscillator K S :=
  if 0.0001 < level then
    let (scratch, osc) := osc.process render control len
    (List.zipWith (fun s scratch => s + scratch * level) buffer scratch, osc)
  else (buffer, osc)

def process (render : Render K S) (control : MidiControl K) (buffer : List K)
    (self : MoogOscillatorSection K S) : List K × MoogOscillatorSection K S :=
  let len := buffer.length
  let level1 := control.get_cont slot.OSC1_LEVEL
  let level2 := control.get_cont slot.OSC2_LEVEL
  let level3 := control.get_cont slot.OSC3_LEVEL
  let level_noise := control.get_cont slot.NOISE
  let (buffer, osc1) :=
    if 0.0001 < level1 then
      let (out, osc1) := self.osc1.process render control len
      (out.map (· * level1), osc1)
    else (List.replicate len 0, self.osc1)
  let (buffer, osc2) := mix render control len level2 buffer self.osc2
  let (buffer, osc3) := mix render control len level3 buffer self.osc3
  let (buffer, noise) :=
    if 0.0001 < level_noise then
      let (scratch, noise) := render control (List.replicate len 0) self.noise
      (List.zipWith (fun s scratch => s + scratch * level_noise) buffer scratch, noise)
    else (buffer, self.noise)
  (buffer, ⟨osc1, osc2, osc3, noise⟩)

/-- The section that `new_moog_voice` builds: every pitch starts at the target. -/
def new_moog_voice (control : MidiControl K) (s1 s2 s3 noise : S) : MoogOscillatorSection K S :=
  ⟨⟨MidiFreq.new control, s1⟩, ⟨MidiFreq.new control, s2⟩, ⟨MidiFreq.new control, s3⟩, noise⟩

/-- Oscillator `idx`. -/
def osc (self : MoogOscillatorSection K S) (idx : Fin 3) : Oscillator K S :=
  match idx with
  | 0 => self.osc1
  | 1 => self.osc2
  | 2 => self.osc3

/-- The oscillator is processed in a block with these controls. -/
def Sounds (control : MidiControl K) (idx : Fin 3) : Prop :=
  0.0001 < control.get_cont (slot.osc_level idx)

instance (control : MidiControl K) (idx : Fin 3) : Decidable (Sounds control idx) :=
  inferInstanceAs (Decidable (0.0001 < control.get_cont (slot.osc_level idx)))

/-- The samples of the pitch node of an oscillator in a block of `len` samples. -/
def freqs (control : MidiControl K) (len : ℕ) (self : MoogOscillatorSection K S)
    (idx : Fin 3) : List K :=
  (MidiFreq.process control (List.replicate len 0) (self.osc idx).pitch).1

/-- The section after some blocks, each with the controls it finds. -/
def play (render : Render K S) (bs : List (MidiControl K × List K))
    (self : MoogOscillatorSection K S) : MoogOscillatorSection K S :=
  bs.foldl (fun self b => (process render b.1 b.2 self).2) self

/-! ## The pitch of an oscillator -/

/-- One block more. -/
theorem play_snoc (render : Render K S) (bs : List (MidiControl K × List K))
    (b : MidiControl K × List K) (self : MoogOscillatorSection K S) :
    play render (bs ++ [b]) self = (process render b.1 b.2 (play render bs self)).2 :=
  List.foldl_append

/-- The pitch of an oscillator moves exactly if its level is not next to zero. -/
theorem mix_pitch (render : Render K S) (control : MidiControl K) (len : ℕ) (level : K)
    (buffer : List K) (osc : Oscillator K S) :
    (mix render control len level buffer osc).2.pitch
      = if 0.0001 < level then (MidiFreq.process control (List.replicate len 0) osc.pitch).2
        else osc.pitch := by
  unfold mix
  split
  · rfl
  · rfl

/-- A block moves the pitches of the oscillators that are processed in it. -/
theorem process_pitch (render : Render K S) (control : MidiControl K) (buffer : List K)
    (self : MoogOscillatorSection K S) (idx : Fin 3) :
    ((process render control buffer self).2.osc idx).pitch
      = if Sounds control idx then
          (MidiFreq.process control (List.replicate buffer.length 0) (self.osc idx).pitch).2
        else (self.osc idx).pitch := by
  match idx with
  | 0 =>
      by_cases hsounds : Sounds control 0
      · have hlevel : 0.0001 < control.get_cont slot.OSC1_LEVEL := hsounds
        simp only [process, osc, if_pos hlevel, if_pos hsounds]
        rfl
      · have hlevel : ¬ 0.0001 < control.get_cont slot.OSC1_LEVEL := hsounds
        simp only [process, osc, if_neg hlevel, if_neg hsounds]
  | 1 => exact mix_pitch render control buffer.length _ _ self.osc2
  | 2 => exact mix_pitch render control buffer.length _ _ self.osc3

/-- The frequency an oscillator has glided to: over the blocks it was processed in. -/
def pitchAfter (idx : Fin 3) (bs : List (MidiControl K × List K)) (start : K) : K :=
  freqAfter (chunkControls (bs.filter fun b => Sounds b.1 idx)) start

/-- A block moves a pitch by its chunks, whatever is in its buffer. -/
theorem process_freq (control : MidiControl K) {buffer buffer' : List K}
    (hlen : buffer.length = buffer'.length) (pitch : MidiFreq K) :
    (MidiFreq.process control buffer pitch).2.current_freq
      = freqAfter (chunkControls [(control, buffer')]) pitch.current_freq := by
  rw [chunkControls, List.flatMap_singleton, ← map_const_chunks CHUNK_SIZE hlen]
  exact process_chunks_freq control _ _

/-- **A pitch glides over the blocks of its oscillator alone.** -/
theorem play_pitch (render : Render K S) (bs : List (MidiControl K × List K))
    (self : MoogOscillatorSection K S) (idx : Fin 3) :
    ((play render bs self).osc idx).pitch.current_freq
      = pitchAfter idx bs (self.osc idx).pitch.current_freq := by
  induction bs using List.reverseRecOn with
  | nil => rfl
  | append_singleton bs b ih =>
      rw [play_snoc, process_pitch, pitchAfter, List.filter_append]
      by_cases hsounds : Sounds b.1 idx
      · rw [if_pos hsounds, process_freq b.1 (List.length_replicate), ih, pitchAfter,
          ← freqAfter_append]
        simp only [chunkControls, List.filter_cons, hsounds, decide_true, if_true,
          List.filter_nil, List.flatMap_append]
      · rw [if_neg hsounds, ih, pitchAfter]
        simp only [List.filter_cons, hsounds, decide_false, Bool.false_eq_true, if_false,
          List.filter_nil, List.append_nil]

/-! ## Gliding together -/

/-- In every block the oscillators that are processed get the same samples from
their pitch nodes. -/
def GlidesTogether (render : Render K S) (voice : MoogOscillatorSection K S)
    (bs : List (MidiControl K × List K)) : Prop :=
  ∀ pre b post, bs = pre ++ b :: post → ∀ i j, Sounds b.1 i → Sounds b.1 j →
    freqs b.1 b.2.length (play render pre voice) i = freqs b.1 b.2.length (play render pre voice) j

/-- Where two oscillators are processed in one block, it is empty, its bend is
zero, or the frequencies they have glided to meet in its first chunk. -/
def Meeting (start : K) (bs : List (MidiControl K × List K)) : Prop :=
  ∀ pre b post, bs = pre ++ b :: post → ∀ i j, Sounds b.1 i → Sounds b.1 j →
    b.2 = [] ∨ b.1.get_pitch_bend = 0 ∨ Meet b.1 (pitchAfter i pre start) (pitchAfter j pre start)

omit [Field K] [LinearOrder K] in
/-- Every pitch of a new voice is at the target. -/
theorem new_moog_voice_pitch (control : MidiControl K) (s1 s2 s3 noise : S) (idx : Fin 3) :
    ((new_moog_voice control s1 s2 s3 noise).osc idx).pitch = MidiFreq.new control := by
  match idx with
  | 0 => rfl
  | 1 => rfl
  | 2 => rfl

/-- **The oscillators glide together exactly on the runs on which they meet.** Each has a
pitch of its own, which is processed only while the oscillator sounds, so one that is
switched off and on again goes on gliding from where it was left. They meet where that
makes no difference. -/
theorem glides_together_iff [IsStrictOrderedRing K] (render : Render K S) (control : MidiControl K)
    (s1 s2 s3 noise : S) (bs : List (MidiControl K × List K)) :
    GlidesTogether render (new_moog_voice control s1 s2 s3 noise) bs
      ↔ Meeting control.get_target_freq bs := by
  have hblock : ∀ (pre : List (MidiControl K × List K)) (b : MidiControl K × List K)
      (i j : Fin 3), freqs b.1 b.2.length
          (play render pre (new_moog_voice control s1 s2 s3 noise)) i
        = freqs b.1 b.2.length (play render pre (new_moog_voice control s1 s2 s3 noise)) j
      ↔ b.2 = [] ∨ b.1.get_pitch_bend = 0
        ∨ Meet b.1 (pitchAfter i pre control.get_target_freq)
            (pitchAfter j pre control.get_target_freq) := by
    intro pre b i j
    have hempty : List.replicate b.2.length (0 : K) = [] ↔ b.2 = [] := by
      rw [List.replicate_eq_nil_iff, List.length_eq_zero_iff]
    rw [freqs, freqs, process_eq_iff, hempty, play_pitch, play_pitch, new_moog_voice_pitch,
      new_moog_voice_pitch]
    rfl
  constructor
  · intro h pre b post heq i j hi hj
    exact (hblock pre b i j).mp (h pre b post heq i j hi hj)
  · intro h pre b post heq i j hi hj
    exact (hblock pre b i j).mpr (h pre b post heq i j hi hj)

end MoogOscillatorSection

end

/-! ## Two runs -/

namespace MoogOscillatorSection

/-- One target and one portamento, and the level of the second oscillator. -/
def mutedControls (target amount level2 : ℚ) : MidiControl ℚ where
  value a := match a with
    | .target_freq => target
    | .portamento_amount => amount
    | .pitch_bend => 1
    | .cont s => if s = slot.OSC2_LEVEL then level2 else 1
    | _ => 0
  gate := true
  gate_reset := false

/-- The pitch samples as they are. -/
def plain : Render ℚ Unit := fun _ freqs s => (freqs, s)

def plainVoice (control : MidiControl ℚ) : MoogOscillatorSection ℚ Unit :=
  new_moog_voice control () () () ()

/-- Without portamento an oscillator can be muted at any time. -/
theorem glides_together_iff_quick :
    GlidesTogether plain (plainVoice (mutedControls 440 0 1))
      [(mutedControls 880 0 0, [0]), (mutedControls 880 0 1, [0])] := by
  apply (glides_together_iff plain (mutedControls 440 0 1) () () () () _).mpr
  intro pre b post heq i j _ _
  have hmem : b ∈ [(mutedControls 880 0 0, [(0 : ℚ)]), (mutedControls 880 0 1, [0])] := by
    rw [heq]
    exact List.mem_append_right _ List.mem_cons_self
  refine Or.inr (Or.inr (Or.inl ?_))
  rcases List.mem_cons.mp hmem with rfl | hlast
  · exact le_refl 0
  · rw [List.mem_singleton.mp hlast]
    exact le_refl 0

/-- An oscillator that is muted during a glide comes back at another pitch. -/
theorem glides_apart :
    ¬ ∀ (control : MidiControl ℚ) (bs : List (MidiControl ℚ × List ℚ)),
      GlidesTogether plain (plainVoice control) bs := by
  intro hclaim
  have hblock := hclaim (mutedControls 440 0.5 1)
    [(mutedControls 880 0.5 0, [0]), (mutedControls 880 0.5 1, [0])]
    [(mutedControls 880 0.5 0, [0])] (mutedControls 880 0.5 1, [0]) [] rfl 0 1
    (by decide +kernel) (by decide +kernel)
  -- 770 Hz against 660 Hz
  have hapart : ¬ freqs (mutedControls 880 0.5 1) 1
        (play plain [(mutedControls 880 0.5 0, [0])] (plainVoice (mutedControls 440 0.5 1))) 0
      = freqs (mutedControls 880 0.5 1) 1
        (play plain [(mutedControls 880 0.5 0, [0])] (plainVoice (mutedControls 440 0.5 1))) 1 := by
    decide +kernel
  exact hapart hblock

end MoogOscillatorSection

end PicoDsp
