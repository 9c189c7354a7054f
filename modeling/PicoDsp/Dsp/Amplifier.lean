/-
The end of a voice: `amp_env`, `amp_env_vel` and `vca` of `new_moog_voice`
(`dsp/moog.rs`).

The amplifier multiplies what the filter leaves by the envelope and the velocity, and the
envelope follows the gate node of the block. So once the gate is closed the voice is not
only fading: it is exactly silent after a number of blocks that the longest release
bounds, and stays so until the gate is opened.

That it is exact matters, because the filter and the effects in front and behind are fed
with whatever is left. A release that only approached zero would keep the reverb busy
for ever.

Where a gate is closed, and by whom, is not seen from here: a block comes with the calls
on the gate around it (`Dsp/MidiGate.lean`), and is quiet if none of them opens it. What
the filter leaves in the buffer is arbitrary, as are the live times of every block. So
the statement splits the blocks behind the note in two: those in which the release has to
have room, of which the longest release counts, and all later ones, about whose times
nothing is said. A release that is turned up when the level is already gone releases
nothing (`stays_silent`).

From the envelope's side a number of blocks is one run of samples (`heard`), whose times
are those of their blocks (`mem_heard`), and the results of `Dsp/Envelope.lean` are about
such runs.
-/
import PicoDsp.Dsp.Envelope

set_option autoImplicit false

namespace PicoDsp

open Lib

/-- A block as the amplifier finds it: the calls on the gate around it, the live times, and
what the filter leaves in the buffer. -/
structure AmpBlock (F : Type) where
  calls : Block
  attack : F
  decay : F
  sustain : F
  release : F
  velocity : F
  buffer : List F

/-- The controls of the gate, and `amp_env`. -/
structure Amplifier (F : Type) where
  control : MidiControl F
  amp_env : Adsr F

namespace Amplifier

section

variable {F : Type} [F32 F] [Expf F]

/-- `Adsr::new` at the rate of `DspChain::new(amp_env, sample_rate)`. -/
def new (sample_rate : F) : Amplifier F :=
  ⟨MidiControl.new, Adsr.set_sample_rate sample_rate Adsr.new⟩

/-- What `amp_env` finds, sample by sample. -/
def inputs (b : AmpBlock F) (control : MidiControl F) : List (Adsr.Controls F) :=
  (b.calls.process control).amp.map fun gate => ⟨gate, b.attack, b.decay, b.sustain, b.release⟩

/-- `Gain::process` on one channel. -/
def gain (buffer gain : List F) : List F :=
  List.zipWith (fun sample gain => sample * gain) buffer gain

def process (b : AmpBlock F) (self : Amplifier F) : List F × Amplifier F :=
  let (levels, amp_env) := Adsr.process (inputs b self.control) self.amp_env
  let amp_env_vel := gain levels (levels.map fun _ => b.velocity)
  (gain b.buffer amp_env_vel, ⟨(b.calls.process self.control).control, amp_env⟩)

/-- The samples of a block: the envelope, the velocity, and what the filter left. -/
theorem process_fst (b : AmpBlock F) (self : Amplifier F) :
    (process b self).1 = gain b.buffer (gain (Adsr.process (inputs b self.control) self.amp_env).1
      ((Adsr.process (inputs b self.control) self.amp_env).1.map fun _ => b.velocity)) := rfl

/-- The amplifier after some blocks. -/
def play (bs : List (AmpBlock F)) (self : Amplifier F) : Amplifier F :=
  bs.foldl (fun self b => (process b self).2) self

/-- More blocks. -/
theorem play_append (bs cs : List (AmpBlock F)) (self : Amplifier F) :
    play (bs ++ cs) self = play cs (play bs self) := List.foldl_append

/-- All that `amp_env` finds in some blocks. -/
def heard : List (AmpBlock F) → MidiControl F → List (Adsr.Controls F)
  | [], _ => []
  | b :: bs, control => inputs b control ++ heard bs (b.calls.process control).control

omit [Expf F] in
/-- A block brings as many samples as it has frames. -/
theorem inputs_length (b : AmpBlock F) (control : MidiControl F) :
    (inputs b control).length = BLOCK_FRAMES := by
  rw [inputs, List.length_map]
  show ((List.range BLOCK_FRAMES).map _).length = _
  rw [List.length_map, List.length_range]

omit [Expf F] in
/-- So do any number of them. -/
theorem heard_length (bs : List (AmpBlock F)) (control : MidiControl F) :
    (heard bs control).length = BLOCK_FRAMES * bs.length := by
  induction bs generalizing control with
  | nil => rfl
  | cons b bs ih =>
      rw [heard, List.length_append, inputs_length, ih, List.length_cons, Nat.mul_succ,
        Nat.add_comm]

omit [Expf F] in
/-- The live times of a sample are those of its block. -/
theorem mem_inputs {b : AmpBlock F} {control : MidiControl F} {c : Adsr.Controls F}
    (hc : c ∈ inputs b control) :
    c.gate ∈ (b.calls.process control).amp ∧ c.sustain = b.sustain ∧ c.release = b.release := by
  obtain ⟨gate, hgate, rfl⟩ := List.mem_map.mp hc
  exact ⟨hgate, rfl, rfl⟩

omit [Expf F] in
/-- What `amp_env` finds comes from one of the blocks. -/
theorem mem_heard {bs : List (AmpBlock F)} {control : MidiControl F} {c : Adsr.Controls F}
    (hc : c ∈ heard bs control) : ∃ b ∈ bs, c.sustain = b.sustain ∧ c.release = b.release := by
  induction bs generalizing control with
  | nil => cases hc
  | cons b bs ih =>
      rcases List.mem_append.mp hc with hfirst | hrest
      · exact ⟨b, List.mem_cons_self, (mem_inputs hfirst).2⟩
      · obtain ⟨x, hx, hsame⟩ := ih hrest
        exact ⟨x, List.mem_cons_of_mem b hx, hsame⟩

end

/-! ## A closed gate -/

/-- No call around the block opens the gate. -/
def Quiet {F : Type} (b : AmpBlock F) : Prop :=
  ∀ e ∈ b.calls.before ++ b.calls.between, e.Closes

/-- Calls that do not open the gate leave a closed one closed. -/
theorem gateAfter_closes {cs : List GateCall} (h : ∀ e ∈ cs, e.Closes) :
    GateCall.gateAfter cs false = false := by
  rcases List.eq_nil_or_concat cs with rfl | ⟨cs, e, rfl⟩
  · rfl
  · rw [List.concat_eq_append] at h ⊢
    have hlast := h e (List.mem_append_right _ List.mem_cons_self)
    rw [GateCall.gateAfter_append]
    cases e with
    | set_gate gate => exact hlast
    | reset => rfl

/-- A node that finds the gate closed puts out zeros. -/
theorem process_closed {c : MidiControl ℝ} (hgate : c.gate = false) :
    ∀ x ∈ (MidiGate.process BLOCK_FRAMES c).1, x = 0 := by
  intro x hx
  rw [process_samples] at hx
  obtain ⟨i, -, rfl⟩ := List.mem_map.mp hx
  split
  · simp
  · exact get_gate_closed hgate

section Runs

variable {b : AmpBlock ℝ} {bs : List (AmpBlock ℝ)} {control : MidiControl ℝ}

/-- Around a quiet block the gate stays closed until `amp_env` reads it. -/
theorem Quiet.closed (h : Quiet b) (hgate : control.gate = false) :
    (b.calls.atAmp control).gate = false := by
  rw [atAmp_gate, hgate]
  exact gateAfter_closes h

/-- So the gate node fills in zeros. -/
theorem Quiet.gate (h : Quiet b) (hgate : control.gate = false) {c : Adsr.Controls ℝ}
    (hc : c ∈ inputs b control) : c.gate = 0 :=
  process_closed (h.closed hgate) _ (mem_inputs hc).1

/-- And that for all samples of quiet blocks. -/
theorem quiet_heard (h : ∀ x ∈ bs, Quiet x) (hgate : control.gate = false) :
    ∀ c ∈ heard bs control, c.gate = 0 := by
  induction bs generalizing control with
  | nil => exact fun c hc => absurd hc List.not_mem_nil
  | cons b bs ih =>
      rw [List.forall_mem_cons] at h
      rw [heard, List.forall_mem_append]
      exact ⟨fun c hc => h.1.gate hgate hc, ih h.2 (h.1.closed hgate)⟩

/-- The gate behind some blocks is what the calls around them have left. -/
theorem play_control (bs : List (AmpBlock ℝ)) (sample_rate : ℝ) :
    (play bs (new sample_rate)).control = controlAfter (bs.map AmpBlock.calls) := by
  induction bs using List.reverseRecOn with
  | nil => rfl
  | append_singleton bs b ih =>
      rw [play_append, List.map_append, List.map_singleton, controlAfter_snoc, ← ih]
      rfl

/-- Quiet blocks leave it closed. -/
theorem play_quiet {self : Amplifier ℝ} (h : ∀ x ∈ bs, Quiet x)
    (hgate : self.control.gate = false) : (play bs self).control.gate = false := by
  induction bs generalizing self with
  | nil => exact hgate
  | cons b bs ih =>
      rw [List.forall_mem_cons] at h
      have hnext : (process b self).2.control.gate = false := h.1.closed hgate
      exact ih h.2 hnext

/-- **The envelope hears the blocks as one run**, and stays sound. -/
theorem play_env {rate : ℝ} {self : Amplifier ℝ} (h : Adsr.Sound rate self.amp_env)
    (hsustain : ∀ x ∈ bs, 0 ≤ x.sustain ∧ x.sustain ≤ 1) :
    (play bs self).amp_env = Adsr.after (heard bs self.control) self.amp_env
      ∧ Adsr.Sound rate (play bs self).amp_env := by
  induction bs generalizing self with
  | nil => exact ⟨rfl, h⟩
  | cons b bs ih =>
      rw [List.forall_mem_cons] at hsustain
      have hfirst : ∀ c ∈ inputs b self.control, 0 ≤ c.sustain ∧ c.sustain ≤ 1 := by
        intro c hc
        rw [(mem_inputs hc).2.1]
        exact hsustain.1
      have henv : (process b self).2.amp_env = Adsr.after (inputs b self.control) self.amp_env := by
        show (Adsr.process (inputs b self.control) self.amp_env).2 = _
        rw [h.process_eq, Adsr.samples_last]
      have hnext : Adsr.Sound rate (process b self).2.amp_env := by
        rw [henv]
        exact h.after hfirst
      obtain ⟨hrest, hsound⟩ := ih hnext hsustain.2
      refine ⟨?_, hsound⟩
      rw [heard, Adsr.after_append, ← henv]
      exact hrest

/-- An idle envelope behind a closed gate stays idle, at zero, whatever its live times are:
a release that gets longer is one of a level that is gone. -/
theorem stays_silent {rate : ℝ} {a : Adsr ℝ} {cs : List (Adsr.Controls ℝ)} (h : Adsr.Sound rate a)
    (hidle : a.state = .Idle) (hsustain : ∀ c ∈ cs, 0 ≤ c.sustain ∧ c.sustain ≤ 1)
    (hgate : ∀ c ∈ cs, c.gate < 1 / 2) :
    (∀ x ∈ (Adsr.samples false cs a).1, x = 0) ∧ (Adsr.after cs a).state = .Idle := by
  induction cs generalizing a with
  | nil => exact ⟨fun x hx => absurd hx List.not_mem_nil, hidle⟩
  | cons c cs ih =>
      rw [List.forall_mem_cons] at hsustain hgate
      obtain ⟨r, hr, hmoved⟩ := Adsr.sample_reads h c
      have hlast : ¬ 1 / 2 ≤ a.last_gate := by
        rw [← h.gate, hidle]
        exact id
      have hstate : r.state = .Idle := by
        rw [hr.state, if_neg fun hup => absurd hup.1 (not_le.mpr hgate.1),
          if_neg fun hdown => hlast hdown.2, hidle]
      have hnext := h.sample hsustain.1
      -- the sample is zero, and leaves the envelope idle
      have hsample : (Adsr.sample false c a).current_level = 0
          ∧ (Adsr.sample false c a).state = .Idle := by
        generalize Adsr.sample false c a = d at hmoved ⊢
        cases hmoved with
        | idle _ => exact ⟨rfl, hstate⟩
        | _ hother => cases hstate.symm.trans hother
      obtain ⟨hrest, hlater⟩ := ih hnext hsample.2 hsustain.2 hgate.2
      exact ⟨List.forall_mem_cons.mpr ⟨hsample.1, hrest⟩, hlater⟩

/-- An envelope at zero makes the block zero. -/
theorem gain_zero {buffer levels : List ℝ} (velocity : ℝ) (h : ∀ x ∈ levels, x = 0) :
    ∀ y ∈ gain buffer (gain levels (levels.map fun _ => velocity)), y = 0 := by
  have hproduct : ∀ x ∈ gain levels (levels.map fun _ => velocity), x = 0 := by
    intro x hx
    obtain ⟨i, hi, rfl⟩ := List.mem_iff_getElem.mp hx
    have hlen : i < levels.length := by
      unfold gain at hi
      rw [List.length_zipWith, List.length_map, Nat.min_self] at hi
      exact hi
    simp only [gain, List.getElem_zipWith]
    rw [h _ (List.getElem_mem hlen), zero_mul]
  intro y hy
  obtain ⟨i, hi, rfl⟩ := List.mem_iff_getElem.mp hy
  have hlen : i < (gain levels (levels.map fun _ => velocity)).length := by
    rw [gain, List.length_zipWith] at hi
    exact Nat.lt_of_lt_of_le hi (Nat.min_le_right _ _)
  have hzero := hproduct _ (List.getElem_mem hlen)
  refine (List.getElem_zipWith ..).trans ?_
  rw [hzero, mul_zero]

/-- Blocks that a closed gate leaves quiet, for an envelope that is idle before them. -/
theorem play_idle {rate : ℝ} {self : Amplifier ℝ} (h : Adsr.Sound rate self.amp_env)
    (hidle : self.amp_env.state = .Idle) (hgate : self.control.gate = false)
    (hquiet : ∀ x ∈ bs, Quiet x) (hsustain : ∀ x ∈ bs, 0 ≤ x.sustain ∧ x.sustain ≤ 1) :
    (play bs self).amp_env.state = .Idle := by
  rw [(play_env h hsustain).1]
  refine (stays_silent h hidle ?_ ?_).2
  · intro c hc
    obtain ⟨x, hx, hsame, -⟩ := mem_heard hc
    rw [hsame]
    exact hsustain x hx
  · intro c hc
    rw [quiet_heard hquiet hgate c hc]
    norm_num

/-- Quiet blocks that are long enough for their releases leave the envelope idle. -/
theorem play_fades {rate release : ℝ} {self : Amplifier ℝ} (h : Adsr.Sound rate self.amp_env)
    (hgate : self.control.gate = false) (hquiet : ∀ x ∈ bs, Quiet x)
    (hsustain : ∀ x ∈ bs, 0 ≤ x.sustain ∧ x.sustain ≤ 1)
    (hrelease : ∀ x ∈ bs, x.release ≤ release) (hpos : 0 ≤ release)
    (hlong : (release + 0.0001) * rate * Real.log 10000 < 3 * (BLOCK_FRAMES * bs.length)) :
    (play bs self).amp_env.state = .Idle := by
  have hunit : ∀ c ∈ heard bs self.control, 0 ≤ c.sustain ∧ c.sustain ≤ 1 := by
    intro c hc
    obtain ⟨x, hx, hsame, -⟩ := mem_heard hc
    rw [hsame]
    exact hsustain x hx
  have hlow : ∀ c ∈ heard bs self.control, c.gate < 1 / 2 := by
    intro c hc
    rw [quiet_heard hquiet hgate c hc]
    norm_num
  have hshort : ∀ c ∈ heard bs self.control, c.release ≤ release := by
    intro c hc
    obtain ⟨x, hx, -, hsame⟩ := mem_heard hc
    rw [hsame]
    exact hrelease x hx
  rw [(play_env h hsustain).1]
  refine (Adsr.goes_silent h hunit hlow hshort hpos ?_).1
  rw [heard_length, Nat.cast_mul]
  exact hlong

/-- **A released voice is silent.** Once the gate was closed for about three times the
longest release of the blocks `quiet`, every block that follows is zero, however many
there are in between, whatever their live times are and whatever the filter leaves in
them, until a call opens the gate. -/
theorem released_voice_is_silent {past quiet later : List (AmpBlock ℝ)} {release : ℝ}
    (hsustain : ∀ x ∈ past ++ (quiet ++ (later ++ [b])), 0 ≤ x.sustain ∧ x.sustain ≤ 1)
    (hclosed : GateCall.gateAfter (callsOf (past.map AmpBlock.calls)) false = false)
    (hquiet : ∀ x ∈ quiet ++ (later ++ [b]), Quiet x)
    (hrelease : ∀ x ∈ quiet, x.release ≤ release) (hpos : 0 ≤ release)
    (hlong : (release + 0.0001) * 48000 * Real.log 10000 < 3 * (BLOCK_FRAMES * quiet.length)) :
    ∀ y ∈ (process b (play (past ++ (quiet ++ later)) (new 48000))).1, y = 0 := by
  have hrate : max (48000 : ℝ) 44100 = 48000 := max_eq_left (by norm_num)
  have hnew : Adsr.Sound 48000 (new (48000 : ℝ)).amp_env := by
    have h := Adsr.Sound.new (show (0 : ℝ) < 48000 by norm_num)
    rwa [hrate] at h
  simp only [List.forall_mem_append, List.forall_mem_singleton] at hsustain hquiet
  obtain ⟨hpast, hfade, hlater, hlast⟩ := hsustain
  have hgate : (play past (new 48000)).control.gate = false := by
    rw [play_control, controlAfter_gate]
    exact hclosed
  have hsound := (play_env hnew hpast).2
  rw [play_append, play_append]
  generalize play past (new 48000) = self at hgate hsound ⊢
  -- the envelope is idle after the quiet blocks, and stays so
  have hidle := play_fades hsound hgate hquiet.1 hfade hrelease hpos hlong
  have hgate' := play_quiet hquiet.1 hgate
  have hsound' := (play_env hsound hfade).2
  generalize play quiet self = faded at hidle hgate' hsound' ⊢
  have hstill := play_idle hsound' hidle hgate' hquiet.2.1 hlater
  have hend := (play_env hsound' hlater).2
  rw [process_fst, hend.process_eq]
  refine gain_zero b.velocity (stays_silent hend hstill ?_ ?_).1
  · intro c hc
    rw [(mem_inputs hc).2.1]
    exact hlast
  · intro c hc
    rw [hquiet.2.2.gate (play_quiet hquiet.2.1 hgate') hc]
    norm_num

/-- A note of one block, and silence from the second block after its end, also when the
release is turned up to five seconds then. -/
theorem released_voice_is_silent_note :
    GateCall.gateAfter [.set_gate true, .set_gate false] false = false ∧
    ∀ y ∈ (process ⟨⟨[], []⟩, 0, 0, 1, 5, 1, List.replicate 128 1⟩
      (play ([⟨⟨[.set_gate true], []⟩, 0, 0, 1, 0, 1, []⟩,
          ⟨⟨[.set_gate false], []⟩, 0, 0, 1, 0, 1, []⟩]
          ++ ([⟨⟨[], []⟩, 0, 0, 1, 0, 1, []⟩] ++ [⟨⟨[], []⟩, 0, 0, 1, 5, 1, []⟩]))
        (new (48000 : ℝ)))).1, y = 0 := by
  have hlog : Real.log 10000 ≤ 10 := by
    have hpow : Real.log 10000 ≤ Real.log (2 ^ 14) := Real.log_le_log (by norm_num) (by norm_num)
    rw [Real.log_pow] at hpow
    push_cast at hpow
    linarith only [Real.log_two_lt_d9, hpow]
  refine ⟨rfl, @released_voice_is_silent _ _ _ _ 0 ?_ rfl ?_ ?_ (le_refl 0) ?_⟩
  · intro x hx
    simp only [List.mem_append, List.mem_cons, List.not_mem_nil, or_false] at hx
    rcases hx with (rfl | rfl) | rfl | rfl | rfl <;> norm_num
  · intro x hx e he
    simp only [List.mem_append, List.mem_cons, List.not_mem_nil, or_false] at hx
    rcases hx with rfl | rfl | rfl <;> cases he
  · intro x hx
    rw [List.mem_singleton.mp hx]
  · show (0 + 0.0001 : ℝ) * 48000 * Real.log 10000 < 3 * ((128 : ℕ) * (1 : ℕ))
    push_cast
    linarith only [hlog]

end Runs

end Amplifier

end PicoDsp
