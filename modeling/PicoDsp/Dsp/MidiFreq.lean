/-
The pitch of an oscillator (`MidiFreq` in `control/midi.rs`).

The node glides from the frequency it last put out to the target, one step every
32 samples. A step is `approach` of `Lib/Glide.lean`, with what portamento leaves of
the way as its factor, so what is proved about a glide there holds of the node
over any blocks.

The last chunk of a block may be shorter than 32 samples and is a whole step all the same,
so how fast a glide goes depends on how the stream is split into blocks. A stream is
therefore read as the list of its chunks, each with the controls its block found
(`chunkControls`, `blocks_freq`), and a block that is not empty has at least one.

Portamento is clamped to 0.999, so each step takes at least a thousandth of the way, and
a distance below 0.1 Hz is closed at once. Hence the glide arrives at the target exactly,
after a number of chunks that the first distance bounds whatever portamento does meanwhile
(`portamento_arrives`); the target is not crossed, since no factor is above one.

Two nodes on the same controls are compared at the end, because a voice has three. They
put out the same samples exactly if their pitches meet in the first chunk of the block, or
nothing can be heard of them (`process_eq_iff`).
-/
import PicoDsp.Control.MidiControl
import PicoDsp.Lib.Glide
import PicoDsp.Lib.Slice

set_option autoImplicit false

namespace PicoDsp

open Lib Glide

section

variable {K : Type}

def MidiControl.get_target_freq (c : MidiControl K) : K := c.value .target_freq

def MidiControl.get_portamento_amount (c : MidiControl K) : K := c.value .portamento_amount

def MidiControl.get_pitch_bend (c : MidiControl K) : K := c.value .pitch_bend

end

structure MidiFreq (K : Type) where
  current_freq : K

namespace MidiFreq

variable {K : Type}

def new (control : MidiControl K) : MidiFreq K := ⟨control.get_target_freq⟩

def CHUNK_SIZE : ℕ := 32

variable [Field K] [LinearOrder K]

def factor (control : MidiControl K) : K := 1 - clamp control.get_portamento_amount 0 0.999

/-- `current_freq` after a chunk. -/
def advance (control : MidiControl K) (current_freq : K) : K :=
  let diff := control.get_target_freq - current_freq
  if |diff| < 0.1 then control.get_target_freq
  else current_freq + diff * factor control

/-- The loop over the chunks of a block. -/
def process_chunks (control : MidiControl K) : List (List K) → K → List K × K
  | [], current_freq => ([], current_freq)
  | chunk :: rest, current_freq =>
      let current_freq := advance control current_freq
      let final_freq := current_freq * control.get_pitch_bend
      let (out, last) := process_chunks control rest current_freq
      (List.replicate chunk.length final_freq ++ out, last)

def process (control : MidiControl K) (buffer : List K) (self : MidiFreq K) :
    List K × MidiFreq K :=
  let (out, current_freq) := process_chunks control (chunks CHUNK_SIZE buffer) self.current_freq
  (out, ⟨current_freq⟩)

def reset (control : MidiControl K) : MidiFreq K := ⟨control.get_target_freq⟩

/-- A stream of blocks, each with the controls it finds. -/
def blocks : List (MidiControl K × List K) → MidiFreq K → List (List K) × MidiFreq K
  | [], self => ([], self)
  | (control, buffer) :: rest, self =>
      let (out, self) := process control buffer self
      let (outs, self) := blocks rest self
      (out :: outs, self)

/-! ## The chunks of a stream -/

/-- The controls at each chunk of a stream of blocks. -/
def chunkControls (bs : List (MidiControl K × List K)) : List (MidiControl K) :=
  bs.flatMap fun b => (chunks CHUNK_SIZE b.2).map fun _ => b.1

/-- The frequency after some chunks. -/
def freqAfter (cs : List (MidiControl K)) (start : K) : K :=
  cs.foldl (fun freq control => advance control freq) start

/-- More chunks. -/
theorem freqAfter_append (cs ds : List (MidiControl K)) (start : K) :
    freqAfter (cs ++ ds) start = freqAfter ds (freqAfter cs start) := List.foldl_append

/-- The chunks of a block have the controls of the block. -/
theorem process_chunks_freq (control : MidiControl K) (cs : List (List K)) (freq : K) :
    (process_chunks control cs freq).2 = freqAfter (cs.map fun _ => control) freq := by
  induction cs generalizing freq with
  | nil => rfl
  | cons c cs ih => exact ih (advance control freq)

/-- **A stream glides chunk by chunk**, however it is split into blocks. -/
theorem blocks_freq (bs : List (MidiControl K × List K)) (self : MidiFreq K) :
    (blocks bs self).2.current_freq = freqAfter (chunkControls bs) self.current_freq := by
  induction bs generalizing self with
  | nil => rfl
  | cons b bs ih =>
      rw [chunkControls, List.flatMap_cons, freqAfter_append, ← process_chunks_freq]
      exact ih (process b.1 b.2 self).2

omit [Field K] [LinearOrder K] in
/-- A block that is not empty has a chunk. -/
theorem length_chunkControls {bs : List (MidiControl K × List K)} (h : ∀ b ∈ bs, b.2 ≠ []) :
    bs.length ≤ (chunkControls bs).length := by
  induction bs with
  | nil => exact Nat.le_refl _
  | cons b bs ih =>
      have hrest := ih fun c hc => h c (List.mem_cons_of_mem b hc)
      have hfirst : 0 < (chunks CHUNK_SIZE b.2).length := by
        rw [chunks_of_ne_nil (by decide) (h b List.mem_cons_self), List.length_cons]
        exact Nat.succ_pos _
      unfold chunkControls at hrest ⊢
      rw [List.flatMap_cons, List.length_append, List.length_map, List.length_cons]
      omega

/-! ## The glide -/

variable [IsStrictOrderedRing K]

/-- A chunk goes at least a thousandth of the way, and at most all of it. -/
theorem factor_bounds (control : MidiControl K) :
    1 - 0.999 ≤ factor control ∧ factor control ≤ 1 := by
  obtain ⟨hlow, hhigh⟩ := clamp_bounds (x := control.get_portamento_amount)
    (show (0 : K) ≤ 0.999 by norm_num)
  unfold factor
  constructor
  · linarith only [hhigh]
  · linarith only [hlow]

/-- Without portamento a chunk goes all of the way. -/
theorem factor_eq_one_iff (control : MidiControl K) :
    factor control = 1 ↔ control.get_portamento_amount ≤ 0 := by
  rw [factor, sub_eq_self, clamp_eq_low_iff (by norm_num)]

omit [IsStrictOrderedRing K] in
/-- A chunk is a step of a glide. -/
theorem advance_eq (control : MidiControl K) (freq : K) :
    advance control freq = approach 0.1 (factor control) control.get_target_freq freq := rfl

omit [IsStrictOrderedRing K] in
/-- With the target held, the chunks are the steps of one glide. -/
theorem freqAfter_eq_glide {cs : List (MidiControl K)} {target : K}
    (h : ∀ c ∈ cs, c.get_target_freq = target) (start : K) :
    freqAfter cs start = glide 0.1 target (cs.map factor) start := by
  induction cs generalizing start with
  | nil => rfl
  | cons c cs ih =>
      have hfirst : advance c start = approach 0.1 (factor c) target start := by
        rw [advance_eq, h c List.mem_cons_self]
      have hcons : freqAfter (c :: cs) start = freqAfter cs (advance c start) := rfl
      rw [hcons, ih fun d hd => h d (List.mem_cons_of_mem c hd), hfirst]
      rfl

/-- So the factors of any chunks are those of a glide that arrives. -/
theorem bounded_factors (cs : List (MidiControl K)) : Bounded 0.999 (cs.map factor) := by
  intro f hf
  obtain ⟨c, -, rfl⟩ := List.mem_map.mp hf
  exact factor_bounds c

/-! ## Two nodes on the same controls -/

/-- The pitches are one in one chunk. -/
def Meet (control : MidiControl K) (freq freq' : K) : Prop :=
  control.get_portamento_amount ≤ 0 ∨ freq = freq'
    ∨ (|control.get_target_freq - freq| < 0.1 ∧ |control.get_target_freq - freq'| < 0.1)

/-- Two pitches are one after a chunk exactly if they meet in it. -/
theorem advance_eq_iff (control : MidiControl K) (freq freq' : K) :
    advance control freq = advance control freq' ↔ Meet control freq freq' := by
  rw [advance_eq, advance_eq, approach_eq_iff (by norm_num), factor_eq_one_iff]
  rfl

omit [IsStrictOrderedRing K] in
/-- A pitch bend of zero hides the glide. -/
theorem process_chunks_bend_zero {control : MidiControl K} (h : control.get_pitch_bend = 0)
    (cs : List (List K)) (freq freq' : K) :
    (process_chunks control cs freq).1 = (process_chunks control cs freq').1 := by
  induction cs generalizing freq freq' with
  | nil => rfl
  | cons c cs ih =>
      simp only [process_chunks, h, mul_zero]
      rw [ih (advance control freq) (advance control freq')]

/-- **Two nodes put out the same samples exactly if the block is empty, the bend
zero, or their pitches meet.** -/
theorem process_eq_iff (control : MidiControl K) (buffer : List K) (a b : MidiFreq K) :
    (process control buffer a).1 = (process control buffer b).1
      ↔ buffer = [] ∨ control.get_pitch_bend = 0
        ∨ Meet control a.current_freq b.current_freq := by
  rcases eq_or_ne buffer [] with rfl | hbuffer
  · refine iff_of_true ?_ (Or.inl rfl)
    simp only [process, chunks_nil, process_chunks]
  · have hchunks := chunks_of_ne_nil (n := CHUNK_SIZE) (by decide) hbuffer
    have hpos : 0 < (buffer.take CHUNK_SIZE).length := by
      rw [List.length_take]
      exact Nat.lt_min.mpr ⟨by decide, List.length_pos_iff.mpr hbuffer⟩
    rw [or_iff_right hbuffer, ← advance_eq_iff]
    simp only [process, hchunks, process_chunks]
    constructor
    · intro heq
      -- the first sample of each
      have hfirst := congrArg (·[0]?) heq
      simp only [List.getElem?_append_left, List.length_replicate, hpos,
        List.getElem?_replicate, if_true, Option.some.injEq] at hfirst
      rcases eq_or_ne control.get_pitch_bend 0 with hzero | hbend
      · exact Or.inl hzero
      · exact Or.inr (mul_right_cancel₀ hbend hfirst)
    · rintro (hzero | heq)
      · rw [hzero, mul_zero, mul_zero, process_chunks_bend_zero hzero]
      · rw [heq]

/-! ## Arrival -/

variable [FloorRing K]

/-- The chunks that close a distance of `d`. -/
def chunksToArrive (d : K) : ℕ := ⌊9990 * d⌋₊ + 1

/-- With the target held for so many chunks the pitch is there. -/
theorem glide_of_chunksToArrive {cs : List (MidiControl K)} {target start : K}
    (h : ∀ c ∈ cs, c.get_target_freq = target)
    (hlen : chunksToArrive |target - start| ≤ cs.length) : freqAfter cs start = target := by
  have hfloor := Nat.lt_floor_add_one (9990 * |target - start|)
  rw [freqAfter_eq_glide h]
  refine glide_arrives (n := ⌊9990 * |target - start|⌋₊) (by norm_num) (by norm_num)
    (by norm_num) (bounded_factors cs) ?_ ?_
  · apply pow_mul_lt (by norm_num) (by norm_num)
    norm_num
    linarith only [hfloor]
  · rw [List.length_map]
    exact hlen

/-- **Portamento arrives and does not overshoot.** With the target held, over
blocks of any lengths: from chunk to chunk the distance does not grow, the target
is not crossed, and from 0.1 on the distance is multiplied by the clamped amount;
after `chunksToArrive` chunks, so after as many blocks, the frequency is the
target. -/
theorem portamento_arrives {target : K} {bs : List (MidiControl K × List K)}
    (htarget : ∀ b ∈ bs, b.1.get_target_freq = target) (hblocks : ∀ b ∈ bs, b.2 ≠ [])
    (start : MidiFreq K) :
    (∀ pre c post, chunkControls bs = pre ++ c :: post →
      |target - freqAfter (pre ++ [c]) start.current_freq|
          ≤ |target - freqAfter pre start.current_freq|
        ∧ 0 ≤ (target - freqAfter pre start.current_freq)
            * (target - freqAfter (pre ++ [c]) start.current_freq)
        ∧ (0.1 ≤ |target - freqAfter pre start.current_freq| →
            |target - freqAfter (pre ++ [c]) start.current_freq|
              = clamp c.get_portamento_amount 0 0.999
                * |target - freqAfter pre start.current_freq|))
    ∧ (∀ pre post, chunkControls bs = pre ++ post →
        chunksToArrive |target - start.current_freq| ≤ pre.length →
        freqAfter pre start.current_freq = target)
    ∧ (blocks bs start).2.current_freq = freqAfter (chunkControls bs) start.current_freq
    ∧ bs.length ≤ (chunkControls bs).length := by
  have hcontrols : ∀ c ∈ chunkControls bs, c.get_target_freq = target := by
    intro c hc
    obtain ⟨b, hb, hmem⟩ := List.mem_flatMap.mp hc
    obtain ⟨-, -, rfl⟩ := List.mem_map.mp hmem
    exact htarget b hb
  refine ⟨?_, ?_, blocks_freq bs start, length_chunkControls hblocks⟩
  · intro pre c post heq
    have hc : c.get_target_freq = target := by
      apply hcontrols
      rw [heq]
      exact List.mem_append_right _ List.mem_cons_self
    -- one chunk: towards its own target, by its own factor
    have hstep : freqAfter (pre ++ [c]) start.current_freq
        = approach 0.1 (factor c) target (freqAfter pre start.current_freq) := by
      rw [freqAfter_append, ← hc]
      rfl
    obtain ⟨hlow, hhigh⟩ := factor_bounds c
    rw [hstep]
    refine ⟨abs_sub_approach_le (le_trans (by norm_num) hlow) hhigh, approach_same_side hhigh, ?_⟩
    intro hfar
    rw [abs_sub_approach hhigh hfar, factor, sub_sub_cancel]
  · intro pre post heq hlen
    apply glide_of_chunksToArrive _ hlen
    intro c hc
    apply hcontrols
    rw [heq]
    exact List.mem_append_left _ hc

/-- The longest portamento, to 880 Hz. -/
def slowControls : MidiControl ℚ where
  value a := if a = .target_freq then 880 else 0.999
  gate := true
  gate_reset := false

/-- One hertz is closed by 9991 blocks of one sample. -/
theorem portamento_arrives_hertz :
    (blocks (List.replicate 9991 (slowControls, [0])) ⟨879⟩).2.current_freq = 880 := by
  have htarget : ∀ b ∈ List.replicate 9991 (slowControls, [(0 : ℚ)]), b.1.get_target_freq = 880 := by
    intro b hb
    rw [List.eq_of_mem_replicate hb]
    rfl
  have hblocks : ∀ b ∈ List.replicate 9991 (slowControls, [(0 : ℚ)]), b.2 ≠ [] := by
    intro b hb
    rw [List.eq_of_mem_replicate hb]
    exact List.cons_ne_nil _ _
  obtain ⟨-, harrives, hrun, hlen⟩ := portamento_arrives htarget hblocks ⟨879⟩
  rw [hrun]
  apply harrives _ [] (List.append_nil _).symm
  refine le_trans ?_ hlen
  rw [List.length_replicate, chunksToArrive]
  norm_num

end MidiFreq

end PicoDsp
