/-
The stock delay of the DSP library (`effects/time/delay.rs`), which is the other
arm of `make_delay`, and what the toggle between the two arms changes.

Both delays go through the same loop over a ring of the same length. The stock
one takes its parameters chunk by chunk through `AudioParam`s where the one in
PSRAM reads the slots once a block, which is the same as long as the slots stay
what they are within a block. But it knows no `time_mult`, so the toggle leaves
the sound alone exactly where `time_mult` is one.

The two are compared by simulation. `Same` relates their states, ring and head; a
sample keeps it and gives one sample on both sides (`sample_same`), and chunks, blocks and
streams follow. The stock loop indexes its chunk buffers as well as its ring, and any
of these accesses may panic in the model; what the buffers hold is known up to the sample
at which the loop is (`Filled`), and what they held before is not used.

The rings are made in different ways. The one in PSRAM has its length from the start, the
stock one is made for 44.1 kHz and grows when it is told the rate (`same_new`), which
happens before its first block.

For a `time_mult` other than one, a delay time of which the product fits into the ring
shows the difference with an impulse (`outputs_echo`), so the result is an equivalence in
`time_mult` (`interchangeable_iff`). Of the two channels of `build_synth` the left one is
the same on both arms and the right one is not.
-/
import PicoDsp.Lib.Slice
import PicoDsp.Dsp.PsramDelay

set_option autoImplicit false

namespace PicoDsp

open Lib DelayLine

variable {K : Type} [Field K] [LinearOrder K] [IsStrictOrderedRing K] [FloorRing K]

/-! ## Parameters -/

/-- `AtomicParam` of `control/midi.rs`, with the slot it reads. -/
structure AtomicParam where
  slot : Fin 28

/-- `AudioParam`; no delay is linked to a `Parameter`. -/
inductive AudioParam (K : Type)
  | Static (val : K)
  | Dynamic (processor : AtomicParam)

namespace AudioParam

/-- `AudioParam::Dynamic(Box::new(AtomicParam::new(midi_control.clone(), s)))` -/
def live (s : Fin 28) : AudioParam K := .Dynamic ⟨s⟩

/-- What is written into every sample. -/
def val (control : MidiControl K) : AudioParam K → K
  | .Static val => val
  | .Dynamic processor => control.get_cont processor.slot

/-- `self.process(&mut buffer[0..chunk_len])` -/
def process {n : ℕ} (control : MidiControl K) (self : AudioParam K) (chunk_len : ℕ)
    (buffer : Vector K n) : Vector K n :=
  buffer.mapIdx fun i v => if i < chunk_len then self.val control else v

omit [Field K] [LinearOrder K] [IsStrictOrderedRing K] [FloorRing K] in
/-- The samples of the chunk read the value of the parameter. -/
theorem process_getElem? {n i chunk_len : ℕ} {control : MidiControl K} {self : AudioParam K}
    {buffer : Vector K n} (hi : i < chunk_len) (hn : chunk_len ≤ n) :
    (self.process control chunk_len buffer)[i]? = some (self.val control) := by
  have hlt : i < n := by omega
  rw [process, Vector.getElem?_eq_getElem hlt, Vector.getElem_mapIdx, if_pos hi]

end AudioParam

/-! ## The stock delay -/

def PARAM_CHUNK_SIZE : ℕ := 64

structure Delay (K : Type) where
  buffer : List K
  write_ptr : ℕ
  delay_time : AudioParam K
  feedback : AudioParam K
  mix : AudioParam K
  max_delay_seconds : K
  sample_rate : K
  delay_buffer : Vector K PARAM_CHUNK_SIZE
  feedback_buffer : Vector K PARAM_CHUNK_SIZE
  mix_buffer : Vector K PARAM_CHUNK_SIZE

namespace Delay

def new (max_delay_seconds : K) (delay_time feedback mix : AudioParam K) : Delay K where
  buffer := List.replicate (PsramDelay.size max_delay_seconds 44100) 0
  write_ptr := 0
  delay_time := delay_time
  feedback := feedback
  mix := mix
  max_delay_seconds := max_delay_seconds
  sample_rate := 44100
  delay_buffer := Vector.replicate _ 0
  feedback_buffer := Vector.replicate _ 0
  mix_buffer := Vector.replicate _ 0

/-- The ring grows to the new rate, and never shrinks. The parameters have no
rate of their own. -/
def set_sample_rate (sample_rate : K) (self : Delay K) : Delay K :=
  let new_size := PsramDelay.size self.max_delay_seconds sample_rate
  { self with
    sample_rate := sample_rate
    buffer := if self.buffer.length < new_size
      then self.buffer ++ List.replicate (new_size - self.buffer.length) 0 else self.buffer }

variable {len : ℕ}

omit [FloorRing K] in
/-- The length of a ring as a number. -/
theorem len_f_pos (hlen : 0 < len) : (0 : K) < len := Nat.cast_pos.mpr hlen

/-- Sample `i` of a chunk; an access outside of a buffer panics. -/
def sample (hlen : 0 < len) (i : ℕ) (self : Delay K) (input : K) : Option (K × Delay K) := do
  let len_f : K := len
  have hlen_f : 0 < len_f := len_f_pos hlen
  let delay_seconds ← self.delay_buffer[i]?
  let fb ← self.feedback_buffer[i]?
  let mix ← self.mix_buffer[i]?
  let delay_samples := delay_seconds * self.sample_rate
  let read_ptr_f := (self.write_ptr : K) - delay_samples
  -- the two `while` loops are those of `PsramDelay`
  let read_ptr_norm := PsramDelay.lower len_f hlen_f (PsramDelay.raise len_f hlen_f read_ptr_f)
  let idx_a := ⌊read_ptr_norm⌋₊
  let idx_b := (idx_a + 1) % len
  let frac := read_ptr_norm - idx_a
  let a ← self.buffer[idx_a]?
  let b ← self.buffer[idx_b]?
  let delayed := a * (1 - frac) + b * frac
  let next_val := input + delayed * fb
  if self.write_ptr < self.buffer.length then
    pure (input * (1 - mix) + delayed * mix,
      { self with
        buffer := self.buffer.set self.write_ptr next_val
        write_ptr := (self.write_ptr + 1) % len })
  else none

/-- The loop over a chunk from its sample `i` on. -/
def samples (hlen : 0 < len) : ℕ → List K → Delay K → Option (List K × Delay K)
  | _, [], self => some ([], self)
  | i, input :: rest, self => do
      let (out, self) ← sample hlen i self input
      let (outs, self) ← samples hlen (i + 1) rest self
      pure (out :: outs, self)

/-- One chunk: first its parameters, then its samples. -/
def process_chunk (hlen : 0 < len) (control : MidiControl K) (chunk : List K) (self : Delay K) :
    Option (List K × Delay K) :=
  samples hlen 0 chunk
    { self with
      delay_buffer := self.delay_time.process control chunk.length self.delay_buffer
      feedback_buffer := self.feedback.process control chunk.length self.feedback_buffer
      mix_buffer := self.mix.process control chunk.length self.mix_buffer }

def process_chunks (hlen : 0 < len) (control : MidiControl K) :
    List (List K) → Delay K → Option (List K × Delay K)
  | [], self => some ([], self)
  | chunk :: rest, self => do
      let (out, self) ← process_chunk hlen control chunk self
      let (outs, self) ← process_chunks hlen control rest self
      pure (out ++ outs, self)

def process (control : MidiControl K) (buffer : List K) (self : Delay K) :
    Option (List K × Delay K) :=
  if hlen : 0 < self.buffer.length then
    process_chunks hlen control (chunks PARAM_CHUNK_SIZE buffer) self
  else some (buffer, self)

end Delay

/-! ## The two arms of `make_delay` -/

/-- What `make_delay` boxes. -/
inductive DelayBackend (K : Type) [Field K] [LinearOrder K] [IsStrictOrderedRing K] [FloorRing K]
  | psram (delay : PsramDelay K (PsramDelay.size (0.3 : K) PsramDelay.SAMPLE_RATE))
  | stock (delay : Delay K)

namespace DelayBackend

def make_delay (USE_PSRAM_DELAY : Bool) (time_mult : K) : DelayBackend K :=
  if USE_PSRAM_DELAY then
    .psram (PsramDelay.new 0.3 time_mult PsramDelay.SAMPLE_RATE)
  else
    .stock ((Delay.new 0.3 (.live slot.DELAY_TIME) (.live slot.DELAY_FEEDBACK)
      (.live slot.DELAY_MIX)).set_sample_rate PsramDelay.SAMPLE_RATE)

def process (control : MidiControl K) (buffer : List K) :
    DelayBackend K → Option (List K × DelayBackend K)
  | .psram delay => (delay.process control buffer).map fun (out, delay) => (out, .psram delay)
  | .stock delay => (delay.process control buffer).map fun (out, delay) => (out, .stock delay)

/-- What comes out of a stream of blocks, each with the controls as they are
during it. -/
def outputs : List (MidiControl K × List K) → DelayBackend K → Option (List (List K))
  | [], _ => some []
  | (control, buffer) :: rest, self => do
      let (out, self) ← process control buffer self
      let outs ← outputs rest self
      pure (out :: outs)

end DelayBackend

/-! ## The same sample by sample -/

/-- The stock delay has the ring of the other, and reads the slots that it reads. -/
structure Same {len : ℕ} (stock : Delay K) (psram : PsramDelay K len) : Prop where
  buffer : stock.buffer = psram.buffer.toList
  write_ptr : stock.write_ptr = psram.write_ptr
  sample_rate : stock.sample_rate = psram.sample_rate
  delay_time : stock.delay_time = .live slot.DELAY_TIME
  feedback : stock.feedback = .live slot.DELAY_FEEDBACK
  mix : stock.mix = .live slot.DELAY_MIX

namespace Delay

/-- The chunk buffers hold the parameters of the first `n` samples of a chunk. -/
structure Filled (delay : Delay K) (n : ℕ) (t fb mix : K) : Prop where
  delay_buffer : ∀ i < n, delay.delay_buffer[i]? = some t
  feedback_buffer : ∀ i < n, delay.feedback_buffer[i]? = some fb
  mix_buffer : ∀ i < n, delay.mix_buffer[i]? = some mix

variable {len : ℕ} {stock : Delay K} {psram : PsramDelay K len} {control : MidiControl K}

/-- **One sample.** Neither loop accesses anything outside of its buffers. -/
theorem sample_same (hlen : 0 < len) (h : Same stock psram) {n i : ℕ} {t fb mix : K}
    (hfilled : stock.Filled n t fb mix) (hi : i < n) (input : K) :
    ∃ out stock' psram', sample hlen i stock input = some (out, stock')
      ∧ psram.sample hlen (t * psram.sample_rate) fb mix input = some (out, psram')
      ∧ Same stock' psram' ∧ stock'.Filled n t fb mix ∧ psram'.params = psram.params := by
  have hlen_f : 0 < (len : K) := len_f_pos hlen
  set r : K := (psram.write_ptr : K) - t * psram.sample_rate with hr
  obtain ⟨hidx, -⟩ := PsramDelay.position r hlen_f
  set p : K := PsramDelay.lower (len : K) hlen_f (PsramDelay.raise (len : K) hlen_f r) with hp
  -- where the ring is read
  have ha : ⌊p⌋₊ < len := by
    have hnonneg := Int.emod_nonneg ⌊r⌋ (Int.natCast_ne_zero.mpr hlen.ne')
    have hlt := Int.emod_lt_of_pos ⌊r⌋ (Int.natCast_pos.mpr hlen)
    omega
  have hb : (⌊p⌋₊ + 1) % len < len := Nat.mod_lt _ hlen
  -- where it is written; the lists hold what the vector does
  have hwrite := psram.write_ptr_lt hlen
  have hread : ∀ j (hj : j < len), psram.buffer[j]? = some psram.buffer[j]
      ∧ stock.buffer[j]? = some psram.buffer[j] := by
    intro j hj
    have hval : psram.buffer[j]? = some psram.buffer[j] := Vector.getElem?_eq_getElem hj
    exact ⟨hval, by rw [h.buffer, Vector.getElem?_toList, hval]⟩
  have hroom : stock.write_ptr < stock.buffer.length := by
    rw [h.write_ptr, h.buffer, Vector.length_toList]
    exact hwrite
  set delayed := psram.buffer[⌊p⌋₊] * (1 - (p - ⌊p⌋₊))
    + psram.buffer[(⌊p⌋₊ + 1) % len] * (p - ⌊p⌋₊) with hdelayed
  refine ⟨input * (1 - mix) + delayed * mix,
    { stock with
      buffer := stock.buffer.set stock.write_ptr (input + delayed * fb)
      write_ptr := (stock.write_ptr + 1) % len },
    { psram with
      buffer := psram.buffer.set psram.write_ptr (input + delayed * fb) hwrite
      write_ptr := (psram.write_ptr + 1) % len
      write_ptr_lt := fun h => Nat.mod_lt _ h }, ?_, ?_, ?_, ?_, rfl⟩
  · unfold sample
    simp only [hfilled.delay_buffer i hi, hfilled.feedback_buffer i hi, hfilled.mix_buffer i hi,
      Option.bind_eq_bind, Option.bind_some, h.sample_rate, h.write_ptr, ← hr, ← hp,
      (hread _ ha).2, (hread _ hb).2, ← hdelayed]
    rw [h.write_ptr] at hroom
    rw [if_pos hroom]
    rfl
  · unfold PsramDelay.sample
    simp only [← hr, ← hp, (hread _ ha).1, (hread _ hb).1, Option.bind_eq_bind, Option.bind_some,
      ← hdelayed]
    rfl
  · refine ⟨?_, ?_, h.sample_rate, h.delay_time, h.feedback, h.mix⟩
    · show stock.buffer.set stock.write_ptr (input + delayed * fb)
        = (psram.buffer.set psram.write_ptr (input + delayed * fb) hwrite).toList
      rw [Vector.toList_set, h.buffer, h.write_ptr]
    · show (stock.write_ptr + 1) % len = (psram.write_ptr + 1) % len
      rw [h.write_ptr]
  · exact ⟨hfilled.delay_buffer, hfilled.feedback_buffer, hfilled.mix_buffer⟩

/-- The samples of a chunk from its sample `i` on. -/
theorem samples_same (hlen : 0 < len) (h : Same stock psram) {n i : ℕ} {t fb mix : K}
    (hfilled : stock.Filled n t fb mix) (xs : List K) (hi : i + xs.length ≤ n) :
    ∃ outs stock' psram', samples hlen i xs stock = some (outs, stock')
      ∧ PsramDelay.samples hlen (t * psram.sample_rate) fb mix xs psram = some (outs, psram')
      ∧ Same stock' psram' ∧ psram'.params = psram.params := by
  induction xs generalizing i stock psram with
  | nil => exact ⟨[], stock, psram, rfl, rfl, h, rfl⟩
  | cons x xs ih =>
      rw [List.length_cons] at hi
      obtain ⟨out, stock₁, psram₁, hs₁, hp₁, hsame₁, hfilled₁, hparams₁⟩ :=
        sample_same hlen h hfilled (show i < n by omega) x
      obtain ⟨outs, stock₂, psram₂, hs₂, hp₂, hsame₂, hparams₂⟩ :=
        ih hsame₁ hfilled₁ (show i + 1 + xs.length ≤ n by omega)
      have hrate : psram₁.sample_rate = psram.sample_rate := (Prod.mk.inj hparams₁).2
      rw [hrate] at hp₂
      refine ⟨out :: outs, stock₂, psram₂, ?_, ?_, hsame₂, hparams₂.trans hparams₁⟩
      · rw [samples, hs₁]
        simp only [Option.bind_eq_bind, Option.bind_some, hs₂]
        rfl
      · rw [PsramDelay.samples, hp₁]
        simp only [Option.bind_eq_bind, Option.bind_some, hp₂]
        rfl

/-- One chunk. What the chunk buffers held before does not matter. -/
theorem process_chunk_same (hlen : 0 < len) (h : Same stock psram) (control : MidiControl K)
    {chunk : List K} (hchunk : chunk.length ≤ PARAM_CHUNK_SIZE) :
    ∃ outs stock' psram', process_chunk hlen control chunk stock = some (outs, stock')
      ∧ PsramDelay.samples hlen (control.get_cont slot.DELAY_TIME * psram.sample_rate)
          (control.get_cont slot.DELAY_FEEDBACK) (control.get_cont slot.DELAY_MIX) chunk psram
        = some (outs, psram')
      ∧ Same stock' psram' ∧ psram'.params = psram.params := by
  -- the relation does not look at the chunk buffers
  set filled : Delay K :=
    { stock with
      delay_buffer := stock.delay_time.process control chunk.length stock.delay_buffer
      feedback_buffer := stock.feedback.process control chunk.length stock.feedback_buffer
      mix_buffer := stock.mix.process control chunk.length stock.mix_buffer } with hset
  have hsame : Same filled psram :=
    ⟨h.buffer, h.write_ptr, h.sample_rate, h.delay_time, h.feedback, h.mix⟩
  have hfilled : filled.Filled chunk.length (control.get_cont slot.DELAY_TIME)
      (control.get_cont slot.DELAY_FEEDBACK) (control.get_cont slot.DELAY_MIX) := by
    constructor
    · intro i hi
      rw [hset, AudioParam.process_getElem? hi hchunk, h.delay_time]
      rfl
    · intro i hi
      rw [hset, AudioParam.process_getElem? hi hchunk, h.feedback]
      rfl
    · intro i hi
      rw [hset, AudioParam.process_getElem? hi hchunk, h.mix]
      rfl
  exact samples_same hlen hsame hfilled chunk (by omega)

/-- **The chunks of a block** go through the loop of the other delay as one. -/
theorem process_chunks_same (hlen : 0 < len) (h : Same stock psram) (control : MidiControl K)
    {cs : List (List K)} (hcs : ∀ c ∈ cs, c.length ≤ PARAM_CHUNK_SIZE) :
    ∃ outs stock' psram', process_chunks hlen control cs stock = some (outs, stock')
      ∧ PsramDelay.samples hlen (control.get_cont slot.DELAY_TIME * psram.sample_rate)
          (control.get_cont slot.DELAY_FEEDBACK) (control.get_cont slot.DELAY_MIX) cs.flatten psram
        = some (outs, psram')
      ∧ Same stock' psram' ∧ psram'.params = psram.params := by
  induction cs generalizing stock psram with
  | nil => exact ⟨[], stock, psram, rfl, rfl, h, rfl⟩
  | cons c cs ih =>
      obtain ⟨out, stock₁, psram₁, hs₁, hp₁, hsame₁, hparams₁⟩ :=
        process_chunk_same hlen h control (hcs c List.mem_cons_self)
      obtain ⟨outs, stock₂, psram₂, hs₂, hp₂, hsame₂, hparams₂⟩ :=
        ih hsame₁ fun c hc => hcs c (List.mem_cons_of_mem _ hc)
      have hrate : psram₁.sample_rate = psram.sample_rate := (Prod.mk.inj hparams₁).2
      rw [hrate] at hp₂
      refine ⟨out ++ outs, stock₂, psram₂, ?_, ?_, hsame₂, hparams₂.trans hparams₁⟩
      · rw [process_chunks, hs₁]
        simp only [Option.bind_eq_bind, Option.bind_some, hs₂]
        rfl
      · rw [List.flatten_cons, PsramDelay.samples_append, hp₁]
        simp only [Option.bind_some, hp₂]
        rfl

/-- A block is the same on both delays where the times are not multiplied. -/
theorem process_same (hlen : 0 < len) (h : Same stock psram) (hmult : psram.time_mult = 1)
    (control : MidiControl K) (buffer : List K) :
    ∃ out stock' psram', stock.process control buffer = some (out, stock')
      ∧ psram.process control buffer = some (out, psram')
      ∧ Same stock' psram' ∧ psram'.params = psram.params := by
  have hsize : stock.buffer.length = len := by
    rw [h.buffer, Vector.length_toList]
  have hshort : ∀ c ∈ chunks PARAM_CHUNK_SIZE buffer, c.length ≤ PARAM_CHUNK_SIZE := by
    intro c hc
    obtain ⟨k, -, rfl⟩ := (mem_chunks (by decide)).mp hc
    exact List.length_take_le _ _
  -- the chunks together are the block
  have hrun := process_chunks_same hlen h control hshort
  rw [flatten_chunks (by decide)] at hrun
  obtain ⟨out, stock', psram', hs, hp, hsame, hparams⟩ := hrun
  refine ⟨out, stock', psram', ?_, ?_, hsame, hparams⟩
  · subst hsize
    rw [process, dif_pos hlen, hs]
  · rw [PsramDelay.process, dif_pos hlen, hmult, mul_one, hp]

end Delay

namespace DelayBackend

open PsramDelay (SAMPLE_RATE size size_eq size_pos delaySamples)

/-- What the ring is before it is told the rate. -/
theorem size_at_44100 : size (0.3 : K) 44100 = 13230 := by
  have hlen : (0.3 : K) * 44100 = ((13230 : ℕ) : K) := by norm_num
  rw [size, hlen, Nat.floor_natCast]

/-- `set_sample_rate` takes the stock ring to the length of the other. -/
theorem same_new (time_mult : K) :
    Same ((Delay.new 0.3 (.live slot.DELAY_TIME) (.live slot.DELAY_FEEDBACK)
        (.live slot.DELAY_MIX)).set_sample_rate SAMPLE_RATE)
      (PsramDelay.new 0.3 time_mult SAMPLE_RATE) where
  buffer := by
    simp only [Delay.set_sample_rate, Delay.new, PsramDelay.new, List.length_replicate,
      Vector.toList_replicate]
    rw [size_at_44100, size_eq, if_pos (by norm_num), List.replicate_append_replicate]
  write_ptr := rfl
  sample_rate := rfl
  delay_time := rfl
  feedback := rfl
  mix := rfl

/-- On a stream, too, the blocks are the same, and none of them panics. -/
theorem outputs_same {stock : Delay K} {psram : PsramDelay K (size (0.3 : K) SAMPLE_RATE)}
    (h : Same stock psram) (hmult : psram.time_mult = 1)
    (stream : List (MidiControl K × List K)) :
    ∃ outs, outputs stream (.stock stock) = some outs ∧ outputs stream (.psram psram) = some outs := by
  induction stream generalizing stock psram with
  | nil => exact ⟨[], rfl, rfl⟩
  | cons block rest ih =>
      obtain ⟨control, buffer⟩ := block
      obtain ⟨out, stock', psram', hs, hp, hsame, hparams⟩ :=
        Delay.process_same size_pos h hmult control buffer
      have hmult' : psram'.time_mult = 1 := (Prod.mk.inj hparams).1.trans hmult
      obtain ⟨outs, hs', hp'⟩ := ih hsame hmult'
      refine ⟨out :: outs, ?_, ?_⟩
      · simp only [outputs, process, hs, Option.map_some, Option.bind_eq_bind, Option.bind_some, hs']
        rfl
      · simp only [outputs, process, hp, Option.map_some, Option.bind_eq_bind, Option.bind_some, hp']
        rfl

/-- The stock arm is the other without a `time_mult`. -/
theorem outputs_stock (time_mult : K) (stream : List (MidiControl K × List K)) :
    ∃ outs, outputs stream (make_delay false time_mult) = some outs
      ∧ outputs stream (make_delay true 1) = some outs :=
  outputs_same (same_new 1) rfl stream

/-- A first block in PSRAM. -/
theorem outputs_psram (time_mult : K) (control : MidiControl K) (xs : List K) :
    outputs [(control, xs)] (make_delay true time_mult)
      = some [(List.range xs.length).map (PsramDelay.mixed (control.get_cont slot.DELAY_MIX)
          (PsramDelay.signal xs)
          (wet (ringRead (size (0.3 : K) SAMPLE_RATE) (delaySamples control time_mult SAMPLE_RATE))
            (control.get_cont slot.DELAY_FEEDBACK) (PsramDelay.signal xs)))] := by
  have hnew : (PsramDelay.new 0.3 time_mult SAMPLE_RATE).Follows 0
      (lineUpTo (ringRead (size (0.3 : K) SAMPLE_RATE) (delaySamples control time_mult SAMPLE_RATE))
        (control.get_cont slot.DELAY_FEEDBACK) (PsramDelay.signal xs) 0) :=
    PsramDelay.follows_new 0.3 time_mult SAMPLE_RATE size_pos
  obtain ⟨self', hrun, -, -⟩ := PsramDelay.samples_run (control.get_cont slot.DELAY_MIX) size_pos
    (PsramDelay.map_signal xs) hnew
  rw [← List.range_eq_range'] at hrun
  rw [make_delay, if_pos rfl, outputs]
  simp only [process, PsramDelay.process, dif_pos size_pos]
  change ((PsramDelay.samples size_pos (delaySamples control time_mult SAMPLE_RATE) _ _ xs _).map _).bind _
    = _
  rw [hrun]
  rfl

/-! ## What the toggle changes -/

/-- Flipping `USE_PSRAM_DELAY` cannot be heard: on every stream both arms run
without a panic and give the same samples. -/
def Interchangeable (time_mult : K) : Prop :=
  ∀ stream : List (MidiControl K × List K), ∃ outs,
    outputs stream (make_delay true time_mult) = some outs
      ∧ outputs stream (make_delay false time_mult) = some outs

/-- Controls with the delay time `t` and nothing dry. -/
def wetControls (t : K) : MidiControl K where
  value a := if a = .cont slot.DELAY_TIME then t else 1
  gate := false
  gate_reset := false

/-- The impulse and one sample of silence. -/
theorem outputs_impulse {time_mult t : K} (hd : |t * time_mult * 48000| < 1) :
    outputs [(wetControls t, [1, 0])] (make_delay true time_mult)
      = some [[0, max 0 (t * time_mult * 48000)]] := by
  have hL : 2 < size (0.3 : K) SAMPLE_RATE := by
    rw [size_eq]
    norm_num
  have hdelay : delaySamples (wetControls t) time_mult SAMPLE_RATE = t * time_mult * 48000 := rfl
  have hmix : (wetControls t).get_cont slot.DELAY_MIX = 1 := rfl
  have hsignal : PsramDelay.signal [(1 : K), 0] = impulse := PsramDelay.signal_impulse 1
  rw [outputs_psram, hdelay, hmix, hsignal]
  simp only [List.length_cons, List.length_nil, List.range_succ, List.range_zero, List.nil_append,
    List.map_cons, List.map_nil, PsramDelay.mixed, ringRead_start,
    ringRead_impulse_one hL hd, sub_self, mul_zero, mul_one, zero_add, List.cons_append]

/-- **The toggle.** The two arms of `make_delay` are interchangeable for a
`time_mult` of one, and for no other. For one they run in step on every stream, whatever
the controls do; for any other the arm without the PSRAM forgets the factor, and there is a
delay time, shorter than a sample, at which an impulse tells them apart. -/
theorem interchangeable_iff (time_mult : K) : Interchangeable time_mult ↔ time_mult = 1 := by
  constructor
  · intro h
    -- a delay short enough that neither arm waits for a whole sample
    set d : K := 1 / (2 * (1 + |time_mult|)) with hd
    have habs := abs_nonneg time_mult
    have hpos : 0 < d := by positivity
    have hone : d * (1 + |time_mult|) = 1 / 2 := by
      rw [hd]
      field_simp
    have hstock : d / 48000 * 1 * 48000 = d := by ring
    have hpsram : d / 48000 * time_mult * 48000 = d * time_mult := by ring
    have hshort : |d / 48000 * 1 * 48000| < 1 := by
      rw [hstock, abs_of_pos hpos]
      nlinarith
    have hshort' : |d / 48000 * time_mult * 48000| < 1 := by
      rw [hpsram, abs_mul, abs_of_pos hpos]
      nlinarith
    obtain ⟨outs, htrue, hfalse⟩ := h [(wetControls (d / 48000), [1, 0])]
    obtain ⟨outs', hfalse', hunit⟩ := outputs_stock time_mult [(wetControls (d / 48000), [1, 0])]
    rw [hfalse'] at hfalse
    cases hfalse
    rw [outputs_impulse hshort', hpsram] at htrue
    rw [outputs_impulse hshort, hstock, max_eq_right hpos.le] at hunit
    rw [← hunit] at htrue
    simp only [Option.some.injEq, List.cons.injEq, and_true, true_and] at htrue
    -- what the stock delay lets pass is not zero
    rcases le_total (d * time_mult) 0 with hneg | hnonneg
    · rw [max_eq_left hneg] at htrue
      exact absurd htrue hpos.ne
    · rw [max_eq_right hnonneg] at htrue
      exact (mul_eq_left₀ hpos.ne').mp htrue
  · rintro rfl stream
    obtain ⟨outs, hstock, hpsram⟩ := outputs_stock 1 stream
    exact ⟨outs, hpsram, hstock⟩

/-- The two channels of `build_synth`: the toggle can be heard on the right. -/
theorem interchangeable_iff_channels :
    Interchangeable (PsramDelay.Channel.left.time_mult : ℚ)
      ∧ ¬ Interchangeable (PsramDelay.Channel.right.time_mult : ℚ) := by
  constructor
  · exact (interchangeable_iff (PsramDelay.Channel.left.time_mult : ℚ)).mpr rfl
  · intro h
    have hone := (interchangeable_iff (PsramDelay.Channel.right.time_mult : ℚ)).mp h
    norm_num [PsramDelay.Channel.time_mult] at hone

/-- The echo of an impulse in PSRAM, for a delay that fits into the ring. -/
theorem outputs_echo {time_mult t d : K} (silence : ℕ) (hd : t * time_mult * 48000 = d)
    (h₁ : 1 ≤ d) (hL : d ≤ 14400) :
    ∃ out, outputs [(wetControls t, 1 :: List.replicate silence 0)] (make_delay true time_mult)
        = some [out]
      ∧ ∀ n ≤ silence, (n : ℤ) < 2 * ⌊d⌋ → out[n]? = some (max 0 (1 - |(n : K) - d|)) := by
  have hdelay : delaySamples (wetControls t) time_mult SAMPLE_RATE = d := hd
  have hmix : (wetControls t).get_cont slot.DELAY_MIX = 1 := rfl
  have hsame : ringRead (size (0.3 : K) SAMPLE_RATE) d = ideal d := by
    funext n v line
    apply ringRead_eq h₁
    rw [size_eq]
    exact_mod_cast hL
  refine ⟨_, outputs_psram time_mult (wetControls t) (1 :: List.replicate silence 0), ?_⟩
  intro n hn hecho
  have hlt : n < ((1 : K) :: List.replicate silence 0).length := by
    rw [List.length_cons, List.length_replicate]
    omega
  rw [List.getElem?_map, List.getElem?_range hlt, Option.map_some, hdelay, hsame, hmix,
    PsramDelay.signal_impulse, PsramDelay.mixed, ideal_impulse h₁ _ hecho, sub_self, mul_zero,
    zero_add, mul_one]

/-- An impulse, and a delay time of a quarter of a second. -/
def echo : List (MidiControl ℚ × List ℚ) := [(wetControls 0.25, 1 :: List.replicate 12000 0)]

/-- Right channel, 12000 samples after the impulse: the stock delay echoes it
there, the one in PSRAM 1800 samples later. -/
theorem echo_differs :
    outputs echo (make_delay true PsramDelay.Channel.right.time_mult)
      ≠ outputs echo (make_delay false PsramDelay.Channel.right.time_mult) := by
  have hright : (0.25 : ℚ) * PsramDelay.Channel.right.time_mult * 48000 = 13800 := by
    norm_num [PsramDelay.Channel.time_mult]
  have hleft : (0.25 : ℚ) * 1 * 48000 = 12000 := by norm_num
  obtain ⟨out, hpsram, hat⟩ := outputs_echo 12000 hright (by norm_num) (by norm_num)
  obtain ⟨out', hunit, hat'⟩ := outputs_echo 12000 hleft (by norm_num) (by norm_num)
  obtain ⟨outs, hfalse, htrue⟩ := outputs_stock (PsramDelay.Channel.right.time_mult : ℚ) echo
  intro heq
  -- the stock arm answers as the left channel does
  rw [hfalse, ← htrue, echo, hpsram, hunit] at heq
  cases heq
  have hsample := hat 12000 le_rfl (by norm_num)
  rw [hat' 12000 le_rfl (by norm_num)] at hsample
  norm_num at hsample

end DelayBackend

end PicoDsp
