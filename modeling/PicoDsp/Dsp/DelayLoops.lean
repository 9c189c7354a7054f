/-
The pointer loops of `PsramDelay::process` (`dsp/psram_delay.rs`) on every number
that a slot can hold.

`seed_from_preset` stores the delay time of a preset as it is, and a preset is
what lies in flash, so the slot may be an infinity or NaN. Whatever is finite is
brought into the ring by the two loops, as over exact numbers (`process_lift`), and
NaN goes past both. From an infinity they never come back: the turns of the ring do
not change it.

The numbers are those of `Lib/Ieee.lean`, exact except for infinities and NaN, and the two
loops are `while` loops that may not end, with the rules of `Lib/While.lean`. A sample
returns if each loop ends and all three accesses to the ring are inside; the conversion to
an index saturates, so a NaN reads at zero and the accesses behind the loops are never out
of range (`access_returns`).

For a finite pointer it would not do to say that the loops end. The sibling module has
them as terminating recursions, and the two are shown to agree sample for sample
(`sample_lift`), so that what is known there about finite delay times holds here.

`process_returns_iff` is about a block of any length, any ring and any place of the head,
and about the bit pattern in the slot: the delay comes back exactly if the block is
empty or the pattern is none of the two infinities. The multiplication by `time_mult` and
by the rate is done first and keeps an infinity; the pointer then has the other sign.
-/
import PicoDsp.Lib.Ieee
import PicoDsp.Lib.While
import PicoDsp.Control.Seeds
import PicoDsp.Dsp.PsramDelay

set_option autoImplicit false

namespace PicoDsp.DelayLoops

open Lib Lib.While

variable {K : Type} [Field K] [LinearOrder K] [IsStrictOrderedRing K] [FloorRing K] {len : ℕ}

/-! ## One block -/

/-- The two loops that bring `read_ptr_f` into the ring. -/
def normalise (fuel : ℕ) (len_f read_ptr_f : Ieee K) : Option (Ieee K) := do
  let read_ptr_norm ← loop (fun r => Ieee.lt r 0) (fun r => r + len_f) fuel read_ptr_f
  loop (fun r => Ieee.le len_f r) (fun r => r - len_f) fuel read_ptr_norm

/-- The three accesses to the ring, with the pointer in it; `none` is a panic. An
`usize` has 32 bits. -/
def access (hlen : 0 < len) (fb mix : Ieee K) (self : PsramDelay (Ieee K) len)
    (input read_ptr_norm : Ieee K) : Option (Ieee K × PsramDelay (Ieee K) len) := do
  let idx_a := read_ptr_norm.as_usize 32
  let idx_b := (idx_a + 1) % len
  let frac := read_ptr_norm - idx_a
  let a ← self.buffer[idx_a]?
  let b ← self.buffer[idx_b]?
  let delayed := a * (1 - frac) + b * frac
  let next_val := input + delayed * fb
  pure (input * (1 - mix) + delayed * mix,
    { self with
      buffer := self.buffer.set self.write_ptr next_val (self.write_ptr_lt hlen)
      write_ptr := (self.write_ptr + 1) % len
      write_ptr_lt := fun h => Nat.mod_lt _ h })

/-- One sample; `none` also if a loop uses up its fuel. -/
def sample (fuel : ℕ) (hlen : 0 < len) (delay_samples fb mix : Ieee K)
    (self : PsramDelay (Ieee K) len) (input : Ieee K) :
    Option (Ieee K × PsramDelay (Ieee K) len) := do
  let len_f : Ieee K := len
  let read_ptr_f := (self.write_ptr : Ieee K) - delay_samples
  let read_ptr_norm ← normalise fuel len_f read_ptr_f
  access hlen fb mix self input read_ptr_norm

def samples (fuel : ℕ) (hlen : 0 < len) (delay_samples fb mix : Ieee K) :
    List (Ieee K) → PsramDelay (Ieee K) len → Option (List (Ieee K) × PsramDelay (Ieee K) len)
  | [], self => some ([], self)
  | input :: rest, self => do
      let (out, self) ← sample fuel hlen delay_samples fb mix self input
      let (outs, self) ← samples fuel hlen delay_samples fb mix rest self
      pure (out :: outs, self)

def process (fuel : ℕ) (control : MidiControl (Ieee K)) (buffer : List (Ieee K))
    (self : PsramDelay (Ieee K) len) : Option (List (Ieee K) × PsramDelay (Ieee K) len) :=
  if hlen : 0 < len then
    let delay_time := control.get_cont slot.DELAY_TIME * self.time_mult
    let delay_samples := delay_time * self.sample_rate
    let fb := control.get_cont slot.DELAY_FEEDBACK
    let mix := control.get_cont slot.DELAY_MIX
    samples fuel hlen delay_samples fb mix buffer self
  else some (buffer, self)

/-! ## The two loops -/

/-- On a finite value the first loop is `raise`. -/
theorem raise_ends {len_f : K} (hlen : 0 < len_f) (r : K) :
    Ends (fun r => Ieee.lt r 0) (fun r => r + Ieee.fin len_f) (Ieee.fin r)
      (Ieee.fin (PsramDelay.raise len_f hlen r)) := by
  induction r using PsramDelay.raise.induct len_f hlen with
  | case1 r hneg ih =>
      have hcond : Ieee.lt (Ieee.fin r) 0 = true := by
        rw [Ieee.zero_eq, Ieee.lt_fin, decide_eq_true hneg]
      rw [PsramDelay.raise, if_pos hneg]
      rw [← Ieee.fin_add] at ih
      exact Ends.step hcond ih
  | case2 r hpos =>
      have hcond : Ieee.lt (Ieee.fin r) 0 = false := by
        rw [Ieee.zero_eq, Ieee.lt_fin, decide_eq_false hpos]
      rw [PsramDelay.raise, if_neg hpos]
      exact Ends.stop hcond

/-- On a finite value the second loop is `lower`. -/
theorem lower_ends {len_f : K} (hlen : 0 < len_f) (r : K) :
    Ends (fun r => Ieee.le (Ieee.fin len_f) r) (fun r => r - Ieee.fin len_f) (Ieee.fin r)
      (Ieee.fin (PsramDelay.lower len_f hlen r)) := by
  induction r using PsramDelay.lower.induct len_f hlen with
  | case1 r hle ih =>
      have hcond : Ieee.le (Ieee.fin len_f) (Ieee.fin r) = true := by
        rw [Ieee.le_fin, decide_eq_true hle]
      rw [PsramDelay.lower, if_pos hle]
      rw [← Ieee.fin_sub] at ih
      exact Ends.step hcond ih
  | case2 r hlt =>
      have hcond : Ieee.le (Ieee.fin len_f) (Ieee.fin r) = false := by
        rw [Ieee.le_fin, decide_eq_false hlt]
      rw [PsramDelay.lower, if_neg hlt]
      exact Ends.stop hcond

/-- **Finite pointers are brought into the ring**, as over exact numbers. -/
theorem normalise_fin (hlen_f : 0 < (len : K)) (r : K) :
    Returns (fun fuel => normalise fuel (len : Ieee K) (Ieee.fin r))
      (Ieee.fin (PsramDelay.lower (len : K) hlen_f (PsramDelay.raise (len : K) hlen_f r))) :=
  (raise_ends hlen_f r).returns.bind (lower_ends hlen_f _).returns

omit [IsStrictOrderedRing K] [FloorRing K] in
/-- NaN goes past both loops. -/
theorem normalise_nan : Returns (fun fuel => normalise fuel (len : Ieee K) .nan) .nan :=
  (Ends.stop rfl).returns.bind (Ends.stop rfl).returns

omit [IsStrictOrderedRing K] [FloorRing K] in
/-- Below all numbers, a turn of the ring more changes nothing. -/
theorem raise_diverges (len_f : K) (fuel : ℕ) :
    loop (fun r => Ieee.lt r 0) (fun r => r + Ieee.fin len_f) fuel (.inf true) = none := by
  apply loop_diverges fun r => r = .inf true
  · rintro r rfl
    rfl
  · rintro r rfl
    exact Ieee.inf_add_fin true len_f
  · rfl

omit [IsStrictOrderedRing K] [FloorRing K] in
/-- Nor does a turn less above them. -/
theorem lower_diverges (len_f : K) (fuel : ℕ) :
    loop (fun r => Ieee.le (Ieee.fin len_f) r) (fun r => r - Ieee.fin len_f) fuel (.inf false)
      = none := by
  apply loop_diverges fun r => r = .inf false
  · rintro r rfl
    rfl
  · rintro r rfl
    exact Ieee.inf_sub_fin false len_f
  · rfl

omit [IsStrictOrderedRing K] [FloorRing K] in
/-- **An infinity keeps one of the loops busy for ever**: the first if it is
negative, and else the second. -/
theorem normalise_inf (fuel : ℕ) (neg : Bool) :
    normalise fuel (len : Ieee K) (.inf neg) = none := by
  cases neg with
  | true =>
      rw [normalise, Ieee.natCast_eq, raise_diverges]
      rfl
  | false =>
      cases fuel with
      | zero => rfl
      | succ fuel =>
          -- the first loop ends at once
          rw [normalise, loop_stop rfl]
          exact lower_diverges (len : K) (fuel + 1)

/-! ## Where everything is finite -/

/-- A delay over exact numbers, read as one over `f32`. -/
def lift (self : PsramDelay K len) : PsramDelay (Ieee K) len where
  buffer := self.buffer.map .fin
  write_ptr := self.write_ptr
  time_mult := .fin self.time_mult
  sample_rate := .fin self.sample_rate
  write_ptr_lt := self.write_ptr_lt

/-- **On finite values the two models of a sample agree**, as long as the ring can be
indexed with an `usize`. -/
theorem sample_lift (hlen : 0 < len) (hsize : len ≤ 2 ^ 32) {d fb mix x out : K}
    {self self' : PsramDelay K len}
    (h : PsramDelay.sample hlen d fb mix self x = some (out, self')) :
    Returns (fun fuel => sample fuel hlen (.fin d) (.fin fb) (.fin mix) (lift self) (.fin x))
      (.fin out, lift self') := by
  have hlen_f : 0 < (len : K) := Nat.cast_pos.mpr hlen
  set p : K := PsramDelay.lower (len : K) hlen_f
    (PsramDelay.raise (len : K) hlen_f ((self.write_ptr : K) - d)) with hp
  obtain ⟨-, -, hpos⟩ := PsramDelay.raise_spec (len : K) hlen_f ((self.write_ptr : K) - d)
  obtain ⟨-, -, hnonneg, hlt⟩ := PsramDelay.lower_spec (len : K) hlen_f hpos
  -- the pointer is in the ring, and so is its neighbour
  have hidx : ⌊p⌋₊ < len := (Nat.floor_lt hnonneg).mpr hlt
  have hidx' : (⌊p⌋₊ + 1) % len < len := Nat.mod_lt _ hlen
  have hcast : (Ieee.fin p).as_usize 32 = ⌊p⌋₊ := min_eq_left (by omega)
  have hread : ∀ j (hj : j < len), self.buffer[j]? = some self.buffer[j]
      ∧ (self.buffer.map Ieee.fin)[j]? = some (Ieee.fin self.buffer[j]) := by
    intro j hj
    have hval : self.buffer[j]? = some self.buffer[j] := Vector.getElem?_eq_getElem hj
    exact ⟨hval, by rw [Vector.getElem?_map, hval]; rfl⟩
  unfold PsramDelay.sample at h
  simp only [← hp, (hread _ hidx).1, (hread _ hidx').1, Option.bind_eq_bind, Option.bind_some,
    Option.pure_def, Option.some.injEq, Prod.mk.injEq] at h
  obtain ⟨hout, hself⟩ := h
  -- the reads, the mix and the write: the same on both sides
  have haccess : access hlen (.fin fb) (.fin mix) (lift self) (.fin x) (.fin p) = some (.fin out,
      lift self') := by
    unfold access
    simp only [hcast, lift, (hread _ hidx).2, (hread _ hidx').2, Option.bind_eq_bind,
      Option.bind_some, Ieee.natCast_eq, Ieee.one_eq, Ieee.fin_sub, Ieee.fin_mul, Ieee.fin_add,
      ← hout, ← hself, Vector.map_set]
    rfl
  -- the two loops end
  have hpointer : Returns (fun fuel => normalise fuel (len : Ieee K)
      (((lift self).write_ptr : Ieee K) - .fin d)) (.fin p) := by
    rw [Ieee.natCast_eq (lift self).write_ptr, Ieee.fin_sub]
    exact normalise_fin hlen_f _
  have hnext : Returns (fun _ => access hlen (.fin fb) (.fin mix) (lift self) (.fin x) (.fin p))
      (.fin out, lift self') := by
    rw [haccess]
    exact Returns.const _
  exact hpointer.bind hnext

/-- A block of finite samples, sample by sample. -/
theorem samples_lift (hlen : 0 < len) (hsize : len ≤ 2 ^ 32) {d fb mix : K} {xs outs : List K}
    {self self' : PsramDelay K len}
    (h : PsramDelay.samples hlen d fb mix xs self = some (outs, self')) :
    Returns (fun fuel => samples fuel hlen (.fin d) (.fin fb) (.fin mix) (xs.map .fin) (lift self))
      (outs.map .fin, lift self') := by
  induction xs generalizing self outs with
  | nil =>
      cases h
      exact Returns.const _
  | cons x xs ih =>
      rw [PsramDelay.samples] at h
      simp only [Option.bind_eq_bind, Option.bind_eq_some_iff, Option.pure_def,
        Option.some.injEq, Prod.mk.injEq, Prod.exists] at h
      obtain ⟨out, u, hfirst, rest, v, hrest, rfl, rfl⟩ := h
      exact (sample_lift hlen hsize hfirst).bind ((ih hrest).bind (Returns.const _))

/-- The controls, read as `f32`. -/
def liftControls (control : MidiControl K) : MidiControl (Ieee K) where
  value a := .fin (control.value a)
  gate := control.gate
  gate_reset := control.gate_reset

/-- A block over exact numbers is the block over `f32`. -/
theorem process_lift (hsize : len ≤ 2 ^ 32) {control : MidiControl K} {buffer outs : List K}
    {self self' : PsramDelay K len}
    (h : PsramDelay.process control buffer self = some (outs, self')) :
    Returns (fun fuel => process fuel (liftControls control) (buffer.map .fin) (lift self))
      (outs.map .fin, lift self') := by
  unfold PsramDelay.process at h
  unfold process
  split at h
  · rename_i hlen
    simp only [dif_pos hlen]
    exact samples_lift hlen hsize h
  · rename_i hlen
    simp only [dif_neg hlen]
    cases h
    exact Returns.const _

/-! ## What a slot holds -/

/-- The delay time of a preset goes into its slot as it is. -/
theorem seed_delay_time {F : Type} [F32 F] (p : Preset F) (c : MidiControl F) :
    (MidiControl.seed p c).get_cont slot.DELAY_TIME = p.delay.time := by
  apply MidiControl.seed_agrees p c (.cont slot.DELAY_TIME, p.delay.time)
  simp [MidiControl.seed_from_preset, MidiControl.seed_slots]

/-- The slots are bit patterns, and `get_cont` reads them as `f32`. -/
def controls (bits : MidiControl UInt32) : MidiControl (Ieee ℚ) where
  value a := Ieee.from_bits (bits.value a)
  gate := bits.gate
  gate_reset := bits.gate_reset

/-! ## A block -/

section Block

variable {t : Ieee K} (mult rate : K) (fb mix : Ieee K)

/-- Except for the infinities, every delay time is read inside the ring. -/
theorem pointer_returns (hlen : 0 < len) (ht : ∀ neg, t ≠ .inf neg) (w : ℕ) :
    ∃ p, Returns (fun fuel => normalise fuel (len : Ieee K)
        ((w : Ieee K) - t * Ieee.fin mult * Ieee.fin rate)) p ∧ p.as_usize 32 < len := by
  have hlen_f : 0 < (len : K) := Nat.cast_pos.mpr hlen
  cases t with
  | fin x =>
      simp only [Ieee.fin_mul, Ieee.natCast_eq, Ieee.fin_sub]
      refine ⟨_, normalise_fin hlen_f _, ?_⟩
      obtain ⟨-, -, hpos⟩ := PsramDelay.raise_spec (len : K) hlen_f ((w : K) - x * mult * rate)
      obtain ⟨-, -, hnonneg, hlt⟩ := PsramDelay.lower_spec (len : K) hlen_f hpos
      exact lt_of_le_of_lt (min_le_left _ _) ((Nat.floor_lt hnonneg).mpr hlt)
  | inf neg => exact absurd rfl (ht neg)
  | nan =>
      simp only [Ieee.nan_mul, Ieee.natCast_eq, Ieee.fin_sub_nan]
      exact ⟨_, normalise_nan, hlen⟩

omit [IsStrictOrderedRing K] [FloorRing K] in
/-- An infinite delay time puts the pointer at the other infinity. -/
theorem pointer_diverges {mult rate : K} (hmult : 0 < mult) (hrate : 0 < rate) (neg : Bool) (w fuel : ℕ) :
    normalise fuel (len : Ieee K) ((w : Ieee K) - .inf neg * Ieee.fin mult * Ieee.fin rate)
      = none := by
  rw [Ieee.inf_mul_fin neg hmult, Ieee.inf_mul_fin neg hrate, Ieee.natCast_eq w, Ieee.fin_sub_inf]
  exact normalise_inf fuel _

omit [IsStrictOrderedRing K] in
/-- The second access is one place further around the ring, and so is the head. -/
theorem access_returns (hlen : 0 < len) (self : PsramDelay (Ieee K) len) (input : Ieee K)
    {p : Ieee K} (hidx : p.as_usize 32 < len) : ∃ out, access hlen fb mix self input p = some out := by
  have hidx' : (p.as_usize 32 + 1) % len < len := Nat.mod_lt _ hlen
  have ha : self.buffer[p.as_usize 32]? = some self.buffer[p.as_usize 32] :=
    Vector.getElem?_eq_getElem hidx
  have hb : self.buffer[(p.as_usize 32 + 1) % len]? = some self.buffer[(p.as_usize 32 + 1) % len] :=
    Vector.getElem?_eq_getElem hidx'
  unfold access
  simp only [ha, hb, Option.bind_eq_bind, Option.bind_some]
  exact ⟨_, rfl⟩

/-- One sample with a delay time that is no infinity. -/
theorem sample_returns (hlen : 0 < len) (ht : ∀ neg, t ≠ .inf neg)
    (self : PsramDelay (Ieee K) len) (input : Ieee K) :
    ∃ out, Returns (fun fuel => sample fuel hlen (t * Ieee.fin mult * Ieee.fin rate) fb mix self
      input) out := by
  obtain ⟨p, hp, hidx⟩ := pointer_returns mult rate hlen ht self.write_ptr
  obtain ⟨out, hout⟩ := access_returns fb mix hlen self input hidx
  have haccess : Returns (fun _ => access hlen fb mix self input p) out := by
    rw [hout]
    exact Returns.const out
  exact ⟨out, hp.bind haccess⟩

/-- **Every block returns**, whatever the ring holds. -/
theorem samples_returns (hlen : 0 < len) (ht : ∀ neg, t ≠ .inf neg) (buffer : List (Ieee K))
    (self : PsramDelay (Ieee K) len) :
    ∃ out, Returns (fun fuel => samples fuel hlen (t * Ieee.fin mult * Ieee.fin rate) fb mix buffer
      self) out := by
  induction buffer generalizing self with
  | nil => exact ⟨_, Returns.const _⟩
  | cons input rest ih =>
      obtain ⟨⟨out, self'⟩, hsample⟩ := sample_returns mult rate fb mix hlen ht self input
      obtain ⟨⟨outs, self''⟩, hrest⟩ := ih self'
      exact ⟨_, hsample.bind (hrest.bind (Returns.const _))⟩

omit [IsStrictOrderedRing K] in
/-- No block with a sample in it returns. -/
theorem samples_diverges {mult rate : K} (hlen : 0 < len) (hmult : 0 < mult) (hrate : 0 < rate) (neg : Bool)
    (input : Ieee K) (rest : List (Ieee K)) (self : PsramDelay (Ieee K) len) (fuel : ℕ) :
    samples fuel hlen (.inf neg * Ieee.fin mult * Ieee.fin rate) fb mix (input :: rest) self
      = none := by
  rw [samples, sample, pointer_diverges hmult hrate neg]
  rfl

end Block

/-! ## The slot that the device loads -/

/-- A delay of `build_synth`, with anything in its ring and its head anywhere. -/
def delay (ring : Vector (Ieee ℚ) len) (write_ptr : Fin len) (ch : PsramDelay.Channel) :
    PsramDelay (Ieee ℚ) len where
  buffer := ring
  write_ptr := write_ptr
  time_mult := .fin ch.time_mult
  sample_rate := .fin PsramDelay.SAMPLE_RATE
  write_ptr_lt _ := write_ptr.isLt

/-- Both channels multiply by a positive number. -/
theorem time_mult_pos (ch : PsramDelay.Channel) : 0 < (ch.time_mult : ℚ) := by
  cases ch with
  | left => norm_num [PsramDelay.Channel.time_mult]
  | right => norm_num [PsramDelay.Channel.time_mult]

/-- **The delay comes back from a block** exactly if the block is empty or the
pattern in the slot of the delay time is none of the two infinities; and then no
access to the ring is out of range. -/
theorem process_returns_iff (ring : Vector (Ieee ℚ) len) (write_ptr : Fin len)
    (ch : PsramDelay.Channel) (bits : MidiControl UInt32) (buffer : List (Ieee ℚ)) :
    (∃ fuel out, process fuel (controls bits) buffer (delay ring write_ptr ch) = some out)
      ↔ buffer = [] ∨ (bits.get_cont slot.DELAY_TIME ≠ 0x7F800000
          ∧ bits.get_cont slot.DELAY_TIME ≠ 0xFF800000) := by
  have hlen : 0 < len := Fin.pos write_ptr
  have hrate : 0 < (PsramDelay.SAMPLE_RATE : ℚ) := by norm_num [PsramDelay.SAMPLE_RATE]
  have hinf := Ieee.from_bits_inf_iff (bits.get_cont slot.DELAY_TIME)
  -- the slots are read once, before the loop over the block
  have hprocess : ∀ fuel, process fuel (controls bits) buffer (delay ring write_ptr ch)
      = samples fuel hlen (Ieee.from_bits (bits.get_cont slot.DELAY_TIME) * .fin ch.time_mult
          * .fin PsramDelay.SAMPLE_RATE) ((controls bits).get_cont slot.DELAY_FEEDBACK)
          ((controls bits).get_cont slot.DELAY_MIX) buffer (delay ring write_ptr ch) := by
    intro fuel
    rw [process, dif_pos hlen]
    rfl
  simp only [hprocess]
  rw [← not_or, ← hinf, not_exists]
  constructor
  · rintro ⟨fuel, out, hrun⟩
    rcases buffer with _ | ⟨input, rest⟩
    · exact Or.inl rfl
    · -- the first sample would not come back
      refine Or.inr ?_
      intro neg hneg
      rw [hneg, samples_diverges _ _ hlen (time_mult_pos ch) hrate] at hrun
      cases hrun
  · rintro (rfl | hfinite)
    · exact ⟨0, _, rfl⟩
    · obtain ⟨out, enough, hrun⟩ := samples_returns ch.time_mult PsramDelay.SAMPLE_RATE
        ((controls bits).get_cont slot.DELAY_FEEDBACK) ((controls bits).get_cont slot.DELAY_MIX)
        hlen hfinite buffer (delay ring write_ptr ch)
      exact ⟨enough, out, hrun enough le_rfl⟩

/-- The slots, with the delay time at positive infinity. -/
def stuck : MidiControl UInt32 where
  value a := if a = .cont slot.DELAY_TIME then 0x7F800000 else 0
  gate := false
  gate_reset := false

/-- One sample of silence on the left channel, with the ring still empty. -/
theorem stuck_never_returns : ¬ ∃ fuel out, process fuel (controls stuck) [.fin 0]
    (delay (Vector.replicate 14400 0) 0 .left) = some out := by
  rintro ⟨fuel, out, hrun⟩
  have hrate : 0 < (PsramDelay.SAMPLE_RATE : ℚ) := by norm_num [PsramDelay.SAMPLE_RATE]
  have hslot : (controls stuck).get_cont slot.DELAY_TIME = .inf false := rfl
  rw [process, dif_pos (by decide), hslot] at hrun
  rw [delay, samples_diverges _ _ _ (time_mult_pos .left) hrate] at hrun
  cases hrun

end PicoDsp.DelayLoops
