/-
The delay line in PSRAM (`dsp/psram_delay.rs`) and the two that `build_synth`
makes.

The ring is read at its head minus the delay, before the head is written. So it
is a ring reader (`ringRead`) in the sense of `Lib/DelayLine.lean`, and a channel produces
the delay it is set to exactly where the ring reader is the ideal one: from one
sample up to the length of the ring.

The position is computed as a number with a fraction and brought into the ring by two
loops that add and subtract its length, and only then cut to an index. Here the numbers
are exact and the loops are recursions that end (`raise`, `lower`); what they do to an
infinity is `Dsp/DelayLoops.lean`. After them the position is the one in the ring that is
congruent to it (`position`), and that is all that is used of them.

One sample of the loop is one step of the line (`sample_run`), by the relation `Follows`
between the ring and the line it has written so far. The parameters are read once a
block, so how a stream is split into blocks makes no difference (`blocks_run`), and no
access is outside of the ring, which the model would show as a missing result.

The two channels share the live delay time and multiply it, the right one by 1.15, but
their rings have one length. At the longest delay time that the editor can set the
right channel asks for more than its ring holds (`delay_right_longest`). `delay_iff` is the
exact range, as an equivalence in the delay time and the mix for any feedback.
-/
import PicoDsp.Lib.DelayLine
import PicoDsp.Control.CcMap

set_option autoImplicit false

namespace PicoDsp

open Lib DelayLine

/-- A delay over a ring of `len` samples; only the empty ring has no place for
its head. -/
structure PsramDelay (K : Type) (len : ℕ) where
  buffer : Vector K len
  write_ptr : ℕ
  time_mult : K
  sample_rate : K
  write_ptr_lt : 0 < len → write_ptr < len

namespace PsramDelay

variable {K : Type} [Field K] [LinearOrder K] [IsStrictOrderedRing K] [FloorRing K]

/-- `(max_delay_seconds * sample_rate) as usize` -/
def size (max_delay_seconds sample_rate : K) : ℕ := ⌊max_delay_seconds * sample_rate⌋₊

def new (max_delay_seconds time_mult sample_rate : K) :
    PsramDelay K (size max_delay_seconds sample_rate) where
  buffer := Vector.replicate _ 0
  write_ptr := 0
  time_mult := time_mult
  sample_rate := sample_rate
  write_ptr_lt h := h

/-! ## One block -/

/-- `while r < 0.0 { r += len_f }` -/
def raise {K : Type} [Field K] [LinearOrder K] [IsStrictOrderedRing K] [FloorRing K]
    (len_f : K) (hlen : 0 < len_f) (r : K) : K :=
  if r < 0 then raise len_f hlen (r + len_f) else r
termination_by ⌈-r / len_f⌉₊
decreasing_by
  rename_i hneg
  have hstep : -(r + len_f) / len_f = -r / len_f - 1 := by
    rw [neg_add, add_div, neg_div len_f len_f, div_self hlen.ne', sub_eq_add_neg]
  have hpos : 0 < -r / len_f := div_pos (neg_pos.mpr hneg) hlen
  rw [hstep, Nat.ceil_sub_one]
  exact Nat.sub_lt (Nat.ceil_pos.mpr hpos) Nat.one_pos

/-- `while r >= len_f { r -= len_f }` -/
def lower {K : Type} [Field K] [LinearOrder K] [IsStrictOrderedRing K] [FloorRing K]
    (len_f : K) (hlen : 0 < len_f) (r : K) : K :=
  if len_f ≤ r then lower len_f hlen (r - len_f) else r
termination_by ⌊r / len_f⌋₊
decreasing_by
  rename_i hle
  have hstep : (r - len_f) / len_f = r / len_f - 1 := by rw [sub_div, div_self hlen.ne']
  have hone : 1 ≤ r / len_f := (one_le_div hlen).mpr hle
  rw [hstep, Nat.floor_sub_one]
  exact Nat.sub_lt (Nat.floor_pos.mpr hone) Nat.one_pos

variable {len : ℕ}

/-- One sample of the loop of `process`; a read outside of the buffer panics. -/
def sample (hlen : 0 < len) (delay_samples fb mix : K) (self : PsramDelay K len) (input : K) :
    Option (K × PsramDelay K len) := do
  let len_f : K := len
  have hlen_f : 0 < len_f := Nat.cast_pos.mpr hlen
  let read_ptr_f := (self.write_ptr : K) - delay_samples
  let read_ptr_norm := lower len_f hlen_f (raise len_f hlen_f read_ptr_f)
  let idx_a := ⌊read_ptr_norm⌋₊
  let idx_b := (idx_a + 1) % len
  let frac := read_ptr_norm - idx_a
  let a ← self.buffer[idx_a]?
  let b ← self.buffer[idx_b]?
  let delayed := a * (1 - frac) + b * frac
  let next_val := input + delayed * fb
  pure (input * (1 - mix) + delayed * mix,
    { self with
      buffer := self.buffer.set self.write_ptr next_val (self.write_ptr_lt hlen)
      write_ptr := (self.write_ptr + 1) % len
      write_ptr_lt := fun h => Nat.mod_lt _ h })

/-- The loop of `process`. -/
def samples (hlen : 0 < len) (delay_samples fb mix : K) :
    List K → PsramDelay K len → Option (List K × PsramDelay K len)
  | [], self => some ([], self)
  | input :: rest, self => do
      let (out, self) ← sample hlen delay_samples fb mix self input
      let (outs, self) ← samples hlen delay_samples fb mix rest self
      pure (out :: outs, self)

/-- A block in two parts. -/
theorem samples_append (hlen : 0 < len) (delay_samples fb mix : K) (xs ys : List K)
    (self : PsramDelay K len) :
    samples hlen delay_samples fb mix (xs ++ ys) self
      = (samples hlen delay_samples fb mix xs self).bind fun (outs, self) =>
          (samples hlen delay_samples fb mix ys self).map fun (outs', self) =>
            (outs ++ outs', self) := by
  induction xs generalizing self with
  | nil =>
      rw [List.nil_append, samples, Option.bind_some]
      exact Option.map_id'.symm
  | cons x xs ih =>
      rw [List.cons_append, samples, samples]
      simp only [Option.bind_eq_bind, ih, Option.bind_assoc, Option.map_eq_bind]
      rfl

/-- The parameters are read from the live controls once a block. -/
def process (control : MidiControl K) (buffer : List K) (self : PsramDelay K len) :
    Option (List K × PsramDelay K len) :=
  if hlen : 0 < len then
    let delay_time := control.get_cont slot.DELAY_TIME * self.time_mult
    let delay_samples := delay_time * self.sample_rate
    let fb := control.get_cont slot.DELAY_FEEDBACK
    let mix := control.get_cont slot.DELAY_MIX
    samples hlen delay_samples fb mix buffer self
  else some (buffer, self)

/-- A stream of blocks, with the controls left alone. -/
def blocks (control : MidiControl K) :
    List (List K) → PsramDelay K len → Option (List (List K) × PsramDelay K len)
  | [], self => some ([], self)
  | buffer :: rest, self => do
      let (out, self) ← process control buffer self
      let (outs, self) ← blocks control rest self
      pure (out :: outs, self)

/-! ## The position that is read -/

/-- The first loop adds turns of the ring until the position is not negative. -/
theorem raise_spec (len_f : K) (hlen : 0 < len_f) (r : K) :
    ∃ k : ℤ, raise len_f hlen r = r + k * len_f ∧ 0 ≤ raise len_f hlen r := by
  induction r using raise.induct len_f hlen with
  | case1 r hneg ih =>
      obtain ⟨k, hk, hpos⟩ := ih
      rw [raise, if_pos hneg]
      refine ⟨k + 1, ?_, hpos⟩
      rw [hk]
      push_cast
      ring
  | case2 r hpos =>
      rw [raise, if_neg hpos]
      refine ⟨0, ?_, not_lt.mp hpos⟩
      rw [Int.cast_zero, zero_mul, add_zero]

/-- The second takes turns away until it lies inside. -/
theorem lower_spec (len_f : K) (hlen : 0 < len_f) {r : K} (hr : 0 ≤ r) :
    ∃ k : ℤ, lower len_f hlen r = r + k * len_f
      ∧ 0 ≤ lower len_f hlen r ∧ lower len_f hlen r < len_f := by
  induction r using lower.induct len_f hlen with
  | case1 r hle ih =>
      obtain ⟨k, hk, hbounds⟩ := ih (sub_nonneg.mpr hle)
      rw [lower, if_pos hle]
      refine ⟨k - 1, ?_, hbounds⟩
      rw [hk]
      push_cast
      ring
  | case2 r hlt =>
      rw [lower, if_neg hlt]
      refine ⟨0, ?_, hr, not_le.mp hlt⟩
      rw [Int.cast_zero, zero_mul, add_zero]

/-- The two loops turn the position into the ring. -/
theorem position (r : K) (hlen_f : 0 < (len : K)) :
    ⌊lower (len : K) hlen_f (raise (len : K) hlen_f r)⌋₊ = (⌊r⌋ % len).toNat
      ∧ lower (len : K) hlen_f (raise (len : K) hlen_f r)
          - ⌊lower (len : K) hlen_f (raise (len : K) hlen_f r)⌋₊ = Int.fract r := by
  obtain ⟨k, hk, hpos⟩ := raise_spec (len : K) hlen_f r
  obtain ⟨k', hk', hlow, hhigh⟩ := lower_spec (len : K) hlen_f hpos
  generalize hs : lower (len : K) hlen_f (raise (len : K) hlen_f r) = s at *
  -- some turns of the ring away from `r`
  have hturns : s = r + (((k + k') * len : ℤ) : K) := by
    rw [hk', hk]
    push_cast
    ring
  have hfloor : ⌊s⌋ = ⌊r⌋ + (k + k') * len := by
    rw [hturns, Int.floor_add_intCast]
  have hnonneg : 0 ≤ ⌊s⌋ := Int.floor_nonneg.mpr hlow
  have hlt : ⌊s⌋ < len := by
    apply Int.floor_lt.mpr
    exact_mod_cast hhigh
  have hmod : ⌊s⌋ = ⌊r⌋ % len := by
    rw [← Int.emod_eq_of_lt hnonneg hlt, hfloor, Int.add_mul_emod_self_right]
  have hnat : ((⌊s⌋₊ : ℕ) : ℤ) = ⌊s⌋ := Int.natCast_floor_eq_floor hlow
  refine ⟨by omega, ?_⟩
  have hcast : ((⌊s⌋₊ : ℕ) : K) = ((⌊s⌋ : ℤ) : K) := by exact_mod_cast hnat
  have hfract : s - ⌊s⌋ = Int.fract s := rfl
  rw [hcast, hfract, hturns, Int.fract_add_intCast]

/-! ## The ring is a delay line -/

/-- The ring after `n` samples of a line. -/
structure Follows (delay : PsramDelay K len) (n : ℕ) (line : ℤ → K) : Prop where
  head : delay.write_ptr = n % len
  remembers : Remembers delay.buffer n line

/-- The parameters of a delay, which no block changes. -/
def params (self : PsramDelay K len) : K × K := (self.time_mult, self.sample_rate)

omit [IsStrictOrderedRing K] in
/-- A new ring has a silent line behind it. -/
theorem follows_new (max_delay_seconds time_mult sample_rate : K)
    (hlen : 0 < size max_delay_seconds sample_rate) :
    (new max_delay_seconds time_mult sample_rate).Follows 0 fun _ => 0 :=
  ⟨(Nat.zero_mod _).symm, remembers_replicate hlen 0⟩

/-- The dry and the wet signal at sample `n`. -/
def mixed (mix : K) (x w : ℕ → K) (n : ℕ) : K := x n * (1 - mix) + w n * mix

variable {d fb : K} {x : ℕ → K} {self : PsramDelay K len} {n : ℕ}

/-- **One sample of the loop is one step of the ring.** -/
theorem sample_run (mix : K) (hlen : 0 < len) (h : self.Follows n (lineUpTo (ringRead len d) fb x n)) :
    ∃ self', sample hlen d fb mix self (x n)
        = some (mixed mix x (wet (ringRead len d) fb x) n, self')
      ∧ self'.Follows (n + 1) (lineUpTo (ringRead len d) fb x (n + 1))
      ∧ self'.params = self.params := by
  have hlen_f : 0 < (len : K) := Nat.cast_pos.mpr hlen
  obtain ⟨hidx, hfrac⟩ := position ((self.write_ptr : K) - d) hlen_f
  -- the head is at sample `n`, up to turns of the ring
  have hhead : (self.write_ptr : K) - d = (n : K) - d - (((n / len : ℕ) * len : ℤ) : K) := by
    have hdiv : ((n % len : ℕ) : K) + ((len * (n / len) : ℕ) : K) = (n : K) := by
      exact_mod_cast congrArg (Nat.cast (R := K)) (Nat.mod_add_div n len)
    rw [h.head, ← hdiv, Int.cast_mul, Int.cast_natCast, Int.cast_natCast, Nat.cast_mul]
    ring
  have hfloor : ⌊(self.write_ptr : K) - d⌋ % (len : ℤ) = ⌊(n : K) - d⌋ % len := by
    rw [hhead, Int.floor_sub_intCast, Int.sub_mul_emod_self_right]
  have hfract : Int.fract ((self.write_ptr : K) - d) = Int.fract ((n : K) - d) := by
    rw [hhead, Int.fract_sub_intCast]
  rw [hfloor] at hidx
  rw [hfract, hidx] at hfrac
  have hnonneg : 0 ≤ ⌊(n : K) - d⌋ % (len : ℤ) := Int.emod_nonneg _ (by omega)
  have hnext : ((⌊(n : K) - d⌋ % (len : ℤ)).toNat + 1) % len
      = ((⌊(n : K) - d⌋ + 1) % (len : ℤ)).toNat := by
    obtain ⟨k, hk⟩ := Int.eq_ofNat_of_zero_le hnonneg
    rw [← Int.emod_add_emod, hk, Int.toNat_natCast, ← Nat.cast_succ, ← Int.natCast_mod,
      Int.toNat_natCast]
  have ha := h.remembers ⌊(n : K) - d⌋
  have hb := h.remembers (⌊(n : K) - d⌋ + 1)
  have hpush := h.remembers.push hlen (x n + wet (ringRead len d) fb x n * fb)
  rw [← lineUpTo_succ] at hpush
  refine ⟨⟨self.buffer.set self.write_ptr (x n + wet (ringRead len d) fb x n * fb)
      (self.write_ptr_lt hlen), (self.write_ptr + 1) % len, self.time_mult, self.sample_rate,
      fun h => Nat.mod_lt _ h⟩, ?_, ⟨?_, ?_⟩, rfl⟩
  · unfold sample
    simp only [hidx, hfrac, hnext, ha, hb]
    rfl
  · change (self.write_ptr + 1) % len = (n + 1) % len
    rw [h.head, Nat.mod_add_mod]
  · simp only [h.head]
    exact hpush

/-- A block of samples of the input. -/
theorem samples_run (mix : K) (hlen : 0 < len) {xs : List K} (hxs : xs = (List.range' n xs.length).map x)
    (h : self.Follows n (lineUpTo (ringRead len d) fb x n)) :
    ∃ self', samples hlen d fb mix xs self
        = some ((List.range' n xs.length).map (mixed mix x (wet (ringRead len d) fb x)), self')
      ∧ self'.Follows (n + xs.length) (lineUpTo (ringRead len d) fb x (n + xs.length))
      ∧ self'.params = self.params := by
  induction xs generalizing n self with
  | nil => exact ⟨self, rfl, h, rfl⟩
  | cons v xs ih =>
      rw [List.length_cons, List.range'_succ, List.map_cons, List.cons.injEq] at hxs
      obtain ⟨hv, hrest⟩ := hxs
      obtain ⟨self₁, hrun, hfollows, hparams⟩ := sample_run mix hlen h
      obtain ⟨self₂, hrun', hfollows', hparams'⟩ := ih hrest hfollows
      have hcount : n + 1 + xs.length = n + (v :: xs).length := by
        rw [List.length_cons]
        omega
      rw [hcount] at hfollows'
      refine ⟨self₂, ?_, hfollows', hparams'.trans hparams⟩
      rw [samples, hv, hrun]
      simp only [Option.bind_eq_bind, Option.bind_some, hrun', List.length_cons]
      rw [List.range'_succ, List.map_cons]
      rfl

/-- The delay in samples that the controls set. -/
def delaySamples (control : MidiControl K) (time_mult sample_rate : K) : K :=
  control.get_cont slot.DELAY_TIME * time_mult * sample_rate

/-- **A stream of blocks is one line, however it is split.** -/
theorem blocks_run (hlen : 0 < len) {control : MidiControl K} {bs : List (List K)}
    (hbs : bs.flatten = (List.range' n bs.flatten.length).map x)
    (hd : d = delaySamples control self.time_mult self.sample_rate)
    (hfb : fb = control.get_cont slot.DELAY_FEEDBACK)
    (h : self.Follows n (lineUpTo (ringRead len d) fb x n)) :
    ∃ outs self', blocks control bs self = some (outs, self')
      ∧ outs.flatten = (List.range' n bs.flatten.length).map
          (mixed (control.get_cont slot.DELAY_MIX) x (wet (ringRead len d) fb x)) := by
  induction bs generalizing n self with
  | nil => exact ⟨[], self, rfl, rfl⟩
  | cons xs bs ih =>
      rw [List.flatten_cons, List.length_append, ← List.range'_append_1, List.map_append] at hbs
      obtain ⟨hxs, hrest⟩ := List.append_inj hbs (by simp)
      obtain ⟨self₁, hrun, hfollows, hparams⟩ :=
        samples_run (control.get_cont slot.DELAY_MIX) hlen hxs h
      obtain ⟨hmult, hrate⟩ := Prod.mk.inj hparams
      have hd₁ : d = delaySamples control self₁.time_mult self₁.sample_rate := by
        rw [hmult, hrate]
        exact hd
      obtain ⟨outs, self₂, hrun', hflat⟩ := ih hrest hd₁ hfollows
      have hblock : process control xs self = some ((List.range' n xs.length).map
          (mixed (control.get_cont slot.DELAY_MIX) x (wet (ringRead len d) fb x)), self₁) := by
        rw [process, dif_pos hlen, ← hrun, hd, hfb]
        rfl
      refine ⟨(List.range' n xs.length).map (mixed (control.get_cont slot.DELAY_MIX) x
          (wet (ringRead len d) fb x)) :: outs, self₂, ?_, ?_⟩
      · rw [blocks, hblock]
        simp only [Option.bind_eq_bind, Option.bind_some, hrun']
        rfl
      · rw [List.flatten_cons, List.flatten_cons, List.length_append, ← List.range'_append_1,
          List.map_append, hflat]

/-- The samples of a stream, and silence behind it. -/
def signal (xs : List K) (n : ℕ) : K := xs.getD n 0

omit [LinearOrder K] [IsStrictOrderedRing K] [FloorRing K] in
/-- A list is its signal, sample by sample. -/
theorem map_signal (xs : List K) : xs = (List.range' 0 xs.length).map (signal xs) := by
  apply List.ext_getElem
  · rw [List.length_map, List.length_range']
  · intro i hi hi'
    rw [List.getElem_map, List.getElem_range', Nat.zero_add, Nat.one_mul, signal,
      List.getD_eq_getElem _ _ hi]

/-- What a delay by `d` samples with feedback `fb` makes of a stream. -/
def delayed (d fb mix : K) (xs : List K) : List K :=
  (List.range xs.length).map fun n =>
    (1 - mix) * signal xs n + mix * wet (ideal d) fb (signal xs) n

/-! ## The two delays of `build_synth` -/

def SAMPLE_RATE : K := 48000

def make_delay (time_mult : K) : PsramDelay K (size (0.3 : K) SAMPLE_RATE) :=
  new 0.3 time_mult SAMPLE_RATE

/-- `delay_l` and `delay_r`. -/
inductive Channel
  | left
  | right

def Channel.time_mult : Channel → K
  | .left => 1
  | .right => 1.15

/-- The delay in samples a channel is set to. -/
def Channel.delay (ch : Channel) (control : MidiControl K) : K :=
  delaySamples control ch.time_mult SAMPLE_RATE

/-- The rings of both channels hold 14400 samples. -/
theorem size_eq : size (0.3 : K) SAMPLE_RATE = 14400 := by
  have hlen : (0.3 : K) * SAMPLE_RATE = ((14400 : ℕ) : K) := by norm_num [SAMPLE_RATE]
  rw [size, hlen, Nat.floor_natCast]

/-- They are not empty. -/
theorem size_pos : 0 < size (0.3 : K) SAMPLE_RATE := by
  rw [size_eq]
  norm_num

variable {ch : Channel} {control : MidiControl K}

/-- A channel plays the ring on every stream. -/
theorem channel_run (ch : Channel) (control : MidiControl K) (bs : List (List K)) :
    ∃ outs self', blocks control bs (make_delay ch.time_mult) = some (outs, self')
      ∧ outs.flatten = (List.range bs.flatten.length).map
          (mixed (control.get_cont slot.DELAY_MIX) (signal bs.flatten)
            (wet (ringRead (size (0.3 : K) SAMPLE_RATE) (ch.delay control))
              (control.get_cont slot.DELAY_FEEDBACK) (signal bs.flatten))) := by
  rw [List.range_eq_range']
  exact blocks_run size_pos (map_signal bs.flatten) rfl rfl
    (follows_new 0.3 ch.time_mult SAMPLE_RATE size_pos)

/-- The channel produces the delay it is set to: on every stream and however it
is split, nothing panics, and what comes out is the stream delayed. -/
def Produces (ch : Channel) (control : MidiControl K) : Prop :=
  ∀ bs : List (List K), ∃ outs self',
    blocks control bs (make_delay ch.time_mult) = some (outs, self')
      ∧ outs.flatten = delayed (ch.delay control) (control.get_cont slot.DELAY_FEEDBACK)
          (control.get_cont slot.DELAY_MIX) bs.flatten

/-- The echo of an impulse appears `d` samples later, spread over the two samples
around `d`, and nothing else does up to the samples around `2 * d`. -/
def Echoes (ch : Channel) (control : MidiControl K) : Prop :=
  ∀ (silence : ℕ) (bs : List (List K)), bs.flatten = 1 :: List.replicate silence 0 →
    ∃ outs self', blocks control bs (make_delay ch.time_mult) = some (outs, self')
      ∧ ∀ n ≤ silence, (n : ℤ) < 2 * ⌊ch.delay control⌋ → outs.flatten[n]?
          = some ((1 - control.get_cont slot.DELAY_MIX) * (if n = 0 then 1 else 0)
            + control.get_cont slot.DELAY_MIX * max 0 (1 - |(n : K) - ch.delay control|))

omit [LinearOrder K] [IsStrictOrderedRing K] [FloorRing K] in
/-- A one, and silence behind it. -/
theorem signal_impulse (silence : ℕ) :
    signal ((1 : K) :: List.replicate silence 0) = impulse := by
  funext n
  unfold signal impulse
  cases n with
  | zero => rfl
  | succ n =>
      rw [List.getD_cons_succ, if_neg (Nat.succ_ne_zero n), List.getD_eq_getElem?_getD,
        List.getElem?_replicate]
      split
      · rfl
      · rfl

/-- The ring produces the delay where it reads what the delay asks for. -/
theorem produces_of_range (h₁ : 1 ≤ ch.delay control)
    (hL : ch.delay control ≤ (size (0.3 : K) SAMPLE_RATE : K)) : Produces ch control := by
  intro bs
  obtain ⟨outs, self', hrun, hflat⟩ := channel_run ch control bs
  refine ⟨outs, self', hrun, ?_⟩
  have hsame : ringRead (size (0.3 : K) SAMPLE_RATE) (ch.delay control) = ideal (ch.delay control) := by
    funext n v line
    exact ringRead_eq h₁ hL n v line
  rw [hflat, hsame]
  apply List.map_congr_left
  intro n _
  unfold mixed
  ring

/-- A dry mix hides the ring. -/
theorem produces_of_dry (hmix : control.get_cont slot.DELAY_MIX = 0) : Produces ch control := by
  intro bs
  obtain ⟨outs, self', hrun, hflat⟩ := channel_run ch control bs
  refine ⟨outs, self', hrun, ?_⟩
  rw [hflat, hmix]
  apply List.map_congr_left
  intro n _
  unfold mixed
  ring

/-- Elsewhere an impulse shows the difference. -/
theorem not_produces (hmix : control.get_cont slot.DELAY_MIX ≠ 0) (h₀ : 0 ≤ ch.delay control)
    (hlong : ch.delay control + 1 < 2 * (size (0.3 : K) SAMPLE_RATE : K))
    (h : ¬ (1 ≤ ch.delay control ∧ ch.delay control ≤ (size (0.3 : K) SAMPLE_RATE : K))) :
    ¬ Produces ch control := by
  intro hproduces
  obtain ⟨n, hn, hne⟩ := wet_impulse_ne h₀ size_pos hlong h (control.get_cont slot.DELAY_FEEDBACK)
  -- one block, the impulse and `n` samples of silence
  obtain ⟨outs, self', hrun, hflat⟩ := channel_run ch control [(1 : K) :: List.replicate n 0]
  obtain ⟨outs', self'', hrun', hflat'⟩ := hproduces [(1 : K) :: List.replicate n 0]
  rw [hrun, Option.some.injEq, Prod.mk.injEq] at hrun'
  rw [← hrun'.1, hflat] at hflat'
  have hmem : n ∈ List.range ([(1 : K) :: List.replicate n 0].flatten).length := by
    simp
  have hsample := List.map_inj_left.mp hflat' n hmem
  rw [List.flatten_singleton, signal_impulse] at hsample
  apply hne
  apply mul_left_cancel₀ hmix
  unfold mixed at hsample
  linear_combination hsample

/-- What the delay makes of an impulse. -/
theorem echoes_of_produces (h₁ : 1 ≤ ch.delay control) (h : Produces ch control) :
    Echoes ch control := by
  intro silence bs hbs
  obtain ⟨outs, self', hrun, hflat⟩ := h bs
  refine ⟨outs, self', hrun, ?_⟩
  intro n hn hecho
  have hlt : n < bs.flatten.length := by
    rw [hbs, List.length_cons, List.length_replicate]
    omega
  rw [hflat, delayed, List.getElem?_map, List.getElem?_range hlt, Option.map_some, hbs,
    signal_impulse, ideal_impulse h₁ _ hecho]
  rfl

/-! ## The delay times of CC105 -/

open CcMap in
/-- CC105 sets the delay time to a part of the longest. -/
theorem cc_delay_time {value : UInt8} (hvalue : value ≤ 127) (p : Preset ℝ) :
    ∃ (p' : Preset ℝ) (t : ℝ),
      apply_cc CC_DELAY_TIME value p = .continuous p' (.cont slot.DELAY_TIME) t
        ∧ 0 ≤ t ∧ t ≤ MAX_DELAY_SECONDS := by
  have hle : ((value.toNat : ℕ) : ℝ) ≤ 127 := by exact_mod_cast UInt8.le_iff_toNat_le.mp hvalue
  have hnonneg : (0 : ℝ) ≤ ((value.toNat : ℕ) : ℝ) := Nat.cast_nonneg _
  refine ⟨_, _, rfl, ?_, ?_⟩
  · simp only [lin, MAX_DELAY_SECONDS, F32.lit_real, F32.ofU8_real]
    push_cast
    positivity
  · simp only [lin, MAX_DELAY_SECONDS, F32.lit_real, F32.ofU8_real]
    push_cast
    linarith

/-- The longest delay time of the editor. -/
theorem max_delay_seconds : (CcMap.MAX_DELAY_SECONDS : ℝ) = 0.3 := by
  rw [CcMap.MAX_DELAY_SECONDS, F32.lit_real]
  norm_num

/-- What CC105 can ask of a channel: less than two rings. -/
theorem channel_delay_bounds (ch : Channel) {control : MidiControl ℝ}
    (h₀ : 0 ≤ control.get_cont slot.DELAY_TIME)
    (h₁ : control.get_cont slot.DELAY_TIME ≤ CcMap.MAX_DELAY_SECONDS) :
    0 ≤ ch.delay control ∧ ch.delay control + 1 < 2 * (size (0.3 : ℝ) SAMPLE_RATE : ℝ) := by
  rw [max_delay_seconds] at h₁
  rw [size_eq]
  cases ch with
  | left =>
      norm_num [Channel.delay, delaySamples, Channel.time_mult, SAMPLE_RATE] at h₁ ⊢
      exact ⟨h₀, by linarith⟩
  | right =>
      norm_num [Channel.delay, delaySamples, Channel.time_mult, SAMPLE_RATE] at h₁ ⊢
      exact ⟨by linarith, by linarith⟩

/-- **The two delay channels.** For every delay time of CC105, every feedback and
every mix, a channel produces the delay it is set to exactly if the mix is dry
or the delay lies between one sample and the length of the ring. -/
theorem delay_iff (ch : Channel) (control : MidiControl ℝ)
    (h₀ : 0 ≤ control.get_cont slot.DELAY_TIME)
    (h₁ : control.get_cont slot.DELAY_TIME ≤ CcMap.MAX_DELAY_SECONDS) :
    (Produces ch control ↔ control.get_cont slot.DELAY_MIX = 0
        ∨ (1 ≤ ch.delay control ∧ ch.delay control ≤ (size (0.3 : ℝ) SAMPLE_RATE : ℝ)))
      ∧ (1 ≤ ch.delay control → Produces ch control → Echoes ch control) := by
  obtain ⟨hpos, hlong⟩ := channel_delay_bounds ch h₀ h₁
  refine ⟨?_, echoes_of_produces⟩
  constructor
  · intro hproduces
    by_cases hmix : control.get_cont slot.DELAY_MIX = 0
    · exact Or.inl hmix
    · by_cases hrange : 1 ≤ ch.delay control
          ∧ ch.delay control ≤ (size (0.3 : ℝ) SAMPLE_RATE : ℝ)
      · exact Or.inr hrange
      · exact absurd hproduces (not_produces hmix hpos hlong hrange)
  · rintro (hmix | ⟨hone, hlen⟩)
    · exact produces_of_dry hmix
    · exact produces_of_range hone hlen

/-- Controls with the delay time `t`, full feedback and nothing dry. -/
def delayControls (t : ℝ) : MidiControl ℝ where
  value a := if a = .cont slot.DELAY_TIME then t else 1
  gate := false
  gate_reset := false

theorem delayControls_time (t : ℝ) : (delayControls t).get_cont slot.DELAY_TIME = t := by
  simp [delayControls, MidiControl.get_cont]

theorem delayControls_mix (t : ℝ) : (delayControls t).get_cont slot.DELAY_MIX = 1 := by
  simp [delayControls, MidiControl.get_cont, slot.DELAY_MIX, slot.DELAY_TIME]

/-- Both channels produce a delay of 0.2 seconds. -/
theorem delay_iff_middle :
    Produces .left (delayControls 0.2) ∧ Produces .right (delayControls 0.2) := by
  have h₀ : 0 ≤ (delayControls 0.2).get_cont slot.DELAY_TIME := by
    rw [delayControls_time]
    norm_num
  have h₁ : (delayControls 0.2).get_cont slot.DELAY_TIME ≤ CcMap.MAX_DELAY_SECONDS := by
    rw [delayControls_time, max_delay_seconds]
    norm_num
  constructor
  · apply (delay_iff .left (delayControls 0.2) h₀ h₁).1.mpr (Or.inr _)
    rw [Channel.delay, delaySamples, delayControls_time, size_eq]
    norm_num [Channel.time_mult, SAMPLE_RATE]
  · apply (delay_iff .right (delayControls 0.2) h₀ h₁).1.mpr (Or.inr _)
    rw [Channel.delay, delaySamples, delayControls_time, size_eq]
    norm_num [Channel.time_mult, SAMPLE_RATE]

/-- At the longest delay time the right channel does not. -/
theorem delay_right_longest :
    ¬ ∀ (ch : Channel) (control : MidiControl ℝ), 0 ≤ control.get_cont slot.DELAY_TIME →
      control.get_cont slot.DELAY_TIME ≤ CcMap.MAX_DELAY_SECONDS → Produces ch control := by
  intro hclaim
  have hdelay : Channel.right.delay (delayControls 0.3) = 16560 := by
    rw [Channel.delay, delaySamples, delayControls_time]
    norm_num [Channel.time_mult, SAMPLE_RATE]
  have hmix : (delayControls 0.3).get_cont slot.DELAY_MIX ≠ 0 := by
    rw [delayControls_mix]
    exact one_ne_zero
  apply not_produces hmix _ _ _ (hclaim .right (delayControls 0.3) _ _)
  · rw [hdelay]
    norm_num
  · rw [hdelay, size_eq]
    norm_num
  · rw [hdelay, size_eq]
    norm_num
  · rw [delayControls_time]
    norm_num
  · rw [delayControls_time, max_delay_seconds]

end PsramDelay

end PicoDsp
