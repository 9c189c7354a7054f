/-
How loud the echoes of the delay in PSRAM get (`dsp/psram_delay.rs`).

An echo is a mix of two entries of the ring, whatever the delay is set to, so it is never
louder than the loudest entry; and an entry is the input and a part of an echo. With a
feedback that stays below one the echoes are bounded by the geometric series. The time,
the feedback and the mix may move from block to block; only the bound on the feedback
enters.

The bound is on the entries of the ring and not on the line that it stands for
(`Below`). With a delay time that jumps there is no such line: the ring is read at places
that were written under other settings. What remains is that a read is a mix of two
entries (`sample_eq`), and that one sample keeps the bound (`sample_below`).

That the bound cannot be dropped is shown by the other half. At full feedback, which CC106
reaches at 127, an input of one builds up turn by turn: after `q` turns no entry of
the ring is below `q` (`Risen`, `sample_risen`). The reader interpolates, but between
two entries that are loud enough it cannot find a quieter one (`le_between`). So a bound
exists exactly below full feedback (`bounded_iff_feedback`).
-/
import PicoDsp.Dsp.PsramDelay
import PicoDsp.Lib.Stable

set_option autoImplicit false

namespace PicoDsp.PsramDelay

open Lib

variable {K : Type} [Field K] [LinearOrder K] [IsStrictOrderedRing K] [FloorRing K]

section

variable {len : ℕ}

/-- A stream of blocks, each with the controls it finds. -/
def stream : List (MidiControl K × List K) → PsramDelay K len →
    Option (List (List K) × PsramDelay K len)
  | [], self => some ([], self)
  | (control, buffer) :: rest, self => do
      let (out, self) ← process control buffer self
      let (outs, self) ← stream rest self
      pure (out :: outs, self)

/-- No entry of the ring is louder than `M`. -/
def Below (M : K) (self : PsramDelay K len) : Prop :=
  ∀ (i : ℕ) (h : i < len), |self.buffer.get ⟨i, h⟩| ≤ M

/-- A feedback of at most `φ`, and a mix. -/
structure Damped (φ : K) (control : MidiControl K) : Prop where
  feedback_nonneg : 0 ≤ control.get_cont slot.DELAY_FEEDBACK
  feedback_le : control.get_cont slot.DELAY_FEEDBACK ≤ φ
  mix_nonneg : 0 ≤ control.get_cont slot.DELAY_MIX
  mix_le : control.get_cont slot.DELAY_MIX ≤ 1

variable {self : PsramDelay K len} {M B φ fb mix x : K}

/-- **What a sample does**: the echo lies between two entries of the ring. -/
theorem sample_eq (hlen : 0 < len) (d fb mix x : K) (self : PsramDelay K len) :
    ∃ (i j : ℕ) (hi : i < len) (hj : j < len) (t echo : K), 0 ≤ t ∧ t ≤ 1
      ∧ echo = self.buffer.get ⟨i, hi⟩ * (1 - t) + self.buffer.get ⟨j, hj⟩ * t
      ∧ sample hlen d fb mix self x = some (x * (1 - mix) + echo * mix,
        ⟨self.buffer.set self.write_ptr (x + echo * fb) (self.write_ptr_lt hlen),
          (self.write_ptr + 1) % len, self.time_mult, self.sample_rate,
          fun h => Nat.mod_lt _ h⟩) := by
  have hlen_f : 0 < (len : K) := Nat.cast_pos.mpr hlen
  obtain ⟨hidx, hfrac⟩ := position ((self.write_ptr : K) - d) hlen_f
  have hmod : (⌊(self.write_ptr : K) - d⌋ % (len : ℤ)).toNat < len := by
    have hnonneg := Int.emod_nonneg ⌊(self.write_ptr : K) - d⌋ (by omega : (len : ℤ) ≠ 0)
    have hlt := Int.emod_lt_of_pos ⌊(self.write_ptr : K) - d⌋ (by omega : (0 : ℤ) < len)
    omega
  rw [hidx] at hfrac
  generalize (⌊(self.write_ptr : K) - d⌋ % (len : ℤ)).toNat = idx at hidx hfrac hmod
  have hnext : (idx + 1) % len < len := Nat.mod_lt _ hlen
  have hread : ∀ (i : ℕ) (hi : i < len), self.buffer[i]? = some (self.buffer.get ⟨i, hi⟩) :=
    fun i hi => Vector.getElem?_eq_getElem hi
  refine ⟨idx, (idx + 1) % len, hmod, hnext, Int.fract ((self.write_ptr : K) - d), _,
    Int.fract_nonneg _, (Int.fract_lt_one _).le, rfl, ?_⟩
  unfold sample
  simp only [hidx, hfrac, hread idx hmod, hread ((idx + 1) % len) hnext, Option.bind_eq_bind,
    Option.bind_some]
  rfl

omit [Field K] [LinearOrder K] [IsStrictOrderedRing K] [FloorRing K] in
/-- The entries after a write. -/
theorem get_set (self : PsramDelay K len) (hlen : 0 < len) (v : K) {i : ℕ} (hi : i < len) :
    (self.buffer.set self.write_ptr v (self.write_ptr_lt hlen)).get ⟨i, hi⟩
      = if self.write_ptr = i then v else self.buffer.get ⟨i, hi⟩ := by
  rw [Vector.get_eq_getElem, Vector.getElem_set]
  rfl

/-- **One sample**: what is written is not louder than what was there. -/
theorem sample_below (hlen : 0 < len) (d : K) (hx : |x| ≤ B) (hM : B + φ * M ≤ M) (hBM : B ≤ M)
    (hfb : 0 ≤ fb) (hφ : fb ≤ φ) (hmix : 0 ≤ mix) (hmix1 : mix ≤ 1) (h : self.Below M) :
    ∃ y self', sample hlen d fb mix self x = some (y, self') ∧ |y| ≤ M ∧ self'.Below M := by
  obtain ⟨i, j, hi, hj, t, echo, ht, ht1, hecho, hrun⟩ := sample_eq hlen d fb mix x self
  have hle : |echo| ≤ M := by
    rw [hecho]
    exact abs_between_le ht ht1 (h i hi) (h j hj)
  have hstore : |x + echo * fb| ≤ M := by
    refine (abs_add_le _ _).trans ((add_le_add hx ?_).trans hM)
    rw [abs_mul, abs_of_nonneg hfb, mul_comm]
    exact mul_le_mul hφ hle (abs_nonneg _) (hfb.trans hφ)
  refine ⟨_, _, hrun, abs_between_le hmix hmix1 (hx.trans hBM) hle, fun k hk => ?_⟩
  show |(self.buffer.set self.write_ptr _ (self.write_ptr_lt hlen)).get ⟨k, hk⟩| ≤ M
  rw [get_set self hlen]
  split
  · exact hstore
  · exact h k hk

/-- **One block.** -/
theorem samples_below (hlen : 0 < len) (d : K) {xs : List K} (hxs : ∀ x ∈ xs, |x| ≤ B)
    (hM : B + φ * M ≤ M) (hBM : B ≤ M) (hfb : 0 ≤ fb) (hφ : fb ≤ φ) (hmix : 0 ≤ mix)
    (hmix1 : mix ≤ 1) (h : self.Below M) :
    ∃ ys self', samples hlen d fb mix xs self = some (ys, self') ∧ (∀ y ∈ ys, |y| ≤ M)
      ∧ self'.Below M := by
  induction xs generalizing self with
  | nil => exact ⟨[], self, rfl, fun y hy => absurd hy List.not_mem_nil, h⟩
  | cons x xs ih =>
      rw [List.forall_mem_cons] at hxs
      obtain ⟨y, self₁, hrun, hy, hself₁⟩ :=
        sample_below hlen d hxs.1 hM hBM hfb hφ hmix hmix1 h
      obtain ⟨ys, self₂, hrun', hys, hself₂⟩ := ih hxs.2 hself₁
      refine ⟨y :: ys, self₂, ?_, List.forall_mem_cons.mpr ⟨hy, hys⟩, hself₂⟩
      rw [samples, hrun]
      simp only [Option.bind_eq_bind, Option.bind_some, hrun']
      rfl

/-- A block with controls of its own. -/
theorem process_below {control : MidiControl K} (hcontrol : Damped φ control) {xs : List K}
    (hxs : ∀ x ∈ xs, |x| ≤ B) (hM : B + φ * M ≤ M) (hBM : B ≤ M) (h : self.Below M) :
    ∃ ys self', process control xs self = some (ys, self') ∧ (∀ y ∈ ys, |y| ≤ M)
      ∧ self'.Below M := by
  unfold process
  split
  · rename_i hlen
    exact samples_below hlen _ hxs hM hBM hcontrol.feedback_nonneg hcontrol.feedback_le
      hcontrol.mix_nonneg hcontrol.mix_le h
  · exact ⟨xs, self, rfl, fun y hy => (hxs y hy).trans hBM, h⟩

/-- **A stream.** -/
theorem stream_below {bs : List (MidiControl K × List K)} (hbs : ∀ b ∈ bs, Damped φ b.1
    ∧ ∀ x ∈ b.2, |x| ≤ B) (hM : B + φ * M ≤ M) (hBM : B ≤ M) (h : self.Below M) :
    ∃ outs self', stream bs self = some (outs, self') ∧ ∀ out ∈ outs, ∀ y ∈ out, |y| ≤ M := by
  induction bs generalizing self with
  | nil => exact ⟨[], self, rfl, fun out hout => absurd hout List.not_mem_nil⟩
  | cons b bs ih =>
      rw [List.forall_mem_cons] at hbs
      obtain ⟨ys, self₁, hrun, hys, hself₁⟩ := process_below hbs.1.1 hbs.1.2 hM hBM h
      obtain ⟨outs, self₂, hrun', houts⟩ := ih hbs.2 hself₁
      refine ⟨ys :: outs, self₂, ?_, List.forall_mem_cons.mpr ⟨hys, houts⟩⟩
      rw [stream, hrun]
      simp only [Option.bind_eq_bind, Option.bind_some, hrun']
      rfl

/-! ## Full feedback -/

/-- The ring after `q` turns and `r` samples of a constant input of one. -/
structure Risen (q r : ℕ) (delay : PsramDelay K len) : Prop where
  head : delay.write_ptr = r
  head_lt : r < len
  written : ∀ (i : ℕ) (h : i < len), i < r → (q : K) + 1 ≤ delay.buffer.get ⟨i, h⟩
  entries : ∀ (i : ℕ) (h : i < len), (q : K) ≤ delay.buffer.get ⟨i, h⟩

omit [FloorRing K] in
/-- Between two numbers that are at least `m` there is none below it. -/
theorem le_between {a b t m : K} (ht : 0 ≤ t) (ht1 : t ≤ 1) (ha : m ≤ a) (hb : m ≤ b) :
    m ≤ a * (1 - t) + b * t := by
  have hfirst := mul_le_mul_of_nonneg_right ha (sub_nonneg.mpr ht1)
  have hsecond := mul_le_mul_of_nonneg_right hb ht
  linarith

/-- **One sample** adds one to the quietest echo there can be. -/
theorem sample_risen (hlen : 0 < len) (d : K) {q r : ℕ} (hmix : 0 ≤ mix) (hmix1 : mix ≤ 1)
    (h : self.Risen q r) :
    ∃ y self' q' r', sample hlen d 1 mix self 1 = some (y, self') ∧ (q : K) * mix ≤ y
      ∧ self'.Risen q' r' ∧ q' * len + r' = q * len + r + 1 := by
  obtain ⟨i, j, hi, hj, t, echo, ht, ht1, hecho, hrun⟩ := sample_eq hlen d 1 mix 1 self
  obtain ⟨hhead, hr, hwritten, hentries⟩ := h
  have hle : (q : K) ≤ echo := by
    rw [hecho]
    exact le_between ht ht1 (hentries i hi) (hentries j hj)
  -- what is heard is the echo, of height `q` at least, mixed with the input of 1
  have hout : (q : K) * mix ≤ 1 * (1 - mix) + echo * mix := by
    have hmul := mul_le_mul_of_nonneg_right hle hmix
    linarith
  -- one entry is new, and the others are what they were
  have hget : ∀ (k : ℕ) (hk : k < len),
      (self.buffer.set self.write_ptr (1 + echo * 1) (self.write_ptr_lt hlen)).get ⟨k, hk⟩
        = if r = k then 1 + echo * 1 else self.buffer.get ⟨k, hk⟩ := by
    intro k hk
    rw [get_set self hlen, hhead]
  -- the turn goes on, or this was its last entry
  rcases Nat.lt_or_ge (r + 1) len with hmore | hturn
  · refine ⟨_, _, q, r + 1, hrun, hout, ⟨?_, hmore, fun k hk hkr => ?_, fun k hk => ?_⟩, rfl⟩
    · show (self.write_ptr + 1) % len = r + 1
      rw [hhead, Nat.mod_eq_of_lt hmore]
    · show _ ≤ (self.buffer.set self.write_ptr _ (self.write_ptr_lt hlen)).get ⟨k, hk⟩
      rw [hget]
      split
      · linarith
      · exact hwritten k hk (by omega)
    · show _ ≤ (self.buffer.set self.write_ptr _ (self.write_ptr_lt hlen)).get ⟨k, hk⟩
      rw [hget]
      split
      · linarith
      · exact hentries k hk
  · -- the turn is over: all entries are new
    have hlast : r + 1 = len := by omega
    refine ⟨_, _, q + 1, 0, hrun, hout, ⟨?_, hlen, fun k hk hkr => absurd hkr (Nat.not_lt_zero k),
      fun k hk => ?_⟩, ?_⟩
    · show (self.write_ptr + 1) % len = 0
      rw [hhead, hlast, Nat.mod_self]
    · show _ ≤ (self.buffer.set self.write_ptr _ (self.write_ptr_lt hlen)).get ⟨k, hk⟩
      rw [hget]
      push_cast
      split
      · linarith
      · exact hwritten k hk (by omega)
    · rw [Nat.succ_mul]
      omega

/-- **A constant input builds up**, turn by turn. -/
theorem samples_risen (hlen : 0 < len) (d : K) {q r : ℕ} (hmix : 0 ≤ mix) (hmix1 : mix ≤ 1)
    (h : self.Risen q r) (n : ℕ) :
    ∃ ys self' q' r', samples hlen d 1 mix (List.replicate n 1) self = some (ys, self')
      ∧ self'.Risen q' r' ∧ q' * len + r' = q * len + r + n := by
  induction n generalizing self q r with
  | zero => exact ⟨[], self, q, r, rfl, h, rfl⟩
  | succ n ih =>
      obtain ⟨y, self₁, q₁, r₁, hrun, -, h₁, hcount⟩ := sample_risen hlen d hmix hmix1 h
      obtain ⟨ys, self₂, q₂, r₂, hrun', h₂, hcount'⟩ := ih h₁
      refine ⟨y :: ys, self₂, q₂, r₂, ?_, h₂, by omega⟩
      rw [List.replicate_succ, samples, hrun]
      simp only [Option.bind_eq_bind, Option.bind_some, hrun']
      rfl

end

/-! ## The two delays of the synth -/

section

variable {B φ M : K}

omit [LinearOrder K] [IsStrictOrderedRing K] [FloorRing K] in
/-- The entries of a new ring. -/
theorem get_new {n : ℕ} {i : ℕ} (h : i < n) : (Vector.replicate n (0 : K)).get ⟨i, h⟩ = 0 := by
  rw [Vector.get_eq_getElem, Vector.getElem_replicate]

/-- A new delay is silent. -/
theorem make_delay_below (time_mult : K) (hM : 0 ≤ M) : (make_delay time_mult).Below M := by
  intro i h
  show |(Vector.replicate _ (0 : K)).get ⟨i, h⟩| ≤ M
  rw [get_new, abs_zero]
  exact hM

/-- And nothing has built up in it. -/
theorem make_delay_risen (time_mult : K) : (make_delay time_mult).Risen 0 0 := by
  refine ⟨rfl, size_pos, fun i h hi => absurd hi (Nat.not_lt_zero i), fun i h => ?_⟩
  show _ ≤ (Vector.replicate _ (0 : K)).get ⟨i, h⟩
  rw [get_new, Nat.cast_zero]

omit [FloorRing K] in
/-- The sum of the geometric series. -/
theorem series_le (hφ₀ : 0 ≤ φ) (hφ : φ < 1) (hB : 0 ≤ B) :
    B + φ * (B / (1 - φ)) ≤ B / (1 - φ) ∧ B ≤ B / (1 - φ) ∧ 0 ≤ B / (1 - φ) := by
  have hpos : 0 < 1 - φ := sub_pos.mpr hφ
  have hsum : B + φ * (B / (1 - φ)) = B / (1 - φ) := by
    field_simp
    ring
  have hnonneg : 0 ≤ B / (1 - φ) := div_nonneg hB hpos.le
  refine ⟨hsum.le, ?_, hnonneg⟩
  have hpart := mul_nonneg hφ₀ hnonneg
  linarith

/-- **The echoes stay bounded.** Whatever the delay time does from block to block, with a
feedback of at most `φ` below one nothing panics, and nothing comes out above `B / (1 - φ)`. -/
theorem echoes_bounded (ch : Channel) (hφ₀ : 0 ≤ φ) (hφ : φ < 1) (hB : 0 ≤ B)
    {bs : List (MidiControl K × List K)}
    (hbs : ∀ b ∈ bs, Damped φ b.1 ∧ ∀ x ∈ b.2, |x| ≤ B) :
    ∃ outs self', stream bs (make_delay ch.time_mult) = some (outs, self')
      ∧ ∀ out ∈ outs, ∀ y ∈ out, |y| ≤ B / (1 - φ) := by
  obtain ⟨hsum, hle, hnonneg⟩ := series_le hφ₀ hφ hB
  exact stream_below hbs hsum hle (make_delay_below _ hnonneg)

/-- Two blocks between which the delay time jumps, at half feedback. -/
theorem echoes_bounded_jump : ∃ outs self',
    stream [(⟨fun _ => 1 / 2, true, false⟩, [1, -1]), (⟨fun _ => 1 / 4, true, false⟩, [1])]
        (make_delay Channel.right.time_mult) = some (outs, self')
      ∧ ∀ out ∈ outs, ∀ y ∈ out, |y| ≤ (1 : ℚ) / (1 - 1 / 2) := by
  refine echoes_bounded Channel.right (by norm_num) (by norm_num) (by norm_num) ?_
  simp only [List.mem_cons, List.not_mem_nil, or_false, forall_eq_or_imp, forall_eq]
  refine ⟨⟨⟨?_, ?_, ?_, ?_⟩, ?_, ?_⟩, ⟨?_, ?_, ?_, ?_⟩, ?_⟩
  all_goals decide +kernel

variable {control : MidiControl K} {len : ℕ} {self : PsramDelay K len}

/-- Blocks on the same controls. -/
theorem blocks_eq_stream (control : MidiControl K) (bs : List (List K))
    (self : PsramDelay K len) : blocks control bs self = stream (bs.map fun b => (control, b)) self := by
  induction bs generalizing self with
  | nil => rfl
  | cons b bs ih =>
      rw [blocks, List.map_cons, stream]
      simp only [ih]

/-- **Full feedback has no bound**: after `k` turns of silence in the ring have been filled with
ones, an echo is `k` times as loud as the input. -/
theorem builds_up (ch : Channel) (hfb : control.get_cont slot.DELAY_FEEDBACK = 1)
    (hmix : 0 ≤ control.get_cont slot.DELAY_MIX) (hmix1 : control.get_cont slot.DELAY_MIX ≤ 1)
    (k : ℕ) : ∃ ys y self', blocks control
        [List.replicate (k * size (0.3 : K) SAMPLE_RATE) 1, [1]] (make_delay ch.time_mult)
          = some ([ys, [y]], self')
      ∧ (k : K) * control.get_cont slot.DELAY_MIX ≤ y := by
  obtain ⟨ys, self₁, q, r, hrun, hrisen, hcount⟩ := samples_risen size_pos
    (control.get_cont slot.DELAY_TIME * (make_delay ch.time_mult).time_mult
      * (make_delay ch.time_mult).sample_rate) hmix hmix1 (make_delay_risen ch.time_mult)
    (k * size (0.3 : K) SAMPLE_RATE)
  -- whole turns
  have hq : q = k := by
    have hr := hrisen.head_lt
    rw [Nat.zero_mul, Nat.zero_add] at hcount
    have hdiv := congrArg (· / size (0.3 : K) SAMPLE_RATE) hcount
    rw [Nat.mul_div_cancel _ size_pos, Nat.mul_comm, Nat.mul_add_div size_pos,
      Nat.div_eq_of_lt hr, Nat.add_zero] at hdiv
    exact hdiv
  obtain ⟨y, self₂, q', r', hrun', hy, -, -⟩ := sample_risen size_pos
    (control.get_cont slot.DELAY_TIME * self₁.time_mult * self₁.sample_rate) hmix hmix1 hrisen
  refine ⟨ys, y, self₂, ?_, hq ▸ hy⟩
  have hfirst : process control (List.replicate (k * size (0.3 : K) SAMPLE_RATE) 1)
      (make_delay ch.time_mult) = some (ys, self₁) := by
    rw [process, dif_pos size_pos, hfb]
    exact hrun
  have hsecond : process control [1] self₁ = some ([y], self₂) := by
    rw [process, dif_pos size_pos, hfb]
    simp only [samples, hrun', Option.bind_eq_bind, Option.bind_some]
    rfl
  simp only [blocks, hfirst, hsecond, Option.bind_eq_bind, Option.bind_some]
  rfl

/-- **Where the echoes have a bound**: exactly below full feedback, which the editor can set.
At full feedback the ring gives back all that it gets, and an input of one turn after
the other piles up in it. -/
theorem bounded_iff_feedback (ch : Channel) (hcontrol : Damped 1 control)
    (hmix : 0 < control.get_cont slot.DELAY_MIX) :
    (∃ M, ∀ bs : List (List K), (∀ xs ∈ bs, ∀ x ∈ xs, |x| ≤ 1) →
        ∃ outs self', blocks control bs (make_delay ch.time_mult) = some (outs, self')
          ∧ ∀ out ∈ outs, ∀ y ∈ out, |y| ≤ M)
      ↔ control.get_cont slot.DELAY_FEEDBACK < 1 := by
  constructor
  · rintro ⟨M, hM⟩
    refine lt_of_le_of_ne hcontrol.feedback_le fun hfb => ?_
    -- at full feedback each turn of the ring adds one to the echo
    obtain ⟨k, hk⟩ := exists_nat_gt (M / control.get_cont slot.DELAY_MIX)
    obtain ⟨ys, y, self₁, hrun, hy⟩ := builds_up ch hfb hmix.le hcontrol.mix_le k
    obtain ⟨outs, self₂, hrun', houts⟩ := hM
      [List.replicate (k * size (0.3 : K) SAMPLE_RATE) 1, [1]] (by
        intro xs hxs x hx
        have hone : x = 1 := by
          simp only [List.mem_cons, List.not_mem_nil, or_false] at hxs
          rcases hxs with rfl | rfl
          · exact List.eq_of_mem_replicate hx
          · exact List.mem_singleton.mp hx
        rw [hone, abs_one])
    rw [hrun, Option.some.injEq, Prod.mk.injEq] at hrun'
    obtain ⟨rfl, -⟩ := hrun'
    have hle := (le_abs_self y).trans
      (houts [y] (List.mem_cons_of_mem _ List.mem_cons_self) y List.mem_cons_self)
    rw [div_lt_iff₀ hmix] at hk
    linarith
  · intro hfb
    -- below it the echoes of an input of 1 add up to a geometric series
    refine ⟨1 / (1 - control.get_cont slot.DELAY_FEEDBACK), fun bs hbs => ?_⟩
    obtain ⟨hsum, hle, hnonneg⟩ := series_le hcontrol.feedback_nonneg hfb (zero_le_one' K)
    rw [blocks_eq_stream]
    refine stream_below ?_ hsum hle (make_delay_below _ hnonneg)
    intro b hb
    obtain ⟨xs, hxs, rfl⟩ := List.mem_map.mp hb
    exact ⟨⟨hcontrol.feedback_nonneg, le_refl _, hcontrol.mix_nonneg, hcontrol.mix_le⟩,
      hbs xs hxs⟩

/-- All the way up. -/
theorem bounded_iff_feedback_full :
    ¬ ∃ M, ∀ bs : List (List ℚ), (∀ xs ∈ bs, ∀ x ∈ xs, |x| ≤ 1) →
        ∃ outs self', blocks ⟨fun _ => 1, true, false⟩ bs (make_delay Channel.left.time_mult)
            = some (outs, self')
          ∧ ∀ out ∈ outs, ∀ y ∈ out, |y| ≤ M := by
  intro hM
  have hcontrol : Damped 1 (⟨fun _ => (1 : ℚ), true, false⟩ : MidiControl ℚ) :=
    ⟨by decide +kernel, by decide +kernel, by decide +kernel, by decide +kernel⟩
  have hmix : (0 : ℚ) < (⟨fun _ => 1, true, false⟩ : MidiControl ℚ).get_cont slot.DELAY_MIX := by
    decide +kernel
  have hlt := (bounded_iff_feedback Channel.left hcontrol hmix).mp hM
  exact absurd hlt (by decide +kernel)

end

end PicoDsp.PsramDelay
