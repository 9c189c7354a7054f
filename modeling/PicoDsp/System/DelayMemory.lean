/-
The memory of the delay lines: the bump allocator of `psram.rs` and `core1_task`,
which rewinds it before every rebuild.

The allocator does not know which of its slices are in use. They are the ones of the
voice and of the `build_synth` that is going on (`live`), and what makes the rewind
safe is where core1 is: the old voice has been dropped by then and no ring of the new
one is there yet. The rest of the system may change the statics in between.

A slice is a `&'static mut [f32]` over raw memory in the source, so nothing but this
argument stands between two voices that write to one ring. The model keeps the bytes of
the address space: an allocation clears them, a sample of a running voice is stored
anywhere inside of its rings, and a ring is fresh when it holds zeros.

`Kept` is the invariant: the slices in use are stacked between the base and the bump
pointer (`Lib/BumpHeap.lean`), never more than two rings high, and there are rings
without a voice only inside of `build_synth`. Its step lemma goes through the stages of
`build_synth` (`Kept.build`), the reception of a preset, which drops the voice
(`Kept.receive`), and the remaining accesses (`Kept.access`). The assertions of the
allocator are steps that do not exist, so that core1 always has a next step says that
none of them fails.

The witness of the result walks through a whole rebuild with noise in the memory:
core1 builds a voice, plays a block, receives a preset, rewinds, and has two fresh rings.
-/
import PicoDsp.Dsp.PsramDelay
import PicoDsp.Lib.BumpHeap
import PicoDsp.Lib.Transition
import PicoDsp.System.Core1

set_option autoImplicit false

namespace PicoDsp

open Lib Transition

/-! ## The allocator -/

/-- A region of the address space; its end is an address too. -/
structure PsramRegion where
  base : ℕ
  size : ℕ
  fits : base + size < 2 ^ 32

/-- The allocator's statics, and the bytes of the address space. -/
structure Psram where
  ALLOC_BASE : ℕ
  ALLOC_NEXT : ℕ
  ALLOC_END : ℕ
  bytes : Bytes

/-- `&'static mut [f32]` -/
structure Slice where
  start : ℕ
  len : ℕ
  deriving DecidableEq

/-- The bytes of a slice. -/
def Slice.block (s : Slice) : MemBlock := ⟨s.start, s.len * 4⟩

namespace Psram

def init_alloc (region : PsramRegion) (bytes : Bytes) : Psram where
  ALLOC_BASE := region.base
  ALLOC_NEXT := region.base
  ALLOC_END := (region.base + region.size) % 2 ^ 32
  bytes := bytes

def reset_alloc (self : Psram) : Psram := { self with ALLOC_NEXT := self.ALLOC_BASE }

/-- `alloc_f32_slice`; `none` when one of its assertions fails. -/
def alloc_f32_slice (len : ℕ) (self : Psram) : Option (Slice × Psram) :=
  let bytes := len * 4 % 2 ^ 32
  let start := self.ALLOC_NEXT
  let self := { self with ALLOC_NEXT := (start + bytes) % 2 ^ 32 }
  if start = 0 then none
  else if self.ALLOC_END < (start + bytes) % 2 ^ 32 then none
  else
    let slice : Slice := ⟨start, len⟩
    some (slice, { self with bytes := self.bytes.clear slice.block })

end Psram

/-- The length of the ring that `PsramDelay::new` allocates. -/
def ring_len : ℕ := PsramDelay.size (0.3 : ℚ) PsramDelay.SAMPLE_RATE

/-- 0.3 s at the rate of the device. -/
theorem ring_len_eq : ring_len = 14400 := PsramDelay.size_eq

/-! ## The task -/

/-- Where `build_synth` is, once `new_moog_voice` has stored its live controls. -/
inductive Stage
  /-- `reset_alloc()` is next. -/
  | voiced
  /-- `make_delay(1.0)` is next. -/
  | rewound
  /-- `make_delay(1.15)` is next. -/
  | left (delay_l : Slice)
  /-- The chain is put together and becomes the voice. -/
  | right (delay_l delay_r : Slice)

/-- The slices that `build_synth` holds. -/
def Stage.slices : Stage → List Slice
  | .voiced | .rewound => []
  | .left delay_l => [delay_l]
  | .right delay_l delay_r => [delay_r, delay_l]

/-- core1 with the statics of the system and the PSRAM; the voice as the rings of its
two delays. -/
structure DelayMemory (F : Type) where
  sh : Shared F
  core1 : Core1 F
  stage : Stage
  synth : Option (Slice × Slice)
  psram : Psram

namespace DelayMemory

variable {F : Type}

def synthSlices (synth : Option (Slice × Slice)) : List Slice :=
  synth.elim [] fun rings => [rings.2, rings.1]

/-- The slices in use. -/
def live (s : DelayMemory F) : List Slice := s.stage.slices ++ synthSlices s.synth

/-- The ring of a channel. -/
def ring (right : Bool) (rings : Slice × Slice) : Slice := if right then rings.2 else rings.1

/-- What can happen next. -/
inductive Act (F : Type)
  /-- core1 goes on. -/
  | core1
  /-- `synth.process` stores a sample in a ring. -/
  | store (right : Bool) (idx : ℕ) (sample : Vector UInt8 4)
  /-- Another task changes the statics. -/
  | others (sh : Shared F)

variable [F32 F]

/-- core1 makes its next access and leaves the PSRAM alone. -/
def access (s : DelayMemory F) : DelayMemory F :=
  { s with sh := (Core1.step s.sh s.core1).1, core1 := (Core1.step s.sh s.core1).2 }

/-- The rest of `build_synth`. -/
def build (s : DelayMemory F) : Option (DelayMemory F) :=
  match s.stage with
  | .voiced => some { s with stage := .rewound, psram := s.psram.reset_alloc }
  | .rewound => do
      let (delay_l, psram) ← s.psram.alloc_f32_slice ring_len
      pure { s with stage := .left delay_l, psram := psram }
  | .left delay_l => do
      let (delay_r, psram) ← s.psram.alloc_f32_slice ring_len
      pure { s with stage := .right delay_l delay_r, psram := psram }
  | .right delay_l delay_r =>
      some { s.access with stage := .voiced, synth := some (delay_l, delay_r) }

/-- One step; core1 has none when an assertion of the allocator fails. -/
def step (s : DelayMemory F) : Act F → Option (DelayMemory F)
  | .core1 =>
      match s.core1.pc with
      | .building _ [] => s.build
      | .receive =>
          -- `synth.take()` when a preset was received
          some { s.access with
            synth := if s.sh.preset_channel.try_receive.isSome then none else s.synth }
      | _ => some s.access
  | .store right idx sample =>
      match s.core1.pc, s.synth with
      | .process, some rings =>
          if idx < (ring right rings).len then
            let start := (ring right rings).start + 4 * idx
            some { s with psram :=
              { s.psram with bytes := s.psram.bytes.store start sample } }
          else none
      | _, _ => none
  | .others sh => some { s with sh := sh }

/-- `core1_task` is started after `init_alloc`. -/
def start (region : PsramRegion) (bytes : Bytes) (sh : Shared F) (initial_preset : Preset F) :
    DelayMemory F where
  sh := sh
  core1 := Core1.start initial_preset
  stage := .voiced
  synth := none
  psram := Psram.init_alloc region bytes

/-! ## What an allocation does -/

/-- An allocation below the end of the region succeeds. -/
theorem alloc_run {psram : Psram} {len : ℕ} (hstart : psram.ALLOC_NEXT ≠ 0)
    (hroom : psram.ALLOC_NEXT + len * 4 ≤ psram.ALLOC_END) (hend : psram.ALLOC_END < 2 ^ 32) :
    psram.alloc_f32_slice len = some (⟨psram.ALLOC_NEXT, len⟩,
      { psram with
        ALLOC_NEXT := psram.ALLOC_NEXT + len * 4
        bytes := psram.bytes.clear ⟨psram.ALLOC_NEXT, len * 4⟩ }) := by
  have hbytes : len * 4 % 2 ^ 32 = len * 4 := Nat.mod_eq_of_lt (by omega)
  have hnext : (psram.ALLOC_NEXT + len * 4) % 2 ^ 32 = psram.ALLOC_NEXT + len * 4 :=
    Nat.mod_eq_of_lt (by omega)
  unfold Psram.alloc_f32_slice
  simp only [hbytes, hnext]
  rw [if_neg hstart, if_neg (Nat.not_lt.mpr hroom)]
  rfl

/-! ## The invariant -/

/-- Where the bump pointer is while the rings are being allocated, and that the rings
are fresh. -/
def Staged (region : PsramRegion) (psram : Psram) : Stage → Prop
  | .voiced => True
  | .rewound => psram.ALLOC_NEXT = region.base
  | .left delay_l =>
      psram.ALLOC_NEXT = region.base + ring_len * 4 ∧ delay_l.len = ring_len
        ∧ psram.bytes.Zero delay_l.block
  | .right delay_l delay_r =>
      delay_l.len = ring_len ∧ delay_r.len = ring_len
        ∧ psram.bytes.Zero delay_l.block ∧ psram.bytes.Zero delay_r.block

/-- Between the last access to the live controls and the new voice. -/
def Building (s : DelayMemory F) : Prop := ∃ p, s.core1.pc = .building p []

/-- The rings in use lie between the base and the bump pointer, which never is further
than two rings; only in `build_synth` are there rings that no voice has. -/
structure Kept (region : PsramRegion) (s : DelayMemory F) : Prop where
  base : s.psram.ALLOC_BASE = region.base
  limit : s.psram.ALLOC_END = region.base + region.size
  stacked : Stacked 4 region.base s.psram.ALLOC_NEXT (s.live.map Slice.block)
  room : s.psram.ALLOC_NEXT ≤ region.base + 2 * (ring_len * 4)
  staged : Staged region s.psram s.stage
  dropped : s.core1.pc.pending.isSome → s.synth = none
  outside : ¬ Building s → s.stage = .voiced

section Steps

variable {region : PsramRegion} {s : DelayMemory F}

/-- A rebuild is going on. -/
theorem pending_of_building {p : Preset F} (h : s.core1.pc = .building p []) :
    s.core1.pc.pending.isSome := by
  rw [h]
  rfl

/-- No slice is in use where the allocator is rewound. -/
theorem Kept.live_rewound (h : Kept region s) (hb : Building s) (hstage : s.stage.slices = []) :
    s.live = [] := by
  obtain ⟨p, hp⟩ := hb
  rw [live, hstage, h.dropped (pending_of_building hp)]
  rfl

/-- The end of the region is an address. -/
theorem Kept.end_lt (h : Kept region s) : s.psram.ALLOC_END < 2 ^ 32 := by
  rw [h.limit]
  exact region.fits

/-- One ring is allocated on top of the slices in use. -/
theorem Kept.alloc (h : Kept region s) (hbase : region.base ≠ 0)
    (hroom : 2 * (ring_len * 4) ≤ region.size)
    (hnext : s.psram.ALLOC_NEXT ≤ region.base + ring_len * 4) :
    s.psram.alloc_f32_slice ring_len = some (⟨s.psram.ALLOC_NEXT, ring_len⟩,
      { s.psram with
        ALLOC_NEXT := s.psram.ALLOC_NEXT + ring_len * 4
        bytes := s.psram.bytes.clear ⟨s.psram.ALLOC_NEXT, ring_len * 4⟩ }) := by
  have hle := h.stacked.le
  have hlimit := h.limit
  exact alloc_run (by omega) (by omega) h.end_lt

/-- While the rings are allocated there is no voice. -/
theorem Kept.none_playing (h : Kept region s) (hb : Building s) : s.synth = none := by
  obtain ⟨p, hp⟩ := hb
  exact h.dropped (pending_of_building hp)

/-- Rewinding frees what no voice holds any more. -/
theorem Kept.rewind (h : Kept region s) (hb : Building s) (halign : 4 ∣ region.base) :
    Kept region { s with stage := .rewound, psram := s.psram.reset_alloc } := by
  have hnone := h.none_playing hb
  refine ⟨h.base, h.limit, ?_, ?_, h.base, fun _ => hnone, fun hnot => absurd hb hnot⟩
  · have hempty : (live { s with stage := .rewound, psram := s.psram.reset_alloc }) = [] := by
      rw [live, hnone]
      rfl
    rw [hempty]
    show Stacked 4 region.base s.psram.ALLOC_BASE []
    rw [h.base]
    exact Stacked.nil (le_refl _) halign
  · show s.psram.ALLOC_BASE ≤ _
    rw [h.base]
    exact Nat.le_add_right _ _

/-- A ring more, on top of the slices in use. -/
theorem Kept.push (h : Kept region s) (hb : Building s)
    (hnext : s.psram.ALLOC_NEXT ≤ region.base + ring_len * 4) {stage : Stage} {bytes : Bytes}
    (hslices : stage.slices = ⟨s.psram.ALLOC_NEXT, ring_len⟩ :: s.stage.slices)
    (hstaged : Staged region
      { s.psram with ALLOC_NEXT := s.psram.ALLOC_NEXT + ring_len * 4, bytes := bytes } stage) :
    Kept region { s with
      stage := stage
      psram := { s.psram with ALLOC_NEXT := s.psram.ALLOC_NEXT + ring_len * 4, bytes := bytes } } := by
  have hfour : 4 ∣ ring_len * 4 := Nat.dvd_mul_left 4 ring_len
  refine ⟨h.base, h.limit, ?_, ?_, hstaged, fun _ => h.none_playing hb,
    fun hnot => absurd hb hnot⟩
  · show Stacked 4 region.base (s.psram.ALLOC_NEXT + ring_len * 4)
      ((stage.slices ++ synthSlices s.synth).map Slice.block)
    rw [hslices]
    exact h.stacked.push hfour
  · show s.psram.ALLOC_NEXT + ring_len * 4 ≤ _
    omega

/-- The voice takes the rings over, and no rebuild goes on. -/
theorem Kept.finish (h : Kept region s) (hb : Building s) {delay_l delay_r : Slice}
    (hstage : s.stage = .right delay_l delay_r) :
    Kept region { s.access with stage := .voiced, synth := some (delay_l, delay_r) } := by
  have hstacked := h.stacked
  refine ⟨h.base, h.limit, ?_, h.room, trivial, ?_, fun _ => rfl⟩
  · rw [live, hstage, h.none_playing hb] at hstacked
    exact hstacked
  · obtain ⟨p, hp⟩ := hb
    intro hpending
    have hpc : (Core1.step s.sh s.core1).2.pc
        = if s.sh.core1_running then .process else .announce := by
      unfold Core1.step
      rw [hp]
    have hsome : (Core1.step s.sh s.core1).2.pc.pending.isSome = true := hpending
    rw [hpc] at hsome
    split at hsome
    · cases hsome
    · cases hsome

/-- `build_synth` goes on, and keeps the memory in order. -/
theorem Kept.build (h : Kept region s) (hb : Building s) (hbase : region.base ≠ 0)
    (halign : 4 ∣ region.base) (hroom : 2 * (ring_len * 4) ≤ region.size) :
    ∃ s', s.build = some s' ∧ Kept region s' := by
  have hstaged := h.staged
  unfold DelayMemory.build
  cases hstage : s.stage with
  | voiced => exact ⟨_, rfl, h.rewind hb halign⟩
  | rewound =>
      rw [hstage] at hstaged
      have hnext : s.psram.ALLOC_NEXT = region.base := hstaged
      simp only [h.alloc hbase hroom (by omega)]
      refine ⟨_, rfl, h.push hb (by omega) (by rw [hstage]; rfl) ⟨?_, rfl, Bytes.zero_clear _ _⟩⟩
      show s.psram.ALLOC_NEXT + ring_len * 4 = _
      rw [hnext]
  | left delay_l =>
      rw [hstage] at hstaged
      obtain ⟨hnext, hlen, hzero⟩ := hstaged
      simp only [h.alloc hbase hroom (by omega)]
      exact ⟨_, rfl, h.push hb (by omega) (by rw [hstage]; rfl)
        ⟨hlen, rfl, hzero.clear _, Bytes.zero_clear _ _⟩⟩
  | right delay_l delay_r => exact ⟨_, rfl, h.finish hb hstage⟩

/-- Outside of `build_synth` and the reception of presets no rebuild begins. -/
theorem pending_step {sh : Shared F} {c : Core1 F} (hb : ∀ p, c.pc ≠ .building p [])
    (hr : c.pc ≠ .receive) (h : (Core1.step sh c).2.pc.pending.isSome) :
    c.pc.pending.isSome := by
  obtain ⟨pc, v⟩ := c
  cases pc with
  | switching p => rfl
  | building p rest => rfl
  | announce => cases h
  | top =>
      rw [Core1.step] at h
      cases hreq : sh.gate_req with
      | true => rw [hreq] at h; cases h
      | false => rw [hreq] at h; cases h
  | ack_raise => cases h
  | spin =>
      rw [Core1.step] at h
      cases hreq : sh.gate_req with
      | true => rw [hreq] at h; cases h
      | false => rw [hreq] at h; cases h
  | ack_lower => cases h
  | receive => exact absurd rfl hr
  | process => cases h
  | send => cases h

/-- An access outside of `build_synth`. -/
theorem Kept.access (h : Kept region s) (hb : ∀ p, s.core1.pc ≠ .building p [])
    (hr : s.core1.pc ≠ .receive) : Kept region s.access := by
  have hvoiced : s.stage = .voiced := h.outside fun ⟨p, hp⟩ => hb p hp
  exact ⟨h.base, h.limit, h.stacked, h.room, h.staged,
    fun hpending => h.dropped (pending_step hb hr hpending), fun _ => hvoiced⟩

/-- A preset is received, and the voice is dropped; or there is none. -/
theorem Kept.receive (h : Kept region s) (hr : s.core1.pc = .receive) :
    Kept region { s.access with
      synth := if s.sh.preset_channel.try_receive.isSome then none else s.synth } := by
  have hvoiced : s.stage = .voiced := by
    apply h.outside
    rintro ⟨p, hp⟩
    rw [hr] at hp
    cases hp
  have hstacked := h.stacked
  cases hch : s.sh.preset_channel.try_receive with
  | some pch =>
      refine ⟨h.base, h.limit, ?_, h.room, h.staged, fun _ => rfl, fun _ => hvoiced⟩
      have hempty : (live { s.access with synth := none }) = [] := by
        show s.stage.slices ++ [] = []
        rw [hvoiced]
        rfl
      show Stacked 4 region.base s.psram.ALLOC_NEXT
        ((live { s.access with synth := none }).map Slice.block)
      rw [hempty]
      exact hstacked.drop_all
  | none =>
      refine ⟨h.base, h.limit, hstacked, h.room, h.staged, ?_, fun _ => hvoiced⟩
      intro hpending
      have hpc : (Core1.step s.sh s.core1).2.pc = .process := by
        unfold Core1.step
        rw [hr]
        simp only [hch]
      have hsome : (Core1.step s.sh s.core1).2.pc.pending.isSome = true := hpending
      rw [hpc] at hsome
      cases hsome

/-- core1 always has a next step, which keeps the memory in order. -/
theorem Kept.core1 (h : Kept region s) (hbase : region.base ≠ 0) (halign : 4 ∣ region.base)
    (hroom : 2 * (ring_len * 4) ≤ region.size) :
    ∃ s', step s .core1 = some s' ∧ Kept region s' := by
  have hother : (∀ p, s.core1.pc ≠ .building p []) → s.core1.pc ≠ .receive →
      step s .core1 = some s.access → ∃ s', step s .core1 = some s' ∧ Kept region s' :=
    fun hb hr hstep => ⟨_, hstep, h.access hb hr⟩
  unfold step at hother ⊢
  cases hpc : s.core1.pc with
  | building p rest =>
      rw [hpc] at hother
      cases rest with
      | nil => exact h.build ⟨p, hpc⟩ hbase halign hroom
      | cons av rest => exact hother nofun nofun rfl
  | receive => exact ⟨_, rfl, h.receive hpc⟩
  | switching p => rw [hpc] at hother; exact hother nofun nofun rfl
  | announce => rw [hpc] at hother; exact hother nofun nofun rfl
  | top => rw [hpc] at hother; exact hother nofun nofun rfl
  | ack_raise => rw [hpc] at hother; exact hother nofun nofun rfl
  | spin => rw [hpc] at hother; exact hother nofun nofun rfl
  | ack_lower => rw [hpc] at hother; exact hother nofun nofun rfl
  | process => rw [hpc] at hother; exact hother nofun nofun rfl
  | send => rw [hpc] at hother; exact hother nofun nofun rfl

/-- A sample is stored where a running voice has its rings. -/
theorem step_store {right : Bool} {idx : ℕ} {sample : Vector UInt8 4} {s' : DelayMemory F}
    (h : step s (.store right idx sample) = some s') :
    s.core1.pc = .process ∧ ∃ rings start, s.synth = some rings ∧ idx < (ring right rings).len
      ∧ start = (ring right rings).start + 4 * idx
      ∧ s' = { s with psram := { s.psram with bytes := s.psram.bytes.store start sample } } := by
  simp only [step] at h
  split at h
  · rename_i rings hpc hsynth
    split at h
    · rename_i hidx
      cases h
      exact ⟨hpc, rings, _, hsynth, hidx, rfl, rfl⟩
    · cases h
  · cases h

/-- Only `build_synth` makes a voice. -/
theorem step_core1 {s' : DelayMemory F} (h : step s .core1 = some s') :
    s.build = some s' ∨ s'.synth = none ∨ s'.synth = s.synth := by
  simp only [step] at h
  split at h
  · exact Or.inl h
  · cases h
    refine Or.inr ?_
    cases s.sh.preset_channel.try_receive with
    | some pch => exact Or.inl rfl
    | none => exact Or.inr rfl
  · cases h
    exact Or.inr (Or.inr rfl)

/-- And it makes one in its last stage. -/
theorem build_synth {s' : DelayMemory F} (h : s.build = some s') :
    s'.synth = s.synth ∨ ∃ delay_l delay_r, s.stage = .right delay_l delay_r
      ∧ s'.synth = some (delay_l, delay_r) ∧ s'.psram = s.psram := by
  unfold DelayMemory.build at h
  cases hstage : s.stage with
  | voiced =>
      rw [hstage] at h
      cases h
      exact Or.inl rfl
  | rewound =>
      rw [hstage] at h
      obtain ⟨⟨l, psram⟩, -, h⟩ := Option.bind_eq_some_iff.mp h
      cases h
      exact Or.inl rfl
  | left l =>
      rw [hstage] at h
      obtain ⟨⟨r, psram⟩, -, h⟩ := Option.bind_eq_some_iff.mp h
      cases h
      exact Or.inl rfl
  | right l r =>
      rw [hstage] at h
      cases h
      exact Or.inr ⟨l, r, rfl, rfl, rfl⟩

/-- Where a voice comes to be, its rings are as they were allocated. -/
theorem Kept.fresh (h : Kept region s) {s' : DelayMemory F} {delay_l delay_r : Slice}
    (hstep : DelayMemory.step s .core1 = some s') (hnone : s.synth = none)
    (hsome : s'.synth = some (delay_l, delay_r)) :
    delay_l.len = ring_len ∧ delay_r.len = ring_len
      ∧ s'.psram.bytes.Zero delay_l.block ∧ s'.psram.bytes.Zero delay_r.block := by
  have hnew : s'.synth ≠ s.synth := by
    rw [hnone, hsome]
    exact Option.some_ne_none _
  rcases step_core1 hstep with hbuild | hdrop | hsame
  · rcases build_synth hbuild with hsame | ⟨l, r, hstage, hrings, hpsram⟩
    · exact absurd hsame hnew
    · rw [hsome, Option.some.injEq, Prod.mk.injEq] at hrings
      obtain ⟨rfl, rfl⟩ := hrings
      have hstaged := h.staged
      rw [hstage] at hstaged
      rw [hpsram]
      exact hstaged
  · rw [hdrop] at hsome
    cases hsome
  · exact absurd hsame hnew

/-- **The step lemma.** -/
theorem Kept.step (h : Kept region s) (hbase : region.base ≠ 0) (halign : 4 ∣ region.base)
    (hroom : 2 * (ring_len * 4) ≤ region.size) {a : Act F} {s' : DelayMemory F}
    (hstep : DelayMemory.step s a = some s') : Kept region s' := by
  cases a with
  | core1 =>
      obtain ⟨t, ht, hkept⟩ := h.core1 hbase halign hroom
      rw [ht] at hstep
      cases hstep
      exact hkept
  | store right idx sample =>
      obtain ⟨hpc, rings, start, -, -, -, rfl⟩ := step_store hstep
      have hvoiced : s.stage = .voiced := by
        apply h.outside
        rintro ⟨p, hp⟩
        rw [hpc] at hp
        cases hp
      refine ⟨h.base, h.limit, h.stacked, h.room, ?_, h.dropped, h.outside⟩
      show Staged region _ s.stage
      rw [hvoiced]
      trivial
  | others sh =>
      cases hstep
      exact ⟨h.base, h.limit, h.stacked, h.room, h.staged, h.dropped, h.outside⟩

end Steps

/-! ## Every run -/

/-- The task is started on an empty region. -/
theorem start_kept {region : PsramRegion} (halign : 4 ∣ region.base) (bytes : Bytes)
    (sh : Shared F) (initial_preset : Preset F) :
    Kept region (start region bytes sh initial_preset) where
  base := rfl
  limit := Nat.mod_eq_of_lt region.fits
  stacked := Stacked.nil (le_refl _) halign
  room := Nat.le_add_right _ _
  staged := trivial
  dropped _ := rfl
  outside _ := rfl

/-- So the memory is in order in every state of every run. -/
theorem Reached.kept {region : PsramRegion} (hbase : region.base ≠ 0) (halign : 4 ∣ region.base)
    (hroom : 2 * (ring_len * 4) ≤ region.size) {bytes : Bytes} {sh : Shared F}
    {initial_preset : Preset F} {s : DelayMemory F}
    (h : Reached step (start region bytes sh initial_preset) s) : Kept region s :=
  ReachedBy.invariant h (fun _ _ _ hs _ hstep => hs.step hbase halign hroom hstep)
    (start_kept halign bytes sh initial_preset)

/-- What is stored in one ring is not seen in the other. -/
theorem Kept.store_apart {region : PsramRegion} {s s' : DelayMemory F} (h : Kept region s)
    {right : Bool} {idx : ℕ} {sample : Vector UInt8 4}
    (hstep : DelayMemory.step s (.store right idx sample) = some s') {rings : Slice × Slice}
    (hsynth : s.synth = some rings) {a : ℕ} (ha : (ring (!right) rings).block.Covers a) :
    s'.psram.bytes a = s.psram.bytes a := by
  obtain ⟨hpc, rings', start, hrings, hidx, rfl, rfl⟩ := step_store hstep
  obtain rfl : rings' = rings := Option.some.inj (hrings.symm.trans hsynth)
  have hvoiced : s.stage = .voiced := by
    apply h.outside
    rintro ⟨p, hp⟩
    rw [hpc] at hp
    cases hp
  have hapart : rings'.2.block.Apart rings'.1.block := by
    have hstacked := h.stacked.apart
    rw [live, hvoiced, hsynth] at hstacked
    exact (List.pairwise_cons.mp hstacked).1 _ (List.mem_singleton_self _)
  have hboth : (ring right rings').block.Apart (ring (!right) rings').block := by
    cases right with
    | true => exact hapart
    | false => exact hapart.symm
  refine Bytes.store_apart hboth (Nat.le_add_right _ _) ?_ _ _ ha
  show (ring right rings').start + 4 * idx + 4
    ≤ (ring right rings').start + (ring right rings').len * 4
  omega

/-- **The delay memory is never shared, leaked or exhausted.** In every state that
core1 reaches, whatever the other tasks do: the slices in use are inside the region,
aligned and pairwise apart, the bump pointer is at most two rings above the base, core1
has a next step, so no assertion of the allocator has failed, and no slice is in use
where the allocator is rewound. A new voice starts with two rings of zeros. -/
theorem delay_memory_safe {region : PsramRegion} (hbase : region.base ≠ 0)
    (halign : 16 ∣ region.base) (hroom : 2 * (ring_len * 4) ≤ region.size) {bytes : Bytes}
    {sh : Shared F} {initial_preset : Preset F} {s : DelayMemory F}
    (h : Reached step (start region bytes sh initial_preset) s) :
    (s.live.map Slice.block).Pairwise MemBlock.Apart
    ∧ (∀ slice ∈ s.live, 4 ∣ slice.start ∧ region.base ≤ slice.start
        ∧ slice.start + slice.len * 4 ≤ region.base + region.size)
    ∧ s.psram.ALLOC_NEXT ≤ region.base + 2 * (ring_len * 4)
    ∧ (∃ s', step s .core1 = some s')
    ∧ (Building s → s.stage = .voiced → s.live = [])
    ∧ ∀ s' delay_l delay_r, step s .core1 = some s' → s.synth = none →
        s'.synth = some (delay_l, delay_r) →
        delay_l.len = ring_len ∧ delay_r.len = ring_len
          ∧ s'.psram.bytes.Zero delay_l.block ∧ s'.psram.bytes.Zero delay_r.block := by
  have hfour : 4 ∣ region.base := Nat.dvd_trans (by decide) halign
  have hkept := Reached.kept hbase hfour hroom h
  refine ⟨hkept.stacked.apart, ?_, hkept.room, ?_, ?_, ?_⟩
  · -- between the base of the region and the next address to give out
    intro slice hslice
    obtain ⟨haligned, hlo, hhi⟩ := hkept.stacked.block _ (List.mem_map_of_mem hslice)
    have hnext := hkept.room
    refine ⟨haligned, hlo, ?_⟩
    have hfin : slice.start + slice.len * 4 ≤ s.psram.ALLOC_NEXT := hhi
    omega
  · obtain ⟨s', hstep, -⟩ := hkept.core1 hbase hfour hroom
    exact ⟨s', hstep⟩
  · intro hb hvoiced
    apply hkept.live_rewound hb
    rw [hvoiced]
    rfl
  · intro s' delay_l delay_r hstep hnone hsome
    exact hkept.fresh hstep hnone hsome

/-- The region of the board: 8 MiB at the cached window. -/
def boardRegion : PsramRegion := ⟨0x11000000, 0x800000, by norm_num⟩

/-! ## A rebuild on the board -/

/-- core1 stores the live controls of its preset, one at a time. -/
theorem seeds (q : Preset F) (rest : List (Atom × F)) {s : DelayMemory F}
    (hpc : s.core1.pc = .building q rest) :
    ∃ t, Reached step s t ∧ t.core1.pc = .building q [] ∧ t.stage = s.stage := by
  induction rest generalizing s with
  | nil => exact ⟨s, ReachedBy.refl s, hpc, rfl⟩
  | cons av rest ih =>
      have hstep : step s .core1 = some s.access := by simp only [step, hpc]
      have hnext : s.access.core1.pc = .building q rest := by simp only [access, Core1.step, hpc]
      obtain ⟨t, hreach, hend⟩ := ih hnext
      exact ⟨t, (ReachedBy.single trivial hstep).trans hreach, hend⟩

/-- A received preset gets as far as its rings. -/
theorem switches {s : DelayMemory F} {q : Preset F} (hpc : s.core1.pc = .switching q) :
    ∃ t, Reached step s t ∧ t.core1.pc = .building q [] ∧ t.stage = s.stage := by
  have hstep : step s .core1 = some s.access := by simp only [step, hpc]
  have hnext : s.access.core1.pc = .building q (MidiControl.seed_from_preset q) := by
    simp only [access, Core1.step, hpc]
  obtain ⟨t, hreach, hend⟩ := seeds q _ hnext
  exact ⟨t, (ReachedBy.single trivial hstep).trans hreach, hend⟩

/-- What the next part of `build_synth` leaves. -/
theorem build_next {s s' : DelayMemory F} (h : s.build = some s') :
    (s.stage = .rewound → ∃ delay_l, s'.stage = .left delay_l ∧ s'.core1 = s.core1)
      ∧ ∀ delay_l, s.stage = .left delay_l →
        ∃ delay_r, s'.stage = .right delay_l delay_r ∧ s'.core1 = s.core1 := by
  unfold DelayMemory.build at h
  constructor
  · intro hstage
    rw [hstage] at h
    obtain ⟨⟨delay_l, psram⟩, -, h⟩ := Option.bind_eq_some_iff.mp h
    cases h
    exact ⟨delay_l, rfl, rfl⟩
  · intro delay_l hstage
    rw [hstage] at h
    obtain ⟨⟨delay_r, psram⟩, -, h⟩ := Option.bind_eq_some_iff.mp h
    cases h
    exact ⟨delay_r, rfl, rfl⟩

/-- The allocator is rewound and both rings are allocated. -/
theorem allocates {region : PsramRegion} {s : DelayMemory F} (h : Kept region s)
    (hbase : region.base ≠ 0) (halign : 4 ∣ region.base)
    (hroom : 2 * (ring_len * 4) ≤ region.size) {q : Preset F}
    (hpc : s.core1.pc = .building q []) (hvoiced : s.stage = .voiced) :
    ∃ t delay_l delay_r, Reached step s t ∧ t.core1.pc = .building q []
      ∧ t.stage = .right delay_l delay_r := by
  have hcore1 : ∀ {u u' : DelayMemory F}, u.core1.pc = .building q [] → u.build = some u' →
      Reached step u u' := by
    intro u u' hu hbuild
    refine ReachedBy.single (l := .core1) trivial ?_
    simp only [step, hu]
    exact hbuild
  have hrewind : s.build = some { s with stage := .rewound, psram := s.psram.reset_alloc } := by
    simp only [DelayMemory.build, hvoiced]
  have h₁ := h.rewind ⟨q, hpc⟩ halign
  obtain ⟨s₂, hbuild₂, h₂⟩ := h₁.build ⟨q, hpc⟩ hbase halign hroom
  obtain ⟨delay_l, hleft, hsame₂⟩ := (build_next hbuild₂).1 rfl
  have hpc₂ : s₂.core1.pc = .building q [] := by rw [hsame₂]; exact hpc
  obtain ⟨s₃, hbuild₃, -⟩ := h₂.build ⟨q, hpc₂⟩ hbase halign hroom
  obtain ⟨delay_r, hright, hsame₃⟩ := (build_next hbuild₃).2 delay_l hleft
  have hpc₃ : s₃.core1.pc = .building q [] := by rw [hsame₃]; exact hpc₂
  exact ⟨s₃, delay_l, delay_r, ((hcore1 hpc hrewind).trans (hcore1 hpc hbuild₂)).trans
    (hcore1 hpc₂ hbuild₃), hpc₃, hright⟩

/-- The voice is there and plays a block, and then another preset is received. -/
theorem takes_preset {s : DelayMemory F} {q : Preset F} {delay_l delay_r : Slice}
    (hpc : s.core1.pc = .building q []) (hstage : s.stage = .right delay_l delay_r)
    (p : Preset F) :
    ∃ t, Reached step s t ∧ t.core1.pc = .switching p ∧ t.stage = .voiced := by
  obtain ⟨sh, ⟨pc, v⟩, stage, synth, psram⟩ := s
  dsimp only at hpc hstage
  subst hpc hstage
  -- the other tasks leave a preset in the channel, and the gate open
  set sh₁ : Shared F := { sh with
    preset_channel := ⟨[p], le_refl 1⟩, gate_req := false, core1_running := true } with hsh₁
  set sh₂ : Shared F := { sh₁ with control := sh₁.control.take_gate_reset.2 } with hsh₂
  have hothers : step ⟨sh, ⟨.building q [], v⟩, .right delay_l delay_r, synth, psram⟩ (.others sh₁)
      = some ⟨sh₁, ⟨.building q [], v⟩, .right delay_l delay_r, synth, psram⟩ := rfl
  have hvoice : step ⟨sh₁, ⟨.building q [], v⟩, .right delay_l delay_r, synth, psram⟩ .core1
      = some ⟨sh₁, ⟨.process, some q⟩, .voiced, some (delay_l, delay_r), psram⟩ := rfl
  have hprocess : step ⟨sh₁, ⟨.process, some q⟩, .voiced, some (delay_l, delay_r), psram⟩ .core1
      = some ⟨sh₂, ⟨.send, some q⟩, .voiced, some (delay_l, delay_r), psram⟩ := rfl
  have hsend : step ⟨sh₂, ⟨.send, some q⟩, .voiced, some (delay_l, delay_r), psram⟩ .core1
      = some ⟨sh₂, ⟨.top, some q⟩, .voiced, some (delay_l, delay_r), psram⟩ := rfl
  have htop : step ⟨sh₂, ⟨.top, some q⟩, .voiced, some (delay_l, delay_r), psram⟩ .core1
      = some ⟨sh₂, ⟨.receive, some q⟩, .voiced, some (delay_l, delay_r), psram⟩ := rfl
  have hitems : sh₂.preset_channel.items = [p] := rfl
  obtain ⟨ch, htake, -⟩ := BoundedList.try_receive_cons hitems
  have hreceive : step ⟨sh₂, ⟨.receive, some q⟩, .voiced, some (delay_l, delay_r), psram⟩ .core1
      = some ⟨{ sh₂ with preset_channel := ch }, ⟨.switching p, none⟩, .voiced, none, psram⟩ := by
    simp only [step, access, Core1.step, htake, Option.isSome_some, if_true]
  exact ⟨_, ⟨_, .cons trivial hothers <| .cons trivial hvoice <| .cons trivial hprocess <|
    .cons trivial hsend <| .cons trivial htop <| .cons trivial hreceive <| .nil _⟩, rfl, rfl⟩

/-- On the board, with noise in the PSRAM: core1 builds a voice and plays it, receives
another preset and rewinds, and its second voice has two fresh rings. -/
theorem delay_memory_safe_rebuild : ∃ (u s s' : DelayMemory ℝ) (delay_l delay_r : Slice),
    Reached step (start boardRegion (fun _ => 0xA5)
        ⟨MidiControl.new, BoundedList.new, BoundedList.new, false, false, false⟩
        (Preset.default.map F32.from_bits)) u
      ∧ u.stage = .voiced ∧ u.live = []
      ∧ Reached step u s ∧ s.live = [delay_r, delay_l] ∧ delay_r.block.Apart delay_l.block
      ∧ delay_l.start + ring_len * 4 ≤ 0x11800000 ∧ delay_r.start + ring_len * 4 ≤ 0x11800000
      ∧ step s .core1 = some s' ∧ s'.synth = some (delay_l, delay_r)
      ∧ s'.psram.bytes.Zero delay_l.block ∧ s'.psram.bytes.Zero delay_r.block := by
  set p : Preset ℝ := Preset.default.map F32.from_bits
  set sh : Shared ℝ := ⟨MidiControl.new, BoundedList.new, BoundedList.new, false, false, false⟩
  have hroom : 2 * (ring_len * 4) ≤ boardRegion.size := by
    rw [ring_len_eq]
    decide
  have hkept : ∀ {s : DelayMemory ℝ}, Reached step (start boardRegion (fun _ => 0xA5) sh p) s →
      Kept boardRegion s := Reached.kept (by decide) (by decide) hroom
  -- the voice of the initial preset, and the one behind it
  obtain ⟨t₁, hreach₁, hpc₁, hstage₁⟩ :=
    switches (s := start boardRegion (fun _ => 0xA5) sh p) (q := p) rfl
  obtain ⟨t₂, l, r, hreach₂, hpc₂, hstage₂⟩ :=
    allocates (hkept hreach₁) (by decide) (by decide) hroom hpc₁ hstage₁
  obtain ⟨t₃, hreach₃, hpc₃, hstage₃⟩ := takes_preset hpc₂ hstage₂ p
  obtain ⟨u, hreach₄, hpc, hstage⟩ := switches hpc₃
  have hvoiced : u.stage = .voiced := hstage.trans hstage₃
  have hu := ((hreach₁.trans hreach₂).trans hreach₃).trans hreach₄
  obtain ⟨s, delay_l, delay_r, hrebuild, hpc', hright⟩ :=
    allocates (hkept hu) (by decide) (by decide) hroom hpc hvoiced
  have hs := hu.trans hrebuild
  obtain ⟨-, -, -, -, hrewind, -⟩ := delay_memory_safe (by decide) (by decide) hroom hu
  obtain ⟨hapart, hinside, -, -, -, hfresh⟩ := delay_memory_safe (by decide) (by decide) hroom hs
  have hnone := (hkept hs).none_playing ⟨p, hpc'⟩
  have hlive : s.live = [delay_r, delay_l] := by
    rw [live, hright, hnone]
    rfl
  have hstep : step s .core1 = some { s.access with
      stage := .voiced, synth := some (delay_l, delay_r) } := by
    simp only [step, hpc', DelayMemory.build, hright]
  obtain ⟨hlen_l, hlen_r, hzero_l, hzero_r⟩ := hfresh _ delay_l delay_r hstep hnone rfl
  rw [hlive] at hapart hinside
  have hin_l := (hinside delay_l (by simp)).2.2
  have hin_r := (hinside delay_r (by simp)).2.2
  rw [hlen_l] at hin_l
  rw [hlen_r] at hin_r
  exact ⟨u, s, _, delay_l, delay_r, hu, hvoiced, hrewind ⟨p, hpc⟩ hvoiced, hrebuild, hlive,
    (List.pairwise_cons.mp hapart).1 _ (List.mem_singleton_self _), hin_l, hin_r, hstep, rfl,
    hzero_l, hzero_r⟩

end DelayMemory

end PicoDsp
