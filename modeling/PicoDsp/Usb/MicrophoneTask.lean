/-
`microphone_task` (`tasks/core0.rs`): the audio blocks as packets of a USB stream.

A block is 128 frames and a packet 48, so a packet may take frames of two blocks, and the
task keeps the block at hand and its index from one packet to the next. Where the stream
is found closed, or a write times out, the index is put at the end and the rest of the
block is never sent.

The state is where the task waits (`Pc`), and the events are what it waits for, so the
runs are all orders in which blocks come, packets are taken and the stream opens and
closes. The samples are `f32` values of any reading. What the task has received is a tape
(`tape`), and its position says which frame the next packet begins with; `Follows`
relates a state to it. The block at hand and the packet in the making are then two views
of what is ahead on the tape, and every event keeps it so.

The statement has several clauses because none says enough alone. That a packet is 48
frames that came in before it allows a frame to be sent twice; that a later packet
begins behind it excludes that, but allows frames to be left out; so a run without an
interruption is said to write the beginning of what came in, and an interruption to pass
over the rest of the block at hand, or the one that comes in while the stream is closed.
A loop that never writes would do all this; the bound on what is held back excludes it.
-/
import PicoDsp.Lib.F32
import PicoDsp.Lib.Tape
import PicoDsp.Lib.Transition

set_option autoImplicit false

namespace PicoDsp

open Lib

/-- The cast `as i16`: towards zero, to the nearest bound outside of the range, and zero
for a NaN. -/
class CastI16 (F : Type) where
  as_i16 : F → Int16

/-- Without infinities and NaN. -/
noncomputable instance : CastI16 ℝ where
  as_i16 x := Int16.ofInt (max (-32768) (min 32767 (if 0 ≤ x then ⌊x⌋ else ⌈x⌉)))

namespace MicrophoneTask

def BLOCK_SIZE : ℕ := 256

/-- `(SAMPLE_RATE as usize) / 1000` -/
def FRAMES_PER_PACKET : ℕ := 48000 / 1000

section

variable {F : Type} [F32 F] [CastI16 F]

/-- `i16::MAX as f32` -/
def I16_SCALE : F := F32.lit 32767

/-- `(x.clamp(-1.0, 1.0) * I16_SCALE) as i16` -/
def convert (x : F) : Int16 := CastI16.as_i16 (F32.clamp x (F32.lit (-1)) (F32.lit 1) * I16_SCALE)

/-- `i16::to_le_bytes` -/
def to_le_bytes (x : Int16) : List UInt8 := [x.toUInt16.toUInt8, (x.toUInt16 >>> 8).toUInt8]

/-- `dst[start..start + src.len()].copy_from_slice(src)` -/
def copy_from_slice (dst : List UInt8) (start : ℕ) (src : List UInt8) : Option (List UInt8) :=
  if start + src.length ≤ dst.length then
    some (dst.take start ++ (src ++ dst.drop (start + src.length)))
  else none

/-- Where the task waits, or is about to test something. -/
inductive Pc
  /-- `USB_AUDIO_STREAMING.load()` -/
  | top
  /-- `receive` while the stream is closed. -/
  | drain
  /-- `while collected < FRAMES_PER_PACKET` -/
  | collect (packet : List UInt8) (collected : ℕ)
  /-- `receive` in the loop. -/
  | receive (packet : List UInt8) (collected : ℕ)
  /-- `write_packet` with its time-out. -/
  | write (packet : List UInt8)

structure Microphone (F : Type) where
  block : Vector F BLOCK_SIZE
  idx : ℕ
  pc : Pc

/-- What happens to the task. -/
inductive Event (F : Type)
  /-- The flag of the stream is read. -/
  | load (streaming : Bool)
  /-- A block is received and thrown away. -/
  | drain (block : Vector F BLOCK_SIZE)
  /-- The loop goes round once, up to the next wait. -/
  | round
  /-- A block is received. -/
  | receive (block : Vector F BLOCK_SIZE)
  /-- A packet is written. -/
  | write (packet : List UInt8) (timed_out : Bool)

/-- `for _ in 0..n`; a read or a copy out of range panics. -/
def copy (block : Vector F BLOCK_SIZE) : ℕ → ℕ → List UInt8 → ℕ → Option (ℕ × List UInt8 × ℕ)
  | 0, idx, packet, collected => some (idx, packet, collected)
  | n + 1, idx, packet, collected => do
      let l := convert (← block[idx]?)
      let r := convert (← block[idx + 1]?)
      let b := collected * 4
      let packet ← copy_from_slice packet b (to_le_bytes l)
      let packet ← copy_from_slice packet (b + 2) (to_le_bytes r)
      copy block n (idx + 2) packet (collected + 1)

/-- The loop body behind the `if`. -/
def fill (block : Vector F BLOCK_SIZE) (idx : ℕ) (packet : List UInt8) (collected : ℕ) :
    Option (Microphone F) := do
  let avail_frames := (BLOCK_SIZE - idx) / 2
  let n := min avail_frames (FRAMES_PER_PACKET - collected)
  let (idx, packet, collected) ← copy block n idx packet collected
  pure ⟨block, idx, .collect packet collected⟩

def step (s : Microphone F) : Event F → Option (Microphone F)
  | .load streaming =>
      match s.pc with
      | .top =>
          if streaming then
            some { s with pc := .collect (List.replicate (FRAMES_PER_PACKET * 2 * 2) 0) 0 }
          else some { s with pc := .drain }
      | _ => none
  | .drain _ =>
      match s.pc with
      | .drain => some { s with idx := BLOCK_SIZE, pc := .top }
      | _ => none
  | .round =>
      match s.pc with
      | .collect packet collected =>
          if collected < FRAMES_PER_PACKET then
            if BLOCK_SIZE ≤ s.idx then some { s with pc := .receive packet collected }
            else fill s.block s.idx packet collected
          else some { s with pc := .write packet }
      | _ => none
  | .receive block =>
      match s.pc with
      | .receive packet collected => fill block 0 packet collected
      | _ => none
  | .write packet timed_out =>
      match s.pc with
      | .write sent =>
          if packet = sent then
            some { s with idx := if timed_out then BLOCK_SIZE else s.idx, pc := .top }
          else none
      | _ => none

/-- The task before its loop. -/
def start : Microphone F := ⟨Vector.replicate BLOCK_SIZE (F32.lit 0), BLOCK_SIZE, .top⟩

/-! ## Frames -/

omit [F32 F] [CastI16 F] in
/-- The frames of a block, left and right. -/
def frames (block : Vector F BLOCK_SIZE) : List (F × F) :=
  List.ofFn fun i : Fin 128 => (block.get ⟨2 * i, by unfold BLOCK_SIZE; omega⟩,
    block.get ⟨2 * i + 1, by unfold BLOCK_SIZE; omega⟩)

/-- A frame in a packet: left, then right, little endian. -/
def encode (f : F × F) : List UInt8 := to_le_bytes (convert f.1) ++ to_le_bytes (convert f.2)

omit [F32 F] [CastI16 F] in
/-- A block is 128 frames. -/
@[simp] theorem frames_length (block : Vector F BLOCK_SIZE) : (frames block).length = 128 :=
  List.length_ofFn

omit [F32 F] [CastI16 F] in
/-- The samples of frame `i`. -/
theorem samples_of_frame (block : Vector F BLOCK_SIZE) {i : ℕ} (hi : i < 128) :
    ∃ l r, block[2 * i]? = some l ∧ block[2 * i + 1]? = some r
      ∧ (frames block).drop i = (l, r) :: (frames block).drop (i + 1) := by
  have hl : 2 * i < BLOCK_SIZE := by
    unfold BLOCK_SIZE
    omega
  have hr : 2 * i + 1 < BLOCK_SIZE := by
    unfold BLOCK_SIZE
    omega
  refine ⟨block[2 * i], block[2 * i + 1], Vector.getElem?_eq_getElem hl,
    Vector.getElem?_eq_getElem hr, ?_⟩
  rw [List.drop_eq_getElem_cons (by rw [frames_length]; exact hi)]
  congr 1
  unfold frames
  rw [List.getElem_ofFn]
  rfl

/-- A frame is four bytes. -/
theorem encode_length (f : F × F) : (encode f).length = 4 := rfl

/-- The bytes behind those that are there. -/
theorem copy_from_slice_append (done rest src : List UInt8) {start : ℕ}
    (hstart : done.length = start) (hsrc : src.length ≤ rest.length) :
    copy_from_slice (done ++ rest) start src = some (done ++ (src ++ rest.drop src.length)) := by
  subst hstart
  have hle : done.length + src.length ≤ (done ++ rest).length := by
    rw [List.length_append]
    omega
  rw [copy_from_slice, if_pos hle, List.take_left', List.drop_append, Nat.add_sub_cancel_left,
    List.drop_eq_nil_of_le (Nat.le_add_right _ _), List.nil_append]
  rfl

/-- The loop over `n` frames of a block copies them behind what the packet holds. -/
theorem copy_run (block : Vector F BLOCK_SIZE) (n : ℕ) {i collected : ℕ} (done rest : List UInt8)
    (hi : i + n ≤ 128) (hdone : done.length = collected * 4) (hrest : 4 * n ≤ rest.length) :
    copy block n (2 * i) (done ++ rest) collected
      = some (2 * (i + n),
          (done ++ (((frames block).drop i).take n).flatMap encode) ++ rest.drop (4 * n),
          collected + n) := by
  induction n generalizing i collected done rest with
  | zero =>
      rw [copy, List.take_zero, List.flatMap_nil, List.append_nil]
      rfl
  | succ n ih =>
      -- the first frame, sample by sample, and the others behind it
      obtain ⟨l, r, hl, hr, hframe⟩ := samples_of_frame block (i := i) (by omega)
      have hstart : (done ++ to_le_bytes (convert l)).length = collected * 4 + 2 := by
        rw [List.length_append, hdone]
        rfl
      have hleft := copy_from_slice_append done rest (to_le_bytes (convert l)) hdone
        (by show 2 ≤ _; omega)
      have hright := copy_from_slice_append (done ++ to_le_bytes (convert l)) (rest.drop 2)
        (to_le_bytes (convert r)) hstart (by rw [List.length_drop]; show 2 ≤ _; omega)
      rw [List.append_assoc] at hright
      have hsum : (done ++ encode (l, r)).length = (collected + 1) * 4 := by
        rw [List.length_append, hdone, encode_length]
        omega
      have hnext := ih (i := i + 1) (done ++ encode (l, r)) (rest.drop 4) (by omega) hsum
        (by rw [List.length_drop]; omega)
      have hbytes : done ++ to_le_bytes (convert l)
          ++ (to_le_bytes (convert r) ++ (rest.drop 2).drop 2) = done ++ encode (l, r) ++ rest.drop 4 := by
        rw [encode, List.drop_drop]
        simp only [List.append_assoc]
      rw [copy]
      simp only [hl, hr, Option.bind_eq_bind, Option.bind_some, hleft]
      rw [show (to_le_bytes (convert l)).length = 2 from rfl, hright]
      simp only [Option.bind_some]
      rw [show (to_le_bytes (convert r)).length = 2 from rfl, hbytes, ← Nat.mul_succ, hnext, hframe,
        List.take_succ_cons, List.flatMap_cons, List.drop_drop]
      simp only [List.append_assoc, Option.some.injEq, Prod.mk.injEq]
      refine ⟨by omega, ?_, by omega⟩
      rw [show 4 + 4 * n = 4 * (n + 1) by omega]

/-! ## The tape -/

omit [F32 F] [CastI16 F] in
/-- What an event means for the frames: a block comes in, a packet takes 48 of them, and
a closed stream or a time-out passes over what is left. -/
def next (t : Tape (F × F)) : Event F → Tape (F × F)
  | .load streaming => if streaming then t else t.skip
  | .drain block => (t.extend (frames block)).skip
  | .round => t
  | .receive block => t.extend (frames block)
  | .write _ timed_out =>
      if timed_out then (t.advance FRAMES_PER_PACKET).skip else t.advance FRAMES_PER_PACKET

omit [F32 F] [CastI16 F] in
/-- The frames received, and the position of the first that is in no packet and has not
been passed over. -/
def tape (es : List (Event F)) : Tape (F × F) := es.foldl next Tape.new

/-- A packet in the making. -/
structure Holds (packet : List UInt8) (taken : List (F × F)) : Prop where
  length : taken.length ≤ FRAMES_PER_PACKET
  bytes : packet
    = taken.flatMap encode ++ List.replicate (4 * (FRAMES_PER_PACKET - taken.length)) 0

/-- What is left of the block: all of it is not, and what is begins with a frame. -/
def Left (s : Microphone F) (rest : List (F × F)) : Prop :=
  ∃ i, s.idx = 2 * i ∧ 1 ≤ i ∧ i ≤ 128 ∧ rest = (frames s.block).drop i

/-- The task has what is ahead on the tape: first the packet in the making, then what is
left of the block. -/
def Has (ahead : List (F × F)) (s : Microphone F) : Prop :=
  match s.pc with
  | .top => Left s ahead
  | .drain => ahead = []
  | .collect packet collected =>
      ∃ taken rest, ahead = taken ++ rest ∧ Left s rest ∧ Holds packet taken
        ∧ taken.length = collected
  | .receive packet collected =>
      Holds packet ahead ∧ ahead.length = collected ∧ collected < FRAMES_PER_PACKET
  | .write packet =>
      ∃ taken rest, ahead = taken ++ rest ∧ Left s rest ∧ Holds packet taken
        ∧ taken.length = FRAMES_PER_PACKET

structure Follows (t : Tape (F × F)) (s : Microphone F) : Prop where
  pos_le : t.pos ≤ t.items.length
  has : Has t.ahead s

/-- A packet that was just begun holds nothing. -/
theorem holds_zero : Holds (F := F) (List.replicate (FRAMES_PER_PACKET * 2 * 2) 0) [] where
  length := Nat.zero_le _
  bytes := rfl

/-- Four bytes for each frame. -/
theorem encoded_length (taken : List (F × F)) :
    (taken.flatMap encode).length = taken.length * 4 := by
  rw [List.length_flatMap, List.map_congr_left fun f _ => encode_length f, List.map_const',
    List.sum_replicate, smul_eq_mul]

/-- The loop body takes as many frames as the block still has and the packet has room
for. -/
theorem fill_eq (block : Vector F BLOCK_SIZE) {i n : ℕ} (hi : i ≤ 128) {packet : List UInt8}
    {taken : List (F × F)} (hholds : Holds packet taken)
    (hn : n = min (128 - i) (FRAMES_PER_PACKET - taken.length)) :
    ∃ packet', fill block (2 * i) packet taken.length
        = some ⟨block, 2 * (i + n), .collect packet' (taken.length + n)⟩
      ∧ Holds packet' (taken ++ ((frames block).drop i).take n) := by
  have hblock : BLOCK_SIZE = 256 := rfl
  have hpacket : FRAMES_PER_PACKET = 48 := rfl
  have hlength := hholds.length
  have hfits : i + n ≤ 128 := by omega
  have hcount : min ((BLOCK_SIZE - 2 * i) / 2) (FRAMES_PER_PACKET - taken.length) = n := by omega
  have hrun := copy_run block n (taken.flatMap encode)
    (List.replicate (4 * (FRAMES_PER_PACKET - taken.length)) 0) hfits (encoded_length taken)
    (by rw [List.length_replicate]; omega)
  rw [← hholds.bytes] at hrun
  refine ⟨_, by rw [fill]; simp only [hcount, hrun]; rfl, ?_⟩
  have hlen : (taken ++ ((frames block).drop i).take n).length = taken.length + n := by
    rw [List.length_append, List.length_take, List.length_drop, frames_length]
    omega
  have hzeros : 4 * (FRAMES_PER_PACKET - taken.length) - 4 * n
      = 4 * (FRAMES_PER_PACKET - (taken.length + n)) := by omega
  refine ⟨by rw [hlen]; omega, ?_⟩
  rw [hlen, List.flatMap_append, List.drop_replicate, hzeros]

/-- The loop body takes frames of the block into the packet. -/
theorem fill_run (block : Vector F BLOCK_SIZE) {i : ℕ} (hi : i < 128) {packet : List UInt8}
    {taken : List (F × F)} (hholds : Holds packet taken)
    (hroom : taken.length < FRAMES_PER_PACKET) :
    ∃ s, fill block (2 * i) packet taken.length = some s
      ∧ Has (taken ++ (frames block).drop i) s := by
  set n := min (128 - i) (FRAMES_PER_PACKET - taken.length) with hn
  obtain ⟨packet', hfill, hholds'⟩ := fill_eq block (Nat.le_of_lt hi) hholds hn
  refine ⟨_, hfill, taken ++ ((frames block).drop i).take n, (frames block).drop (i + n), ?_,
    ⟨i + n, rfl, by omega, by omega, rfl⟩, hholds', ?_⟩
  · rw [List.append_assoc, ← List.drop_drop, List.take_append_drop]
  · rw [List.length_append, List.length_take, List.length_drop, frames_length]
    omega

omit [F32 F] [CastI16 F] in
/-- At least one frame of the block has gone into a packet. -/
theorem Left.length_lt {s : Microphone F} {rest : List (F × F)} (h : Left s rest) :
    rest.length < 128 := by
  obtain ⟨i, -, hone, hle, rfl⟩ := h
  rw [List.length_drop, frames_length]
  omega

omit [F32 F] [CastI16 F] in
/-- Nothing is left of a block that is passed over. -/
theorem left_nil (s : Microphone F) (pc : Pc) :
    Left { s with idx := BLOCK_SIZE, pc := pc } [] := by
  refine ⟨128, rfl, by omega, le_refl _, ?_⟩
  exact (List.drop_eq_nil_of_le (by rw [frames_length])).symm

omit [F32 F] [CastI16 F] in
/-- Behind the last sample nothing is left. -/
theorem left_end {s : Microphone F} {rest : List (F × F)} (h : Left s rest)
    (hidx : BLOCK_SIZE ≤ s.idx) : rest = [] := by
  obtain ⟨i, hi, -, -, rfl⟩ := h
  rw [hi] at hidx
  unfold BLOCK_SIZE at hidx
  apply List.drop_eq_nil_of_le
  rw [frames_length]
  omega

/-! ## What an event does -/

/-- The stream is open, and a packet is begun, or it is closed. -/
theorem load_spec {s s' : Microphone F} {streaming : Bool}
    (h : step s (.load streaming) = some s') :
    s.pc = .top
      ∧ s' = if streaming then
          { s with pc := .collect (List.replicate (FRAMES_PER_PACKET * 2 * 2) 0) 0 }
        else { s with pc := .drain } := by
  simp only [step] at h
  split at h
  · rename_i hpc
    cases streaming with
    | true => exact ⟨hpc, (Option.some.inj h).symm⟩
    | false => exact ⟨hpc, (Option.some.inj h).symm⟩
  · cases h

/-- A block that comes while the stream is closed is passed over. -/
theorem drain_spec {s s' : Microphone F} {block : Vector F BLOCK_SIZE}
    (h : step s (.drain block) = some s') :
    s.pc = .drain ∧ s' = { s with idx := BLOCK_SIZE, pc := .top } := by
  simp only [step] at h
  split at h
  · rename_i hpc
    exact ⟨hpc, (Option.some.inj h).symm⟩
  · cases h

/-- The loop waits for a block, takes frames of the one it has, or is done. -/
theorem round_spec {s s' : Microphone F} (h : step s .round = some s') :
    ∃ packet collected, s.pc = .collect packet collected
      ∧ ((collected < FRAMES_PER_PACKET ∧ BLOCK_SIZE ≤ s.idx
            ∧ s' = { s with pc := .receive packet collected })
          ∨ (collected < FRAMES_PER_PACKET ∧ s.idx < BLOCK_SIZE
            ∧ fill s.block s.idx packet collected = some s')
          ∨ (FRAMES_PER_PACKET ≤ collected ∧ s' = { s with pc := .write packet })) := by
  simp only [step] at h
  split at h
  · rename_i packet collected hpc
    refine ⟨packet, collected, hpc, ?_⟩
    split at h
    · rename_i hroom
      split at h
      · rename_i hidx
        exact Or.inl ⟨hroom, hidx, (Option.some.inj h).symm⟩
      · rename_i hidx
        exact Or.inr (Or.inl ⟨hroom, Nat.not_le.mp hidx, h⟩)
    · rename_i hfull
      exact Or.inr (Or.inr ⟨Nat.not_lt.mp hfull, (Option.some.inj h).symm⟩)
  · cases h

/-- A block comes for the packet in the making. -/
theorem receive_spec {s s' : Microphone F} {block : Vector F BLOCK_SIZE}
    (h : step s (.receive block) = some s') :
    ∃ packet collected, s.pc = .receive packet collected
      ∧ fill block 0 packet collected = some s' := by
  simp only [step] at h
  split at h
  · rename_i packet collected hpc
    exact ⟨packet, collected, hpc, h⟩
  · cases h

/-- The packet is out. After a time-out so is the block. -/
theorem write_spec {s s' : Microphone F} {packet : List UInt8} {timed_out : Bool}
    (h : step s (.write packet timed_out) = some s') :
    s.pc = .write packet
      ∧ s' = { s with idx := if timed_out then BLOCK_SIZE else s.idx, pc := .top } := by
  simp only [step] at h
  split at h
  · rename_i sent hpc
    split at h
    · rename_i hsent
      rw [hsent]
      exact ⟨hpc, (Option.some.inj h).symm⟩
    · cases h
  · cases h

/-! ## The task and the tape -/

section Step

variable {t : Tape (F × F)} {s s' : Microphone F}

/-- What the task has, where it is known to be. -/
theorem Follows.at_pc (h : Follows t s) (pc : Pc) (hpc : s.pc = pc) :
    Has t.ahead { s with pc := pc } := by
  subst hpc
  exact h.has

/-- The stream is looked at in front of each packet. -/
theorem Follows.load {streaming : Bool} (h : Follows t s)
    (hstep : step s (.load streaming) = some s') : Follows (next t (.load streaming)) s' := by
  obtain ⟨hpc, rfl⟩ := load_spec hstep
  have hleft : Left s t.ahead := h.at_pc .top hpc
  cases streaming with
  | true => exact ⟨h.pos_le, [], t.ahead, rfl, hleft, holds_zero, rfl⟩
  | false => exact ⟨le_refl _, t.skip_ahead⟩

/-- A block for nobody moves the tape to its end. -/
theorem Follows.drain {block : Vector F BLOCK_SIZE} (hstep : step s (.drain block) = some s') :
    Follows (next t (.drain block)) s' := by
  obtain ⟨-, rfl⟩ := drain_spec hstep
  refine ⟨le_refl _, ?_⟩
  show Left _ ((t.extend (frames block)).skip).ahead
  rw [Tape.skip_ahead]
  exact left_nil s .top

/-- The loop moves frames from the block to the packet, and the tape stays. -/
theorem Follows.round (h : Follows t s) (hstep : step s .round = some s') : Follows t s' := by
  obtain ⟨packet, collected, hpc, hcases⟩ := round_spec hstep
  obtain ⟨taken, rest, hahead, hleft, hholds, rfl⟩ := h.at_pc _ hpc
  refine ⟨h.pos_le, ?_⟩
  rw [hahead]
  rcases hcases with ⟨hroom, hidx, rfl⟩ | ⟨hroom, hidx, hfill⟩ | ⟨hfull, rfl⟩
  · -- the block is used up
    obtain rfl := left_end hleft hidx
    rw [List.append_nil]
    exact ⟨hholds, rfl, hroom⟩
  · obtain ⟨i, hi, -, -, rfl⟩ := hleft
    have hlt : i < 128 := by
      change s.idx = 2 * i at hi
      unfold BLOCK_SIZE at hidx
      omega
    obtain ⟨u, hfill', hu⟩ := fill_run s.block hlt hholds hroom
    rw [show s.idx = 2 * i from hi, hfill'] at hfill
    cases hfill
    exact hu
  · -- the packet is full
    exact ⟨taken, rest, rfl, hleft, hholds, Nat.le_antisymm hholds.length hfull⟩

/-- What is left of the old block is in the packet when a new one is asked for. -/
theorem Follows.receive {block : Vector F BLOCK_SIZE} (h : Follows t s)
    (hstep : step s (.receive block) = some s') : Follows (next t (.receive block)) s' := by
  obtain ⟨packet, collected, hpc, hfill⟩ := receive_spec hstep
  obtain ⟨hholds, rfl, hroom⟩ := h.at_pc _ hpc
  obtain ⟨u, hfill', hu⟩ := fill_run block (i := 0) (by omega) hholds hroom
  rw [Nat.mul_zero, hfill] at hfill'
  cases hfill'
  refine ⟨?_, ?_⟩
  · show t.pos ≤ (t.items ++ frames block).length
    rw [List.length_append]
    exact le_trans h.pos_le (Nat.le_add_right _ _)
  · show Has (t.extend (frames block)).ahead s'
    rw [Tape.extend_ahead h.pos_le]
    exact hu

/-- A packet is out: 48 frames, and after a time-out the rest as well. -/
theorem Follows.write {packet : List UInt8} {timed_out : Bool} (h : Follows t s)
    (hstep : step s (.write packet timed_out) = some s') :
    Follows (next t (.write packet timed_out)) s' := by
  obtain ⟨hpc, rfl⟩ := write_spec hstep
  obtain ⟨taken, rest, hahead, hleft, -, hlen⟩ := h.at_pc _ hpc
  cases timed_out with
  | true =>
      refine ⟨le_refl _, ?_⟩
      show Left _ (t.advance FRAMES_PER_PACKET).skip.ahead
      rw [Tape.skip_ahead]
      exact left_nil s .top
  | false =>
      refine ⟨?_, ?_⟩
      · -- the packet has been on the tape
        have hcount := t.ahead_length
        rw [hahead, List.length_append, hlen] at hcount
        have hpos := h.pos_le
        show t.pos + FRAMES_PER_PACKET ≤ t.items.length
        omega
      · show Left _ (t.advance FRAMES_PER_PACKET).ahead
        rw [Tape.advance_ahead, hahead, ← hlen, List.drop_left]
        exact hleft

/-- **Every event** keeps the task on the tape. -/
theorem Follows.step {e : Event F} (h : Follows t s)
    (hstep : MicrophoneTask.step s e = some s') : Follows (next t e) s' := by
  cases e with
  | load streaming => exact h.load hstep
  | drain block => exact Follows.drain hstep
  | round => exact h.round hstep
  | receive block => exact h.receive hstep
  | write packet timed_out => exact h.write hstep

/-- A packet that is written is the next 48 frames on the tape. -/
theorem Follows.packet {packet : List UInt8} {timed_out : Bool} (h : Follows t s)
    (hstep : MicrophoneTask.step s (.write packet timed_out) = some s') :
    t.pos + FRAMES_PER_PACKET ≤ t.items.length
      ∧ packet = (t.ahead.take FRAMES_PER_PACKET).flatMap encode
      ∧ t.items.length < t.pos + FRAMES_PER_PACKET + 128 := by
  obtain ⟨hpc, -⟩ := write_spec hstep
  obtain ⟨taken, rest, hahead, hleft, hholds, hlen⟩ := h.at_pc _ hpc
  have hcount := t.ahead_length
  rw [hahead, List.length_append, hlen] at hcount
  have hpos := h.pos_le
  have hshort := hleft.length_lt
  refine ⟨by omega, ?_, by omega⟩
  rw [hholds.bytes, hlen, hahead, ← hlen, List.take_left, Nat.sub_self, Nat.mul_zero,
    List.replicate_zero, List.append_nil]

end Step

/-! ## Every run -/

omit [F32 F] [CastI16 F] in
/-- The tape event by event. -/
theorem tape_snoc (es : List (Event F)) (e : Event F) : tape (es ++ [e]) = next (tape es) e :=
  List.foldl_append

/-- The index starts at the end of the block, so there is nothing of it to send. -/
theorem follows_start : Follows Tape.new (start (F := F)) where
  pos_le := le_refl _
  has := left_nil (start (F := F)) .top

/-- The task is on its tape in every run. -/
theorem follows_run {es : List (Event F)} {s : Microphone F}
    (h : Transition.run step start es = some s) : Follows (tape es) s := by
  induction es using List.reverseRecOn generalizing s with
  | nil =>
      cases h
      exact follows_start
  | append_singleton es e ih =>
      obtain ⟨u, v, hpre, hstep, hlast⟩ := Transition.run_split h
      cases hlast
      rw [tape_snoc]
      exact (ih hpre).step hstep

omit [F32 F] [CastI16 F] in
/-- The frames that come in with an event. -/
def Event.frames : Event F → List (F × F)
  | .drain block | .receive block => MicrophoneTask.frames block
  | .load _ | .round | .write _ _ => []

omit [F32 F] [CastI16 F] in
/-- The frames that come in with the events. -/
def received (es : List (Event F)) : List (F × F) := es.flatMap Event.frames

omit [F32 F] [CastI16 F] in
/-- The packets that are written. -/
def packets (es : List (Event F)) : List (List UInt8) :=
  es.filterMap fun
    | .write packet _ => some packet
    | _ => none

omit [F32 F] [CastI16 F] in
/-- What came in with the one events and with the others. -/
theorem received_append (es es' : List (Event F)) :
    received (es ++ es') = received es ++ received es' := List.flatMap_append

omit [F32 F] [CastI16 F] in
/-- What comes in with one event. -/
theorem received_singleton (e : Event F) : received [e] = e.frames := List.append_nil _

omit [F32 F] [CastI16 F] in
/-- The packets of two runs. -/
theorem packets_append (es es' : List (Event F)) :
    packets (es ++ es') = packets es ++ packets es' := List.filterMap_append

omit [F32 F] [CastI16 F] in
/-- The stream is found closed, or a write times out. -/
def Interrupts : Event F → Prop
  | .load streaming => streaming = false
  | .drain _ => True
  | .write _ timed_out => timed_out = true
  | .round | .receive _ => False

omit [F32 F] [CastI16 F] in
/-- The tape holds all that came in. -/
theorem tape_items (es : List (Event F)) : (tape es).items = received es := by
  induction es using List.reverseRecOn with
  | nil => rfl
  | append_singleton es e ih =>
      rw [tape_snoc, received_append, received_singleton, ← ih]
      cases e with
      | load streaming => cases streaming <;> exact (List.append_nil _).symm
      | drain block => rfl
      | round => exact (List.append_nil _).symm
      | receive block => rfl
      | write packet timed_out => cases timed_out <;> exact (List.append_nil _).symm

omit [F32 F] [CastI16 F] in
/-- An interruption moves the position behind all that has come in. -/
theorem next_interrupts {e : Event F} (h : Interrupts e) (t : Tape (F × F)) :
    (next t e).pos = (next t e).items.length := by
  cases e with
  | load streaming =>
      rw [show streaming = false from h]
      rfl
  | drain block => rfl
  | round => exact h.elim
  | receive block => exact h.elim
  | write packet timed_out =>
      rw [show timed_out = true from h]
      rfl

omit [F32 F] [CastI16 F] in
/-- Without an interruption only packets move the position. -/
theorem next_quiet {e : Event F} (h : ¬ Interrupts e) (t : Tape (F × F)) :
    (next t e).pos = t.pos + FRAMES_PER_PACKET * (packets [e]).length := by
  cases e with
  | load streaming =>
      have htrue : streaming = true := Bool.eq_true_of_not_eq_false h
      rw [htrue]
      rfl
  | drain block => exact absurd trivial h
  | round => rfl
  | receive block => rfl
  | write packet timed_out =>
      have hfalse : timed_out = false := Bool.eq_false_of_not_eq_true h
      rw [hfalse]
      rfl

/-- The position never goes back. -/
theorem pos_mono {pre mid : List (Event F)} {s : Microphone F}
    (h : Transition.run step start (pre ++ mid) = some s) :
    (tape pre).pos ≤ (tape (pre ++ mid)).pos := by
  induction mid using List.reverseRecOn generalizing s with
  | nil => rw [List.append_nil]
  | append_singleton mid e ih =>
      rw [← List.append_assoc] at h ⊢
      obtain ⟨u, v, hmid, -, -⟩ := Transition.run_split h
      refine le_trans (ih hmid) ?_
      rw [tape_snoc]
      by_cases he : Interrupts e
      · have hle := (follows_run hmid).pos_le
        have hgrow : (tape (pre ++ mid)).items.length ≤ (next (tape (pre ++ mid)) e).items.length := by
          rw [← tape_snoc, tape_items, tape_items, received_append (pre ++ mid),
            List.length_append]
          exact Nat.le_add_right _ _
        rw [next_interrupts he]
        exact le_trans hle hgrow
      · rw [next_quiet he]
        exact Nat.le_add_right _ _

/-- A packet of a run is 48 frames that have come in before it. -/
theorem written_packet {pre post : List (Event F)} {packet : List UInt8} {timed_out : Bool}
    {s : Microphone F}
    (h : Transition.run step start (pre ++ .write packet timed_out :: post) = some s) :
    packet.length = 4 * FRAMES_PER_PACKET
      ∧ (tape pre).pos + FRAMES_PER_PACKET ≤ (received pre).length
      ∧ packet = (((received pre).drop (tape pre).pos).take FRAMES_PER_PACKET).flatMap encode := by
  obtain ⟨u, v, hpre, hstep, -⟩ := Transition.run_split h
  obtain ⟨hle, hpacket, -⟩ := (follows_run hpre).packet hstep
  rw [Tape.ahead] at hpacket
  rw [tape_items] at hle hpacket
  refine ⟨?_, hle, hpacket⟩
  rw [hpacket, encoded_length, List.length_take, List.length_drop]
  omega

/-- What is written later begins behind it. -/
theorem later_behind {pre mid : List (Event F)} {packet : List UInt8} {timed_out : Bool}
    {s : Microphone F}
    (h : Transition.run step start (pre ++ .write packet timed_out :: mid) = some s) :
    (tape pre).pos + FRAMES_PER_PACKET ≤ (tape (pre ++ .write packet timed_out :: mid)).pos := by
  obtain ⟨-, hle, -⟩ := written_packet h
  have hsplit : pre ++ .write packet timed_out :: mid = pre ++ [.write packet timed_out] ++ mid := by
    rw [List.append_assoc, List.singleton_append]
  rw [hsplit] at h ⊢
  have hadvance : (tape pre).pos + FRAMES_PER_PACKET
      ≤ (tape (pre ++ [.write packet timed_out])).pos := by
    rw [tape_snoc]
    cases timed_out with
    | true =>
        -- everything that has come in is passed over
        show _ ≤ (tape pre).items.length
        rw [tape_items]
        exact hle
    | false => exact le_refl _
  exact le_trans hadvance (pos_mono h)

omit [F32 F] [CastI16 F] in
/-- Where the task reads on behind a packet. -/
def behind (timed_out : Bool) (i : ℕ) : ℕ := if timed_out then BLOCK_SIZE else 2 * i

/-- A full packet is written. -/
theorem writes_full {block : Vector F BLOCK_SIZE} {idx : ℕ} {packet : List UInt8}
    {taken : List (F × F)} (hholds : Holds packet taken)
    (hfull : taken.length = FRAMES_PER_PACKET) (timed_out : Bool) :
    Transition.run step ⟨block, idx, .collect packet FRAMES_PER_PACKET⟩
        [.round, .write (taken.flatMap encode) timed_out]
      = some ⟨block, if timed_out then BLOCK_SIZE else idx, .top⟩ := by
  have hbytes : packet = taken.flatMap encode := by
    rw [hholds.bytes, hfull, Nat.sub_self, Nat.mul_zero, List.replicate_zero, List.append_nil]
  have hround : step ⟨block, idx, .collect packet FRAMES_PER_PACKET⟩ .round
      = some ⟨block, idx, .write packet⟩ := rfl
  have hwrite : step ⟨block, idx, .write packet⟩ (.write (taken.flatMap encode) timed_out)
      = some ⟨block, if timed_out then BLOCK_SIZE else idx, .top⟩ := if_pos hbytes.symm
  exact Transition.run_step hround (Transition.run_step hwrite rfl)

/-- A packet that is in the making is filled from a block that is received. -/
theorem completes (old block : Vector F BLOCK_SIZE) {packet : List UInt8} {taken : List (F × F)}
    (hholds : Holds packet taken) (timed_out : Bool) :
    Transition.run step ⟨old, BLOCK_SIZE, .receive packet taken.length⟩
        [.receive block, .round, .write ((taken
          ++ (frames block).take (FRAMES_PER_PACKET - taken.length)).flatMap encode) timed_out]
      = some ⟨block, behind timed_out (FRAMES_PER_PACKET - taken.length), .top⟩ := by
  have hpacket : FRAMES_PER_PACKET = 48 := rfl
  have hlength := hholds.length
  obtain ⟨packet', hfill, hholds'⟩ := fill_eq block (i := 0) (Nat.zero_le 128) hholds
    (n := FRAMES_PER_PACKET - taken.length) (by omega)
  have hreceive : step ⟨old, BLOCK_SIZE, .receive packet taken.length⟩ (.receive block)
      = some ⟨block, 2 * (FRAMES_PER_PACKET - taken.length),
          .collect packet' FRAMES_PER_PACKET⟩ := by
    rw [Nat.mul_zero, Nat.zero_add, Nat.add_sub_cancel' hlength] at hfill
    exact hfill
  have hfull : (taken ++ ((frames block).drop 0).take (FRAMES_PER_PACKET - taken.length)).length
      = FRAMES_PER_PACKET := by
    rw [List.length_append, List.length_take, List.length_drop, frames_length]
    omega
  exact Transition.run_step hreceive (writes_full hholds' hfull timed_out)

/-- The block is used up, or none has come in: a packet of the next one. -/
theorem packet_fresh (old block : Vector F BLOCK_SIZE) (timed_out : Bool) :
    Transition.run step ⟨old, BLOCK_SIZE, .top⟩
        [.load true, .round, .receive block, .round,
          .write (((frames block).take FRAMES_PER_PACKET).flatMap encode) timed_out]
      = some ⟨block, behind timed_out FRAMES_PER_PACKET, .top⟩ := by
  set zeros : List UInt8 := List.replicate (FRAMES_PER_PACKET * 2 * 2) 0
  have hload : step (⟨old, BLOCK_SIZE, .top⟩ : Microphone F) (.load true)
      = some ⟨old, BLOCK_SIZE, .collect zeros 0⟩ := rfl
  have hwait : step (⟨old, BLOCK_SIZE, .collect zeros 0⟩ : Microphone F) .round
      = some ⟨old, BLOCK_SIZE, .receive zeros 0⟩ := rfl
  exact Transition.run_step hload (Transition.run_step hwait
    (completes old block holds_zero timed_out))

end

/-- The frames of a block of one value. -/
theorem frames_replicate {F : Type} (x : F) :
    frames (Vector.replicate BLOCK_SIZE x) = List.replicate 128 (x, x) := by
  refine List.eq_replicate_iff.mpr ⟨frames_length _, fun f hf => ?_⟩
  obtain ⟨i, rfl⟩ := List.mem_ofFn.mp hf
  exact Prod.ext (Vector.getElem_replicate _) (Vector.getElem_replicate _)

end MicrophoneTask

end PicoDsp
