/-
A restart in the middle of a bank rewrite (`write_raw` of `data/storage.rs`, the handlers
of `midi_task` that call it, and the boot that follows).

Power may fail between any two flash operations, and a rewrite has two for each of the
seven sectors, an erase and a program. `write_raw` goes
through the sectors in address order and the header lies in the first one, so the
contents at a crash point are described by the number `j` of whole sectors behind it and
by whether the next one is erased (`torn`). Before the first erase the bank is the old
one; between that erase and the program of sector 0 the header is gone and the next
boot formats; from then on the header is the new one whatever the later sectors hold.

The statement is about every run and not about `write_raw`: whatever work the task has
done, a crash at any point of the next piece of work finds one of these contents
(`restart_anywhere`). It is assembled in three steps.

* A piece of work rewrites the bank at most once, and always a whole one
  (`work_one_rewrite`); all its other flash operations are reads. The boot is the same,
  for its deferred format.
* A prefix of such events is the old contents, a torn bank, or the new one
  (`OneRewrite.crash`).
* What the next boot makes of a torn bank is read off its header and its records
  (`torn_erased_header`, `torn_header`, `Mixed`).

No checksum covers the records. That a half-written bank is accepted as a bank, with
presets of both, is therefore no accident of a single input: the last section has it for
an accepted image over a filled bank (`torn_bank_accepted`).
-/
import PicoDsp.Control.MidiRun

set_option autoImplicit false

namespace PicoDsp

open Lib

namespace Storage

/-! ## Crash points of a rewrite -/

/-- What a function of `Storage` returns on given contents, `none` if it halts. -/
def value {α : Type} (m : Proc Flash FlashOp α) (f : Flash) : Option α := (m f).2.map Prod.fst

/-- The first `j` sectors hold `data`, and sector `j` is erased if `e`. -/
def torn (f : Flash) (data : List UInt8) (j : ℕ) (e : Bool) : Flash :=
  if e then NorFlash.erase (overlay f data (j * SECTOR_SIZE)) (ADDR_OFFSET + j * SECTOR_SIZE)
    SECTOR_SIZE
  else overlay f data (j * SECTOR_SIZE)

/-- Inside a sector pass: untouched, erased, or programmed. -/
theorem applyAll_take_sectorOps (f : Flash) (data : List UInt8) (j k : ℕ) :
    ∃ j' e, j ≤ j' ∧ j' ≤ j + 1 ∧ (e = true → j' = j)
      ∧ applyAll ((sectorOps data (j * SECTOR_SIZE)).take k) (overlay f data (j * SECTOR_SIZE))
        = torn f data j' e := by
  by_cases hbefore : k ≤ 3
  · -- gate operations only
    refine ⟨j, false, Nat.le_refl j, Nat.le_succ j, fun h => rfl, ?_⟩
    interval_cases k <;> rfl
  · by_cases herased : k = 4
    · -- between the erase and the program: the one place where a sector is blank
      subst herased
      exact ⟨j, true, Nat.le_refl j, Nat.le_succ j, fun _ => rfl, rfl⟩
    · -- past the program access only the PSRAM and the gate are left
      refine ⟨j + 1, false, Nat.le_succ j, Nat.le_refl _, fun h => absurd h Bool.false_ne_true, ?_⟩
      have hsplit : (sectorOps data (j * SECTOR_SIZE)).take k
          = [.gate_req, .gate_running, .gate_ack, .erase (ADDR_OFFSET + j * SECTOR_SIZE),
              .program (ADDR_OFFSET + j * SECTOR_SIZE) (sector_buffer data (j * SECTOR_SIZE))]
            ++ [FlashOp.reinit, .gate_release].take (k - 5) := by
        obtain ⟨m, rfl⟩ : ∃ m, k = 5 + m := ⟨k - 5, by omega⟩
        rw [Nat.add_sub_cancel_left, sectorOps]
        simp only [show 5 + m = m + 1 + 1 + 1 + 1 + 1 by omega, List.take_succ_cons]
        rfl
      have hlate : ∀ g : Flash, applyAll ([FlashOp.reinit, .gate_release].take (k - 5)) g = g := by
        intro g
        have hk : k - 5 = 0 ∨ k - 5 = 1 ∨ 2 ≤ k - 5 := by omega
        rcases hk with h | h | h
        · rw [h]
          rfl
        · rw [h]
          rfl
        · rw [List.take_of_length_le h]
          rfl
      rw [hsplit, applyAll_append, hlate, torn, if_neg Bool.false_ne_true, ← rewrite_overlay,
        NorFlash.rewrite, sector_buffer_length]
      rfl

/-- **Every crash point of a rewrite is a torn bank.** -/
theorem applyAll_take_sectorsOps (f : Flash) (data : List UInt8) (m k : ℕ) :
    ∃ j e, j ≤ m ∧ (e = true → j < m)
      ∧ applyAll ((sectorsOps data m).take k) f = torn f data j e := by
  induction m generalizing k with
  | zero =>
      refine ⟨0, false, Nat.le_refl 0, fun h => absurd h Bool.false_ne_true, ?_⟩
      rw [torn, if_neg Bool.false_ne_true, Nat.zero_mul, overlay_zero]
      rw [show sectorsOps data 0 = [] from rfl, List.take_nil]
      rfl
  | succ m ih =>
      rw [sectorsOps_succ, List.take_append]
      by_cases hk : k ≤ (sectorsOps data m).length
      · -- the crash lies in the sectors before
        obtain ⟨j, e, hj, he, heq⟩ := ih k
        refine ⟨j, e, by omega, fun h => Nat.lt_succ_of_lt (he h), ?_⟩
        rw [Nat.sub_eq_zero_of_le hk, List.take_zero, List.append_nil, heq]
      · obtain ⟨j, e, hlow, hhigh, he, heq⟩ := applyAll_take_sectorOps f data m
          (k - (sectorsOps data m).length)
        refine ⟨j, e, hhigh, fun h => by rw [he h]; exact Nat.lt_succ_self m, ?_⟩
        rw [List.take_of_length_le (by omega), applyAll_append, applyAll_sectorsOps, heq]

/-! ## What the next boot finds -/

/-- In front of the first erase the flash is as it was. -/
theorem torn_zero (f : Flash) (data : List UInt8) : torn f data 0 false = f := by
  rw [torn, if_neg Bool.false_ne_true, Nat.zero_mul, overlay_zero]

/-- The whole sectors hold the new image. -/
theorem torn_inside {f : Flash} {data : List UInt8} {j k : ℕ} (e : Bool)
    (hk : k < j * SECTOR_SIZE) : torn f data j e (ADDR_OFFSET + k) = data.getD k 0 := by
  cases e with
  | false =>
      rw [torn, if_neg Bool.false_ne_true]
      exact overlay_inside hk
  | true =>
      rw [torn, if_pos rfl, NorFlash.erase_outside (by omega)]
      exact overlay_inside hk

/-- The sector that was being rewritten is erased. -/
theorem torn_erased {f : Flash} {data : List UInt8} {j k : ℕ} (hlow : j * SECTOR_SIZE ≤ k)
    (hhigh : k < (j + 1) * SECTOR_SIZE) : torn f data j true (ADDR_OFFSET + k) = 0xFF := by
  have hnext : (j + 1) * SECTOR_SIZE = j * SECTOR_SIZE + SECTOR_SIZE := Nat.succ_mul _ _
  rw [torn, if_pos rfl]
  exact NorFlash.erase_inside ⟨by omega, by omega⟩

/-- The sectors behind it still hold the old bank. -/
theorem torn_beyond {f : Flash} {data : List UInt8} {j k : ℕ} {e : Bool}
    (hk : (if e then j + 1 else j) * SECTOR_SIZE ≤ k) :
    torn f data j e (ADDR_OFFSET + k) = f (ADDR_OFFSET + k) := by
  have hnext : (j + 1) * SECTOR_SIZE = j * SECTOR_SIZE + SECTOR_SIZE := Nat.succ_mul _ _
  cases e with
  | false =>
      rw [if_neg Bool.false_ne_true] at hk
      rw [torn, if_neg Bool.false_ne_true]
      exact overlay_outside (by omega)
  | true =>
      rw [if_pos rfl] at hk
      rw [torn, if_pos rfl, NorFlash.erase_outside (by omega)]
      exact overlay_outside (by omega)

/-- Behind the last program the image is there. -/
theorem torn_full {f : Flash} {data : List UInt8} (h : data.length = STORAGE_IMAGE_SIZE) :
    torn f data 7 false = written f data := by
  rw [torn, if_neg Bool.false_ne_true, written, sectorCount_image h]

/-- With the first sector erased there is no header. -/
theorem torn_erased_header (f : Flash) (data : List UInt8) :
    ¬ (header (torn f data 0 true)).Valid := by
  have hread : NorFlash.read (torn f data 0 true) ADDR_OFFSET 16 = List.replicate 16 0xFF := by
    rw [List.eq_replicate_iff]
    refine ⟨NorFlash.read_length _ _ _, ?_⟩
    intro b hb
    obtain ⟨k, hk, rfl⟩ := List.mem_map.mp hb
    rw [List.mem_range] at hk
    apply torn_erased
    · rw [Nat.zero_mul]
      exact Nat.zero_le k
    · simp only [SECTOR_SIZE]
      omega
  rw [header, hread]
  decide

/-- With the first sector programmed the header is the new one. -/
theorem torn_header {f : Flash} {data : List UInt8} {j : ℕ} (e : Bool) (hj : 0 < j) :
    header (torn f data j e) = StorageHeader.from_bytes data := by
  refine from_bytes_congr fun k hk => ?_
  have hsector : k < j * SECTOR_SIZE := by
    have hle : SECTOR_SIZE ≤ j * SECTOR_SIZE := Nat.le_mul_of_pos_left _ hj
    simp only [SECTOR_SIZE] at hle ⊢
    omega
  rw [List.getD_eq_getElem _ _ (by rw [NorFlash.read_length]; exact hk), NorFlash.read_getElem,
    torn_inside e hsector]

/-- Two flashes with the same header load the same preset where their records agree. -/
theorem load_value_congr {f g : Flash} {i : ℕ} (hheader : header g = header f)
    (hrecord : i < presetCount f → i ≤ LAST_RECORD ∧ recordAt g i = recordAt f i) :
    value (load_preset i) g = value (load_preset i) f := by
  have hcount : presetCount g = presetCount f := by rw [presetCount, presetCount, hheader]
  by_cases hlt : i < presetCount f
  · obtain ⟨hi, hrec⟩ := hrecord hlt
    have hlt' : i < presetCount g := by rw [hcount]; exact hlt
    rw [value, value, load_preset_found hlt hi, load_preset_found hlt' hi, hrec]
    rfl
  · have hle : presetCount f ≤ i := Nat.not_lt.mp hlt
    have hle' : presetCount g ≤ i := by rw [hcount]; exact hle
    rw [value, value, load_preset_missing hle, load_preset_missing hle']
    rfl

/-- Records that lie in the same bytes are the same. -/
theorem recordAt_congr {f g : Flash} {i : ℕ}
    (h : ∀ k, HEADER_SIZE + i * PRESET_SIZE ≤ k → k < HEADER_SIZE + (i + 1) * PRESET_SIZE →
      g (ADDR_OFFSET + k) = f (ADDR_OFFSET + k)) : recordAt g i = recordAt f i := by
  unfold recordAt
  congr 1
  refine NorFlash.read_congr fun a hlow hhigh => ?_
  obtain ⟨k, rfl⟩ : ∃ k, a = ADDR_OFFSET + k := by
    refine ⟨a - ADDR_OFFSET, ?_⟩
    simp only [recordAddr] at hlow
    omega
  have hnext : (i + 1) * PRESET_SIZE = i * PRESET_SIZE + PRESET_SIZE := Nat.succ_mul _ _
  simp only [recordAddr] at hlow hhigh
  exact h k (by simp only [HEADER_SIZE]; omega) (by simp only [HEADER_SIZE]; omega)

/-- What the boot after a crash behind the first sector finds, for the contents
`g`, the old contents `f` and the new image `data`: the new header; the new bank
up to sector `j`; behind it, and behind the erased sector if `e`, what the old
contents hold there. -/
structure Mixed (f : Flash) (data : List UInt8) (j : ℕ) (e : Bool) (g : Flash) : Prop where
  needs_format : value needs_format g = value needs_format (written f data)
  num_presets : value num_presets g = value num_presets (written f data)
  new : ∀ i,
    HEADER_SIZE + (i + 1) * PRESET_SIZE ≤ j * SECTOR_SIZE ∨ presetCount (written f data) ≤ i →
    value (load_preset i) g = value (load_preset i) (written f data)
  old : ∀ i, i < presetCount (written f data) → i ≤ LAST_RECORD →
    (if e then j + 1 else j) * SECTOR_SIZE ≤ HEADER_SIZE + i * PRESET_SIZE →
      value (load_preset i) g = some (some (recordAt f i))

/-- **From the program of the first sector on, the bank is a mixture.** The header is the new
one. A record that lies in front of the crash point is the new one, and a record that
lies behind it the old one; a record that lies across it is neither, and nothing is said
about it. -/
theorem torn_mixed {f : Flash} {data : List UInt8} {j : ℕ} {e : Bool}
    (hlen : data.length = STORAGE_IMAGE_SIZE) (hj : 0 < j) (hj7 : j ≤ 7) :
    Mixed f data j e (torn f data j e) := by
  -- the header lies in the first sector, which is new
  have hheader : header (torn f data j e) = header (written f data) := by
    rw [torn_header e hj, header_written hlen]
  have hcount : presetCount (torn f data j e) = presetCount (written f data) := by
    rw [presetCount, presetCount, hheader]
  refine ⟨?_, ?_, ?_, ?_⟩
  · rw [value, value, needs_format_run, needs_format_run, hheader]
    rfl
  · rw [value, value, num_presets_run, num_presets_run, hcount]
    rfl
  · -- a record in front of the cut is new
    intro i hi
    refine load_value_congr hheader fun hlt => ?_
    have hin : HEADER_SIZE + (i + 1) * PRESET_SIZE ≤ j * SECTOR_SIZE := by
      rcases hi with h | h
      · exact h
      · exact absurd hlt (Nat.not_lt.mpr h)
    refine ⟨?_, recordAt_congr fun k _ hk => ?_⟩
    · simp only [HEADER_SIZE, PRESET_SIZE, SECTOR_SIZE, LAST_RECORD] at hin ⊢
      omega
    · have himage : k < STORAGE_IMAGE_SIZE := by
        simp only [SECTOR_SIZE] at hin
        rw [image_size]
        omega
      rw [torn_inside e (by omega), written_image hlen, overlay_inside himage]
  · -- a record behind the sector that is being written is old
    intro i hlt hi hbeyond
    rw [← hcount] at hlt
    rw [value, load_preset_found hlt hi]
    refine congrArg (fun r => some (some r)) (recordAt_congr fun k hk _ => ?_)
    exact torn_beyond (by omega)

/-! ## Events with at most one rewrite -/

/-- The event leaves the contents of the flash alone. -/
def Still : FlashOp → Prop
  | .erase _ | .program _ _ => False
  | _ => True

/-- Reads alone leave the contents as they are. -/
theorem applyAll_still {ops : List FlashOp} (h : ∀ op ∈ ops, Still op) (f : Flash) :
    applyAll ops f = f := by
  induction ops with
  | nil => rfl
  | cons op ops ih =>
      have hrest : ∀ op ∈ ops, Still op := fun x hx => h x (List.mem_cons_of_mem op hx)
      have hop : Still op := h op List.mem_cons_self
      have hsame : op.apply f = f := by
        cases op with
        | erase addr => exact hop.elim
        | program addr data => exact hop.elim
        | read addr len => rfl
        | underflow => rfl
        | write_raw data => rfl
        | gate_req => rfl
        | gate_running => rfl
        | gate_ack => rfl
        | reinit => rfl
        | gate_release => rfl
      rw [applyAll_cons, hsame, ih hrest]

/-- Apart from the rewrite of one complete bank, if any, the events leave the
flash alone. -/
def OneRewrite (ops : List FlashOp) : Prop :=
  (∀ op ∈ ops, Still op)
    ∨ ∃ data pre late, data.length = STORAGE_IMAGE_SIZE ∧ ops = pre ++ (writeOps data ++ late)
      ∧ (∀ op ∈ pre, Still op) ∧ ∀ op ∈ late, Still op

/-- What the boot finds that follows a crash among the events `ops` with the
flash at `g`, `f` being the flash before them: the old bank; or no header, so
that it formats; or a new bank, in part. -/
def AfterCrash (f : Flash) (ops : List FlashOp) (g : Flash) : Prop :=
  g = f ∨ value needs_format g = some true
    ∨ ∃ data j e, .write_raw data ∈ ops ∧ 0 < j ∧ j ≤ 7 ∧ (e = true → j < 7)
      ∧ Mixed f data j e g ∧ (j = 7 → g = written f data)

/-- **A crash among such events, at any point.** -/
theorem OneRewrite.crash {ops : List FlashOp} (h : OneRewrite ops) (f : Flash) (k : ℕ) :
    AfterCrash f ops (applyAll (ops.take k) f) := by
  rcases h with hstill | ⟨data, pre, late, hlen, rfl, hpre, hlate⟩
  · refine Or.inl (applyAll_still ?_ f)
    intro op hop
    exact hstill op (List.mem_of_mem_take hop)
  · -- only the part of the cut inside the rewrite matters
    obtain ⟨m, hm⟩ : ∃ m, applyAll ((pre ++ (writeOps data ++ late)).take k) f
        = applyAll ((sectorsOps data 7).take m) f := by
      refine ⟨k - pre.length - 1, ?_⟩
      have hp : ∀ op ∈ pre.take k, Still op := fun op hop => hpre op (List.mem_of_mem_take hop)
      have hl : ∀ n, ∀ op ∈ late.take n, Still op :=
        fun n op hop => hlate op (List.mem_of_mem_take hop)
      rw [List.take_append, List.take_append, applyAll_append, applyAll_append,
        applyAll_still hp, applyAll_still (hl _), writeOps, sectorCount_image hlen]
      cases k - pre.length with
      | zero => rfl
      | succ n => rfl
    obtain ⟨j, e, hj, he, htorn⟩ := applyAll_take_sectorsOps f data 7 m
    rw [hm, htorn]
    -- the header is in the first sector
    by_cases hzero : j = 0
    · subst hzero
      cases e with
      | false => exact Or.inl (torn_zero f data)
      | true =>
          refine Or.inr (Or.inl ?_)
          rw [value, needs_format_run, decide_eq_false (torn_erased_header f data)]
          rfl
    · refine Or.inr (Or.inr ⟨data, j, e, ?_, Nat.pos_of_ne_zero hzero, hj, he,
        torn_mixed hlen (Nat.pos_of_ne_zero hzero) hj, ?_⟩)
      · exact List.mem_append_right _ (List.mem_append_left _ List.mem_cons_self)
      · rintro rfl
        have hwhole : e = false := Bool.eq_false_iff.mpr fun h => absurd (he h) (by omega)
        rw [hwhole, torn_full hlen]

end Storage

/-! ## The rewrites of the task -/

namespace MidiTask

open Sysex Storage

variable {F : Type}

/-- The flash events among some effects. -/
def flashOf (es : List (Effect F)) : List FlashOp :=
  es.filterMap fun e => match e with
    | .flash op => some op
    | _ => none

@[simp] theorem flashOf_nil : flashOf ([] : List (Effect F)) = [] := rfl

@[simp] theorem flashOf_cons_flash (op : FlashOp) (es : List (Effect F)) :
    flashOf (.flash op :: es) = op :: flashOf es := rfl

@[simp] theorem flashOf_cons_sysex (call : SysexCall) (es : List (Effect F)) :
    flashOf (.handle_sysex call :: es) = flashOf es := rfl

theorem flashOf_append (es fs : List (Effect F)) : flashOf (es ++ fs) = flashOf es ++ flashOf fs :=
  List.filterMap_append

@[simp] theorem flashOf_flash (ops : List FlashOp) :
    flashOf (ops.map (Effect.flash (F := F))) = ops := by
  rw [flashOf, List.filterMap_map]
  exact List.filterMap_some

/-- An access is among the flash events when it is among the effects. -/
theorem mem_flashOf {es : List (Effect F)} {op : FlashOp} :
    op ∈ flashOf es ↔ Effect.flash op ∈ es := by
  unfold flashOf
  rw [List.mem_filterMap]
  constructor
  · rintro ⟨e, he, heq⟩
    cases e with
    | flash op' =>
        cases heq
        exact he
    | control op' => cases heq
    | preset_send p => cases heq
    | led on => cases heq
    | write_packet p => cases heq
    | handle_sysex call => cases heq
  · intro h
    exact ⟨_, h, rfl⟩

/-- Quiet effects leave the flash alone. -/
theorem flashOf_quiet {es : List (Effect F)} (h : ∀ e ∈ es, Quiet e) :
    ∀ op ∈ flashOf es, Still op := by
  intro op hop
  have hquiet := h _ (mem_flashOf.mp hop)
  cases op with
  | erase addr => exact hquiet.elim
  | program addr data => exact hquiet.elim
  | read addr len => trivial
  | underflow => trivial
  | write_raw data => trivial
  | gate_req => trivial
  | gate_running => trivial
  | gate_ack => trivial
  | reinit => trivial
  | gate_release => trivial

/-- Replies to the host access no flash. -/
theorem flashOf_packets (ps : List Packet) :
    flashOf (ps.map (Effect.write_packet (F := F))) = [] := by
  rw [flashOf, List.filterMap_map, List.filterMap_eq_nil_iff]
  intro p _
  rfl

section Work

variable [F32 F]

/-- A write request writes the whole image or nothing. -/
theorem write_req_one_rewrite (n : ℕ) (ov : Bool) (t : MidiTask F) :
    OneRewrite (flashOf (handle_write_req n ov t).1) := by
  by_cases hlen : ov = true ∨ n ≠ STORAGE_IMAGE_SIZE
  · rw [write_req_bad_length hlen, flashOf_packets]
    exact Or.inl (by simp)
  · rw [not_or, Bool.not_eq_true, ne_eq, not_not] at hlen
    obtain ⟨rfl, rfl⟩ := hlen
    by_cases hvalid : (StorageHeader.from_bytes t.rx.image.toList).Valid
    · have hquiet := (load_leaves (quiet_allows (F := F) (written t.flash t.rx.image.toList))
        t.current_preset_index t.rx { t with flash := written t.flash t.rx.image.toList } rfl).1
      refine Or.inr ⟨t.rx.image.toList, [], _, Vector.length_toList, ?_, by simp,
        flashOf_quiet hquiet⟩
      rw [write_req_accepted hvalid, flashOf_append, flashOf_append, flashOf_flash,
        flashOf_packets, List.nil_append, List.nil_append]
    · rw [write_req_bad_magic hvalid, flashOf_packets]
      exact Or.inl (by simp)

/-- SysEx of any kind: only the write request writes. -/
theorem sysex_one_rewrite (call : SysexCall) (t : MidiTask F) :
    OneRewrite (flashOf (handle_sysex call t).1) := by
  by_cases hdump : call.cmd = CMD_DUMP_REQ
  · rw [handle_sysex_dump hdump, dump_req_run, flashOf_cons_sysex, flashOf_cons_flash,
      flashOf_packets]
    exact Or.inl (List.forall_mem_cons.mpr ⟨trivial, by simp⟩)
  by_cases hwrite : call.cmd = CMD_WRITE_REQ
  · rw [handle_sysex_write hwrite, flashOf_cons_sysex]
    exact write_req_one_rewrite call.raw_len call.overflow t
  · rw [handle_sysex_other hdump hwrite, flashOf_cons_sysex, flashOf_nil]
    exact Or.inl (by simp)

/-- **A piece of work rewrites the bank at most once, and always a whole one.** -/
theorem work_one_rewrite (w : Work) (t : MidiTask F) :
    OneRewrite (flashOf (handle_work w t).1) := by
  cases w with
  | voice status d1 d2 =>
      rw [handle_work, handle_voice_message_eq]
      have hquiet := (voice_leaves (quiet_allows (F := F) t.flash) (voiceKind status d1 d2)
        t.rx t rfl).1
      exact Or.inl (flashOf_quiet hquiet)
  | sysex_byte b =>
      cases hcall : (t.rx.receive b).2 with
      | none =>
          rw [handle_work, sysex_byte_quiet hcall, flashOf_nil]
          exact Or.inl (by simp)
      | some call =>
          rw [handle_work, sysex_byte_call hcall]
          exact sysex_one_rewrite call _
  | reset_storage =>
      rw [reset_storage_run, flashOf_flash]
      exact Or.inr ⟨format_image, [], [], format_image_length, by simp, by simp, by simp⟩

/-- On the way into its loop the task only reads. -/
theorem enter_loop_still (f : Flash) : ∀ op ∈ (enter_loop (F := F) f).1, Still op := by
  rw [enter_loop_eq, enterOps]
  split
  · exact List.forall_mem_cons.mpr ⟨trivial, List.forall_mem_cons.mpr ⟨trivial, by simp⟩⟩
  · change ∀ op ∈ missOps f, Still op
    rw [missOps, List.forall_mem_cons]
    refine ⟨trivial, ?_⟩
    split
    · exact List.forall_mem_cons.mpr ⟨trivial, by simp⟩
    · simp

/-- The events of a boot. -/
theorem boot_events (f : Flash) :
    (boot (F := F) f).1
      = .read ADDR_OFFSET 16 :: (start (F := F) (!decide (header f).Valid) f).1 := by
  rw [boot, Proc.bind_some (needs_format_run f)]
  rfl

/-- The events of a start that formats, for any outcome of the format. -/
theorem start_events {f f' : Flash} {ops : List FlashOp}
    (h : Storage.format f = (ops, some ((), f'))) :
    (start (F := F) true f).1 = ops ++ (enter_loop (F := F) f').1 := by
  rw [start, if_pos rfl, Proc.bind_some h]

/-- The deferred format at boot is the only rewrite before the loop. -/
theorem boot_one_rewrite (f : Flash) : OneRewrite (boot (F := F) f).1 := by
  rw [boot_events]
  by_cases hvalid : (header f).Valid
  · rw [decide_eq_true hvalid, Bool.not_true, start, if_neg Bool.false_ne_true]
    exact Or.inl (List.forall_mem_cons.mpr ⟨trivial, enter_loop_still f⟩)
  · rw [decide_eq_false hvalid, Bool.not_false, start_events (format_run f)]
    refine Or.inr ⟨format_image, [.read ADDR_OFFSET 16], _, format_image_length,
      (List.singleton_append).symm, ?_, enter_loop_still (written f format_image)⟩
    exact List.forall_mem_cons.mpr ⟨trivial, by simp⟩

/-- **A restart at any point of any work of the task, or of its boot, leaves the
old bank, or no header, or the new header over the sectors written so far.** In the last
case every record in front of the cut is new and every record behind it old, and the
bank looks whole to the boot: the header is written first, and nothing says how much of
what it counts has followed. -/
theorem restart_anywhere (t : MidiTask F) (w : Work) (f : Flash) (k : ℕ) :
    AfterCrash t.flash (flashOf (handle_work w t).1)
        (applyAll ((flashOf (handle_work w t).1).take k) t.flash)
      ∧ AfterCrash f (boot (F := F) f).1 (applyAll ((boot (F := F) f).1.take k) f) :=
  ⟨(work_one_rewrite w t).crash t.flash k, (boot_one_rewrite f).crash f k⟩

end Work

/-! ## A half-written bank -/

/-- The first name byte of a record, where it lies in flash. -/
theorem recordAt_name (f : Flash) (i : ℕ) : (recordAt f i).name[0] = f (recordAddr i) := by
  have hlen : 0 < (NorFlash.read f (recordAddr i) PRESET_SIZE).length := by
    rw [NorFlash.read_length]
    decide
  have hname : (recordAt f i).name[0]
      = (NorFlash.read f (recordAddr i) PRESET_SIZE).getD 0 0 := by
    rw [recordAt, Preset.from_bytes]
    simp only [Vector.getElem_ofFn]
  rw [hname, List.getD_eq_getElem _ _ hlen, NorFlash.read_getElem]
  rfl

/-- A bank of 128 presets all of whose record bytes are `b`. -/
def filledImage (b : UInt8) : Vector UInt8 STORAGE_IMAGE_SIZE :=
  Vector.ofFn fun i =>
    if (i : ℕ) < 16 then (StorageHeader.to_bytes ⟨MAGIC, VERSION, 128, 0⟩).getD i 0 else b

/-- The header is that of 128 presets, and behind it all bytes are the same. -/
theorem filledImage_getD (b : UInt8) {k : ℕ} (hk : k < STORAGE_IMAGE_SIZE) :
    (filledImage b).toList.getD k 0
      = if k < 16 then (StorageHeader.to_bytes ⟨MAGIC, VERSION, 128, 0⟩).getD k 0 else b := by
  rw [List.getD_eq_getElem _ _ (by rw [Vector.length_toList]; exact hk), Vector.getElem_toList,
    filledImage, Vector.getElem_ofFn]

/-- The header of a filled bank is valid. -/
theorem filledImage_header (b : UInt8) :
    StorageHeader.from_bytes (filledImage b).toList = ⟨MAGIC, VERSION, 128, 0⟩ := by
  have hdecode := from_bytes_to_bytes ⟨MAGIC, VERSION, 128, 0⟩ []
  rw [List.append_nil] at hdecode
  rw [← hdecode]
  refine from_bytes_congr fun k hk => ?_
  have hsize : k < STORAGE_IMAGE_SIZE := by
    rw [image_size]
    omega
  rw [filledImage_getD b hsize, if_pos hk]

/-- The same count and the same presets. -/
def SameBank (g f : Flash) : Prop :=
  value num_presets g = value num_presets f
    ∧ ∀ i, value (load_preset i) g = value (load_preset i) f

/-- Banks with the same presets have the same first name bytes. -/
theorem SameBank.name {g f : Flash} {i : ℕ} (h : SameBank g f) (hg : i < presetCount g)
    (hf : i < presetCount f) (hi : i ≤ LAST_RECORD) : g (recordAddr i) = f (recordAddr i) := by
  have hload := h.2 i
  rw [value, value, load_preset_found hg hi, load_preset_found hf hi] at hload
  have hrecord : recordAt g i = recordAt f i := by
    simpa using hload
  rw [← recordAt_name g i, ← recordAt_name f i, hrecord]

/-- A first byte of the record area of a filled bank. -/
theorem filledImage_record (b : UInt8) {i : ℕ} (hi : i < 128) :
    (filledImage b).toList.getD (16 + i * PRESET_SIZE) 0 = b := by
  have hsize : 16 + i * PRESET_SIZE < STORAGE_IMAGE_SIZE := by
    simp only [PRESET_SIZE, image_size]
    omega
  rw [filledImage_getD b hsize, if_neg (by omega)]

/-- A filled bank that was written counts 128 presets. -/
theorem written_filled_count (f : Flash) (b : UInt8) :
    presetCount (written f (filledImage b).toList) = 128 := by
  rw [presetCount, header_written Vector.length_toList, filledImage_header]
  rfl

/-- And the first byte of each record is the one it was filled with. -/
theorem written_filled_record (f : Flash) (b : UInt8) {i : ℕ} (hi : i < 128) :
    written f (filledImage b).toList (recordAddr i) = b := by
  have hsize : 16 + i * PRESET_SIZE < STORAGE_IMAGE_SIZE := by
    simp only [PRESET_SIZE, image_size]
    omega
  rw [written_image Vector.length_toList, recordAddr, Nat.add_assoc, overlay_inside hsize,
    filledImage_record b hi]

/-- **The first sector of a bank over the rest of another one is accepted as a
bank, and it is neither.** -/
theorem torn_bank_accepted {f₀ f g : Flash} (hf : f = written f₀ (filledImage 0).toList)
    (hg : g = torn f (filledImage 1).toList 1 false) :
    value needs_format g = some false ∧ ¬ SameBank g f
      ∧ ¬ SameBank g (written f (filledImage 1).toList) := by
  have hheader : header g = ⟨MAGIC, VERSION, 128, 0⟩ := by
    rw [hg, torn_header false Nat.one_pos, filledImage_header]
  have hgcount : presetCount g = 128 := by
    rw [presetCount, hheader]
    rfl
  have hfcount : presetCount f = 128 := by rw [hf, written_filled_count]
  have hncount := written_filled_count f 1
  refine ⟨?_, ?_, ?_⟩
  · rw [value, needs_format_run, hheader]
    rfl
  · -- record 0 is new
    intro hsame
    have hnew : g (recordAddr 0) = 1 := by
      rw [recordAddr, Nat.add_assoc, hg, torn_inside false (by decide)]
      exact filledImage_record 1 (by decide)
    have hname := hsame.name (by rw [hgcount]; decide) (by rw [hfcount]; decide) (Nat.zero_le _)
    rw [hnew, hf, written_filled_record f₀ 0 (show 0 < 128 by decide)] at hname
    exact absurd hname (by decide)
  · -- record 127 is old
    intro hsame
    have hold : g (recordAddr 127) = f (recordAddr 127) := by
      rw [recordAddr, Nat.add_assoc, hg]
      exact torn_beyond (by decide)
    have hname : g (recordAddr 127) = written f (filledImage 1).toList (recordAddr 127) :=
      hsame.name (by rw [hgcount]; decide) (by rw [hncount]; decide) (by decide)
    rw [hold, written_filled_record f 1 (show 127 < 128 by decide), hf,
      written_filled_record f₀ 0 (show 127 < 128 by decide)] at hname
    exact absurd hname (by decide)

/-- The first sector of an accepted image is written, the others are not. -/
theorem write_req_first_sector {t : MidiTask ℝ} (himage : t.rx.image = filledImage 1) :
    applyAll ((flashOf (handle_write_req STORAGE_IMAGE_SIZE false t).1).take 8) t.flash
      = torn t.flash (filledImage 1).toList 1 false := by
  have haccept : (StorageHeader.from_bytes t.rx.image.toList).Valid := by
    rw [himage, filledImage_header]
    exact ⟨rfl, rfl⟩
  have hfirst : ∀ late, (sectorsOps (filledImage 1).toList 7 ++ late).take 7
      = sectorsOps (filledImage 1).toList 1 := fun late => rfl
  rw [write_req_accepted haccept, himage, flashOf_append, flashOf_flash, writeOps,
    sectorCount_image Vector.length_toList, List.cons_append, List.take_succ_cons, hfirst,
    applyAll_cons, applyAll_sectorsOps, torn, if_neg Bool.false_ne_true]
  rfl

/-- A restart after the first sector of an accepted write. -/
theorem restart_not_atomic :
    ¬ ∀ (t : MidiTask ℝ) (k : ℕ), (header t.flash).Valid →
      (StorageHeader.from_bytes t.rx.image.toList).Valid →
      let g := applyAll ((flashOf (handle_write_req STORAGE_IMAGE_SIZE false t).1).take k) t.flash
      value needs_format g = some true ∨ SameBank g t.flash
        ∨ SameBank g (written t.flash t.rx.image.toList) := by
  intro hclaim
  obtain ⟨t, hflash, himage⟩ : ∃ t : MidiTask ℝ,
      t.flash = written (fun _ => 0) (filledImage 0).toList ∧ t.rx.image = filledImage 1 :=
    ⟨{ entered ℝ (written (fun _ => 0) (filledImage 0).toList) with
        rx := { SysexRx.new with image := filledImage 1 } }, rfl, rfl⟩
  -- a bank of names 0, overwritten with names 1 up to the first sector
  obtain ⟨hboots, hold, hnew⟩ := torn_bank_accepted hflash rfl
  have hvalid : (header t.flash).Valid := by
    rw [hflash, header_written Vector.length_toList, filledImage_header]
    exact ⟨rfl, rfl⟩
  have haccept : (StorageHeader.from_bytes t.rx.image.toList).Valid := by
    rw [himage, filledImage_header]
    exact ⟨rfl, rfl⟩
  have hcut := hclaim t 8 hvalid haccept
  rw [write_req_first_sector himage] at hcut
  rcases hcut with h | h | h
  · rw [hboots] at h
    exact absurd h (by decide)
  · exact hold h
  · rw [himage] at h
    exact hnew h

end MidiTask

end PicoDsp
