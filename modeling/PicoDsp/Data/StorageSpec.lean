/-
What the storage functions do, one lemma for each function.

Callers use these and never unfold the functions. The reading side says which flash
accesses happen and when one of them leaves the flash; the writing side turns a
`write_raw` into the list of its events (`writeOps`) and the contents after any number of
whole sectors into `overlay`.

The loader has three outcomes, and which it is depends on two numbers only, the count in
the header and the last record that ends inside the flash (`LAST_RECORD`). The count is
whatever the header says. An index between the two is asked for, and halts the device;
with a bank of the size that the format writes there is none such.

For writes the contents after `j` sectors are given a closed form, because a power cut or
the other core may look at any of them: the first `j` sectors are the data with zeros
behind it, and the others are what they were. The whole write is the case where `j` is
the number of sectors.
-/
import PicoDsp.Data.Storage

set_option autoImplicit false

namespace PicoDsp.Storage

open Lib

/-! ## The bank as read back -/

/-- The header at the start of the storage region. -/
def header (f : Flash) : StorageHeader :=
  StorageHeader.from_bytes (NorFlash.read f ADDR_OFFSET 16)

/-- The number of presets the header claims. -/
def presetCount (f : Flash) : ℕ := (header f).num_presets.toNat

/-- Address of record `i`. -/
def recordAddr (i : ℕ) : ℕ := ADDR_OFFSET + 16 + i * PRESET_SIZE

/-- Record `i` of the storage region. -/
def recordAt (f : Flash) (i : ℕ) : Preset UInt32 :=
  Preset.from_bytes (NorFlash.read f (recordAddr i) PRESET_SIZE)

/-- The last record that ends inside the flash. -/
def LAST_RECORD : ℕ := 326

/-- The record ends inside the flash just when it is not behind the last one. -/
theorem recordAddr_le_iff (i : ℕ) : recordAddr i + PRESET_SIZE ≤ FLASH_SIZE ↔ i ≤ LAST_RECORD := by
  simp only [recordAddr, addr_offset, PRESET_SIZE, FLASH_SIZE, LAST_RECORD]
  omega

/-- A read inside of the flash returns what is there. -/
theorem flash_read_run {addr len : ℕ} (h : addr + len ≤ FLASH_SIZE) (f : Flash) :
    flash_read addr len f = ([.read addr len], some (NorFlash.read f addr len, f)) := by
  simp only [flash_read, Proc.emit_bind_run, if_pos h, Proc.get_bind_run, Proc.pure_run]

/-- A read past the end is an error, and its `unwrap` halts. -/
theorem flash_read_panic {addr len : ℕ} (h : ¬ addr + len ≤ FLASH_SIZE) (f : Flash) :
    flash_read addr len f = ([.read addr len], none) := by
  simp only [flash_read, Proc.emit_bind_run, if_neg h, Proc.panic_run]

/-- The header is inside the flash, so reading it always succeeds. -/
theorem header_read_run (f : Flash) :
    flash_read ADDR_OFFSET 16 f
      = ([.read ADDR_OFFSET 16], some (NorFlash.read f ADDR_OFFSET 16, f)) :=
  flash_read_run (by decide) f

/-- One read, and the answer is whether the header is another one. -/
theorem needs_format_run (f : Flash) :
    needs_format f = ([.read ADDR_OFFSET 16], some (!decide (header f).Valid, f)) := by
  have hbeq : ∀ h : StorageHeader, (h.magic != MAGIC || h.version != VERSION)
      = !decide h.Valid := by
    intro h
    rw [Bool.eq_iff_iff]
    have hnot : ¬ h.Valid ↔ h.magic ≠ MAGIC ∨ h.version ≠ VERSION := not_and_or
    rw [Bool.or_eq_true, bne_iff_ne, bne_iff_ne, Bool.not_eq_true', decide_eq_false_iff_not, hnot]
  rw [needs_format, Proc.bind_some (header_read_run f)]
  simp only [Proc.pure_run, hbeq]
  rfl

/-- One read, and the answer is what the header claims. -/
theorem num_presets_run (f : Flash) :
    num_presets f = ([.read ADDR_OFFSET 16], some (presetCount f, f)) := by
  rw [num_presets, Proc.bind_some (header_read_run f)]
  rfl

/-- The subtraction wraps, and leaves a mark exactly when it does. -/
theorem u32_sub_run (a b : UInt32) (f : Flash) :
    u32_sub a b f = (if a < b then [.underflow] else [], some (a - b, f)) := by
  unfold u32_sub
  by_cases hlt : a < b
  · rw [if_pos hlt, if_pos hlt]
    rfl
  · rw [if_neg hlt, if_neg hlt]
    rfl

/-- An index at or above the count: no record is read, and the log argument
goes below zero exactly when the bank is empty. -/
theorem load_preset_missing {f : Flash} {i : ℕ} (h : presetCount f ≤ i) :
    load_preset i f
      = (.read ADDR_OFFSET 16 :: if presetCount f = 0 then [.underflow] else [],
          some (none, f)) := by
  have hle : (StorageHeader.from_bytes (NorFlash.read f ADDR_OFFSET 16)).num_presets.toNat ≤ i := h
  have hsub : (StorageHeader.from_bytes (NorFlash.read f ADDR_OFFSET 16)).num_presets < 1
      ↔ presetCount f = 0 := by
    rw [UInt32.lt_iff_toNat_lt, presetCount, header]
    exact Nat.lt_one_iff
  rw [load_preset, Proc.bind_some (header_read_run f)]
  simp only [if_pos hle]
  rw [Proc.bind_some (u32_sub_run _ 1 f)]
  simp only [hsub, Proc.pure_run, List.append_nil]
  rfl

/-- The shared first half of the two outcomes of an index below the count: the
offset does not wrap and the record is asked for. -/
private theorem load_preset_asks {f : Flash} {i : ℕ} (h : i < presetCount f) (hi : i < 2 ^ 24) :
    load_preset i f
      = (.read ADDR_OFFSET 16 :: (flash_read (recordAddr i) PRESET_SIZE f).1,
          (flash_read (recordAddr i) PRESET_SIZE f).2.map
            fun r => (some (Preset.from_bytes r.1), r.2)) := by
  have hlt : ¬ (StorageHeader.from_bytes (NorFlash.read f ADDR_OFFSET 16)).num_presets.toNat ≤ i :=
    Nat.not_le.mpr h
  have hoff : (ADDR_OFFSET + 16 + i * PRESET_SIZE % 2 ^ 32) % 2 ^ 32 = recordAddr i := by
    simp only [recordAddr, addr_offset, PRESET_SIZE]
    omega
  rw [load_preset, Proc.bind_some (header_read_run f)]
  simp only [if_neg hlt, hoff, if_neg (show ¬ 256 < PRESET_SIZE by decide)]
  rcases hr : flash_read (recordAddr i) PRESET_SIZE f with ⟨es, _ | ⟨buf, f'⟩⟩
  · rw [Proc.bind_none hr]
    rfl
  · rw [Proc.bind_some hr]
    simp

/-- A record inside the flash is returned as it lies there. -/
theorem load_preset_found {f : Flash} {i : ℕ} (h : i < presetCount f) (hi : i ≤ LAST_RECORD) :
    load_preset i f
      = ([.read ADDR_OFFSET 16, .read (recordAddr i) PRESET_SIZE],
          some (some (recordAt f i), f)) := by
  have hbound : i < 2 ^ 24 := by
    simp only [LAST_RECORD] at hi
    omega
  rw [load_preset_asks h hbound, flash_read_run ((recordAddr_le_iff i).mpr hi)]
  rfl

/-- A record past the end of the flash halts the device. -/
theorem load_preset_halts {f : Flash} {i : ℕ} (h : i < presetCount f) (hi : LAST_RECORD < i)
    (hbound : i < 2 ^ 24) :
    load_preset i f
      = ([.read ADDR_OFFSET 16, .read (recordAddr i) PRESET_SIZE], none) := by
  have hout : ¬ recordAddr i + PRESET_SIZE ≤ FLASH_SIZE := by
    rw [recordAddr_le_iff]
    omega
  rw [load_preset_asks h hbound, flash_read_panic hout]
  rfl

/-- Whatever the index, a load only reads (or goes below zero), and leaves the
flash as it is. -/
theorem load_preset_reads (i : ℕ) (f : Flash) :
    (∀ op ∈ (load_preset i f).1, (∃ addr len, op = .read addr len) ∨ op = .underflow)
      ∧ ∀ r g, (load_preset i f).2 = some (r, g) → g = f := by
  have hread : ∀ addr len (g : Flash), Proc.Triple (fun g' => g' = g) (flash_read addr len)
      (fun op => (∃ addr len, op = FlashOp.read addr len) ∨ op = .underflow)
      (fun _ g' => g' = g) := by
    rintro addr len g _ rfl
    by_cases hin : addr + len ≤ FLASH_SIZE
    · rw [flash_read_run hin]
      refine ⟨by simp, ?_⟩
      rintro a g' hg
      cases hg
      rfl
    · rw [flash_read_panic hin]
      exact ⟨by simp, by simp⟩
  have hload : Proc.Triple (fun g => g = f) (load_preset i)
      (fun op => (∃ addr len, op = FlashOp.read addr len) ∨ op = .underflow)
      (fun _ g => g = f) := by
    refine Proc.Triple.bind (hread _ _ f) fun buf => ?_
    by_cases hle : (StorageHeader.from_bytes buf).num_presets.toNat ≤ i
    · simp only [if_pos hle]
      -- past the count the log line subtracts one from it
      have hsub : Proc.Triple (fun g => g = f)
          (u32_sub (StorageHeader.from_bytes buf).num_presets 1)
          (fun op => (∃ addr len, op = FlashOp.read addr len) ∨ op = .underflow)
          (fun _ g => g = f) := by
        rintro g rfl
        rw [u32_sub_run]
        refine ⟨?_, fun a g' h => by cases h; rfl⟩
        intro op hop
        split at hop
        · exact Or.inr (List.mem_singleton.mp hop)
        · cases hop
      exact Proc.Triple.bind hsub fun _ => Proc.Triple.pure fun _ h => h
    · simp only [if_neg hle, if_neg (show ¬ 256 < PRESET_SIZE by decide)]
      exact Proc.Triple.bind (hread _ _ f) fun _ => Proc.Triple.pure fun _ h => h
  exact hload f rfl

/-- The buffer is filled as far as the region goes. -/
theorem read_raw_run (f : Flash) (n : ℕ) :
    read_raw n f = ([.read ADDR_OFFSET (min n STORAGE_SIZE)],
      some (NorFlash.read f ADDR_OFFSET (min n STORAGE_SIZE), f)) := by
  refine flash_read_run ?_ f
  have hmin : min n STORAGE_SIZE ≤ STORAGE_SIZE := Nat.min_le_right _ _
  simp only [addr_offset, STORAGE_SIZE, FLASH_SIZE] at hmin ⊢
  omega

/-! ## One sector -/

/-- The events of one pass of the loop of `write_raw`. -/
def sectorOps (data : List UInt8) (off : ℕ) : List FlashOp :=
  [.gate_req, .gate_running, .gate_ack, .erase (ADDR_OFFSET + off),
    .program (ADDR_OFFSET + off) (sector_buffer data off), .reinit, .gate_release]

/-- The buffer is a whole sector. -/
@[simp] theorem sector_buffer_length (data : List UInt8) (off : ℕ) :
    (sector_buffer data off).length = SECTOR_SIZE := by
  simp only [sector_buffer, List.length_append, List.length_take, List.length_drop,
    List.length_replicate]
  split <;> omega

/-- The sector buffer is the data, continued with zeros. -/
theorem sector_buffer_getElem (data : List UInt8) (off k : ℕ)
    (hk : k < (sector_buffer data off).length) :
    (sector_buffer data off)[k] = data.getD (off + k) 0 := by
  have hk' : k < SECTOR_SIZE := by rwa [sector_buffer_length] at hk
  rw [← List.getD_eq_getElem _ 0 hk]
  unfold sector_buffer
  by_cases hlt : off + k < data.length
  · have hn : (if off < data.length then min (data.length - off) SECTOR_SIZE else 0)
        = min (data.length - off) SECTOR_SIZE := if_pos (by omega)
    have hkn : k < min (data.length - off) SECTOR_SIZE := by omega
    have htake : k < ((data.drop off).take (min (data.length - off) SECTOR_SIZE)).length := by
      rw [List.length_take, List.length_drop]
      omega
    rw [hn, List.getD_append _ _ _ _ htake, List.getD_eq_getElem _ _ htake, List.getElem_take,
      List.getElem_drop, List.getD_eq_getElem _ _ hlt]
  · have hlen : ((data.drop off).take
        (if off < data.length then min (data.length - off) SECTOR_SIZE else 0)).length ≤ k := by
      rw [List.length_take, List.length_drop]
      split <;> omega
    have hzero : ∀ n m : ℕ, (List.replicate n (0 : UInt8)).getD m 0 = 0 := by
      intro n m
      rw [List.getD_eq_getElem?_getD, List.getElem?_replicate]
      split <;> rfl
    rw [List.getD_append_right _ _ _ _ hlen, hzero, List.getD_eq_default _ _ (by omega)]

/-- A pass of the loop inside of the region: its events, and their effect. -/
theorem write_sector_run {off : ℕ} (h : off + SECTOR_SIZE ≤ STORAGE_SIZE) (data : List UInt8)
    (f : Flash) :
    write_sector data off f
      = (sectorOps data off, some ((), applyAll (sectorOps data off) f)) := by
  have hend : ADDR_OFFSET + off + SECTOR_SIZE ≤ FLASH_SIZE := by
    simp only [addr_offset, STORAGE_SIZE, FLASH_SIZE, SECTOR_SIZE] at h ⊢
    omega
  simp only [write_sector, lock_core1_off_psram, flash_erase, flash_write, after_flash_write,
    unlock_core1, sector_buffer_length, if_pos hend]
  rfl

/-- A whole sector pass is an assignment of the sector. -/
theorem applyAll_sectorOps (data : List UInt8) (off : ℕ) (f : Flash) :
    applyAll (sectorOps data off) f
      = NorFlash.rewrite f (ADDR_OFFSET + off) (sector_buffer data off) := by
  rw [NorFlash.rewrite, sector_buffer_length]
  rfl

/-! ## A whole write -/

/-- The contents `f` with the first `m` bytes of the region replaced by `data`
(zeros behind its end). -/
def overlay (f : Flash) (data : List UInt8) (m : ℕ) : Flash :=
  fun a => if ADDR_OFFSET ≤ a ∧ a < ADDR_OFFSET + m then data.getD (a - ADDR_OFFSET) 0 else f a

/-- What is there after the write. -/
theorem overlay_inside {f : Flash} {data : List UInt8} {m k : ℕ} (hk : k < m) :
    overlay f data m (ADDR_OFFSET + k) = data.getD k 0 := by
  rw [overlay, if_pos ⟨by omega, by omega⟩, Nat.add_sub_cancel_left]

/-- What the write leaves alone. -/
theorem overlay_outside {f : Flash} {data : List UInt8} {m a : ℕ}
    (h : ¬ (ADDR_OFFSET ≤ a ∧ a < ADDR_OFFSET + m)) : overlay f data m a = f a := if_neg h

/-- No sector yet: the contents of before. -/
@[simp] theorem overlay_zero (f : Flash) (data : List UInt8) : overlay f data 0 = f := by
  funext a
  refine overlay_outside ?_
  omega

/-- One more sector. -/
theorem rewrite_overlay (f : Flash) (data : List UInt8) (j : ℕ) :
    NorFlash.rewrite (overlay f data (j * SECTOR_SIZE)) (ADDR_OFFSET + j * SECTOR_SIZE)
        (sector_buffer data (j * SECTOR_SIZE))
      = overlay f data ((j + 1) * SECTOR_SIZE) := by
  funext a
  have hnext : (j + 1) * SECTOR_SIZE = j * SECTOR_SIZE + SECTOR_SIZE := Nat.succ_mul _ _
  by_cases hsec : ADDR_OFFSET + j * SECTOR_SIZE ≤ a
      ∧ a < ADDR_OFFSET + j * SECTOR_SIZE + SECTOR_SIZE
  · obtain ⟨k, rfl⟩ : ∃ k, a = ADDR_OFFSET + j * SECTOR_SIZE + k :=
      ⟨a - (ADDR_OFFSET + j * SECTOR_SIZE), by omega⟩
    have hk : k < (sector_buffer data (j * SECTOR_SIZE)).length := by
      rw [sector_buffer_length]
      omega
    rw [NorFlash.rewrite_inside hk, sector_buffer_getElem, Nat.add_assoc ADDR_OFFSET,
      overlay_inside (by omega)]
  · rw [NorFlash.rewrite_outside (by rw [sector_buffer_length]; exact hsec)]
    by_cases hlow : ADDR_OFFSET ≤ a ∧ a < ADDR_OFFSET + j * SECTOR_SIZE
    · rw [overlay, overlay, if_pos hlow, if_pos ⟨hlow.1, by omega⟩]
    · rw [overlay_outside hlow, overlay_outside (by omega)]

/-- The events of the first `j` sectors. -/
def sectorsOps (data : List UInt8) (j : ℕ) : List FlashOp :=
  ((List.range j).map (· * SECTOR_SIZE)).flatMap (sectorOps data)

/-- The events of one more sector. -/
theorem sectorsOps_succ (data : List UInt8) (j : ℕ) :
    sectorsOps data (j + 1) = sectorsOps data j ++ sectorOps data (j * SECTOR_SIZE) := by
  simp [sectorsOps, List.range_succ]

/-- **The contents after `j` whole sectors.** -/
theorem applyAll_sectorsOps (data : List UInt8) (f : Flash) (j : ℕ) :
    applyAll (sectorsOps data j) f = overlay f data (j * SECTOR_SIZE) := by
  induction j with
  | zero => simp [sectorsOps, applyAll]
  | succ j ih => rw [sectorsOps_succ, applyAll_append, ih, applyAll_sectorOps, rewrite_overlay]

/-- The number of sectors `write_raw data` goes through. -/
def sectorCount (data : List UInt8) : ℕ :=
  min ((data.length + (SECTOR_SIZE - 1)) / SECTOR_SIZE) (STORAGE_SIZE / SECTOR_SIZE)

/-- The offsets of the loop. -/
theorem sector_offsets_eq (data : List UInt8) :
    sector_offsets (min (sectors_ceil data.length) STORAGE_SIZE)
      = (List.range (sectorCount data)).map (· * SECTOR_SIZE) := by
  rw [sector_offsets]
  congr 2
  simp only [sectorCount, sectors_ceil, SECTOR_SIZE, STORAGE_SIZE]
  omega

/-- The events of `write_raw data`. -/
def writeOps (data : List UInt8) : List FlashOp :=
  .write_raw data :: sectorsOps data (sectorCount data)

/-- The contents after `write_raw data`. -/
def written (f : Flash) (data : List UInt8) : Flash :=
  overlay f data (sectorCount data * SECTOR_SIZE)

/-- What the events of a write leave. -/
theorem applyAll_writeOps (data : List UInt8) (f : Flash) :
    applyAll (writeOps data) f = written f data := by
  rw [writeOps, applyAll_cons]
  exact applyAll_sectorsOps data f _

/-- **`write_raw`** never fails, and its events are its effect. -/
theorem write_raw_run (data : List UInt8) (f : Flash) :
    write_raw data f = (writeOps data, some ((), written f data)) := by
  -- no pass of the loop can fail
  have hbody : ∀ off ∈ (List.range (sectorCount data)).map (· * SECTOR_SIZE), ∀ f,
      write_sector data off f
        = (sectorOps data off, some ((), applyAll (sectorOps data off) f)) := by
    intro off hoff f
    obtain ⟨j, hj, rfl⟩ := List.mem_map.mp hoff
    rw [List.mem_range] at hj
    refine write_sector_run ?_ data f
    simp only [sectorCount, SECTOR_SIZE, STORAGE_SIZE] at hj ⊢
    omega
  have hstate : ∀ (offs : List ℕ) (f : Flash),
      offs.foldl (fun f off => applyAll (sectorOps data off) f) f
        = applyAll (offs.flatMap (sectorOps data)) f := by
    intro offs
    induction offs with
    | nil => intro f; rfl
    | cons off offs ih =>
        intro f
        rw [List.foldl_cons, ih, List.flatMap_cons, applyAll_append]
  rw [write_raw, Proc.emit_bind_run]
  simp only [sector_offsets_eq]
  rw [Proc.each_run_of_total hbody f, hstate]
  have happ := applyAll_sectorsOps data f (sectorCount data)
  unfold sectorsOps at happ
  rw [happ]
  rfl

/-! ## The image as a whole -/

/-- An image takes seven sectors. -/
theorem sectorCount_image {data : List UInt8} (h : data.length = STORAGE_IMAGE_SIZE) :
    sectorCount data = 7 := by
  rw [sectorCount, h]
  rfl

/-- After writing a whole image the region starts with the image. -/
theorem written_image {data : List UInt8} (h : data.length = STORAGE_IMAGE_SIZE) (f : Flash) :
    written f data = overlay f data STORAGE_IMAGE_SIZE := by
  rw [written, sectorCount_image h]
  rfl

/-- Writing back what is there changes nothing. -/
theorem written_self (f : Flash) :
    written f (NorFlash.read f ADDR_OFFSET STORAGE_IMAGE_SIZE) = f := by
  rw [written_image (NorFlash.read_length _ _ _)]
  funext a
  by_cases hin : ADDR_OFFSET ≤ a ∧ a < ADDR_OFFSET + STORAGE_IMAGE_SIZE
  · obtain ⟨k, rfl⟩ : ∃ k, a = ADDR_OFFSET + k := ⟨a - ADDR_OFFSET, by omega⟩
    have hk : k < (NorFlash.read f ADDR_OFFSET STORAGE_IMAGE_SIZE).length := by
      rw [NorFlash.read_length]
      omega
    rw [overlay_inside (by omega), List.getD_eq_getElem _ _ hk, NorFlash.read_getElem]
  · exact overlay_outside hin

/-- A header is 16 bytes. -/
theorem header_to_bytes_length (h : StorageHeader) : h.to_bytes.length = 16 := rfl

/-- Records lie one after the other without gaps. -/
theorem flatMap_to_bytes_length (ps : List (Preset UInt32)) :
    (ps.flatMap Preset.to_bytes).length = ps.length * PRESET_SIZE := by
  induction ps with
  | nil => rfl
  | cons p ps ih =>
      rw [List.flatMap_cons, List.length_append, ih, Preset.to_bytes_length, List.length_cons,
        Nat.succ_mul, Nat.add_comm]

/-- A header, the records, and what fills the last sector. -/
theorem bank_length (h : StorageHeader) (ps : List (Preset UInt32)) (n : ℕ) :
    (h.to_bytes ++ ps.flatMap Preset.to_bytes ++ List.replicate n 0).length
      = HEADER_SIZE + ps.length * PRESET_SIZE + n := by
  simp only [List.length_append, List.length_replicate, flatMap_to_bytes_length,
    header_to_bytes_length, HEADER_SIZE]

/-- The image of a fresh bank is as long as any image. -/
theorem format_image_length : format_image.length = STORAGE_IMAGE_SIZE := by
  have hsize : HEADER_SIZE + 128 * PRESET_SIZE + (sectors_ceil (HEADER_SIZE + 128 * PRESET_SIZE)
      - (HEADER_SIZE + 128 * PRESET_SIZE)) = STORAGE_IMAGE_SIZE := by decide
  have hlen := bank_length ⟨MAGIC, VERSION, UInt32.ofNat Factory.get_default_presets.length, 0⟩
    Factory.get_default_presets (sectors_ceil (HEADER_SIZE
      + Factory.get_default_presets.length * PRESET_SIZE)
      - (HEADER_SIZE + Factory.get_default_presets.length * PRESET_SIZE))
  rw [Factory.get_default_presets_length, hsize] at hlen
  rw [← hlen, ← Factory.get_default_presets_length]
  rfl

/-- Formatting is a write of that image. -/
theorem format_run (f : Flash) :
    format f = (writeOps format_image, some ((), written f format_image)) :=
  write_raw_run format_image f

/-- A header is decoded from its own 16 bytes. -/
theorem from_bytes_congr {as bs : List UInt8} (h : ∀ k, k < 16 → as.getD k 0 = bs.getD k 0) :
    StorageHeader.from_bytes as = StorageHeader.from_bytes bs := by
  have hword : ∀ off, off + 4 ≤ 16 → Bytes.u32At as off = Bytes.u32At bs off :=
    fun off hoff => Bytes.u32At_congr fun k _ hk => h k (by omega)
  simp only [StorageHeader.from_bytes, hword 0 (by omega), hword 4 (by omega),
    hword 8 (by omega), hword 12 (by omega)]

/-- A header read back from its bytes. -/
theorem from_bytes_to_bytes (h : StorageHeader) (rest : List UInt8) :
    StorageHeader.from_bytes (h.to_bytes ++ rest) = h := by
  have hword : ∀ (as : List UInt8) (w : UInt32) (bs : List UInt8),
      Bytes.u32At (as ++ (Bytes.to_le_bytes w ++ bs)) as.length = w := by
    intro as w bs
    have hright := Bytes.u32At_append_right as (Bytes.to_le_bytes w ++ bs) 0
    rw [Nat.add_zero] at hright
    rw [hright, Bytes.u32At_append_left _ _ (Nat.le_refl 4), Bytes.u32At_to_le_bytes]
  obtain ⟨m, v, n, p⟩ := h
  simp only [StorageHeader.from_bytes, StorageHeader.to_bytes, List.append_assoc,
    StorageHeader.mk.injEq]
  refine ⟨hword [] m _, hword (Bytes.to_le_bytes m) v _, ?_, ?_⟩
  · rw [← List.append_assoc]
    exact hword (Bytes.to_le_bytes m ++ Bytes.to_le_bytes v) n _
  · rw [← List.append_assoc, ← List.append_assoc]
    exact hword (Bytes.to_le_bytes m ++ Bytes.to_le_bytes v ++ Bytes.to_le_bytes n) p rest

/-- After writing a whole image its header is the header of the bank. -/
theorem header_written {data : List UInt8} (h : data.length = STORAGE_IMAGE_SIZE) (f : Flash) :
    header (written f data) = StorageHeader.from_bytes data := by
  refine from_bytes_congr fun k hk => ?_
  have hsize : k < STORAGE_IMAGE_SIZE := by
    rw [image_size]
    omega
  rw [List.getD_eq_getElem _ _ (by rw [NorFlash.read_length]; exact hk), NorFlash.read_getElem,
    written_image h, overlay_inside hsize]

/-- The header is the start of the image. -/
theorem header_read_image (f : Flash) :
    StorageHeader.from_bytes (NorFlash.read f ADDR_OFFSET STORAGE_IMAGE_SIZE) = header f := by
  have h := header_written (NorFlash.read_length f ADDR_OFFSET STORAGE_IMAGE_SIZE) f
  rw [written_self] at h
  exact h.symm

/-- The header of a fresh bank. -/
theorem header_format (f : Flash) :
    header (written f format_image) = ⟨MAGIC, VERSION, 128, 0⟩ := by
  rw [header_written format_image_length, format_image]
  simp only [List.append_assoc]
  rw [from_bytes_to_bytes, Factory.get_default_presets_length]
  rfl

end PicoDsp.Storage
