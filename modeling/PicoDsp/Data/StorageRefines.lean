/-
The storage refines an array of bytes.

The abstract side is `Region`, the 64 KiB of the storage as a function of their offset,
with one operation for each call of `Storage`. The device side is the same sequence of
calls run over NOR flash, where a byte is programmed by clearing bits and a sector is
erased first. The two agree on the contents and on everything that is read, and no point
of the run reaches outside the region. That last clause is about the events, not about
the final contents: a byte outside that is erased and put back would be seen.

On top of the array lies the bank: a header and records of 200 bytes. Whatever call
leaves one in the region (`Call.Holds`), `num_presets` and `load_preset` give it back.
The header and the records are those of the call, not of the flash, so the statement
closes the way from a list of presets through the bytes and the sectors to a preset.

A write of data that is longer than the region stops at its end; the array has no word
for that, so only data that fits is compared with it (`Call.Fits`).
-/
import PicoDsp.Data.StorageSpec

set_option autoImplicit false

namespace PicoDsp.Storage

open Lib

/-! ## The array of bytes -/

abbrev Region : Type := Fin STORAGE_SIZE → UInt8

/-- The storage region of a flash. -/
def region (f : Flash) : Region := fun k => f (ADDR_OFFSET + k)

/-- An address of the storage region. -/
def InRegion (a : ℕ) : Prop := ADDR_OFFSET ≤ a ∧ a < FLASH_SIZE

/-- The data, zeros up to the end of its last sector, and what was there before. -/
def Region.write (data : List UInt8) (r : Region) : Region := fun k =>
  if k.val < data.length then data.getD k 0
  else if k.val < sectors_ceil data.length then 0
  else r k

/-- The first `n` bytes, or all of them. -/
def Region.read (n : ℕ) (r : Region) : List UInt8 := (List.ofFn r).take n

/-- The calls that go to the whole region. -/
inductive Call where
  | write_raw (data : List UInt8)
  | format
  | read_raw (len : ℕ)

/-- What a call returns and leaves, on an array of bytes. -/
def Call.spec : Call → Region → List UInt8 × Region
  | .write_raw data, r => ([], r.write data)
  | .format, r => ([], r.write format_image)
  | .read_raw len, r => (r.read len, r)

def Region.calls : List Call → Region → List (List UInt8) × Region
  | [], r => ([], r)
  | c :: cs, r => ((c.spec r).1 :: (Region.calls cs (c.spec r).2).1, (Region.calls cs (c.spec r).2).2)

/-- The same call on the device. -/
def Call.run : Call → Proc Flash FlashOp (List UInt8)
  | .write_raw data => do
      Storage.write_raw data
      pure []
  | .format => do
      Storage.format
      pure []
  | .read_raw len => Storage.read_raw len

def run_calls : List Call → Proc Flash FlashOp (List (List UInt8))
  | [] => pure []
  | c :: cs => do
      let result ← c.run
      let results ← run_calls cs
      pure (result :: results)

/-- The data of a call fits into the region. -/
def Call.Fits : Call → Prop
  | .write_raw data => data.length ≤ STORAGE_SIZE
  | _ => True

/-! ## One call -/

/-- A write, seen from the array. -/
theorem region_written {data : List UInt8} (h : data.length ≤ STORAGE_SIZE) (f : Flash) :
    region (written f data) = (region f).write data := by
  funext k
  have hk := k.isLt
  have hcount : sectorCount data * SECTOR_SIZE = sectors_ceil data.length := by
    simp only [sectorCount, sectors_ceil, SECTOR_SIZE, STORAGE_SIZE] at h ⊢
    omega
  have hceil : data.length ≤ sectors_ceil data.length := by
    simp only [sectors_ceil, SECTOR_SIZE]
    omega
  unfold region Region.write written
  rw [hcount]
  by_cases hin : k.val < data.length
  · rw [if_pos hin, overlay_inside (by omega)]
  · rw [if_neg hin]
    by_cases hpad : k.val < sectors_ceil data.length
    · rw [if_pos hpad, overlay_inside hpad, List.getD_eq_default _ _ (by omega)]
    · rw [if_neg hpad, overlay_outside (by omega)]

/-- A read, seen from the array. -/
theorem region_read (f : Flash) (n : ℕ) :
    NorFlash.read f ADDR_OFFSET (min n STORAGE_SIZE) = (region f).read n := by
  apply List.ext_getElem
  · rw [NorFlash.read_length, Region.read, List.length_take, List.length_ofFn]
  · intro k h₁ h₂
    rw [NorFlash.read_getElem]
    simp only [Region.read, List.getElem_take, List.getElem_ofFn, region]

/-- An event that leaves everything outside the region as it is. -/
def Within (op : FlashOp) : Prop := ∀ (f : Flash) (a : ℕ), ¬ InRegion a → op.apply f a = f a

/-- Events within the region leave a byte outside of it as it was. -/
theorem applyAll_within {es : List FlashOp} (h : ∀ op ∈ es, Within op) (f : Flash) {a : ℕ}
    (ha : ¬ InRegion a) : applyAll es f a = f a := by
  induction es generalizing f with
  | nil => rfl
  | cons op es ih =>
      have hop := h op List.mem_cons_self
      have hes : ∀ op ∈ es, Within op := fun op hmem => h op (List.mem_cons_of_mem _ hmem)
      rw [applyAll_cons, ih hes, hop f a ha]

/-- A write erases and programs sectors of the region only. -/
theorem writeOps_within (data : List UInt8) : ∀ op ∈ writeOps data, Within op := by
  intro op hop f a ha
  rw [writeOps, List.mem_cons] at hop
  rcases hop with rfl | hop
  · rfl
  · obtain ⟨off, hoff, hop⟩ := List.mem_flatMap.mp hop
    obtain ⟨j, hj, rfl⟩ := List.mem_map.mp hoff
    rw [List.mem_range] at hj
    have hend : ADDR_OFFSET + j * SECTOR_SIZE + SECTOR_SIZE ≤ FLASH_SIZE := by
      simp only [sectorCount, addr_offset, SECTOR_SIZE, STORAGE_SIZE, FLASH_SIZE] at hj ⊢
      omega
    have hout : ¬ (ADDR_OFFSET + j * SECTOR_SIZE ≤ a
        ∧ a < ADDR_OFFSET + j * SECTOR_SIZE + SECTOR_SIZE) := by
      intro hin
      exact ha ⟨by omega, by omega⟩
    simp only [sectorOps, List.mem_cons, List.not_mem_nil, or_false] at hop
    rcases hop with rfl | rfl | rfl | rfl | rfl | rfl | rfl
    · rfl
    · rfl
    · rfl
    · exact NorFlash.erase_outside hout
    · exact NorFlash.program_outside (by rw [sector_buffer_length]; exact hout)
    · rfl
    · rfl

/-- The image of a fresh bank fits. -/
theorem format_image_fits : format_image.length ≤ STORAGE_SIZE := by
  rw [format_image_length, image_size, STORAGE_SIZE]
  omega

/-- A write, on the device and on the array. -/
theorem write_refines {data : List UInt8} (h : data.length ≤ STORAGE_SIZE) (f : Flash) :
    ∃ es g, (Storage.write_raw data >>= fun _ => (pure [] : Proc Flash FlashOp (List UInt8))) f
        = (es, some ([], g))
      ∧ region g = (region f).write data ∧ (∀ op ∈ es, Within op)
      ∧ ∀ a, ¬ InRegion a → g a = f a := by
  refine ⟨writeOps data, written f data, ?_, region_written h f, writeOps_within data, ?_⟩
  · rw [Proc.bind_some (write_raw_run data f), Proc.pure_run, List.append_nil]
  · intro a ha
    rw [← applyAll_writeOps]
    exact applyAll_within (writeOps_within data) f ha

/-- **One call**: what it does on the device is what it does on the array. -/
theorem call_refines {c : Call} (h : c.Fits) (f : Flash) :
    ∃ es g, c.run f = (es, some ((c.spec (region f)).1, g))
      ∧ region g = (c.spec (region f)).2 ∧ (∀ op ∈ es, Within op)
      ∧ ∀ a, ¬ InRegion a → g a = f a := by
  cases c with
  | write_raw data =>
      simp only [Call.run, Call.spec]
      exact write_refines h f
  | format =>
      -- nothing about the image but its length matters
      have hfits := format_image_fits
      rw [Call.run, Call.spec, Storage.format]
      generalize format_image = data at hfits ⊢
      exact write_refines hfits f
  | read_raw len =>
      simp only [Call.run, Call.spec]
      refine ⟨[.read ADDR_OFFSET (min len STORAGE_SIZE)], f, ?_, rfl, ?_, fun a _ => rfl⟩
      · rw [read_raw_run, region_read]
      · intro op hop f a _
        rw [List.mem_singleton] at hop
        rw [hop]
        rfl

/-! ## A run -/

/-- **Any sequence of calls.** -/
theorem calls_refine {cs : List Call} (h : ∀ c ∈ cs, c.Fits) (f : Flash) :
    ∃ es g, run_calls cs f = (es, some ((Region.calls cs (region f)).1, g))
      ∧ region g = (Region.calls cs (region f)).2 ∧ (∀ op ∈ es, Within op)
      ∧ ∀ a, ¬ InRegion a → g a = f a := by
  induction cs generalizing f with
  | nil =>
      refine ⟨[], f, rfl, rfl, ?_, fun a _ => rfl⟩
      intro op hop
      exact absurd hop List.not_mem_nil
  | cons c cs ih =>
      have hc := h c List.mem_cons_self
      have hcs : ∀ c ∈ cs, c.Fits := fun c hmem => h c (List.mem_cons_of_mem _ hmem)
      obtain ⟨es, g, hrun, hregion, hwithin, hout⟩ := call_refines hc f
      obtain ⟨es', g', hrun', hregion', hwithin', hout'⟩ := ih hcs g
      rw [hregion] at hrun' hregion'
      refine ⟨es ++ (es' ++ []), g', ?_, hregion', ?_, ?_⟩
      · rw [run_calls, Proc.bind_some hrun, Proc.bind_some hrun']
        rfl
      · intro op hop
        rw [List.append_nil, List.mem_append] at hop
        rcases hop with hop | hop
        · exact hwithin op hop
        · exact hwithin' op hop
      · intro a ha
        rw [hout' a ha, hout a ha]

/-! ## The bank in the array -/

/-- The region starts with the bytes. -/
def Region.StartsWith (r : Region) (bytes : List UInt8) : Prop :=
  ∀ k : Fin STORAGE_SIZE, k.val < bytes.length → r k = bytes.getD k 0

/-- The call leaves a bank in the region: this header, and these records behind it. -/
def Call.Holds : Call → StorageHeader → List (List UInt8) → Prop
  | .write_raw data, head, records => ∃ tail, data = head.to_bytes ++ records.flatten ++ tail
  | .format, head, records =>
      head = ⟨MAGIC, VERSION, 128, 0⟩ ∧ records = Factory.get_default_presets.map Preset.to_bytes
  | .read_raw _, _, _ => False

/-- A write begins at the beginning. -/
theorem Region.write_startsWith (r : Region) (bytes tail : List UInt8) :
    (r.write (bytes ++ tail)).StartsWith bytes := by
  intro k hk
  rw [Region.write, if_pos (by rw [List.length_append]; omega), List.getD_append _ _ _ _ hk]

/-- The image of a fresh bank is a bank: its header, its records, and what fills the last sector. -/
theorem format_image_eq : ∃ tail, format_image
    = (⟨MAGIC, VERSION, 128, 0⟩ : StorageHeader).to_bytes
      ++ (Factory.get_default_presets.map Preset.to_bytes).flatten ++ tail := by
  have hcount : (⟨MAGIC, VERSION, UInt32.ofNat 128, 0⟩ : StorageHeader)
      = ⟨MAGIC, VERSION, 128, 0⟩ := rfl
  refine ⟨List.replicate (sectors_ceil (HEADER_SIZE + 128 * PRESET_SIZE)
    - (HEADER_SIZE + 128 * PRESET_SIZE)) 0, ?_⟩
  rw [← List.flatMap_def]
  simp only [format_image, Factory.get_default_presets_length]
  rw [hcount]

/-- After a call that leaves a bank the region starts with it. -/
theorem Call.Holds.startsWith {c : Call} {head : StorageHeader} {records : List (List UInt8)}
    (h : c.Holds head records) (r : Region) :
    (c.spec r).2.StartsWith (head.to_bytes ++ records.flatten) := by
  cases c with
  | write_raw data =>
      obtain ⟨tail, rfl⟩ := h
      exact r.write_startsWith _ tail
  | format =>
      obtain ⟨rfl, rfl⟩ := h
      obtain ⟨tail, himage⟩ := format_image_eq
      simp only [Call.spec]
      rw [himage]
      exact r.write_startsWith _ _
  | read_raw len => exact absurd h id

/-- The header of a bank. -/
theorem header_of_startsWith {g : Flash} {head : StorageHeader} {rest : List UInt8}
    (h : (region g).StartsWith (head.to_bytes ++ rest)) : header g = head := by
  rw [← from_bytes_to_bytes head rest]
  refine from_bytes_congr fun k hk => ?_
  have hsize : k < STORAGE_SIZE := by
    rw [STORAGE_SIZE]
    omega
  have hlen : k < (head.to_bytes ++ rest).length := by
    rw [List.length_append, header_to_bytes_length]
    omega
  rw [List.getD_eq_getElem _ _ (by rw [NorFlash.read_length]; exact hk), NorFlash.read_getElem]
  exact h ⟨k, hsize⟩ hlen

/-- Record `i` of a bank. -/
theorem recordAt_of_startsWith {g : Flash} {head : StorageHeader} {records : List (List UInt8)}
    (h : (region g).StartsWith (head.to_bytes ++ records.flatten))
    (hmax : records.length ≤ MAX_PRESETS) (hrecords : ∀ r ∈ records, r.length = PRESET_SIZE)
    {i : ℕ} (hi : i < records.length) : recordAt g i = Preset.from_bytes records[i] := by
  have hr : records[i].length = PRESET_SIZE := hrecords _ (List.getElem_mem hi)
  have hread : NorFlash.read g (recordAddr i) PRESET_SIZE = records[i] := by
    rw [← hr]
    refine NorFlash.read_eq_of_agree fun k hk => ?_
    have hlen := Bytes.length_flatten hrecords
    have hle : (i + 1) * PRESET_SIZE ≤ records.length * PRESET_SIZE :=
      Nat.mul_le_mul_right _ hi
    have hle' : records.length * PRESET_SIZE ≤ MAX_PRESETS * PRESET_SIZE :=
      Nat.mul_le_mul_right _ hmax
    have hsucc : (i + 1) * PRESET_SIZE = i * PRESET_SIZE + PRESET_SIZE := Nat.succ_mul _ _
    have hcap : MAX_PRESETS * PRESET_SIZE + 16 ≤ STORAGE_SIZE := by decide
    -- byte `k` of record `i` lies `i * PRESET_SIZE + k` behind the header
    have hin : 16 + (i * PRESET_SIZE + k) < (head.to_bytes ++ records.flatten).length := by
      rw [List.length_append, header_to_bytes_length]
      omega
    have hbyte := h ⟨16 + (i * PRESET_SIZE + k), by omega⟩ hin
    have haddr : recordAddr i + k = ADDR_OFFSET + (16 + (i * PRESET_SIZE + k)) := by
      rw [recordAddr]
      omega
    have hskip := List.getD_append_right head.to_bytes records.flatten 0 (16 + (i * PRESET_SIZE + k))
      (by rw [header_to_bytes_length]; omega)
    rw [header_to_bytes_length, Nat.add_sub_cancel_left, Bytes.getD_flatten hrecords (by omega),
      List.getD_eq_getElem _ _ hi, List.getD_eq_getElem _ _ hk] at hskip
    rw [haddr, ← hskip]
    exact hbyte
  rw [recordAt, hread]

/-- **A bank is read back**: its size, each of its records, and nothing past them. -/
theorem bank_of_startsWith {g : Flash} {head : StorageHeader} {records : List (List UInt8)}
    (h : (region g).StartsWith (head.to_bytes ++ records.flatten))
    (hcount : head.num_presets.toNat = records.length) (hmax : records.length ≤ MAX_PRESETS)
    (hrecords : ∀ r ∈ records, r.length = PRESET_SIZE) :
    (num_presets g).2 = some (records.length, g)
      ∧ (∀ i (hi : i < records.length),
          (load_preset i g).2 = some (some (Preset.from_bytes records[i]), g))
      ∧ ∀ i, records.length ≤ i → (load_preset i g).2 = some (none, g) := by
  have hpresets : presetCount g = records.length := by
    rw [presetCount, header_of_startsWith h, hcount]
  refine ⟨?_, ?_, ?_⟩
  · rw [num_presets_run, hpresets]
  · intro i hi
    have hlast : i ≤ LAST_RECORD := by
      simp only [MAX_PRESETS, LAST_RECORD] at hmax ⊢
      omega
    rw [load_preset_found (by rw [hpresets]; exact hi) hlast,
      recordAt_of_startsWith h hmax hrecords hi]
  · intro i hi
    rw [load_preset_missing (by rw [hpresets]; exact hi)]

/-- The last call decides the contents. -/
theorem spec_of_getLast {cs : List Call} {c : Call} (h : cs.getLast? = some c) (r : Region) :
    ∃ r', (Region.calls cs r).2 = (c.spec r').2 := by
  induction cs generalizing r with
  | nil => cases h
  | cons c' cs ih =>
      cases cs with
      | nil =>
          rw [List.getLast?_singleton, Option.some.injEq] at h
          rw [← h]
          exact ⟨r, rfl⟩
      | cons c'' cs =>
          rw [List.getLast?_cons_cons] at h
          exact ih h (c'.spec r).2

/-- **The storage is an array of bytes with a bank in it.** Any calls return on the device
what they return on the array and leave what they leave there, and nothing outside of the
region is touched on the way. When the last of them leaves a bank, its size and each of
its records are read back as they were given. -/
theorem storage_refines_bytes (f : Flash) (cs : List Call) (h : ∀ c ∈ cs, c.Fits) :
    ∃ es results g, run_calls cs f = (es, some (results, g))
      ∧ Region.calls cs (region f) = (results, region g)
      ∧ (∀ n a, ¬ InRegion a → applyAll (es.take n) f a = f a)
      ∧ (∀ a, ¬ InRegion a → g a = f a)
      ∧ ∀ c head records, cs.getLast? = some c → c.Holds head records →
          head.num_presets.toNat = records.length → records.length ≤ MAX_PRESETS →
          (∀ r ∈ records, r.length = PRESET_SIZE) →
          (num_presets g).2 = some (records.length, g)
            ∧ (∀ i (hi : i < records.length),
                (load_preset i g).2 = some (some (Preset.from_bytes records[i]), g))
            ∧ ∀ i, records.length ≤ i → (load_preset i g).2 = some (none, g) := by
  obtain ⟨es, g, hrun, hregion, hwithin, hout⟩ := calls_refine h f
  refine ⟨es, _, g, hrun, by rw [hregion], ?_, hout, ?_⟩
  · intro n a ha
    exact applyAll_within (fun op hop => hwithin op (List.mem_of_mem_take hop)) f ha
  · intro c head records hlast hholds hcount hmax hrecords
    obtain ⟨r', hr'⟩ := spec_of_getLast hlast (region f)
    have hstarts : (region g).StartsWith (head.to_bytes ++ records.flatten) := by
      rw [hregion, hr']
      exact hholds.startsWith r'
    exact bank_of_startsWith hstarts hcount hmax hrecords

/-- Three bytes are written over an erased flash and five are read back. -/
theorem storage_refines_bytes_short :
    ∃ es results g,
      run_calls [.write_raw [1, 2, 3], .read_raw 5] (fun _ => 0xFF) = (es, some (results, g))
        ∧ Region.calls [.write_raw [1, 2, 3], .read_raw 5] (region fun _ => 0xFF)
          = (results, region g) := by
  obtain ⟨es, results, g, hrun, hspec, -⟩ := storage_refines_bytes (fun _ => 0xFF)
    [.write_raw [1, 2, 3], .read_raw 5] (by
      intro c hc
      rw [List.mem_cons, List.mem_singleton] at hc
      rcases hc with rfl | rfl
      · exact (by decide : (3 : ℕ) ≤ STORAGE_SIZE)
      · trivial)
  exact ⟨es, results, g, hrun, hspec⟩

end PicoDsp.Storage
