/-
The preset bank in flash (`data/storage.rs`, with the two gate functions of `psram.rs`
that a sector write calls).

The functions are `Proc` programs over the flash contents. Their events are the accesses
another party can see or be disturbed by: flash reads, erases and programs, the atomics
of the PSRAM gate, and two that leave no trace on the device but that statements are
about, the entry of `write_raw` and a `u32` subtraction that goes below zero. The build
is the release build of the README, where such a subtraction wraps; a flash access
outside the device is an `Err`, and its `unwrap` halts.

A program says which events there are and in which order, and `FlashOp.apply` what each
does to the flash. Kept apart, the two serve different results: what a write leaves is
the fold of its events, a power cut is a prefix of them, and the interleaving of a write
with the other core is an interleaving of events.

The log texts of `log_storage!` are left out, but not the arithmetic in their arguments:
it is there that an empty bank goes below zero.
-/
import PicoDsp.Lib.NorFlash
import PicoDsp.Lib.Proc
import PicoDsp.Data.Factory

set_option autoImplicit false

namespace PicoDsp.Storage

open Lib

/-! ## Layout -/

/-- "PDSP" -/
def MAGIC : UInt32 := 0x50445350

def VERSION : UInt32 := 11

def FLASH_SIZE : ℕ := 2 * 1024 * 1024

def STORAGE_SIZE : ℕ := 64 * 1024

def ADDR_OFFSET : ℕ := FLASH_SIZE - STORAGE_SIZE

def SECTOR_SIZE : ℕ := 4096

def HEADER_SIZE : ℕ := 16

def MAX_PRESETS : ℕ := 128

/-- Round up to a whole number of flash sectors. -/
def sectors_ceil (n : ℕ) : ℕ := (n + (SECTOR_SIZE - 1)) / SECTOR_SIZE * SECTOR_SIZE

def STORAGE_IMAGE_SIZE : ℕ := sectors_ceil (HEADER_SIZE + MAX_PRESETS * 200)

/-- Seven sectors. -/
theorem image_size : STORAGE_IMAGE_SIZE = 28672 := rfl

/-- The last 64 KiB of the flash. -/
theorem addr_offset : ADDR_OFFSET = 2031616 := rfl

structure StorageHeader where
  magic : UInt32
  version : UInt32
  num_presets : UInt32
  padding : UInt32
  deriving DecidableEq

def StorageHeader.from_bytes (buf : List UInt8) : StorageHeader :=
  ⟨Bytes.u32At buf 0, Bytes.u32At buf 4, Bytes.u32At buf 8, Bytes.u32At buf 12⟩

def StorageHeader.to_bytes (h : StorageHeader) : List UInt8 :=
  Bytes.to_le_bytes h.magic ++ Bytes.to_le_bytes h.version ++ Bytes.to_le_bytes h.num_presets
    ++ Bytes.to_le_bytes h.padding

/-- The header is the one this firmware writes. -/
def StorageHeader.Valid (h : StorageHeader) : Prop := h.magic = MAGIC ∧ h.version = VERSION

instance (h : StorageHeader) : Decidable h.Valid :=
  inferInstanceAs (Decidable (h.magic = MAGIC ∧ h.version = VERSION))

/-! ## The flash and its events -/

instance : NorCell UInt8 where
  erased := 0xFF
  program old new := old &&& new
  program_erased := by decide +kernel

/-- The contents of the flash, byte by byte; addresses from `FLASH_SIZE` on do
not exist and are never read. -/
abbrev Flash : Type := ℕ → UInt8

inductive FlashOp
  /-- `Flash::read` of `len` bytes at `addr`. -/
  | read (addr len : ℕ)
  /-- A `u32` subtraction below zero. -/
  | underflow
  /-- `write_raw(data)` is entered. -/
  | write_raw (data : List UInt8)
  /-- `PSRAM_GATE_REQ.store(true)` -/
  | gate_req
  /-- `CORE1_RUNNING.load()` -/
  | gate_running
  /-- The wait for `PSRAM_GATE_ACK`. -/
  | gate_ack
  /-- Erase of the sector at `addr`. -/
  | erase (addr : ℕ)
  /-- Program of `data` at `addr`. -/
  | program (addr : ℕ) (data : List UInt8)
  /-- `after_flash_write()`: settle and reinitialise the PSRAM. -/
  | reinit
  /-- `PSRAM_GATE_REQ.store(false)` -/
  | gate_release
  deriving DecidableEq

/-- What an event does to the contents of the flash. -/
def FlashOp.apply : FlashOp → Flash → Flash
  | .erase addr, f => NorFlash.erase f addr SECTOR_SIZE
  | .program addr data, f => NorFlash.program f addr data
  | _, f => f

/-- The contents after a list of events. -/
def applyAll (ops : List FlashOp) (f : Flash) : Flash := ops.foldl (fun f op => op.apply f) f

/-- Events one list after the other. -/
theorem applyAll_append (ops ops' : List FlashOp) (f : Flash) :
    applyAll (ops ++ ops') f = applyAll ops' (applyAll ops f) :=
  List.foldl_append

/-- The first event, and the others. -/
theorem applyAll_cons (op : FlashOp) (ops : List FlashOp) (f : Flash) :
    applyAll (op :: ops) f = applyAll ops (op.apply f) := rfl

/-- `flash.read(addr, buf).await.unwrap()` -/
def flash_read (addr len : ℕ) : Proc Flash FlashOp (List UInt8) := do
  Proc.emit (.read addr len)
  if addr + len ≤ FLASH_SIZE then do
    let f ← Proc.get
    pure (NorFlash.read f addr len)
  else Proc.panic

/-- `flash.erase(addr, addr + SECTOR_SIZE).await.unwrap()` -/
def flash_erase (addr : ℕ) : Proc Flash FlashOp Unit := do
  if addr + SECTOR_SIZE ≤ FLASH_SIZE then do
    Proc.emit (.erase addr)
    Proc.modify (FlashOp.apply (.erase addr))
  else Proc.panic

/-- `flash.write(addr, data).await.unwrap()` -/
def flash_write (addr : ℕ) (data : List UInt8) : Proc Flash FlashOp Unit := do
  if addr + data.length ≤ FLASH_SIZE then do
    Proc.emit (.program addr data)
    Proc.modify (FlashOp.apply (.program addr data))
  else Proc.panic

/-- `a - b` on `u32`. -/
def u32_sub (a b : UInt32) : Proc Flash FlashOp UInt32 := do
  if a < b then Proc.emit .underflow else pure ()
  pure (a - b)

/-! ## The PSRAM gate around a sector (`psram.rs`) -/

def lock_core1_off_psram : Proc Flash FlashOp Unit :=
  Proc.emits [.gate_req, .gate_running, .gate_ack]

def after_flash_write : Proc Flash FlashOp Unit := Proc.emit .reinit

def unlock_core1 : Proc Flash FlashOp Unit := Proc.emit .gate_release

/-! ## `impl Storage` -/

def needs_format : Proc Flash FlashOp Bool := do
  let buf ← flash_read ADDR_OFFSET 16
  let header := StorageHeader.from_bytes buf
  pure (header.magic != MAGIC || header.version != VERSION)

def num_presets : Proc Flash FlashOp ℕ := do
  let buf ← flash_read ADDR_OFFSET 16
  let header := StorageHeader.from_bytes buf
  pure header.num_presets.toNat

/-- `index * size_of::<Preset>()` is a 32-bit `usize` product and the offset a
`u32` sum; both wrap. -/
def load_preset (index : ℕ) : Proc Flash FlashOp (Option (Preset UInt32)) := do
  let buf ← flash_read ADDR_OFFSET 16
  let header := StorageHeader.from_bytes buf
  if header.num_presets.toNat ≤ index then do
    -- the argument of the "out of bounds (max {})" message
    let _ ← u32_sub header.num_presets 1
    pure none
  else do
    let offset := (ADDR_OFFSET + 16 + index * PRESET_SIZE % 2 ^ 32) % 2 ^ 32
    if 256 < PRESET_SIZE then pure none
    else do
      let preset_buf ← flash_read offset PRESET_SIZE
      pure (some (Preset.from_bytes preset_buf))

/-- `read_raw` into a buffer of `buf_len` bytes: the bytes that replace the
start of the buffer. -/
def read_raw (buf_len : ℕ) : Proc Flash FlashOp (List UInt8) :=
  flash_read ADDR_OFFSET (min buf_len STORAGE_SIZE)

/-- The full-sector buffer for offset `off`: the data from there on, and zeros
behind the end of the data. -/
def sector_buffer (data : List UInt8) (off : ℕ) : List UInt8 :=
  let n := if off < data.length then min (data.length - off) SECTOR_SIZE else 0
  (data.drop off).take n ++ List.replicate (SECTOR_SIZE - n) 0

/-- The body of the loop of `write_raw`. -/
def write_sector (data : List UInt8) (off : ℕ) : Proc Flash FlashOp Unit := do
  lock_core1_off_psram
  let sec := ADDR_OFFSET + off
  flash_erase sec
  flash_write sec (sector_buffer data off)
  after_flash_write
  unlock_core1

/-- The values of `off` in `while off < total { .. off += SECTOR_SIZE }`. -/
def sector_offsets (total : ℕ) : List ℕ :=
  (List.range ((total + (SECTOR_SIZE - 1)) / SECTOR_SIZE)).map (· * SECTOR_SIZE)

def write_raw (data : List UInt8) : Proc Flash FlashOp Unit := do
  Proc.emit (.write_raw data)
  let total := min (sectors_ceil data.length) STORAGE_SIZE
  Proc.each (write_sector data) (sector_offsets total)

/-- The image `format` builds: header, presets, zeros up to a sector boundary. -/
def format_image : List UInt8 :=
  let defaults := Factory.get_default_presets
  let num_presets := defaults.length
  let used := HEADER_SIZE + num_presets * PRESET_SIZE
  let image_len := sectors_ceil used
  let header : StorageHeader := ⟨MAGIC, VERSION, UInt32.ofNat num_presets, 0⟩
  header.to_bytes ++ defaults.flatMap Preset.to_bytes ++ List.replicate (image_len - used) 0

def format : Proc Flash FlashOp Unit := write_raw format_image

end PicoDsp.Storage
