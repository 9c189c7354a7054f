/-
The SysEx transport (`SysexTx`, `send_sysex_dump`, `send_sysex_status` and the
byte loop of `midi_task` in `control/midi.rs`).

Outgoing messages are cut into USB-MIDI event packets, incoming ones arrive
byte by byte. The receiver's variables live outside both loops of `midi_task`,
so they survive reads, disconnects and aborted messages; `receive` is one pass
of the loop over the data bytes, with the call of `handle_sysex` returned
instead of made.

The sender is a program over the bytes that wait in its buffer, at most two between
calls, and puts out packets; an image goes out nibble by nibble, upper half first, since
SysEx has seven bits to a byte. Sending waits for the endpoint, and
nothing else of `midi_task` goes on meanwhile, so the packets of one message are never
interleaved with those of another.

The receiver writes into the image buffer as it goes and not at the end of the message.
A message that is refused, or breaks off, has therefore overwritten the buffer, which
nobody reads until a complete message has filled it again. The pending nibble is an
`Option` where the source has -1, and the length and the index are natural numbers: they
stay below the image's length, and the write is guarded by that (`h`).
-/
import PicoDsp.Data.Storage

set_option autoImplicit false

namespace PicoDsp.Sysex

open Lib Storage

def SYSEX_START : UInt8 := 0xF0
def SYSEX_END : UInt8 := 0xF7

def SYSEX_ID : UInt8 := 0x7D
def SYSEX_MODEL : UInt8 := 0x01
def CMD_DUMP_REQ : UInt8 := 0x01
def CMD_WRITE_REQ : UInt8 := 0x02
def CMD_WRITE_SUCCESS : UInt8 := 0x03
def CMD_WRITE_ERROR : UInt8 := 0x04

def ERR_BAD_LENGTH : UInt8 := 0x01
def ERR_BAD_MAGIC : UInt8 := 0x02

/-- A USB-MIDI event: the cable and CIN byte and three data bytes. -/
structure Packet where
  header : UInt8
  b1 : UInt8
  b2 : UInt8
  b3 : UInt8
  deriving DecidableEq

/-- The Code Index Number. -/
def Packet.cin (p : Packet) : UInt8 := p.header &&& 0x0F

/-! ## Sending -/

/-- The bytes waiting in `SysexTx::buf`, at most two between calls. -/
abbrev SysexTx : Type := List UInt8

def SysexTx.push (b : UInt8) : Proc SysexTx Packet Unit := do
  let buf ← Proc.get
  match buf ++ [b] with
  | [x, y, z] => do
      Proc.emit ⟨0x04, x, y, z⟩
      Proc.modify fun _ => []
  | buf => Proc.modify fun _ => buf

/-- The trailing bytes and the terminator, with the matching CIN. -/
def SysexTx.finish : Proc SysexTx Packet Unit := do
  let buf ← Proc.get
  Proc.emit (match buf with
    | [] => ⟨0x05, SYSEX_END, 0x00, 0x00⟩
    | [x] => ⟨0x06, x, SYSEX_END, 0x00⟩
    | x :: y :: _ => ⟨0x07, x, y, SYSEX_END⟩)
  Proc.modify fun _ => []

/-- One image byte as two pushes. -/
def SysexTx.push_nibbles (b : UInt8) : Proc SysexTx Packet Unit := do
  SysexTx.push (Bytes.hi_nibble b)
  SysexTx.push (Bytes.lo_nibble b)

def dump_program (image : List UInt8) : Proc SysexTx Packet Unit := do
  SysexTx.push SYSEX_START
  SysexTx.push SYSEX_ID
  SysexTx.push SYSEX_MODEL
  SysexTx.push CMD_WRITE_REQ
  Proc.each SysexTx.push_nibbles image
  SysexTx.finish

/-- The packets of a dump. -/
def send_sysex_dump (image : List UInt8) : List Packet := (dump_program image).trace []

def send_sysex_status (cmd : UInt8) (err : Option UInt8) : List Packet :=
  [⟨0x04, SYSEX_START, SYSEX_ID, SYSEX_MODEL⟩,
    match err with
    | none => ⟨0x06, cmd, SYSEX_END, 0x00⟩
    | some e => ⟨0x07, cmd, e, SYSEX_END⟩]

/-! ## Receiving -/

structure SysexRx where
  /-- `sysex_image`, also the scratch buffer of a dump. -/
  image : Vector UInt8 STORAGE_IMAGE_SIZE
  /-- F0, manufacturer, model, command. -/
  hdr : Vector UInt8 4
  hdr_len : ℕ
  raw_idx : ℕ
  /-- The pending high nibble (-1 in the source when there is none). -/
  hi : Option UInt8
  overflow : Bool
  in_sysex : Bool

/-- The variables as `midi_task` initialises them. -/
def SysexRx.new : SysexRx where
  image := Vector.replicate _ 0
  hdr := Vector.replicate _ 0
  hdr_len := 0
  raw_idx := 0
  hi := none
  overflow := false
  in_sysex := false

/-- Reading a dump into the buffer does not start or end a message. -/
theorem SysexRx.in_sysex_with_image (rx : SysexRx) (image : Vector UInt8 STORAGE_IMAGE_SIZE) :
    ({ rx with image := image } : SysexRx).in_sysex = rx.in_sysex := rfl

/-- The arguments `cmd`, `raw_len` and `overflow` of a call of `handle_sysex`. -/
structure SysexCall where
  cmd : UInt8
  raw_len : ℕ
  overflow : Bool
  deriving DecidableEq

/-- A payload nibble: the first of a pair waits, the second completes a byte. -/
def SysexRx.nibble (rx : SysexRx) (b : UInt8) : SysexRx :=
  match rx.hi with
  | none => { rx with hi := some (b &&& 0x0F) }
  | some hi =>
      if h : rx.raw_idx < STORAGE_IMAGE_SIZE then
        { rx with
          image := rx.image.set rx.raw_idx ((hi <<< 4) ||| (b &&& 0x0F)) h
          raw_idx := rx.raw_idx + 1
          hi := none }
      else { rx with overflow := true, hi := none }

/-- The body of the loop over the data bytes of a SysEx event. -/
def SysexRx.receive (rx : SysexRx) (b : UInt8) : SysexRx × Option SysexCall :=
  if b = SYSEX_START then
    ({ rx with
        in_sysex := true
        hdr := rx.hdr.set 0 b
        hdr_len := 1
        raw_idx := 0
        hi := none
        overflow := false }, none)
  else if !rx.in_sysex then (rx, none)
  else if h : rx.hdr_len < 4 then
    ({ rx with hdr := rx.hdr.set rx.hdr_len b h, hdr_len := rx.hdr_len + 1 }, none)
  else if b = SYSEX_END then
    -- a dangling nibble makes the length wrong
    let rx' := { rx with in_sysex := false, overflow := rx.overflow || rx.hi.isSome }
    if rx'.hdr[1] = SYSEX_ID ∧ rx'.hdr[2] = SYSEX_MODEL then
      (rx', some ⟨rx'.hdr[3], rx'.raw_idx, rx'.overflow⟩)
    else (rx', none)
  else (rx.nibble b, none)

/-- The data bytes of an event that carries SysEx, `none` for any other. -/
def Packet.sysex_bytes (p : Packet) : Option (List UInt8) :=
  if p.cin = 0x4 then some [p.b1, p.b2, p.b3]
  else if p.cin = 0x5 then some [p.b1]
  else if p.cin = 0x6 then some [p.b1, p.b2]
  else if p.cin = 0x7 then some [p.b1, p.b2, p.b3]
  else none

/-- `data.chunks(4)`, without the incomplete chunk at the end. -/
def chunks4 : List UInt8 → List Packet
  | a :: b :: c :: d :: rest => ⟨a, b, c, d⟩ :: chunks4 rest
  | _ => []

end PicoDsp.Sysex
