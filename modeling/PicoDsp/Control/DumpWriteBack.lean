/-
A dump, sent back (`SysexTx` and the byte loop of `control/midi.rs`, `write_raw` of
`data/storage.rs`, and the loop of `midi_task` between them).

A host asks for a dump, keeps the packets it is sent, and later sends the same packets
to restore the bank. Three pieces meet here that were written independently:

* the packetiser of the dump loses nothing (`dump_packets`: the data bytes of the packets
  are the message, and all packets but the last carry three of them);
* the receiver follows the byte stream whatever is interleaved, since channel-voice
  messages do not touch it (`Control/MidiSpec.lean`, the frame at its end);
* writing back the bytes that are there changes nothing, sector for sector.

The packetiser is a program with a small buffer. What is in the buffer is never asked:
`Sends` says that a program puts out full packets and leaves the rest of
its bytes waiting, and is closed under sequencing, so the loop over all the bytes of the
image costs one induction. `Finishes` is the same for a program that ends the message.

The packets may come back in any reads, with other events and BLE messages anywhere
between them (`Delivers`). What can go wrong is only that an interleaved message halts
the task, by selecting a record past the end of the flash, and a bank that counts more
than 327 presets is all that takes. Hence the statement is an equivalence: the dump is
restored if and only if nothing between the packets halts the task
(`dump_write_back_iff`).
-/
import PicoDsp.Control.BankCommit

set_option autoImplicit false

namespace PicoDsp.Sysex

open Lib Storage

/-! ## The packetiser -/

/-- The data bytes of an event, none when it carries no SysEx. -/
def Packet.data (p : Packet) : List UInt8 := p.sysex_bytes.getD []

/-- `m` sends the bytes `bs`: full packets of CIN 4 go out, and what is left
over waits in the buffer. -/
def Sends (m : Proc SysexTx Packet Unit) (bs : List UInt8) : Prop :=
  ∀ buf : SysexTx, buf.length ≤ 2 → ∃ es buf', m buf = (es, some ((), buf'))
    ∧ es.flatMap Packet.data ++ buf' = buf ++ bs ∧ buf'.length ≤ 2 ∧ ∀ p ∈ es, p.header = 4

/-- A packet of CIN 4 carries three bytes. -/
theorem data_full (x y z : UInt8) : (⟨0x04, x, y, z⟩ : Packet).data = [x, y, z] := by
  have hcin : (0x04 : UInt8) &&& 0x0F = 0x4 := by decide
  simp [Packet.data, Packet.sysex_bytes, Packet.cin, hcin]

/-- One byte: it waits, or it fills the packet that goes out. -/
theorem sends_push (b : UInt8) : Sends (SysexTx.push b) [b] := by
  intro buf hbuf
  match buf, hbuf with
  | [], _ => exact ⟨[], [b], rfl, rfl, by simp, by simp⟩
  | [x], _ => exact ⟨[], [x, b], rfl, rfl, by simp, by simp⟩
  | [x, y], _ => exact ⟨[⟨4, x, y, b⟩], [], rfl, by simp [data_full], by simp, by simp⟩
  | _ :: _ :: _ :: _, h => simp at h

/-- What is sent one after the other is sent in one stream: the second program starts
with the bytes that the first one left in the buffer. -/
theorem Sends.bind {m n : Proc SysexTx Packet Unit} {as bs : List UInt8} (hm : Sends m as)
    (hn : Sends n bs) : Sends (m >>= fun _ => n) (as ++ bs) := by
  intro buf hbuf
  obtain ⟨es, buf₁, hrun, hdata, hlen, hcin⟩ := hm buf hbuf
  obtain ⟨fs, buf₂, hrun', hdata', hlen', hcin'⟩ := hn buf₁ hlen
  refine ⟨es ++ fs, buf₂, ?_, ?_, hlen', ?_⟩
  · rw [Proc.bind_some hrun, hrun']
  · rw [List.flatMap_append, List.append_assoc, hdata', ← List.append_assoc, hdata,
      List.append_assoc]
  · intro p hp
    rcases List.mem_append.mp hp with h | h
    · exact hcin p h
    · exact hcin' p h

/-- The loop over the image sends its nibbles, upper half first. -/
theorem sends_nibbles (image : List UInt8) :
    Sends (Proc.each SysexTx.push_nibbles image) (Bytes.nibbleize image) := by
  induction image with
  | nil => exact fun buf hbuf => ⟨[], buf, rfl, by simp, hbuf, by simp⟩
  | cons b image ih =>
      have hbyte : Sends (SysexTx.push_nibbles b) [Bytes.hi_nibble b, Bytes.lo_nibble b] :=
        (sends_push (Bytes.hi_nibble b)).bind (sends_push (Bytes.lo_nibble b))
      exact hbyte.bind ih

/-- The last packet for the bytes left over, with the CIN they call for. -/
def lastPacket : List UInt8 → Packet
  | [] => ⟨0x05, SYSEX_END, 0x00, 0x00⟩
  | [x] => ⟨0x06, x, SYSEX_END, 0x00⟩
  | x :: y :: _ => ⟨0x07, x, y, SYSEX_END⟩

/-- The CIN of the last packet counts the bytes in front of F7, and F7 is its last data byte. -/
theorem lastPacket_spec {left : List UInt8} (h : left.length ≤ 2) :
    (lastPacket left).cin.toNat = 5 + left.length
      ∧ (lastPacket left).data = left ++ [SYSEX_END] := by
  have h5 : (0x05 : UInt8) &&& 0x0F = 0x5 := by decide
  have h6 : (0x06 : UInt8) &&& 0x0F = 0x6 := by decide
  have h7 : (0x07 : UInt8) &&& 0x0F = 0x7 := by decide
  match left, h with
  | [], _ => simp [lastPacket, Packet.data, Packet.sysex_bytes, Packet.cin, h5]
  | [x], _ => simp [lastPacket, Packet.data, Packet.sysex_bytes, Packet.cin, h6]
  | [x, y], _ => simp [lastPacket, Packet.data, Packet.sysex_bytes, Packet.cin, h7]
  | _ :: _ :: _ :: _, h => simp at h

/-- `m` sends the bytes `bs` and ends the message. -/
def Finishes (m : Proc SysexTx Packet Unit) (bs : List UInt8) : Prop :=
  ∀ buf : SysexTx, buf.length ≤ 2 → ∃ es left, m buf = (es ++ [lastPacket left], some ((), []))
    ∧ es.flatMap Packet.data ++ left = buf ++ bs ∧ left.length ≤ 2 ∧ ∀ p ∈ es, p.header = 4

/-- `finish` sends what waits, with the end of the message behind it. -/
theorem finishes_finish : Finishes SysexTx.finish [] := by
  intro buf hbuf
  refine ⟨[], buf, ?_, by simp, hbuf, by simp⟩
  match buf, hbuf with
  | [], _ => rfl
  | [x], _ => rfl
  | [x, y], _ => rfl
  | _ :: _ :: _ :: _, h => simp at h

/-- A program that ends the message, behind one that began it. -/
theorem Sends.finish {m n : Proc SysexTx Packet Unit} {as bs : List UInt8} (hm : Sends m as)
    (hn : Finishes n bs) : Finishes (m >>= fun _ => n) (as ++ bs) := by
  intro buf hbuf
  obtain ⟨es, buf₁, hrun, hdata, hlen, hcin⟩ := hm buf hbuf
  obtain ⟨fs, left, hrun', hdata', hlen', hcin'⟩ := hn buf₁ hlen
  refine ⟨es ++ fs, left, ?_, ?_, hlen', ?_⟩
  · rw [Proc.bind_some hrun, hrun', List.append_assoc]
  · rw [List.flatMap_append, List.append_assoc, hdata', ← List.append_assoc, hdata,
      List.append_assoc]
  · intro p hp
    rcases List.mem_append.mp hp with h | h
    · exact hcin p h
    · exact hcin' p h

/-- The message of a dump, between F0 and F7. -/
def dumpBody (image : List UInt8) : List UInt8 :=
  [SYSEX_ID, SYSEX_MODEL, CMD_WRITE_REQ] ++ Bytes.nibbleize image

/-- The message as a list: the two ids, the command, and the nibbles. -/
theorem dumpBody_eq (image : List UInt8) :
    dumpBody image = SYSEX_ID :: SYSEX_MODEL :: CMD_WRITE_REQ :: Bytes.nibbleize image := rfl

/-- All bytes between F0 and F7 are 7-bit, so that no receiver takes one for a status. -/
theorem dumpBody_lt (image : List UInt8) : ∀ b ∈ dumpBody image, b < 0x80 := by
  intro b hb
  rw [dumpBody, List.mem_append] at hb
  rcases hb with hb | hb
  · simp only [List.mem_cons, List.not_mem_nil, or_false] at hb
    rcases hb with rfl | rfl | rfl <;> decide
  · exact Bytes.nibbleize_lt b hb

/-- `send_sysex_dump` sends the whole message and ends it. -/
theorem finishes_dump (image : List UInt8) :
    Finishes (dump_program image) (SYSEX_START :: dumpBody image) := by
  have hrest := (sends_nibbles image).finish finishes_finish
  rw [List.append_nil] at hrest
  exact (sends_push _).finish ((sends_push _).finish ((sends_push _).finish
    ((sends_push _).finish hrest)))

/-- **The packets of a dump**: full ones of CIN 4, and a last one of CIN 5, 6 or
7 as 0, 1 or 2 bytes are left; their data bytes are the message. -/
theorem dump_packets (image : List UInt8) :
    ∃ es left, send_sysex_dump image = es ++ [lastPacket left] ∧ left.length ≤ 2
      ∧ (∀ p ∈ es, p.header = 4)
      ∧ (send_sysex_dump image).flatMap Packet.data
        = SYSEX_START :: (dumpBody image ++ [SYSEX_END]) := by
  obtain ⟨es, left, hrun, hdata, hlen, hcin⟩ := finishes_dump image [] (Nat.zero_le _)
  have hdump : send_sysex_dump image = es ++ [lastPacket left] := by
    rw [send_sysex_dump, Proc.trace, hrun]
  refine ⟨es, left, hdump, hlen, hcin, ?_⟩
  rw [hdump, List.flatMap_append, List.flatMap_singleton, (lastPacket_spec hlen).2,
    ← List.append_assoc, hdata]
  rfl

end PicoDsp.Sysex

namespace PicoDsp.MidiTask

open Lib Sysex Storage

variable {F : Type}

/-! ## Sending packets back -/

/-- The events of an input. -/
def Input.events : Input → List Packet
  | .usb_read data => chunks4 data
  | _ => []

/-- The events of a list of inputs, in order. -/
def events (ins : List Input) : List Packet := ins.flatMap Input.events

/-- The event carries SysEx. -/
def isSysex (p : Packet) : Bool := p.sysex_bytes.isSome

/-- The SysEx events of the inputs are the packets `ps`, in order and in any
reads; other events and BLE messages may come anywhere between, storage
commands may not. -/
structure Delivers (ps : List Packet) (ins : List Input) : Prop where
  no_command : Input.command ∉ ins
  packets : (events ins).filter isSysex = ps

/-- What the receiver gets of a packet are its data bytes, none for a packet of another kind. -/
theorem sysexBytes_packet (p : Packet) : sysexBytes (packet_work p) = p.data := by
  unfold packet_work Packet.data
  cases p.sysex_bytes with
  | none => rfl
  | some bs =>
      induction bs with
      | nil => rfl
      | cons b bs ih =>
          simp only [List.map_cons, sysexBytes_byte]
          exact congrArg (b :: ·) ih

/-- What it gets of a list of packets are the data bytes of those that carry SysEx. -/
theorem sysexBytes_packets (ps : List Packet) :
    sysexBytes (ps.flatMap packet_work) = (ps.filter isSysex).flatMap Packet.data := by
  induction ps with
  | nil => rfl
  | cons p ps ih =>
      rw [List.flatMap_cons, sysexBytes_append, ih, sysexBytes_packet]
      by_cases hp : isSysex p = true
      · rw [List.filter_cons_of_pos hp, List.flatMap_cons]
      · have hnone : p.sysex_bytes = none := by
          rw [isSysex, Option.not_isSome_iff_eq_none] at hp
          exact hp
        rw [List.filter_cons_of_neg hp, Packet.data, hnone]
        rfl

/-- The SysEx bytes of a list of inputs are the data bytes of its SysEx
events. -/
theorem sysexBytes_inputs (ins : List Input) :
    sysexBytes (ins.flatMap Input.works) = ((events ins).filter isSysex).flatMap Packet.data := by
  induction ins with
  | nil => rfl
  | cons i ins ih =>
      rw [List.flatMap_cons, sysexBytes_append, ih, events, events, List.flatMap_cons,
        List.filter_append, List.flatMap_append]
      congr 1
      cases i with
      | usb_read data => exact sysexBytes_packets (chunks4 data)
      | usb_link => rfl
      | command => rfl
      | ble status d1 d2 => rfl

/-- The byte that ends a stream, and the work before it. -/
theorem exists_last_byte {ws : List Work} {bs : List UInt8} {b : UInt8}
    (h : sysexBytes ws = bs ++ [b]) :
    ∃ pre post, ws = pre ++ .sysex_byte b :: post ∧ sysexBytes pre = bs ∧ sysexBytes post = [] := by
  induction ws using List.reverseRecOn generalizing bs with
  | nil => simp [sysexBytes] at h
  | append_singleton ws w ih =>
      rw [sysexBytes_append] at h
      cases w with
      -- the last work is that byte, or it comes behind it
      | sysex_byte c =>
          rw [show sysexBytes [.sysex_byte c] = [c] from rfl] at h
          obtain ⟨hbs, hc⟩ := List.append_inj' h rfl
          rw [List.singleton_inj] at hc
          subst hc
          exact ⟨ws, [], rfl, hbs, rfl⟩
      | voice status d1 d2 =>
          rw [show sysexBytes [.voice status d1 d2] = [] from rfl, List.append_nil] at h
          obtain ⟨pre, post, rfl, hpre, hpost⟩ := ih h
          refine ⟨pre, post ++ [.voice status d1 d2], by simp, hpre, ?_⟩
          rw [sysexBytes_append, hpost]
          rfl
      | reset_storage =>
          rw [show sysexBytes [.reset_storage] = [] from rfl, List.append_nil] at h
          obtain ⟨pre, post, rfl, hpre, hpost⟩ := ih h
          refine ⟨pre, post ++ [.reset_storage], by simp, hpre, ?_⟩
          rw [sysexBytes_append, hpost]
          rfl

/-! ## Between the packets -/

/-- The packets sent to the host. -/
def replies (es : List (Effect F)) : List Packet :=
  es.filterMap fun
    | .write_packet p => some p
    | _ => none

theorem replies_append (es fs : List (Effect F)) : replies (es ++ fs) = replies es ++ replies fs :=
  List.filterMap_append

theorem replies_packets (ps : List Packet) : replies (ps.map (Effect.write_packet (F := F))) = ps := by
  induction ps with
  | nil => rfl
  | cons p ps ih => exact congrArg (p :: ·) ih

/-- What channel-voice messages do is no reply. -/
theorem replies_quiet {es : List (Effect F)} (h : ∀ e ∈ es, Quiet e) : replies es = [] := by
  refine List.filterMap_eq_nil_iff.mpr fun e he => ?_
  have hq := h e he
  cases e with
  | write_packet p => exact hq.elim
  | control op => rfl
  | preset_send p => rfl
  | led on => rfl
  | flash op => rfl
  | handle_sysex call => rfl

theorem replies_flash (ops : List FlashOp) : replies (ops.map (Effect.flash (F := F))) = [] := by
  refine List.filterMap_eq_nil_iff.mpr fun e he => ?_
  obtain ⟨op, -, rfl⟩ := List.mem_map.mp he
  rfl

/-- Without a storage command among the inputs the work has no format in it. -/
theorem inputs_reset {ins : List Input} (h : Input.command ∉ ins) :
    Work.reset_storage ∉ ins.flatMap Input.works := by
  intro hmem
  obtain ⟨i, hi, hw⟩ := List.mem_flatMap.mp hmem
  cases i with
  | usb_read data =>
      obtain ⟨p, -, hp⟩ := List.mem_flatMap.mp hw
      unfold packet_work at hp
      split at hp
      · simp at hp
      · simp at hp
  | usb_link => cases hw
  | command => exact h hi
  | ble status d1 d2 => simp [Input.works] at hw

section Feeding

variable [F32 F]

/-- Without an F7 and without a command, nothing but channel-voice messages
happens, and the flash stays as it is. -/
theorem quiet_run {ws : List Work} {t t' : MidiTask F} {es : List (Effect F)}
    (hreset : Work.reset_storage ∉ ws) (hend : SYSEX_END ∉ sysexBytes ws)
    (h : Proc.each handle_work ws t = (es, some ((), t'))) :
    t'.flash = t.flash ∧ ∀ e ∈ es, Quiet e := by
  induction ws generalizing t es with
  | nil =>
      cases h
      exact ⟨rfl, by simp⟩
  | cons w ws ih =>
      obtain ⟨es₁, s, es₂, hrun, hrest, rfl⟩ := Proc.each_cons_eq_some h
      rw [List.mem_cons, not_or] at hreset
      have hstep : s.flash = t.flash ∧ (∀ e ∈ es₁, Quiet e) ∧ SYSEX_END ∉ sysexBytes ws := by
        -- only a reset or an F7 could reach the flash
        cases w with
        | voice status d1 d2 =>
            obtain ⟨hflash, -, hev⟩ := voice_frame hrun
            exact ⟨hflash, hev, hend⟩
        | sysex_byte b =>
            rw [sysexBytes_byte, List.mem_cons, not_or] at hend
            rw [handle_work, sysex_byte_quiet (receive_quiet (Ne.symm hend.1) t.rx)] at hrun
            cases hrun
            exact ⟨rfl, by simp, hend.2⟩
        | reset_storage => exact absurd rfl hreset.1
      obtain ⟨hflash, hev, hend'⟩ := hstep
      obtain ⟨hflash', hev'⟩ := ih hreset.2 hend' hrest
      refine ⟨hflash'.trans hflash, ?_⟩
      intro e he
      rcases List.mem_append.mp he with h₁ | h₂
      · exact hev e h₁
      · exact hev' e h₂

/-! ## The round trip -/

/-- The inputs up to the last byte end in an accepted write of the bank that is
there: `handle_sysex` sees a full WRITE_REQ, the host gets the success reply and
nothing else, and the flash is as before. -/
def WritesBack (t : MidiTask F) (pre : List Work) : Prop :=
  ∃ es t', Proc.each handle_work (pre ++ [.sysex_byte SYSEX_END]) t = (es, some ((), t'))
    ∧ Effect.handle_sysex ⟨CMD_WRITE_REQ, STORAGE_IMAGE_SIZE, false⟩ ∈ es
    ∧ Effect.flash (.write_raw (bank t.flash)) ∈ es
    ∧ replies es = send_sysex_status CMD_WRITE_SUCCESS none
    ∧ t'.flash = t.flash

/-- An accepted image, seen from outside. -/
theorem accept_facts {t : MidiTask F} {image : Vector UInt8 STORAGE_IMAGE_SIZE}
    (hidx : t.current_preset_index ≤ LAST_RECORD)
    (hvalid : (StorageHeader.from_bytes image.toList).Valid) :
    ∃ es t', handle_sysex ⟨CMD_WRITE_REQ, STORAGE_IMAGE_SIZE, false⟩ (receiving t image)
        = (es, some ((), t'))
      ∧ Effect.handle_sysex ⟨CMD_WRITE_REQ, STORAGE_IMAGE_SIZE, false⟩ ∈ es
      ∧ Effect.flash (.write_raw image.toList) ∈ es
      ∧ replies es = send_sysex_status CMD_WRITE_SUCCESS none
      ∧ t'.flash = written t.flash image.toList := by
  have haccept := accept_eq t hvalid
  obtain ⟨fs, p, hload⟩ := load_ends (t := accepted t image) (Or.inl hidx)
  have hquiet := (load_leaves (quiet_allows (F := F) (accepted t image).flash)
    t.current_preset_index (accepted t image).rx (accepted t image) rfl).1
  rw [hload] at haccept hquiet
  refine ⟨_, _, haccept, List.mem_cons_self, ?_, ?_, rfl⟩
  · refine List.mem_cons_of_mem _ (List.mem_append_left _ ?_)
    exact List.mem_map.mpr ⟨_, List.mem_cons_self, rfl⟩
  · show replies (_ ++ (_ ++ _)) = _
    rw [replies_append, replies_append, replies_flash, replies_packets, replies_quiet hquiet]
    rfl

/-- The message of a dump, sent back to a task that does not halt on the way. -/
theorem writes_back {t u : MidiTask F} {msg : Option (List UInt8)} {pre : List Work}
    {es : List (Effect F)} (ht : Sound t) (hmsg : Follows msg t.rx)
    (hreset : Work.reset_storage ∉ pre)
    (hbytes : sysexBytes pre = SYSEX_START :: dumpBody (bank t.flash))
    (hrun : Proc.each handle_work pre t = (es, some ((), u))) : WritesBack t pre := by
  have hbody : ∀ b ∈ dumpBody (bank t.flash), b ≠ SYSEX_START ∧ b ≠ SYSEX_END := by
    intro b hb
    have hlt := dumpBody_lt _ b hb
    constructor
    · rintro rfl
      exact absurd hlt (by decide)
    · rintro rfl
      exact absurd hlt (by decide)
  have hend : SYSEX_END ∉ sysexBytes pre := by
    rw [hbytes, List.mem_cons, not_or]
    exact ⟨by decide, fun h => (hbody _ h).2 rfl⟩
  obtain ⟨hflash, hquiet⟩ := quiet_run hreset hend hrun
  -- the receiver holds the whole dump
  have hfollow := run_follows ht hmsg hrun
  rw [hbytes, List.foldl_cons, advance_start, advance_body hbody, List.nil_append,
    dumpBody_eq] at hfollow
  have hlen : (Bytes.nibbleize (bank t.flash)).length = 2 * STORAGE_IMAGE_SIZE := by
    rw [Bytes.nibbleize_length, bank_length]
  obtain ⟨image, himage, hbyte⟩ := full_byte hfollow hlen
  rw [Bytes.denibbleize_nibbleize] at himage
  generalize (u.rx.receive SYSEX_END).1 = rx' at hbyte
  have hvalid : (StorageHeader.from_bytes image.toList).Valid := by
    rw [himage, bank, header_read_image]
    exact ht.header
  obtain ⟨fs, t', haccept, hcall, hwrite, hreply, hflash'⟩ := accept_facts
    (t := { u with rx := rx' }) (ht.run hrun).index hvalid
  refine ⟨es ++ fs, t', ?_, List.mem_append_right _ hcall, ?_, ?_, ?_⟩
  · rw [Proc.each_append_some hrun, Proc.each_singleton_run, handle_work, hbyte, haccept]
  · rw [← himage]
    exact List.mem_append_right _ hwrite
  · rw [replies_append, replies_quiet hquiet, hreply]
    rfl
  · rw [hflash', himage]
    show written u.flash (bank t.flash) = t.flash
    rw [hflash]
    exact written_self t.flash

/-- The packets of a dump of `image`: all but the last have CIN 4, the last has
CIN 5, 6 or 7 for the bytes left, and everything between F0 and F7 is 7-bit. -/
def DumpShape (image : List UInt8) (ps : List Packet) : Prop :=
  ∃ es left, ps = es ++ [lastPacket left] ∧ left.length ≤ 2
    ∧ (lastPacket left).cin.toNat = 5 + left.length
    ∧ (∀ p ∈ es, p.cin = 4)
    ∧ ps.flatMap Packet.data = SYSEX_START :: (dumpBody image ++ [SYSEX_END])
    ∧ ∀ b ∈ dumpBody image, b < 0x80

/-- The packets of a dump have the shape that the host expects. -/
theorem dump_shape (image : List UInt8) : DumpShape image (send_sysex_dump image) := by
  obtain ⟨es, left, hdump, hlen, hcin, hdata⟩ := dump_packets image
  refine ⟨es, left, hdump, hlen, (lastPacket_spec hlen).1, ?_, hdata, dumpBody_lt image⟩
  intro p hp
  rw [Packet.cin, hcin p hp]
  decide

/-- The receiver of a reachable task is somewhere in its stream. -/
theorem Reachable.follows {t : MidiTask F} (h : Reachable t) : ∃ msg, Follows msg t.rx := by
  obtain ⟨f, t₀, f₀, es₀, ws, es, hboot, hrun⟩ := h
  obtain ⟨es', hbooted⟩ := boot_run (F := F) f
  rw [hbooted] at hboot
  cases hboot
  exact ⟨_, run_follows (entered_sound f) follows_new hrun⟩

/-- What a DUMP_REQ does. -/
theorem dump_run {t : MidiTask F} {b : UInt8} {call : SysexCall}
    (hreq : (t.rx.receive b).2 = some call) (hcmd : call.cmd = CMD_DUMP_REQ) :
    ∃ es t₁, handle_work (.sysex_byte b) t = (es, some ((), t₁))
      ∧ replies es = send_sysex_dump (bank t.flash) ∧ t₁.flash = t.flash := by
  have hrun := (sysex_byte_call hreq).trans (handle_sysex_dump hcmd _)
  rw [dump_req_run] at hrun
  refine ⟨_, _, hrun, ?_, rfl⟩
  show replies (List.map Effect.write_packet _) = _
  rw [replies_packets]

/-- **Dump, then write back.** The packets of a DUMP_REQ, delivered again in any
way, restore the bank exactly when no message between them selects a record past
the flash. -/
theorem dump_write_back_iff {t : MidiTask F} (ht : Reachable t) {b : UInt8} {call : SysexCall}
    (hreq : (t.rx.receive b).2 = some call) (hcmd : call.cmd = CMD_DUMP_REQ) :
    ∃ es t₁, handle_work (.sysex_byte b) t = (es, some ((), t₁)) ∧ t₁.flash = t.flash
      ∧ DumpShape (bank t.flash) (replies es)
      ∧ ∀ ins, Delivers (replies es) ins →
        ∃ pre post, ins.flatMap Input.works = pre ++ .sysex_byte SYSEX_END :: post
          ∧ sysexBytes post = [] ∧ (WritesBack t₁ pre ↔ SafeRun t₁ pre) := by
  obtain ⟨es, t₁, hrun, hreplies, hflash⟩ := dump_run hreq hcmd
  have hshape := dump_shape (bank t.flash)
  refine ⟨es, t₁, hrun, hflash, by rw [hreplies]; exact hshape, fun ins hins => ?_⟩
  obtain ⟨-, -, -, -, -, -, hdata, -⟩ := hshape
  have hbytes : sysexBytes (ins.flatMap Input.works)
      = (SYSEX_START :: dumpBody (bank t.flash)) ++ [SYSEX_END] := by
    rw [sysexBytes_inputs, hins.packets, hreplies, hdata]
    rfl
  obtain ⟨pre, post, hsplit, hpre, hpost⟩ := exists_last_byte hbytes
  -- no command comes in front of the last byte
  have hreset : Work.reset_storage ∉ pre := by
    intro hmem
    refine inputs_reset hins.no_command ?_
    rw [hsplit]
    exact List.mem_append_left _ hmem
  obtain ⟨msg, hmsg⟩ := ht.follows
  have ht₁ := (ht.step hrun).sound
  refine ⟨pre, post, hsplit, hpost, ?_⟩
  -- both sides say that the task is still running at the last byte
  rw [← run_ends_iff ht₁]
  -- either way the run in front of the last byte decides
  constructor
  · rintro ⟨fs, t', hback, -⟩
    obtain ⟨es₁, u, es₂, hpre', -, -⟩ := Proc.each_append_eq_some hback
    exact ⟨es₁, u, hpre'⟩
  · rintro ⟨fs, u, hpre'⟩
    rw [← hflash] at hpre
    exact writes_back ht₁ (work_follows ht.sound hmsg hrun) hreset hpre hpre'

end Feeding

/-! ## Concrete dumps -/

section Concrete

variable [F32 F]

/-- The receiver in front of the last byte of a DUMP_REQ. -/
def dumpRx : SysexRx := [0xF0, 0x7D, 0x01, 0x01].foldl (fun rx b => (rx.receive b).1) SysexRx.new

/-- The F7 of a dump request completes the call. -/
theorem dumpRx_call : (dumpRx.receive 0xF7).2 = some ⟨0x01, 0, false⟩ := by
  have hfollow : Follows (progress [0xF0, 0x7D, 0x01, 0x01]) dumpRx :=
    follows_receive (follows_receive (follows_receive (follows_receive follows_new 0xF0) 0x7D)
      0x01) 0x01
  rw [receive_call hfollow]
  decide

/-- A task that has received all of a DUMP_REQ but its last byte. -/
def asking (F : Type) [F32 F] (f : Flash) : MidiTask F :=
  { entered F (bootFlash f) with rx := dumpRx }

theorem asking_flash (f : Flash) : (asking F f).flash = bootFlash f := rfl

/-- The last byte of the request is an F7, and the task that receives it answers. -/
theorem asking_call (f : Flash) : ((asking F f).rx.receive 0xF7).2 = some ⟨0x01, 0, false⟩ := by
  have hrx : (asking F f).rx = dumpRx := rfl
  rw [hrx, dumpRx_call]

/-- A boot and the request's other bytes lead to this task. -/
theorem asking_reachable (f : Flash) : Reachable (asking F f) := by
  have hbytes : SYSEX_END ∉ [0xF0, 0x7D, 0x01, 0x01] := by decide
  unfold asking dumpRx
  exact (entered_reachable F f).each (bytes_run hbytes _)

/-- On the factory count a dump can be sent back. -/
theorem dump_write_back_iff_128 :
    ∃ es t₁, handle_work (.sysex_byte 0xF7) (asking ℝ (blankFlash 128)) = (es, some ((), t₁))
      ∧ t₁.flash = (asking ℝ (blankFlash 128)).flash
      ∧ DumpShape (bank (asking ℝ (blankFlash 128)).flash) (replies es)
      ∧ ∀ ins, Delivers (replies es) ins →
        ∃ pre post, ins.flatMap Input.works = pre ++ .sysex_byte SYSEX_END :: post
          ∧ sysexBytes post = [] ∧ (WritesBack t₁ pre ↔ SafeRun t₁ pre) :=
  dump_write_back_iff (asking_reachable (blankFlash 128)) (asking_call _) rfl

/-- A tap as two BLE messages. -/
def bleTaps (n : ℕ) : List Input := (List.replicate n [.ble 0xB0 67 127, .ble 0xB0 67 0]).flatten

/-- A tap is a press and a release of the soft pedal. -/
theorem bleTaps_succ (n : ℕ) :
    bleTaps (n + 1) = .ble 0xB0 67 127 :: .ble 0xB0 67 0 :: bleTaps n := by
  rw [bleTaps, List.replicate_succ, List.flatten_cons]
  rfl

/-- Taps over the radio are the taps of the keyboard. -/
theorem bleTaps_works (n : ℕ) : (bleTaps n).flatMap Input.works = taps n := by
  induction n with
  | zero => rfl
  | succ n ih =>
      rw [bleTaps_succ, List.flatMap_cons, List.flatMap_cons, ih, taps, taps, List.replicate_succ,
        List.flatten_cons]
      rfl

/-- Taps come without USB events and are no command. -/
theorem bleTaps_quiet (n : ℕ) : events (bleTaps n) = [] ∧ Input.command ∉ bleTaps n := by
  induction n with
  | zero => exact ⟨rfl, List.not_mem_nil⟩
  | succ n ih =>
      rw [bleTaps_succ]
      refine ⟨ih.1, ?_⟩
      rw [List.mem_cons, List.mem_cons]
      rintro (h | h | h)
      · cases h
      · cases h
      · exact ih.2 h

/-- An event as a USB read of its own. -/
def readOf (p : Packet) : Input := .usb_read [p.header, p.b1, p.b2, p.b3]

/-- An event a read gives the same work as all events in one. -/
theorem reads_works (ps : List Packet) :
    (ps.map readOf).flatMap Input.works = ps.flatMap packet_work := by
  induction ps with
  | nil => rfl
  | cons p ps ih =>
      rw [List.map_cons, List.flatMap_cons, List.flatMap_cons, ih]
      congr 1
      exact List.append_nil _

theorem reads_events (ps : List Packet) : events (ps.map readOf) = ps := by
  induction ps with
  | nil => rfl
  | cons p ps ih => exact congrArg (p :: ·) ih

/-- The packets of a dump, behind the messages that halt the task on a large
bank. -/
def lateDump (ps : List Packet) : List Input := .ble 0xC0 127 0 :: (bleTaps 200 ++ ps.map readOf)

/-- First the browsing past the end of the flash, then the packets. -/
theorem lateDump_works (ps : List Packet) :
    (lateDump ps).flatMap Input.works = browsePast ++ ps.flatMap packet_work := by
  rw [lateDump, List.flatMap_cons, List.flatMap_append, bleTaps_works, reads_works, browsePast]
  rfl

/-- All packets of a dump carry SysEx. -/
theorem dump_isSysex (image : List UInt8) :
    (send_sysex_dump image).filter isSysex = send_sysex_dump image := by
  obtain ⟨es, left, hdump, hlen, hcin, -⟩ := dump_packets image
  rw [List.filter_eq_self]
  intro p hp
  rw [hdump, List.mem_append, List.mem_singleton] at hp
  rcases hp with hp | rfl
  · have h4 : p.cin = 0x4 := by
      rw [Packet.cin, hcin p hp]
      decide
    rw [isSysex, Packet.sysex_bytes, if_pos h4]
    rfl
  · have hlast := (lastPacket_spec hlen).2
    rw [isSysex]
    cases hb : (lastPacket left).sysex_bytes with
    | some bs => rfl
    | none =>
        rw [Packet.data, hb] at hlast
        exact absurd hlast.symm (List.append_ne_nil_of_right_ne_nil _ (List.cons_ne_nil _ _))

/-- The late dump is delivered all right; it is the task that is gone. -/
theorem lateDump_delivers (image : List UInt8) :
    Delivers (send_sysex_dump image) (lateDump (send_sysex_dump image)) := by
  obtain ⟨htaps, hcommand⟩ := bleTaps_quiet 200
  refine ⟨?_, ?_⟩
  · rw [lateDump, List.mem_cons, List.mem_append, List.mem_map]
    rintro (h | h | ⟨p, -, h⟩)
    · cases h
    · exact hcommand h
    · cases h
  · have hevents : events (lateDump (send_sysex_dump image)) = send_sysex_dump image := by
      have hreads := reads_events (send_sysex_dump image)
      unfold events at htaps hreads ⊢
      rw [lateDump, List.flatMap_cons, List.flatMap_append, htaps, hreads]
      rfl
    rw [hevents, dump_isSysex]

/-- On a bank of 1000 presets, taps between request and reply lose the dump. -/
theorem dump_write_back_fails :
    ¬ ∀ (t : MidiTask ℝ) (b : UInt8) (call : SysexCall), Reachable t →
      (t.rx.receive b).2 = some call → call.cmd = CMD_DUMP_REQ →
      ∀ es t₁, handle_work (.sysex_byte b) t = (es, some ((), t₁)) →
      ∀ ins, Delivers (replies es) ins →
      ∀ pre post, ins.flatMap Input.works = pre ++ .sysex_byte SYSEX_END :: post →
        sysexBytes post = [] → WritesBack t₁ pre := by
  intro hclaim
  have hreach := asking_reachable (F := ℝ) (blankFlash 1000)
  obtain ⟨es, t₁, hrun, hreplies, hflash⟩ := dump_run (asking_call (F := ℝ) (blankFlash 1000)) rfl
  have hcount : 328 ≤ presetCount t₁.flash := by
    rw [hflash, asking_flash, bootFlash_blank, presetCount, header_blankFlash]
    decide
  obtain ⟨fs, hhalt⟩ := browsePast_halts hcount
  have hdeliver := lateDump_delivers (bank (asking ℝ (blankFlash 1000)).flash)
  have hbytes : sysexBytes ((send_sysex_dump (bank (asking ℝ (blankFlash 1000)).flash)).flatMap
      packet_work) = (SYSEX_START :: dumpBody (bank (asking ℝ (blankFlash 1000)).flash))
        ++ [SYSEX_END] := by
    obtain ⟨-, -, -, -, -, hdata⟩ := dump_packets (bank (asking ℝ (blankFlash 1000)).flash)
    rw [sysexBytes_packets, dump_isSysex, hdata]
    rfl
  obtain ⟨pre, post, hsplit, -, hpost⟩ := exists_last_byte hbytes
  have hworks : (lateDump (send_sysex_dump (bank (asking ℝ (blankFlash 1000)).flash))).flatMap
      Input.works = (browsePast ++ pre) ++ .sysex_byte SYSEX_END :: post := by
    rw [lateDump_works, hsplit, List.append_assoc]
  -- the taps come first, and the task halts on them
  obtain ⟨gs, t', hback, -⟩ := hclaim _ 0xF7 _ hreach (asking_call _) rfl es t₁ hrun _
    (by rw [hreplies]; exact hdeliver) _ post hworks hpost
  rw [List.append_assoc, Proc.each_append_none hhalt] at hback
  cases hback

end Concrete

end PicoDsp.MidiTask
