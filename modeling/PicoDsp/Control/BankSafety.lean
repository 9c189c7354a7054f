/-
Browsing a bank that came from the editor (`handle_sysex` of `control/midi.rs`, and the
handlers that load presets).

`handle_sysex` checks the magic and the version of an image and nothing else,
so the preset count of its header reaches the bounds test, the modulus of the
soft pedal and a log argument as the editor sent it. The image has room for 143
records. Counts from 1 to 143 keep every flash access inside the image,
whatever is selected afterwards; 0 makes the log argument of a failing load go
below zero, and 144 or more puts a record that a program change and sixteen
taps reach behind the end of the image.

Safety is a predicate on effects (`EffectInImage`), so it is a party in the sense of
`Allows` and the frame of `Control/MidiSpec.lean` gives it for all channel-voice
messages at once (`in_image_allows`). Left is SysEx, which may replace the bank. The
statement is therefore about what follows an acceptance under the assumption that the
banks accepted later are browsable as well (`SafeToBrowse`); for those that are not,
the same equivalence speaks again from there on.

The converse needs a run that leaves the image for each bad count. A program change
reaches index 127 at most, and above it the player gets only by taps of the soft pedal,
one index a tap: `taps_run` walks, by induction on the taps, and `browseUp` is the walk
to record 143. A count above 327 even halts the task (`browsePast_halts`), since the
flash ends behind record 326.
-/
import PicoDsp.Control.MidiRun

set_option autoImplicit false

namespace PicoDsp.MidiTask

open Lib Sysex Storage

variable {F : Type} [F32 F]

/-! ## Safe accesses -/

/-- The header or the whole image from its start, or a record inside the preset
area; a `u32` subtraction below zero is never fine. -/
def InImage : FlashOp → Prop
  | .read addr len =>
      (addr = ADDR_OFFSET ∧ len ≤ STORAGE_IMAGE_SIZE)
        ∨ (ADDR_OFFSET + HEADER_SIZE ≤ addr ∧ addr + len ≤ ADDR_OFFSET + STORAGE_IMAGE_SIZE)
  | .underflow => False
  | _ => True

def EffectInImage : Effect F → Prop
  | .flash op => InImage op
  | _ => True

/-- The preset count of a header is one the image has room for. -/
def Browsable (h : StorageHeader) : Prop := 1 ≤ h.num_presets.toNat ∧ h.num_presets.toNat ≤ 143

/-- The header lies in the image. -/
theorem header_in_image : InImage (.read ADDR_OFFSET 16) := Or.inl ⟨rfl, by decide⟩

/-- Record 142 is the last one inside the image. -/
theorem record_in_image_iff (i : ℕ) : InImage (.read (recordAddr i) PRESET_SIZE) ↔ i ≤ 142 := by
  simp only [InImage, recordAddr, addr_offset, image_size, PRESET_SIZE, HEADER_SIZE]
  omega

/-- A load on a browsable bank reads the header and a record of the image, or no record. -/
theorem load_in_image {f : Flash} (h : Browsable (header f)) (i : ℕ) :
    ∀ op ∈ (load_preset i f).1, InImage op := by
  have hcount : 1 ≤ presetCount f ∧ presetCount f ≤ 143 := h
  intro op hop
  by_cases hlt : i < presetCount f
  · have hlast : i ≤ LAST_RECORD := by
      simp only [LAST_RECORD]
      omega
    rw [load_preset_found hlt hlast, List.mem_cons, List.mem_singleton] at hop
    rcases hop with rfl | rfl
    · exact header_in_image
    · rw [record_in_image_iff]
      omega
  · rw [load_preset_missing (Nat.not_lt.mp hlt), if_neg (by omega), List.mem_singleton] at hop
    exact hop ▸ header_in_image

omit [F32 F] in
/-- On a browsable bank all that channel-voice messages do stays inside the image. -/
theorem in_image_allows {f : Flash} (h : Browsable (header f)) :
    Allows (EffectInImage (F := F)) f where
  control _ := trivial
  preset_send _ := trivial
  led _ := trivial
  header := header_in_image
  load := load_in_image h

/-- A write goes through the image's own sectors. -/
theorem writeOps_in_image (data : List UInt8) : ∀ op ∈ writeOps data, InImage op := by
  intro op hop
  rw [writeOps, List.mem_cons] at hop
  rcases hop with rfl | hop
  · trivial
  · obtain ⟨off, -, hoff⟩ := List.mem_flatMap.mp hop
    simp only [sectorOps, List.mem_cons, List.not_mem_nil, or_false] at hoff
    rcases hoff with rfl | rfl | rfl | rfl | rfl | rfl | rfl <;> trivial

omit [F32 F] in
/-- A reply to the host accesses no flash. -/
theorem packets_in_image (ps : List Packet) :
    ∀ e ∈ ps.map (Effect.write_packet (F := F)), EffectInImage e := by
  intro e he
  obtain ⟨p, -, rfl⟩ := List.mem_map.mp he
  trivial

/-! ## A browsable bank stays safe -/

/-- An accepted image with room for its presets: the write, the reply and the
reload stay inside, and the new bank is browsable. -/
theorem write_req_in_image {t : MidiTask F}
    (hvalid : (StorageHeader.from_bytes t.rx.image.toList).Valid)
    (hgood : Browsable (header (written t.flash t.rx.image.toList))) :
    (∀ e ∈ (handle_write_req STORAGE_IMAGE_SIZE false t).1, EffectInImage e)
      ∧ ∀ t', (handle_write_req STORAGE_IMAGE_SIZE false t).2 = some ((), t') →
        Browsable (header t'.flash) := by
  obtain ⟨hev, hpost⟩ := load_leaves (in_image_allows (F := F) hgood) t.current_preset_index t.rx
    { t with flash := written t.flash t.rx.image.toList } rfl
  rw [write_req_accepted hvalid]
  refine ⟨?_, ?_⟩
  · intro e he
    rw [List.mem_append, List.mem_append] at he
    rcases he with he | he | he
    · obtain ⟨op, hop, rfl⟩ := List.mem_map.mp he
      exact writeOps_in_image _ op hop
    · exact packets_in_image _ e he
    · exact hev e he
  · intro t' h
    rw [(Prod.mk.inj (hpost () t' h)).1]
    exact hgood

/-- A completed SysEx message on a browsable bank. -/
theorem sysex_in_image {t : MidiTask F} (hb : Browsable (header t.flash)) (call : SysexCall)
    (hw : ∀ image, Effect.flash (.write_raw image) ∈ (handle_sysex call t).1 →
      Browsable (StorageHeader.from_bytes image)) :
    (∀ e ∈ (handle_sysex call t).1, EffectInImage e)
      ∧ ∀ t', (handle_sysex call t).2 = some ((), t') → Browsable (header t'.flash) := by
  -- a dump only reads
  by_cases hdump : call.cmd = CMD_DUMP_REQ
  · rw [handle_sysex_dump hdump, dump_req_run]
    refine ⟨?_, fun t' h => by cases h; exact hb⟩
    intro e he
    rw [List.mem_cons, List.mem_cons] at he
    rcases he with rfl | rfl | he
    · trivial
    · exact Or.inl ⟨rfl, Nat.le_refl _⟩
    · exact packets_in_image _ e he
  by_cases hwrite : call.cmd = CMD_WRITE_REQ
  · rw [handle_sysex_write hwrite] at hw ⊢
    -- three answers to a write, and only the last one touches the flash
    by_cases hlen : call.overflow = true ∨ call.raw_len ≠ STORAGE_IMAGE_SIZE
    · rw [write_req_bad_length hlen]
      refine ⟨?_, fun t' h => by cases h; exact hb⟩
      exact List.forall_mem_cons.mpr ⟨trivial, packets_in_image _⟩
    · have hov : call.overflow = false := Bool.eq_false_iff.mpr fun h => hlen (Or.inl h)
      have hraw : call.raw_len = STORAGE_IMAGE_SIZE := not_not.mp fun h => hlen (Or.inr h)
      rw [hov, hraw] at hw ⊢
      by_cases hvalid : (StorageHeader.from_bytes t.rx.image.toList).Valid
      · -- the call writes its image, so the image is one of those that `hw` speaks of
        have hgood : Browsable (header (written t.flash t.rx.image.toList)) := by
          rw [header_written Vector.length_toList]
          refine hw _ (List.mem_cons_of_mem _ ?_)
          rw [write_req_accepted hvalid]
          exact List.mem_append_left _ (List.mem_map.mpr ⟨_, List.mem_cons_self, rfl⟩)
        obtain ⟨hev, hpost⟩ := write_req_in_image hvalid hgood
        exact ⟨List.forall_mem_cons.mpr ⟨trivial, hev⟩, hpost⟩
      · rw [write_req_bad_magic hvalid]
        refine ⟨?_, fun t' h => by cases h; exact hb⟩
        exact List.forall_mem_cons.mpr ⟨trivial, packets_in_image _⟩
  · -- anything else is ignored
    rw [handle_sysex_other hdump hwrite]
    refine ⟨?_, fun t' h => by cases h; exact hb⟩
    exact List.forall_mem_cons.mpr ⟨trivial, by simp⟩

/-- One piece of work on a browsable bank. -/
theorem work_in_image {t : MidiTask F} (hb : Browsable (header t.flash)) (w : Work)
    (hw : ∀ image, Effect.flash (.write_raw image) ∈ (handle_work w t).1 →
      Browsable (StorageHeader.from_bytes image)) :
    (∀ e ∈ (handle_work w t).1, EffectInImage e)
      ∧ ∀ t', (handle_work w t).2 = some ((), t') → Browsable (header t'.flash) := by
  cases w with
  -- a voice message leaves the flash
  | voice status d1 d2 =>
      rw [handle_work, handle_voice_message_eq]
      obtain ⟨hev, hpost⟩ :=
        voice_leaves (in_image_allows (F := F) hb) (voiceKind status d1 d2) t.rx t rfl
      refine ⟨hev, fun t' h => ?_⟩
      rw [(Prod.mk.inj (hpost () t' h)).1]
      exact hb
  | sysex_byte b =>
      cases hcall : (t.rx.receive b).2 with
      | none =>
          rw [handle_work, sysex_byte_quiet hcall]
          exact ⟨by simp, fun t' h => by cases h; exact hb⟩
      | some call =>
          rw [handle_work, sysex_byte_call hcall] at hw ⊢
          exact sysex_in_image (t := { t with rx := (t.rx.receive b).1 }) hb call hw
  -- a fresh bank has 128 presets
  | reset_storage =>
      rw [reset_storage_run]
      refine ⟨?_, ?_⟩
      · intro e he
        obtain ⟨op, hop, rfl⟩ := List.mem_map.mp he
        exact writeOps_in_image _ op hop
      · intro t' h
        cases h
        rw [header_format]
        exact ⟨by decide, by decide⟩

/-- A run on a browsable bank. -/
theorem run_in_image {t : MidiTask F} (hb : Browsable (header t.flash)) (ws : List Work)
    (hw : ∀ image, Effect.flash (.write_raw image) ∈ (Proc.each handle_work ws t).1 →
      Browsable (StorageHeader.from_bytes image)) :
    ∀ e ∈ (Proc.each handle_work ws t).1, EffectInImage e := by
  induction ws generalizing t with
  | nil => simp
  | cons w ws ih =>
      rw [Proc.each_cons] at hw ⊢
      rcases hrun : handle_work w t with ⟨es, _ | ⟨_, t'⟩⟩
      · rw [Proc.bind_none hrun] at hw ⊢
        have hstep := work_in_image hb w
        rw [hrun] at hstep
        exact (hstep hw).1
      · rw [Proc.bind_some hrun] at hw ⊢
        have hstep := work_in_image hb w
        rw [hrun] at hstep
        obtain ⟨hev, hpost⟩ := hstep fun image h => hw image (List.mem_append_left _ h)
        have hrest := ih (hpost t' rfl) fun image h => hw image (List.mem_append_right _ h)
        intro e he
        rcases List.mem_append.mp he with h | h
        · exact hev e h
        · exact hrest e h

/-! ## Walking to a record -/

/-- A full press and release of the soft pedal. -/
def tap : List Work := [.voice 0xB0 67 127, .voice 0xB0 67 0]

/-- `n` taps. -/
def taps (n : ℕ) : List Work := (List.replicate n tap).flatten

/-- One tap more, at the end. -/
theorem taps_succ (n : ℕ) : taps (n + 1) = taps n ++ tap := by
  rw [taps, List.replicate_succ', List.flatten_append]
  simp [taps]

/-- The task between the two halves of a tap. -/
def pressed (t : MidiTask F) : MidiTask F := { t with notes := (t.notes.soft_pedal true).2 }

/-- A tap is a load of the next index. -/
theorem tap_run {t : MidiTask F} (hn : 0 < presetCount t.flash) :
    Proc.each handle_work tap t
      = (.flash (.read ADDR_OFFSET 16) ::
            (load_and_apply_preset (nextIndex t) (tapped 0 (pressed t))).1,
          (load_and_apply_preset (nextIndex t) (tapped 0 (pressed t))).2) := by
  have hpress : handle_work (.voice 0xB0 67 127) t = ([], some ((), pressed t)) := by
    rw [handle_work, handle_voice_message_eq, show voiceKind 0xB0 67 127 = .soft_pedal 127 by decide,
      handleKind]
    exact soft_pedal_idle (NoteStack.soft_pedal_press t.notes)
  have hrelease : handle_work (.voice 0xB0 67 0) (pressed t)
      = (.flash (.read ADDR_OFFSET 16) ::
            (load_and_apply_preset (nextIndex t) (tapped 0 (pressed t))).1,
          (load_and_apply_preset (nextIndex t) (tapped 0 (pressed t))).2) := by
    rw [handle_work, handle_voice_message_eq, show voiceKind 0xB0 67 0 = .soft_pedal 0 by decide,
      handleKind]
    exact soft_pedal_next (t := pressed t) rfl hn
  rw [tap, Proc.each_cons, Proc.bind_some hpress, Proc.each_singleton_run, hrelease]
  rfl

/-- One tap below the count, to a record inside the flash. -/
theorem tap_next {t : MidiTask F} (hn : t.current_preset_index + 1 < presetCount t.flash)
    (hlast : t.current_preset_index + 1 ≤ LAST_RECORD) :
    ∃ es t', Proc.each handle_work tap t = (es, some ((), t')) ∧ t'.flash = t.flash
      ∧ t'.current_preset_index = t.current_preset_index + 1
      ∧ Effect.flash (.read (recordAddr (t.current_preset_index + 1)) PRESET_SIZE) ∈ es := by
  have hnext : nextIndex t = t.current_preset_index + 1 := Nat.mod_eq_of_lt hn
  have hload := load_found (t := tapped 0 (pressed t)) (i := nextIndex t)
    (by rw [hnext]; exact hn) (by rw [hnext]; exact hlast)
  have hrun := tap_run (t := t) (by omega)
  rw [hload] at hrun
  refine ⟨_, _, hrun, rfl, hnext, ?_⟩
  refine List.mem_cons_of_mem _ (List.mem_append_left _ (List.mem_map.mpr ⟨_, ?_, rfl⟩))
  rw [hitOps, hnext]
  exact List.mem_cons_of_mem _ (List.mem_singleton_self _)

/-- `n` taps walk `n` records up. -/
theorem taps_run (n : ℕ) {t : MidiTask F} (hn : t.current_preset_index + n < presetCount t.flash)
    (hlast : t.current_preset_index + n ≤ LAST_RECORD) :
    ∃ es t', Proc.each handle_work (taps n) t = (es, some ((), t')) ∧ t'.flash = t.flash
      ∧ t'.current_preset_index = t.current_preset_index + n
      ∧ (0 < n → Effect.flash (.read (recordAddr (t.current_preset_index + n)) PRESET_SIZE) ∈ es) := by
  induction n with
  | zero => exact ⟨[], t, rfl, rfl, rfl, fun h => absurd h (Nat.lt_irrefl 0)⟩
  | succ n ih =>
      obtain ⟨es, s, hrun, hflash, hidx, -⟩ := ih (by omega) (by omega)
      obtain ⟨fs, t', htap, hflash', hidx', hread⟩ := tap_next (t := s)
        (by rw [hidx, hflash]; omega) (by rw [hidx]; omega)
      rw [hidx] at hidx' hread
      refine ⟨es ++ fs, t', ?_, hflash'.trans hflash, hidx', fun _ => List.mem_append_right _ hread⟩
      rw [taps_succ, Proc.each_append_some hrun, htap]

/-- One tap from the last record inside the flash halts the task, if the bank
claims to go on. -/
theorem tap_halts {t : MidiTask F} (hidx : t.current_preset_index = LAST_RECORD)
    (hn : LAST_RECORD + 1 < presetCount t.flash) :
    ∃ es, Proc.each handle_work tap t = (es, none) := by
  have hnext : nextIndex t = LAST_RECORD + 1 := by
    rw [nextIndex, hidx]
    exact Nat.mod_eq_of_lt hn
  have hload := load_halts (t := tapped 0 (pressed t)) (i := nextIndex t)
    (by rw [hnext]; exact hn) (by rw [hnext]; exact Nat.lt_succ_self _)
    (by rw [hnext]; decide)
  have hrun := tap_run (t := t) (by omega)
  rw [hload] at hrun
  exact ⟨_, hrun⟩

/-- Selecting a stored program. -/
theorem program_change_run {t : MidiTask F} (i : UInt8) (h : i.toNat < presetCount t.flash) :
    ∃ es t', handle_work (.voice 0xC0 i 0) t = (es, some ((), t')) ∧ t'.flash = t.flash
      ∧ t'.current_preset_index = i.toNat := by
  have hkind : voiceKind 0xC0 i 0 = .program i := rfl
  have hload := load_found (t := { t with current_preset_index := i.toNat }) h (byte_le_last i)
  have hwork : handle_work (.voice 0xC0 i 0) t
      = load_and_apply_preset i.toNat { t with current_preset_index := i.toNat } := by
    rw [handle_work, handle_voice_message_eq, hkind, handleKind, program_run]
  exact ⟨_, _, hwork.trans hload, rfl, rfl⟩

/-- Program change 127 and two hundred taps. -/
def browsePast : List Work := .voice 0xC0 127 0 :: taps 200

/-- With 328 presets or more, they halt the task. -/
theorem browsePast_halts {t : MidiTask F} (hn : 328 ≤ presetCount t.flash) :
    ∃ es, Proc.each handle_work browsePast t = (es, none) := by
  have h127 : (127 : UInt8).toNat = 127 := rfl
  obtain ⟨es, s, hpc, hflash, hidx⟩ := program_change_run (t := t) 127 (by rw [h127]; omega)
  rw [h127] at hidx
  obtain ⟨fs, u, htaps, hflash', hidx', -⟩ := taps_run 199 (t := s)
    (by rw [hidx, hflash]; omega) (by rw [hidx]; decide)
  rw [hidx] at hidx'
  obtain ⟨gs, hlast⟩ := tap_halts (t := u) hidx' (by
    rw [hflash', hflash]
    exact Nat.lt_of_lt_of_le (by decide) hn)
  refine ⟨es ++ (fs ++ gs), ?_⟩
  rw [browsePast, Proc.each_cons, Proc.bind_some hpc, taps_succ, Proc.each_append_some htaps, hlast]

/-! ## Accepting a bank -/

/-- The task with `image` in the receiver's buffer. -/
def receiving (t : MidiTask F) (image : Vector UInt8 STORAGE_IMAGE_SIZE) : MidiTask F :=
  { t with rx := { t.rx with image := image } }

/-- `handle_sysex` on a complete `CMD_WRITE_REQ`, and everything that follows. -/
def acceptThen (ws : List Work) : Proc (MidiTask F) (Effect F) Unit := do
  handle_sysex ⟨CMD_WRITE_REQ, STORAGE_IMAGE_SIZE, false⟩
  Proc.each handle_work ws

/-- Whatever follows, every access stays inside the image, as long as the banks
written later have room for their presets too. -/
def SafeToBrowse (t : MidiTask F) (image : Vector UInt8 STORAGE_IMAGE_SIZE) : Prop :=
  ∀ ws,
    (∀ later, Effect.flash (.write_raw later) ∈ (acceptThen ws (receiving t image)).1 →
      later = image.toList ∨ Browsable (StorageHeader.from_bytes later)) →
    ∀ e ∈ (acceptThen ws (receiving t image)).1, EffectInImage e

/-- The task once the image lies in flash, before the current preset is loaded
again. -/
def accepted (t : MidiTask F) (image : Vector UInt8 STORAGE_IMAGE_SIZE) : MidiTask F :=
  { receiving t image with flash := written t.flash image.toList }

omit [F32 F] in
/-- The header that is in flash after an acceptance is the image's. -/
theorem header_accepted (t : MidiTask F) (image : Vector UInt8 STORAGE_IMAGE_SIZE) :
    header (accepted t image).flash = StorageHeader.from_bytes image.toList :=
  header_written Vector.length_toList t.flash

/-- What an accepted image brings about: the write, the reply, and the load of the preset
that was current. -/
theorem accept_eq (t : MidiTask F) {image : Vector UInt8 STORAGE_IMAGE_SIZE}
    (hvalid : (StorageHeader.from_bytes image.toList).Valid) :
    handle_sysex ⟨CMD_WRITE_REQ, STORAGE_IMAGE_SIZE, false⟩ (receiving t image)
      = (.handle_sysex ⟨CMD_WRITE_REQ, STORAGE_IMAGE_SIZE, false⟩
            :: ((writeOps image.toList).map Effect.flash
              ++ ((send_sysex_status CMD_WRITE_SUCCESS none).map Effect.write_packet
                ++ (load_and_apply_preset t.current_preset_index (accepted t image)).1)),
          (load_and_apply_preset t.current_preset_index (accepted t image)).2) := by
  rw [handle_sysex_write rfl, write_req_accepted (t := receiving t image) hvalid]
  rfl

/-- The only `write_raw` of an acceptance is the one of the image. -/
theorem accept_writes {t : MidiTask F} {image : Vector UInt8 STORAGE_IMAGE_SIZE}
    (hvalid : (StorageHeader.from_bytes image.toList).Valid) {later : List UInt8}
    (h : Effect.flash (.write_raw later) ∈
      (handle_sysex ⟨CMD_WRITE_REQ, STORAGE_IMAGE_SIZE, false⟩ (receiving t image)).1) :
    later = image.toList := by
  rw [accept_eq t hvalid, List.mem_cons, List.mem_append, List.mem_append] at h
  rcases h with h | h | h | h
  · cases h
  · obtain ⟨op, hop, heq⟩ := List.mem_map.mp h
    cases heq
    rw [writeOps, List.mem_cons] at hop
    rcases hop with hop | hop
    · cases hop
      rfl
    · obtain ⟨off, -, hoff⟩ := List.mem_flatMap.mp hop
      simp [sectorOps] at hoff
  · obtain ⟨p, -, heq⟩ := List.mem_map.mp h
    cases heq
  · have hquiet := (load_leaves (quiet_allows (F := F) (accepted t image).flash)
      t.current_preset_index (accepted t image).rx (accepted t image) rfl).1 _ h
    exact hquiet.elim

/-- An empty bank: loading the current preset again already goes below zero. -/
theorem accept_empty {t : MidiTask F} {image : Vector UInt8 STORAGE_IMAGE_SIZE}
    (hvalid : (StorageHeader.from_bytes image.toList).Valid)
    (hzero : (StorageHeader.from_bytes image.toList).num_presets.toNat = 0) :
    Effect.flash .underflow ∈
      (handle_sysex ⟨CMD_WRITE_REQ, STORAGE_IMAGE_SIZE, false⟩ (receiving t image)).1 := by
  have hcount : presetCount (accepted t image).flash = 0 := by
    rw [presetCount, header_accepted]
    exact hzero
  rw [accept_eq t hvalid, load_missing (by rw [hcount]; exact Nat.zero_le _), missOps, if_pos hcount]
  refine List.mem_cons_of_mem _ (List.mem_append_right _ (List.mem_append_right _ ?_))
  exact List.mem_cons_of_mem _ (List.mem_singleton_self _)

/-- Program change 127 and sixteen taps. -/
def browseUp : List Work := .voice 0xC0 127 0 :: taps 16

/-- The walk is made of channel-voice messages. -/
theorem browseUp_voice : AllVoice browseUp := by
  intro w hw
  rw [browseUp, List.mem_cons] at hw
  rcases hw with rfl | hw
  · exact ⟨_, _, _, rfl⟩
  · rw [taps, List.mem_flatten] at hw
    obtain ⟨l, hl, hw⟩ := hw
    rw [List.eq_of_mem_replicate hl, tap, List.mem_cons, List.mem_singleton] at hw
    rcases hw with rfl | rfl
    · exact ⟨_, _, _, rfl⟩
    · exact ⟨_, _, _, rfl⟩

/-- With 144 presets or more, they reach record 143. -/
theorem browseUp_reads {t : MidiTask F} (hn : 144 ≤ presetCount t.flash) :
    Effect.flash (.read (recordAddr 143) PRESET_SIZE) ∈ (Proc.each handle_work browseUp t).1 := by
  have h127 : (127 : UInt8).toNat = 127 := rfl
  obtain ⟨es, s, hpc, hflash, hidx⟩ := program_change_run (t := t) 127 (by rw [h127]; omega)
  rw [h127] at hidx
  obtain ⟨fs, t', htaps, -, -, hread⟩ := taps_run 16 (t := s)
    (by rw [hidx, hflash]; omega) (by rw [hidx]; decide)
  rw [browseUp, Proc.each_cons, Proc.bind_some hpc, htaps]
  rw [hidx] at hread
  exact List.mem_append_right _ (hread (by decide))

/-- A count the image has no room for is reached by browsing. -/
theorem accept_unsafe {t : MidiTask F} (ht : Sound t) {image : Vector UInt8 STORAGE_IMAGE_SIZE}
    (hvalid : (StorageHeader.from_bytes image.toList).Valid)
    (hbad : ¬ Browsable (StorageHeader.from_bytes image.toList)) :
    ∃ ws, AllVoice ws ∧ ∃ e ∈ (acceptThen ws (receiving t image)).1, ¬ EffectInImage e := by
  obtain ⟨es, p, hload⟩ := load_ends (t := accepted t image) (Or.inl ht.index)
  have haccept := accept_eq t hvalid
  rw [hload] at haccept
  unfold Browsable at hbad
  by_cases hzero : (StorageHeader.from_bytes image.toList).num_presets.toNat = 0
  · refine ⟨[], by simp [AllVoice], .flash .underflow, ?_, fun h => h⟩
    have hunder := accept_empty (t := t) hvalid hzero
    rw [acceptThen, Proc.bind_some haccept]
    rw [haccept] at hunder
    exact List.mem_append_left _ hunder
  · refine ⟨browseUp, browseUp_voice, .flash (.read (recordAddr 143) PRESET_SIZE), ?_, ?_⟩
    · have hcount : 144 ≤ presetCount (accepted t image).flash := by
        rw [presetCount, header_accepted]
        omega
      rw [acceptThen, Proc.bind_some haccept]
      exact List.mem_append_right _
        (browseUp_reads (t := { accepted t image with working_preset := p }) hcount)
    · intro h
      exact absurd ((record_in_image_iff 143).mp h) (by decide)

omit [F32 F] in
/-- What the buffer holds is no part of a sound task. -/
theorem Sound.receiving {t : MidiTask F} (ht : Sound t) (image : Vector UInt8 STORAGE_IMAGE_SIZE) :
    Sound (receiving t image) := ⟨ht.header, ht.index⟩

/-- **An accepted bank is safe to browse exactly when its header counts between
1 and 143 presets.** On an empty bank the log of a failing load counts down from zero, and
record 143 lies outside of the image. Everything that may follow the acceptance counts,
also banks written later, as long as those are safe themselves. -/
theorem accepted_bank_safe_iff (t : MidiTask F) (ht : Reachable t)
    (image : Vector UInt8 STORAGE_IMAGE_SIZE)
    (hvalid : (StorageHeader.from_bytes image.toList).Valid) :
    SafeToBrowse t image ↔ Browsable (StorageHeader.from_bytes image.toList) := by
  constructor
  · intro hsafe
    by_contra hbad
    -- the messages of `accept_unsafe` write no bank, so safety would cover them
    obtain ⟨ws, hvoice, e, he, hunsafe⟩ := accept_unsafe ht.sound hvalid hbad
    refine hunsafe (hsafe ws ?_ e he)
    intro later hlater
    rw [acceptThen] at hlater
    rcases hrun : handle_sysex ⟨CMD_WRITE_REQ, STORAGE_IMAGE_SIZE, false⟩ (receiving t image)
      with ⟨es, _ | ⟨_, t'⟩⟩
    · rw [Proc.bind_none hrun] at hlater
      exact Or.inl (accept_writes (t := t) hvalid (by rw [hrun]; exact hlater))
    · rw [Proc.bind_some hrun, List.mem_append] at hlater
      rcases hlater with h | h
      · exact Or.inl (accept_writes (t := t) hvalid (by rw [hrun]; exact h))
      · exact (voices_quiet hvoice t' _ h).elim
  · intro hgood ws hlater
    -- the write itself stays inside, and so does every run on the new bank
    obtain ⟨es, p, hload⟩ := load_ends (t := accepted t image) (Or.inl ht.sound.index)
    have haccept := accept_eq t hvalid
    have hstart : Browsable (header (accepted t image).flash) := by
      rw [header_accepted]
      exact hgood
    have hfirst : ∀ e ∈ (handle_sysex ⟨CMD_WRITE_REQ, STORAGE_IMAGE_SIZE, false⟩
        (receiving t image)).1, EffectInImage e := by
      rw [handle_sysex_write rfl]
      have hreq := write_req_in_image (t := receiving t image) hvalid hstart
      exact List.forall_mem_cons.mpr ⟨trivial, hreq.1⟩
    rw [hload] at haccept
    rw [haccept] at hfirst
    rw [acceptThen, Proc.bind_some haccept] at hlater ⊢
    have hrest := run_in_image (t := { accepted t image with working_preset := p }) hstart ws ?_
    · intro e he
      rcases List.mem_append.mp he with h | h
      · exact hfirst e h
      · exact hrest e h
    · intro later h
      rcases hlater later (List.mem_append_right _ h) with rfl | hok
      · exact hgood
      · exact hok

/-! ## Concrete banks -/

/-- An image with a valid header, the given count, and nothing else. -/
def blankImage (n : UInt32) : Vector UInt8 STORAGE_IMAGE_SIZE :=
  imageOf (StorageHeader.to_bytes ⟨MAGIC, VERSION, n, 0⟩)

/-- The header of a blank image. -/
theorem header_blankImage (n : UInt32) :
    StorageHeader.from_bytes (blankImage n).toList = ⟨MAGIC, VERSION, n, 0⟩ := by
  have hbytes := from_bytes_to_bytes ⟨MAGIC, VERSION, n, 0⟩ []
  rw [List.append_nil] at hbytes
  rw [blankImage, header_imageOf, hbytes]

/-- A flash that holds such a bank. -/
def blankFlash (n : UInt32) : Flash := written (fun _ => 0xFF) (blankImage n).toList

/-- The header of a flash that holds one. -/
theorem header_blankFlash (n : UInt32) : header (blankFlash n) = ⟨MAGIC, VERSION, n, 0⟩ := by
  rw [blankFlash, header_written Vector.length_toList, header_blankImage]

/-- It is a valid header, so a boot leaves the bank alone. -/
theorem bootFlash_blank (n : UInt32) : bootFlash (blankFlash n) = blankFlash n := by
  have hvalid : (header (blankFlash n)).Valid := by
    rw [header_blankFlash]
    exact ⟨rfl, rfl⟩
  rw [bootFlash, if_pos hvalid]

/-- The factory count is one of the safe ones. -/
theorem accepted_bank_safe_iff_128 :
    SafeToBrowse (entered ℝ (bootFlash (blankFlash 128))) (blankImage 128)
      ↔ Browsable (StorageHeader.from_bytes (blankImage 128).toList) :=
  accepted_bank_safe_iff _ (entered_reachable ℝ _) _ (by rw [header_blankImage]; exact ⟨rfl, rfl⟩)

/-- A bank that claims 1000 presets is accepted, and browsing leaves it. -/
theorem accepted_bank_unsafe_1000 :
    ¬ ∀ (t : MidiTask ℝ) (image : Vector UInt8 STORAGE_IMAGE_SIZE), Reachable t →
      (StorageHeader.from_bytes image.toList).Valid → ∀ ws,
        ∀ e ∈ (acceptThen ws (receiving t image)).1, EffectInImage e := by
  intro hclaim
  have hvalid : (StorageHeader.from_bytes (blankImage 1000).toList).Valid := by
    rw [header_blankImage]
    exact ⟨rfl, rfl⟩
  have hbad : ¬ Browsable (StorageHeader.from_bytes (blankImage 1000).toList) := by
    rw [header_blankImage]
    exact fun h => absurd h.2 (by decide)
  have hreach := entered_reachable ℝ (blankFlash 128)
  obtain ⟨ws, -, e, he, hunsafe⟩ := accept_unsafe hreach.sound hvalid hbad
  exact hunsafe (hclaim _ _ hreach hvalid ws e he)

end PicoDsp.MidiTask
