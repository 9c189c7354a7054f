/-
When a SysEx message reaches the flash (`control/midi.rs`: `handle_sysex` and the
loop of `midi_task`).

The statement is about the byte stream the host sends: the data bytes of all
SysEx events, however they are cut into events and reads, and whatever else
happens between them. Along a run the receiver follows that stream
(`run_follows`), so the call at a byte, and with it the commit or the error
reply, depends on the stream only (`receives_commit`, `receives_refuse`). What the stream
cannot see is that the task halted earlier, at a channel-voice message that
selected a record past the flash; that is the one condition left.

The grammar is stated on the stream without a word about the receiver's variables. A
terminated WRITE_REQ is an F0 that is the last one, the two ids and the command, a
payload, and an F7 that is the first one behind them (`TerminatedWrite`). It is to be committed
if its payload is two nibbles for each byte of an image and the decoded image has a
valid header (`Commits`), and otherwise it is to be refused with the error of the first
test that fails (`errorCode`: the length before the magic and the version).

`ReceivesRight` says of one byte at one place of the stream that the flash is written
exactly when the grammar says so, with the image that it says, and that the host gets
exactly the reply that it says. The equivalence is over all streams: every byte is
treated right if and only if no terminated WRITE_REQ comes after a message at which the
task halted. A bank of 1000 presets is enough for such a stream, and its WRITE_REQ goes
unanswered (`commits_exactly_fails`).
-/
import PicoDsp.Control.BankSafety
import PicoDsp.Control.SysexReceiver

set_option autoImplicit false

namespace PicoDsp.MidiTask

open Lib Sysex Storage

variable {F : Type} [F32 F]

/-! ## The stream -/

/-- The SysEx bytes among the work of the task, in order. -/
def sysexBytes (ws : List Work) : List UInt8 :=
  ws.filterMap fun
    | .sysex_byte b => some b
    | _ => none

/-- The bytes of two parts of a run. -/
theorem sysexBytes_append (ws vs : List Work) :
    sysexBytes (ws ++ vs) = sysexBytes ws ++ sysexBytes vs := List.filterMap_append

@[simp] theorem sysexBytes_byte (b : UInt8) (ws : List Work) :
    sysexBytes (.sysex_byte b :: ws) = b :: sysexBytes ws := rfl

/-- One piece of work keeps the receiver where the stream is. -/
theorem work_follows {msg : Option (List UInt8)} {w : Work} {t t' : MidiTask F}
    {es : List (Effect F)} (ht : Sound t) (hmsg : Follows msg t.rx)
    (h : handle_work w t = (es, some ((), t'))) :
    Follows ((sysexBytes [w]).foldl advance msg) t'.rx := by
  cases w with
  | voice status d1 d2 =>
      rw [(voice_frame h).2.1]
      exact hmsg
  | reset_storage =>
      rw [reset_storage_run] at h
      cases h
      exact hmsg
  | sysex_byte b =>
      have hnext := follows_receive hmsg b
      cases hcall : (t.rx.receive b).2 with
      | none =>
          rw [handle_work, sysex_byte_quiet hcall] at h
          cases h
          exact hnext
      | some call =>
          rw [handle_work, sysex_byte_call hcall] at h
          have hsound : Sound { t with rx := (t.rx.receive b).1 } := ⟨ht.header, ht.index⟩
          obtain ⟨fs, u, hrun, -, hin⟩ := sysex_ends call hsound
          rw [hrun] at h
          cases h
          -- a call ends the message, so only `in_sysex` matters
          have hdone : advance msg b = none := by
            rw [receive_call hmsg b] at hcall
            cases msg with
            | none => cases hcall
            | some m =>
                rw [completed] at hcall
                split at hcall
                · rename_i hend
                  have hstart : ¬ b = SYSEX_START := by
                    rw [hend.2.1]
                    decide
                  rw [advance, if_neg hstart]
                  exact if_pos ⟨hend.1, hend.2.1⟩
                · cases hcall
          show Follows (advance msg b) t'.rx
          rw [hdone] at hnext ⊢
          exact hin.trans hnext

/-- **Along a run the receiver follows the stream.** -/
theorem run_follows {msg : Option (List UInt8)} {ws : List Work} {t t' : MidiTask F}
    {es : List (Effect F)} (ht : Sound t) (hmsg : Follows msg t.rx)
    (h : Proc.each handle_work ws t = (es, some ((), t'))) :
    Follows ((sysexBytes ws).foldl advance msg) t'.rx := by
  induction ws generalizing msg t es with
  | nil =>
      cases h
      exact hmsg
  | cons w ws ih =>
      obtain ⟨es₁, s, es₂, hrun, hrest, -⟩ := Proc.each_cons_eq_some h
      have hone : Proc.each handle_work [w] t = (es₁, some ((), s)) := by
        rw [Proc.each_singleton_run, hrun]
      have hs : Sound s := ht.run hone
      have hfinal := ih hs (work_follows ht hmsg hrun) hrest
      have hsplit : sysexBytes (w :: ws) = sysexBytes [w] ++ sysexBytes ws :=
        sysexBytes_append [w] ws
      rw [hsplit, List.foldl_append]
      exact hfinal

/-! ## The grammar -/

/-- `bs` ends with a terminated WRITE_REQ of payload `q`: its F0 is the last one
of the stream, and its F7 the first one behind the four header bytes. -/
def TerminatedWrite (bs q : List UInt8) : Prop :=
  ∃ pre, bs = pre ++ [SYSEX_START, SYSEX_ID, SYSEX_MODEL, CMD_WRITE_REQ] ++ q ++ [SYSEX_END]
    ∧ SYSEX_START ∉ q ∧ SYSEX_END ∉ q

/-- `bs` ends with a message that is to be committed, as `image`. -/
def Commits (bs image : List UInt8) : Prop :=
  ∃ q, TerminatedWrite bs q ∧ q.length = 2 * STORAGE_IMAGE_SIZE
    ∧ image.length = STORAGE_IMAGE_SIZE
    ∧ (∀ k, k < STORAGE_IMAGE_SIZE → image.getD k 0
      = ((q.getD (2 * k) 0 &&& 0x0F) <<< 4) ||| (q.getD (2 * k + 1) 0 &&& 0x0F))
    ∧ (StorageHeader.from_bytes image).Valid

/-- The error code for a payload that is not committed: a bad length takes
precedence over a bad magic or version. -/
def errorCode (q : List UInt8) : UInt8 :=
  if q.length = 2 * STORAGE_IMAGE_SIZE then ERR_BAD_MAGIC else ERR_BAD_LENGTH

/-- The message at the end of a stream that a WRITE_REQ terminates. -/
theorem terminatedWrite_iff {bs q : List UInt8} {b : UInt8} :
    TerminatedWrite (bs ++ [b]) q ↔
      b = SYSEX_END ∧ progress bs = some (SYSEX_ID :: SYSEX_MODEL :: CMD_WRITE_REQ :: q) := by
  rw [progress_eq_some_iff]
  constructor
  · rintro ⟨pre, heq, hstart, hend⟩
    obtain ⟨hbs, hb⟩ := List.append_inj' heq rfl
    rw [List.singleton_inj] at hb
    refine ⟨hb, pre, ?_, ?_, hend⟩
    · rw [hbs, List.append_assoc]
      rfl
    · simp only [List.mem_cons, not_or]
      exact ⟨by decide, by decide, by decide, hstart⟩
  · rintro ⟨rfl, pre, rfl, hstart, hend⟩
    refine ⟨pre, ?_, ?_, hend⟩
    · simp
    · simp only [List.mem_cons, not_or] at hstart
      exact hstart.2.2.2

/-- A committed image is the decoded payload. -/
theorem commits_iff {bs image : List UInt8} :
    Commits bs image ↔ ∃ q, TerminatedWrite bs q ∧ q.length = 2 * STORAGE_IMAGE_SIZE
      ∧ image = Bytes.denibbleize q ∧ (StorageHeader.from_bytes image).Valid := by
  constructor
  · rintro ⟨q, hterm, hlen, hilen, hbytes, hvalid⟩
    refine ⟨q, hterm, hlen, ?_, hvalid⟩
    have hdlen : (Bytes.denibbleize q).length = STORAGE_IMAGE_SIZE := by
      rw [Bytes.denibbleize_length, hlen]
      omega
    refine List.ext_getElem (by rw [hilen, hdlen]) fun k h₁ h₂ => ?_
    rw [hdlen] at h₂
    rw [← List.getD_eq_getElem _ 0 h₁, ← List.getD_eq_getElem _ 0 (by rw [hdlen]; exact h₂),
      hbytes k h₂, Bytes.denibbleize_getD _ _ (by omega)]
    rfl
  · rintro ⟨q, hterm, hlen, rfl, hvalid⟩
    refine ⟨q, hterm, hlen, ?_, ?_, hvalid⟩
    · rw [Bytes.denibbleize_length, hlen]
      omega
    · intro k hk
      rw [Bytes.denibbleize_getD _ _ (by omega)]
      rfl

/-! ## What a byte does -/

/-- What the task does at `w`, which comes after `pre`: nothing when it has
halted before. -/
def effectsAt (t₀ : MidiTask F) (pre : List Work) (w : Work) : List (Effect F) :=
  match (Proc.each handle_work pre t₀).2 with
  | none => []
  | some (_, t) => (handle_work w t).1

/-- What the task does at `w` when it has not halted before. -/
theorem effectsAt_of_run {t₀ t : MidiTask F} {pre : List Work} {es : List (Effect F)}
    (h : Proc.each handle_work pre t₀ = (es, some ((), t))) (w : Work) :
    effectsAt t₀ pre w = (handle_work w t).1 := by
  rw [effectsAt, h]

/-- The message that ends at `b`, and the state it is handled in. -/
theorem byte_call {msg : Option (List UInt8)} {t : MidiTask F} (hmsg : Follows msg t.rx)
    (b : UInt8) :
    handle_sysex_byte b t
      = match completed msg b with
        | none => ([], some ((), { t with rx := (t.rx.receive b).1 }))
        | some call => handle_sysex call { t with rx := (t.rx.receive b).1 } := by
  have hcall := receive_call hmsg b
  cases hc : completed msg b with
  | none => exact sysex_byte_quiet (hcall.trans hc)
  | some call => exact sysex_byte_call (hcall.trans hc)

/-- The call a terminated WRITE_REQ makes. -/
def writeCall (q : List UInt8) : SysexCall where
  cmd := CMD_WRITE_REQ
  raw_len := min (q.length / 2) STORAGE_IMAGE_SIZE
  overflow := decide (STORAGE_IMAGE_SIZE < q.length / 2) || decide (q.length % 2 = 1)

/-- The F7 of a WRITE_REQ calls `handle_sysex` with what the payload amounts to. -/
theorem completed_write (q : List UInt8) :
    completed (some (SYSEX_ID :: SYSEX_MODEL :: CMD_WRITE_REQ :: q)) SYSEX_END
      = some (writeCall q) := by
  rw [completed, if_pos]
  · rfl
  · exact ⟨by simp, rfl, rfl, rfl⟩

/-- The length test of `handle_sysex` passes exactly the payloads of two nibbles
a byte. -/
theorem bad_length_iff (q : List UInt8) :
    (writeCall q).overflow = true ∨ (writeCall q).raw_len ≠ STORAGE_IMAGE_SIZE
      ↔ q.length ≠ 2 * STORAGE_IMAGE_SIZE := by
  unfold writeCall
  simp only [Bool.or_eq_true, decide_eq_true_iff]
  omega

/-- A payload of full length fills the buffer without overflow. -/
theorem writeCall_full {q : List UInt8} (hlen : q.length = 2 * STORAGE_IMAGE_SIZE) :
    writeCall q = ⟨CMD_WRITE_REQ, STORAGE_IMAGE_SIZE, false⟩ := by
  have hgood := mt (bad_length_iff q).mp (not_not.mpr hlen)
  rw [not_or, Bool.not_eq_true, not_not] at hgood
  obtain ⟨hov, hraw⟩ := hgood
  show (⟨CMD_WRITE_REQ, (writeCall q).raw_len, (writeCall q).overflow⟩ : SysexCall) = _
  rw [hov, hraw]

omit [F32 F] in
/-- The image in the buffer when a WRITE_REQ of full length ends. -/
theorem committed_image {t : MidiTask F} {q : List UInt8}
    (hmsg : Follows (some (SYSEX_ID :: SYSEX_MODEL :: CMD_WRITE_REQ :: q)) t.rx)
    (hlen : q.length = 2 * STORAGE_IMAGE_SIZE) :
    (t.rx.receive SYSEX_END).1.image.toList = Bytes.denibbleize q := by
  have hcall := (receive_call hmsg SYSEX_END).trans (completed_write q)
  rw [receive_end_image hcall]
  exact image_eq_decoded hmsg hlen

/-- A WRITE_REQ of full length hands the decoded payload to `handle_sysex`. -/
theorem full_byte {t : MidiTask F} {q : List UInt8}
    (hmsg : Follows (some (SYSEX_ID :: SYSEX_MODEL :: CMD_WRITE_REQ :: q)) t.rx)
    (hlen : q.length = 2 * STORAGE_IMAGE_SIZE) :
    ∃ image : Vector UInt8 STORAGE_IMAGE_SIZE, image.toList = Bytes.denibbleize q
      ∧ handle_sysex_byte SYSEX_END t
        = handle_sysex ⟨CMD_WRITE_REQ, STORAGE_IMAGE_SIZE, false⟩
            (receiving { t with rx := (t.rx.receive SYSEX_END).1 } image) := by
  refine ⟨(t.rx.receive SYSEX_END).1.image, committed_image hmsg hlen, ?_⟩
  rw [byte_call hmsg, completed_write, writeCall_full hlen]
  rfl

/-- A terminated WRITE_REQ that is not committed: one error reply, and only the
receiver's own variables change. -/
theorem reject_byte {t : MidiTask F} {q : List UInt8}
    (hmsg : Follows (some (SYSEX_ID :: SYSEX_MODEL :: CMD_WRITE_REQ :: q)) t.rx)
    (hbad : ¬ (q.length = 2 * STORAGE_IMAGE_SIZE
      ∧ (StorageHeader.from_bytes (Bytes.denibbleize q)).Valid)) :
    handle_sysex_byte SYSEX_END t
      = (.handle_sysex (writeCall q)
            :: (send_sysex_status CMD_WRITE_ERROR (some (errorCode q))).map Effect.write_packet,
          some ((), { t with rx := (t.rx.receive SYSEX_END).1 })) := by
  rw [byte_call hmsg, completed_write]
  simp only
  rw [handle_sysex_write rfl, errorCode]
  by_cases hlen : q.length = 2 * STORAGE_IMAGE_SIZE
  · have hinvalid : ¬ (StorageHeader.from_bytes (t.rx.receive SYSEX_END).1.image.toList).Valid := by
      rw [committed_image hmsg hlen]
      exact fun hvalid => hbad ⟨hlen, hvalid⟩
    rw [writeCall_full hlen, if_pos hlen,
      write_req_bad_magic (t := { t with rx := (t.rx.receive SYSEX_END).1 }) hinvalid]
  · rw [write_req_bad_length ((bad_length_iff q).mpr hlen), if_neg hlen]

/-- A byte that ends no WRITE_REQ commits nothing. -/
theorem other_byte {msg : Option (List UInt8)} {t : MidiTask F} (hmsg : Follows msg t.rx)
    {b : UInt8}
    (hother : ¬ (b = SYSEX_END ∧ ∃ q, msg = some (SYSEX_ID :: SYSEX_MODEL :: CMD_WRITE_REQ :: q)))
    (image : List UInt8) : Effect.flash (.write_raw image) ∉ (handle_sysex_byte b t).1 := by
  intro hmem
  rw [byte_call hmsg] at hmem
  cases msg with
  | none => simp [completed] at hmem
  | some m =>
      rw [completed] at hmem
      split at hmem
      · simp at hmem
      · rename_i call hcall
        split at hcall
        · rename_i hend
          obtain ⟨hlen, hb, hid, hmodel⟩ := hend
          cases hcall
          -- a complete header that is not that of a WRITE_REQ: a dump, or nothing
          match m, hlen with
          | x :: y :: z :: q, _ =>
              have hx : x = SYSEX_ID := hid
              have hy : y = SYSEX_MODEL := hmodel
              have hz : z ≠ CMD_WRITE_REQ := by
                rintro rfl
                exact hother ⟨hb, q, by rw [hx, hy]⟩
              by_cases hdump : z = CMD_DUMP_REQ
              · rw [handle_sysex_dump hdump, dump_req_run] at hmem
                simp at hmem
              · rw [handle_sysex_other hdump hz] at hmem
                simp at hmem
        · cases hcall

/-! ## The equivalence -/

/-- Byte `b`, which comes after `pre`, is treated as the grammar says: an image
is written exactly when the stream ends with its message, and any other
terminated WRITE_REQ is answered with one error and changes nothing. -/
def ReceivesRight (t₀ : MidiTask F) (pre : List Work) (b : UInt8) : Prop :=
  (∀ image, Effect.flash (.write_raw image) ∈ effectsAt t₀ pre (.sysex_byte b)
      ↔ Commits (sysexBytes pre ++ [b]) image)
    ∧ ∀ q, TerminatedWrite (sysexBytes pre ++ [b]) q →
      (¬ ∃ image, Commits (sysexBytes pre ++ [b]) image) →
      ∃ es t call rx', Proc.each handle_work pre t₀ = (es, some ((), t))
        ∧ handle_work (.sysex_byte b) t
          = (.handle_sysex call :: (send_sysex_status CMD_WRITE_ERROR (some (errorCode q))).map
                Effect.write_packet,
              some ((), { t with rx := rx' }))

/-- There is one message at the end of a stream. -/
theorem terminatedWrite_unique {bs q q' : List UInt8} {b : UInt8}
    (h : TerminatedWrite (bs ++ [b]) q) (h' : TerminatedWrite (bs ++ [b]) q') : q = q' := by
  have hp := (terminatedWrite_iff.mp h).2
  rw [(terminatedWrite_iff.mp h').2] at hp
  simpa using hp.symm

section Receives

variable {t₀ t : MidiTask F} {pre : List Work} {es : List (Effect F)} {b : UInt8} {q : List UInt8}

/-- The message to commit is written: the image of the write is its payload. -/
theorem receives_commit (hrun : Proc.each handle_work pre t₀ = (es, some ((), t)))
    (hmsg : Follows (some (SYSEX_ID :: SYSEX_MODEL :: CMD_WRITE_REQ :: q)) t.rx)
    (hq : TerminatedWrite (sysexBytes pre ++ [SYSEX_END]) q)
    (hlen : q.length = 2 * STORAGE_IMAGE_SIZE)
    (hheader : (StorageHeader.from_bytes (Bytes.denibbleize q)).Valid) :
    ReceivesRight t₀ pre SYSEX_END := by
  obtain ⟨image, himage, hbyte⟩ := full_byte hmsg hlen
  have hvalid : (StorageHeader.from_bytes image.toList).Valid := by
    rw [himage]
    exact hheader
  have hcommit : Commits (sysexBytes pre ++ [SYSEX_END]) (Bytes.denibbleize q) :=
    commits_iff.mpr ⟨q, hq, hlen, rfl, hheader⟩
  unfold ReceivesRight
  rw [effectsAt_of_run hrun (.sysex_byte SYSEX_END)]
  refine ⟨fun later => ⟨fun hmem => ?_, fun hc => ?_⟩, fun _ _ hnone => absurd ⟨_, hcommit⟩ hnone⟩
  · rw [handle_work, hbyte] at hmem
    rw [accept_writes hvalid hmem, himage]
    exact hcommit
  · obtain ⟨q', hq', -, rfl, -⟩ := commits_iff.mp hc
    rw [terminatedWrite_unique hq' hq, ← himage, handle_work, hbyte, accept_eq _ hvalid]
    refine List.mem_cons_of_mem _ (List.mem_append_left _ ?_)
    exact List.mem_map.mpr ⟨_, List.mem_cons_self, rfl⟩

/-- Any other WRITE_REQ is refused with one error. -/
theorem receives_refuse (hrun : Proc.each handle_work pre t₀ = (es, some ((), t)))
    (hmsg : Follows (some (SYSEX_ID :: SYSEX_MODEL :: CMD_WRITE_REQ :: q)) t.rx)
    (hq : TerminatedWrite (sysexBytes pre ++ [SYSEX_END]) q)
    (hbad : ¬ (q.length = 2 * STORAGE_IMAGE_SIZE
      ∧ (StorageHeader.from_bytes (Bytes.denibbleize q)).Valid)) :
    ReceivesRight t₀ pre SYSEX_END := by
  have hreject := reject_byte hmsg hbad
  unfold ReceivesRight
  rw [effectsAt_of_run hrun (.sysex_byte SYSEX_END)]
  refine ⟨fun later => ⟨fun hmem => ?_, fun hc => ?_⟩, fun q' hq' _ => ?_⟩
  · rw [handle_work, hreject] at hmem
    simp at hmem
  · obtain ⟨q', hq', hlen, rfl, hvalid⟩ := commits_iff.mp hc
    rw [terminatedWrite_unique hq' hq] at hlen hvalid
    exact absurd ⟨hlen, hvalid⟩ hbad
  · rw [terminatedWrite_unique hq' hq]
    exact ⟨es, t, _, _, hrun, hreject⟩

/-- Where no WRITE_REQ ends, nothing is written. -/
theorem receives_other (hrun : Proc.each handle_work pre t₀ = (es, some ((), t)))
    (hmsg : Follows (progress (sysexBytes pre)) t.rx)
    (hterm : ¬ ∃ q, TerminatedWrite (sysexBytes pre ++ [b]) q) : ReceivesRight t₀ pre b := by
  have hother : ¬ (b = SYSEX_END ∧ ∃ q,
      progress (sysexBytes pre) = some (SYSEX_ID :: SYSEX_MODEL :: CMD_WRITE_REQ :: q)) := by
    rintro ⟨hb, q, hq⟩
    exact hterm ⟨q, terminatedWrite_iff.mpr ⟨hb, hq⟩⟩
  unfold ReceivesRight
  rw [effectsAt_of_run hrun (.sysex_byte b)]
  refine ⟨fun later => ⟨fun hmem => ?_, ?_⟩, fun q hq _ => absurd ⟨q, hq⟩ hterm⟩
  · exact absurd hmem (other_byte hmsg hother later)
  · rintro ⟨q, hq, -⟩
    exact absurd ⟨q, hq⟩ hterm

/-- As long as the task has not halted, every byte is treated right. -/
theorem receives_of_run (ht₀ : Sound t₀) (hstart : Follows none t₀.rx)
    (hrun : Proc.each handle_work pre t₀ = (es, some ((), t))) (b : UInt8) :
    ReceivesRight t₀ pre b := by
  have hmsg : Follows (progress (sysexBytes pre)) t.rx := run_follows ht₀ hstart hrun
  by_cases hterm : ∃ q, TerminatedWrite (sysexBytes pre ++ [b]) q
  · obtain ⟨q, hq⟩ := hterm
    obtain ⟨rfl, hprog⟩ := terminatedWrite_iff.mp hq
    rw [hprog] at hmsg
    by_cases hgood : q.length = 2 * STORAGE_IMAGE_SIZE
        ∧ (StorageHeader.from_bytes (Bytes.denibbleize q)).Valid
    · exact receives_commit hrun hmsg hq hgood.1 hgood.2
    · exact receives_refuse hrun hmsg hq hgood
  · exact receives_other hrun hmsg hterm

end Receives

/-- **The receiver commits exactly the messages of its grammar, on every stream
in which no terminated WRITE_REQ comes after a message that selects a record
past the flash, and on no other.** -/
theorem commits_exactly_iff (f : Flash) (ins : List Input) :
    (∃ es, boot (F := F) f = (es, some (entered F (bootFlash f), bootFlash f)))
    ∧ ((∀ pre b post, ins.flatMap Input.works = pre ++ .sysex_byte b :: post →
          ReceivesRight (entered F (bootFlash f)) pre b)
      ↔ ∀ pre b post q, ins.flatMap Input.works = pre ++ .sysex_byte b :: post →
          TerminatedWrite (sysexBytes pre ++ [b]) q → SafeRun (entered F (bootFlash f)) pre) := by
  have hsound := entered_sound (F := F) f
  refine ⟨boot_run f, fun hright => ?_, fun hsafe => ?_⟩
  · intro pre b post q heq hq
    rw [← run_ends_iff hsound]
    by_contra hhalt
    obtain ⟨hwrite, hreply⟩ := hright pre b post heq
    -- a halted task writes nothing, so the message is not one to commit
    have hnone : ¬ ∃ image, Commits (sysexBytes pre ++ [b]) image := by
      rintro ⟨image, hc⟩
      have hmem := (hwrite image).mpr hc
      unfold effectsAt at hmem
      split at hmem
      · cases hmem
      · rename_i r s hres
        exact hhalt ⟨_, s, Prod.ext rfl hres⟩
    -- and the reply to any other message needs a task that goes on
    obtain ⟨es, t, -, -, hrun, -⟩ := hreply q hq hnone
    exact hhalt ⟨es, t, hrun⟩
  · intro pre b post heq
    by_cases hrun : ∃ es t, Proc.each handle_work pre (entered F (bootFlash f)) = (es, some ((), t))
    · obtain ⟨es, t, hrun⟩ := hrun
      exact receives_of_run hsound follows_new hrun b
    · -- the task has halted, so there must be nothing to do
      have hterm : ∀ q, ¬ TerminatedWrite (sysexBytes pre ++ [b]) q := fun q hq =>
        hrun ((run_ends_iff hsound pre).mpr (hsafe pre b post q heq hq))
      refine ⟨fun image => ⟨fun hmem => ?_, ?_⟩, fun q hq _ => absurd hq (hterm q)⟩
      · unfold effectsAt at hmem
        split at hmem
        · cases hmem
        · rename_i r s hres
          exact absurd ⟨_, s, Prod.ext rfl hres⟩ hrun
      · rintro ⟨q, hq, -⟩
        exact absurd hq (hterm q)

/-! ## A stream on which the task has halted -/

/-- A tap as two USB reads. -/
def tapInputs : List Input :=
  [.usb_read [0x0B, 0xB0, 67, 127], .usb_read [0x0B, 0xB0, 67, 0]]

/-- Reads of a tap each make the taps of the keyboard. -/
theorem tapInputs_works (n : ℕ) :
    (List.replicate n tapInputs).flatten.flatMap Input.works = taps n := by
  induction n with
  | zero => rfl
  | succ n ih =>
      rw [List.replicate_succ, List.flatten_cons, List.flatMap_append, ih, taps, taps,
        List.replicate_succ, List.flatten_cons]
      congr 1

/-- Program change 127 and two hundred taps, then a WRITE_REQ without payload. -/
def haltedStream : List Input :=
  .usb_read [0x0C, 0xC0, 127, 0] :: (List.replicate 200 tapInputs).flatten
    ++ [.usb_read [0x04, 0xF0, 0x7D, 0x01, 0x06, 0x02, 0xF7, 0x00]]

/-- First the browsing, then four bytes of the message, and last its F7. -/
theorem haltedStream_works :
    haltedStream.flatMap Input.works
      = (browsePast ++ [.sysex_byte 0xF0, .sysex_byte 0x7D, .sysex_byte 0x01, .sysex_byte 0x02])
        ++ .sysex_byte 0xF7 :: [] := by
  rw [haltedStream, List.cons_append, List.flatMap_cons, List.flatMap_append, tapInputs_works,
    browsePast]
  simp only [List.cons_append, List.append_assoc]
  rfl

/-- On a bank of 1000 presets that message gets no answer. -/
theorem commits_exactly_fails :
    ¬ ∀ (f : Flash) (ins : List Input) pre b post,
      ins.flatMap Input.works = pre ++ .sysex_byte b :: post →
        ReceivesRight (entered ℝ (bootFlash f)) pre b := by
  intro hclaim
  -- a bank that claims 1000 presets is browsed past the end of the flash
  have hcount : 328 ≤ presetCount (entered ℝ (bootFlash (blankFlash 1000))).flash := by
    rw [entered_flash, bootFlash_blank, presetCount, header_blankFlash]
    decide
  obtain ⟨es, hhalt⟩ := browsePast_halts hcount
  -- so the device is halted before the message begins
  have hdead := Proc.each_append_none hhalt
    [.sysex_byte 0xF0, .sysex_byte 0x7D, .sysex_byte 0x01, .sysex_byte 0x02]
  obtain ⟨-, hreply⟩ := hclaim (blankFlash 1000) haltedStream _ _ _ haltedStream_works
  have hbytes : sysexBytes (browsePast
      ++ [.sysex_byte 0xF0, .sysex_byte 0x7D, .sysex_byte 0x01, .sysex_byte 0x02])
      = [0xF0, 0x7D, 0x01, 0x02] := by
    rw [sysexBytes_append]
    rfl
  rw [hbytes] at hreply
  have hterm : TerminatedWrite ([0xF0, 0x7D, 0x01, 0x02] ++ [0xF7]) [] :=
    ⟨[], rfl, by simp, by simp⟩
  obtain ⟨fs, t, -, -, hrun, -⟩ := hreply [] hterm (by
    rintro ⟨image, q, hq, hlen, -⟩
    rw [terminatedWrite_unique hq hterm, image_size, List.length_nil] at hlen
    omega)
  rw [hdead] at hrun
  cases hrun

end PicoDsp.MidiTask
