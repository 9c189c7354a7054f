/-
The PSRAM gate in the whole firmware (`data/storage.rs`, `tasks/core1.rs`, `control/midi.rs`).

`PsramGate` has one core that calls `write_raw` again and again. Here the accesses to the
gate come from the messages `midi_task` handles, in between all its other effects, and the
other tasks go on meanwhile. Every message leaves the gate as it found it (`InOrder`), so
the invariant of the two cores carries over: as long as no rewrite of the bank is begun
before core1 is live, the flash is erased and programmed with core1 off the PSRAM.

The order of the accesses is a property of the effects that a message still has to make,
and is proved of each kind of work from what its handler puts out (`work_inOrder`). Most of
them have nothing to do with the gate (`Outside`), and a rewrite goes sector by sector.

The difference to two cores alone is that core1 may not be up. Then
`lock_core1_off_psram` leaves out the wait, the accesses to come are cut short, and the
protocol goes on as if the acknowledgement had been there (`asking_next`, `order_gate`).
Writing with core1 neither up nor out of the way is what `Patient` excludes; it is a
condition on the state in front of the message.

Two invariants are kept apart. `GateKept` holds in every run: the flags are what the
accesses to come will find. `Excluded` needs the condition: while the lock is held core1 is
on its way round the gate. The result is stated for every state in which midi_task holds
the lock and not only in front of an erase or a program (`HoldsGate`): so also in front
of the release, and from any such state core1 stays out until the release is made
(`Excluded.stays_out`).
-/
import PicoDsp.System.PowerUp
import PicoDsp.System.PsramGate

set_option autoImplicit false

namespace PicoDsp

open Lib Storage MidiTask Transition

/-! ## The order of the accesses -/

section Order

variable {F : Type}

/-- The effects to come follow the protocol of the gate, and nothing but the flash is
accessed on the way. -/
def InOrder : GatePhase → List (Effect F) → Prop
  | ph, [] => ph = .idle
  | ph, .flash op :: es => ∃ ph', ph.next op = some ph' ∧ InOrder ph' es
  | ph, _ :: es => ph = .idle ∧ InOrder .idle es

/-- An effect that has nothing to do with the gate. -/
def Outside : Effect F → Prop
  | .flash op => GatePhase.idle.next op = some .idle
  | _ => True

/-- One message behind another. -/
theorem InOrder.append {ph : GatePhase} {es es' : List (Effect F)} (h : InOrder ph es)
    (h' : InOrder .idle es') : InOrder ph (es ++ es') := by
  induction es generalizing ph with
  | nil =>
      rw [show ph = .idle from h]
      exact h'
  | cons e es ih =>
      cases e with
      | flash op =>
          obtain ⟨ph', hnext, hrest⟩ := h
          exact ⟨ph', hnext, ih hrest⟩
      | control op => exact ⟨h.1, ih h.2⟩
      | preset_send p => exact ⟨h.1, ih h.2⟩
      | led on => exact ⟨h.1, ih h.2⟩
      | write_packet p => exact ⟨h.1, ih h.2⟩
      | handle_sysex call => exact ⟨h.1, ih h.2⟩

/-- The phase can be read off the accesses to the flash. -/
theorem InOrder.shaped {ph : GatePhase} {es : List (Effect F)} (h : InOrder ph es) :
    Shaped ph (flashOf es) := by
  induction es generalizing ph with
  | nil => exact h
  | cons e es ih =>
      cases e with
      | flash op =>
          obtain ⟨ph', hnext, hrest⟩ := h
          exact ⟨ph', hnext, ih hrest⟩
      | control op => exact h.1 ▸ ih h.2
      | preset_send p => exact h.1 ▸ ih h.2
      | led on => exact h.1 ▸ ih h.2
      | write_packet p => exact h.1 ▸ ih h.2
      | handle_sysex call => exact h.1 ▸ ih h.2

/-- Effects that have nothing to do with the gate may come at any time it is free. -/
theorem inOrder_outside {es : List (Effect F)} (h : ∀ e ∈ es, Outside e) : InOrder .idle es := by
  induction es with
  | nil => rfl
  | cons e es ih =>
      rw [List.forall_mem_cons] at h
      have hrest := ih h.2
      cases e with
      | flash op => exact ⟨.idle, h.1, hrest⟩
      | control op => exact ⟨rfl, hrest⟩
      | preset_send p => exact ⟨rfl, hrest⟩
      | led on => exact ⟨rfl, hrest⟩
      | write_packet p => exact ⟨rfl, hrest⟩
      | handle_sysex call => exact ⟨rfl, hrest⟩

/-- Flash accesses in the order of the protocol. -/
theorem inOrder_flash {ph : GatePhase} {ops : List FlashOp} (h : Shaped ph ops) :
    InOrder ph (ops.map (Effect.flash (F := F))) := by
  induction ops generalizing ph with
  | nil => exact h
  | cons op ops ih =>
      obtain ⟨ph', hnext, hrest⟩ := h
      exact ⟨ph', hnext, ih hrest⟩

/-- What channel-voice messages do has nothing to do with the gate. -/
theorem outside_of_quiet {e : Effect F} (h : Quiet e) : Outside e := by
  cases e with
  | flash op =>
      cases op with
      | read addr len => rfl
      | underflow => rfl
      | write_raw data => exact h.elim
      | gate_req => exact h.elim
      | gate_running => exact h.elim
      | gate_ack => exact h.elim
      | erase addr => exact h.elim
      | program addr data => exact h.elim
      | reinit => exact h.elim
      | gate_release => exact h.elim
  | control op => trivial
  | preset_send p => trivial
  | led on => trivial
  | write_packet p => trivial
  | handle_sysex call => trivial

/-- Neither have replies to the host. -/
theorem inOrder_packets (ps : List Sysex.Packet) :
    InOrder .idle (ps.map (Effect.write_packet (F := F))) := by
  apply inOrder_outside
  intro e he
  obtain ⟨p, -, rfl⟩ := List.mem_map.mp he
  trivial

/-- Behind the test of `CORE1_RUNNING` stands the wait. -/
theorem asking_next {es : List (Effect F)} (h : InOrder .asking es) :
    ∃ es', es = .flash .gate_ack :: es' ∧ InOrder .locked es' := by
  cases es with
  | nil => cases h
  | cons e es =>
      cases e with
      | flash op =>
          obtain ⟨ph, hnext, hrest⟩ := h
          obtain ⟨rfl, rfl⟩ := GatePhase.asking_next hnext
          exact ⟨es, rfl, hrest⟩
      | control op => cases h.1
      | preset_send p => cases h.1
      | led on => cases h.1
      | write_packet p => cases h.1
      | handle_sysex call => cases h.1

variable [F32 F]

/-- Work that does not write the bank has nothing to do with the gate. -/
theorem work_outside {t : MidiTask F} {w : Work} (h : ¬ Rewrites t w) :
    ∀ e ∈ (handle_work w t).1, Outside e := by
  have hpackets : ∀ ps : List Sysex.Packet, ∀ e ∈ ps.map (Effect.write_packet (F := F)), Outside e := by
    intro ps e he
    obtain ⟨p, -, rfl⟩ := List.mem_map.mp he
    trivial
  cases w with
  -- a channel-voice message only reads the bank
  | voice status d1 d2 =>
      rw [handle_work, handle_voice_message_eq]
      have hquiet := (voice_leaves (quiet_allows (F := F) t.flash) (voiceKind status d1 d2) t.rx t rfl).1
      exact fun e he => outside_of_quiet (hquiet e he)
  | reset_storage => exact absurd trivial h
  | sysex_byte b =>
      cases hcall : (t.rx.receive b).2 with
      | none =>
          rw [handle_work, sysex_byte_quiet hcall]
          exact fun e he => absurd he List.not_mem_nil
      | some call =>
          rw [handle_work, sysex_byte_call hcall]
          by_cases hdump : call.cmd = Sysex.CMD_DUMP_REQ
          · rw [handle_sysex_dump hdump, dump_req_run]
            exact List.forall_mem_cons.mpr ⟨trivial, List.forall_mem_cons.mpr ⟨rfl, hpackets _⟩⟩
          by_cases hwrite : call.cmd = Sysex.CMD_WRITE_REQ
          · -- the request is refused
            rw [handle_sysex_write hwrite]
            refine List.forall_mem_cons.mpr ⟨trivial, ?_⟩
            by_cases hlen : call.overflow = true ∨ call.raw_len ≠ STORAGE_IMAGE_SIZE
            · rw [write_req_bad_length hlen]
              exact hpackets _
            rw [not_or, Bool.not_eq_true, ne_eq, not_not] at hlen
            have hvalid : ¬ (StorageHeader.from_bytes
                ({ t with rx := (t.rx.receive b).1 } : MidiTask F).rx.image.toList).Valid :=
              fun hv => h ⟨call, hcall, hwrite, hlen.1, hlen.2, hv⟩
            rw [hlen.1, hlen.2, write_req_bad_magic hvalid]
            exact hpackets _
          · rw [handle_sysex_other hdump hwrite]
            exact List.forall_mem_cons.mpr ⟨trivial, fun e he => absurd he List.not_mem_nil⟩

/-- Work that writes the bank does so sector by sector through the gate. -/
theorem rewrite_inOrder {t : MidiTask F} {w : Work} (h : Rewrites t w) :
    InOrder .idle (handle_work w t).1 := by
  cases w with
  | voice status d1 d2 => exact h.elim
  | reset_storage =>
      rw [reset_storage_run]
      exact inOrder_flash (shaped_writeOps _)
  | sysex_byte b =>
      obtain ⟨call, hcall, hwrite, hov, hlen, hvalid⟩ := h
      rw [handle_work, sysex_byte_call hcall, handle_sysex_write hwrite, hov, hlen,
        write_req_accepted (t := { t with rx := (t.rx.receive b).1 }) hvalid]
      -- the image is written, acknowledged, and the preset loaded again
      refine ⟨rfl, (inOrder_flash (shaped_writeOps _)).append ((inOrder_packets _).append ?_)⟩
      set t' : MidiTask F := { t with
        rx := (t.rx.receive b).1
        flash := written t.flash (t.rx.receive b).1.image.toList } with ht'
      have hquiet := (load_leaves (quiet_allows (F := F) t'.flash) t.current_preset_index
        t'.rx t' rfl).1
      exact inOrder_outside fun e he => outside_of_quiet (hquiet e he)

/-- **Every message leaves the gate as it found it.** -/
theorem work_inOrder (t : MidiTask F) (w : Work) : InOrder .idle (handle_work w t).1 := by
  by_cases h : Rewrites t w
  · exact rewrite_inOrder h
  · exact inOrder_outside (work_outside h)

end Order

namespace Firmware

variable {F : Type}

/-- The gate as the accesses to come will find it: `PSRAM_GATE_REQ` is up from the
request to the release, core1 is live where its acknowledgement is waited for, and the
acknowledgement is up exactly while core1 is parked. -/
structure GateKept (s : Firmware F) : Prop where
  order : ∃ ph, InOrder ph s.todo ∧ (s.shared.gate_req = true ↔ ph ≠ .idle)
    ∧ (ph = .asking → s.shared.core1_running = true)
  ack : s.shared.gate_ack = true ↔ s.core1.pc.Parked

section Step

variable [F32 F] {s s' : Firmware F}

/-- Inputs and events of the link leave the gate alone. -/
theorem outer_gate {l : Label} (hl : Outer l) (h : s.step l = some s') :
    s'.shared.gate_req = s.shared.gate_req ∧ s'.shared.gate_ack = s.shared.gate_ack := by
  cases outer_arrives hl h with
  | _ => exact ⟨rfl, rfl⟩

omit [F32 F] in
/-- An access leaves the acknowledgement alone. -/
theorem exec_ack {sh sh' : Shared F} {e : Effect F} (h : sh.exec e = some sh') :
    sh'.gate_ack = sh.gate_ack := by
  cases Shared.exec_made h with
  | stored op => rfl
  | sent p => rfl
  | other req hcontrol hsend => rfl

omit [F32 F] in
/-- An effect outside of the gate leaves the request alone. -/
theorem exec_outside {sh sh' : Shared F} {e : Effect F} (he : ∀ op, e ≠ .flash op)
    (h : sh.exec e = some sh') : sh'.gate_req = sh.gate_req := by
  cases e with
  | flash op => exact absurd rfl (he op)
  | control op => cases h; rfl
  | preset_send p => cases h; rfl
  | led on => cases h; rfl
  | write_packet p => cases h; rfl
  | handle_sysex call => cases h; rfl

omit [F32 F] in
/-- The effects after one that is not an access to the gate. -/
theorem rest_tail {running : Bool} {e : Effect F} {es : List (Effect F)}
    (he : e ≠ .flash .gate_running) : rest running (e :: es) = es := by
  unfold rest
  split
  · rename_i heq
    exact absurd (List.cons.inj heq).1 he
  · rfl

omit [F32 F] in
/-- An access to the gate follows the protocol to its next phase. Where core1 is not live
the wait is left out. -/
theorem order_gate {ph ph' : GatePhase} {op : FlashOp} {es : List (Effect F)} {sh sh' : Shared F}
    (hop : isGate op = true) (hnext : ph.next op = some ph') (hrest : InOrder ph' es)
    (hreq : sh.gate_req = true ↔ ph ≠ .idle) (hexec : sh.exec (.flash op) = some sh') :
    ∃ ph'', InOrder ph'' (rest sh.core1_running (.flash op :: es))
      ∧ (sh'.gate_req = true ↔ ph'' ≠ .idle)
      ∧ (ph'' = .asking → sh'.core1_running = true) := by
  cases op with
  | gate_running =>
      cases hexec
      obtain ⟨rfl, rfl⟩ := GatePhase.next_running hnext
      have hup : sh.gate_req = true := hreq.mpr (by decide)
      obtain ⟨es', rfl, hrest'⟩ := asking_next hrest
      -- a core1 that is not live is not waited for
      by_cases hlive : sh.core1_running = true
      · refine ⟨.asking, ?_, iff_of_true hup (by decide), fun _ => hlive⟩
        rw [rest, if_pos hlive]
        exact ⟨.locked, rfl, hrest'⟩
      · refine ⟨.locked, ?_, iff_of_true hup (by decide), fun h => absurd h (by decide)⟩
        rw [rest, if_neg hlive]
        exact hrest'
  | gate_req =>
      cases hexec
      obtain ⟨-, rfl⟩ := GatePhase.next_req hnext
      exact ⟨.requested, hrest, iff_of_true rfl (by decide), fun h => absurd h (by decide)⟩
  -- this access waits, so it is made with the acknowledgement up
  | gate_ack =>
      have hwait : (if sh.gate_ack then some sh else none) = some sh' := hexec
      obtain ⟨-, hsame⟩ := Option.ite_none_right_eq_some.mp hwait
      cases hsame
      obtain ⟨rfl, rfl⟩ := GatePhase.next_ack hnext
      exact ⟨.locked, hrest, iff_of_true (hreq.mpr (by decide)) (by decide),
        fun h => absurd h (by decide)⟩
  | gate_release =>
      cases hexec
      obtain ⟨-, rfl⟩ := GatePhase.next_release hnext
      exact ⟨.idle, hrest, iff_of_false Bool.false_ne_true (by decide),
        fun h => absurd h (by decide)⟩
  | read addr len => cases hop
  | underflow => cases hop
  | write_raw data => cases hop
  | erase addr => cases hop
  | program addr data => cases hop
  | reinit => cases hop

omit [F32 F] in
/-- An access follows the protocol to its next phase. -/
theorem order_access {ph : GatePhase} {e : Effect F} {es : List (Effect F)} {sh sh' : Shared F}
    (horder : InOrder ph (e :: es)) (hreq : sh.gate_req = true ↔ ph ≠ .idle)
    (hasking : ph = .asking → sh.core1_running = true) (hexec : sh.exec e = some sh') :
    ∃ ph', InOrder ph' (rest sh.core1_running (e :: es))
      ∧ (sh'.gate_req = true ↔ ph' ≠ .idle)
      ∧ (ph' = .asking → sh'.core1_running = true) := by
  have hrunning := Device.exec_running hexec
  -- an effect that is no access to the flash is made between two of them
  have hother : (∀ op, e ≠ .flash op) → ph = .idle → InOrder .idle es →
      ∃ ph', InOrder ph' (rest sh.core1_running (e :: es))
        ∧ (sh'.gate_req = true ↔ ph' ≠ .idle)
        ∧ (ph' = .asking → sh'.core1_running = true) := by
    rintro he rfl hrest
    refine ⟨.idle, ?_, ?_, fun h => absurd h (by decide)⟩
    · rw [rest_tail (he _)]
      exact hrest
    · rw [exec_outside he hexec]
      exact hreq
  cases e with
  | control op => exact hother nofun horder.1 horder.2
  | preset_send p => exact hother nofun horder.1 horder.2
  | led on => exact hother nofun horder.1 horder.2
  | write_packet p => exact hother nofun horder.1 horder.2
  | handle_sysex call => exact hother nofun horder.1 horder.2
  | flash op =>
      obtain ⟨ph', hnext, hrest⟩ := horder
      cases hop : isGate op with
      | false =>
          -- not at the gate: the statics and the phase stay as they are
          have hsame : sh' = sh := execFlash_quiet hop hexec
          have hne : Effect.flash (F := F) op ≠ .flash .gate_running := by
            rintro heq
            cases heq
            cases hop
          obtain rfl := GatePhase.next_quiet hnext hop
          subst hsame
          rw [rest_tail hne]
          exact ⟨ph', hrest, hreq, hasking⟩
      | true => exact order_gate hop hnext hrest hreq hexec

/-- core1 leaves the request alone. -/
theorem core1_req (sh : Shared F) (c : Core1 F) :
    (Core1.step sh c).1.gate_req = sh.gate_req :=
  (Core1.step_steps sh c).gate_req

/-- core1 raises and lowers its acknowledgement as it parks and goes on. -/
theorem core1_ack {sh : Shared F} {c : Core1 F} (h : sh.gate_ack = true ↔ c.pc.Parked) :
    (Core1.step sh c).1.gate_ack = true ↔ (Core1.step sh c).2.pc.Parked :=
  (Core1.step_steps sh c).gate_ack h

/-- **Every step of the firmware keeps the gate.** -/
theorem GateKept.step {l : Label} (h : GateKept s) (hstep : s.step l = some s') : GateKept s' := by
  obtain ⟨ph, horder, hreq, hasking⟩ := h.order
  rcases outer_or_inner l with hl | rfl | rfl | rfl
  · have hsame := outer_same hl hstep
    obtain ⟨hreq', hack'⟩ := outer_gate hl hstep
    refine ⟨⟨ph, ?_, ?_, ?_⟩, ?_⟩
    · rw [hsame.todo]
      exact horder
    · rw [hreq']
      exact hreq
    · rw [Device.outer_running hl hstep]
      exact hasking
    · rw [hack', hsame.core1]
      exact h.ack
  · obtain ⟨w, ws, htodo, -, -, rfl⟩ := handle_cases hstep
    rw [htodo] at horder
    obtain rfl : ph = .idle := horder
    exact ⟨⟨.idle, work_inOrder s.midi w, hreq, fun h => absurd h (by decide)⟩, h.ack⟩
  · obtain ⟨e, es, sh, htodo, hexec, rfl⟩ := access_cases hstep
    rw [htodo] at horder
    refine ⟨order_access horder hreq hasking hexec, ?_⟩
    show sh.gate_ack = true ↔ s.core1.pc.Parked
    rw [exec_ack hexec]
    exact h.ack
  · cases hstep
    refine ⟨⟨ph, horder, ?_, ?_⟩, core1_ack h.ack⟩
    · show (Core1.step s.shared s.core1).1.gate_req = true ↔ ph ≠ .idle
      rw [core1_req]
      exact hreq
    · exact fun hph => Device.core1_stays_live (hasking hph)

end Step

/-! ## The flash and core1 -/

section Exclusion

/-- An access that is made under the lock and keeps it: an erase, a program, or the
initialisation of the PSRAM after them. -/
def Locked (op : FlashOp) : Prop := GatePhase.locked.next op = some .locked

/-- No other phase allows it. -/
theorem Locked.phase {ph ph' : GatePhase} {op : FlashOp} (h : Locked op)
    (hnext : ph.next op = some ph') : ph = .locked := by
  cases op <;> cases ph <;> simp_all [GatePhase.next, Locked]

/-- `midi_task` holds the lock: the release is its next access to the gate. -/
def HoldsGate (s : Firmware F) : Prop := HoldsLock (flashOf s.todo)

variable [F32 F]

/-- No work that writes the bank is begun before core1 is live. -/
def Patient (s : Firmware F) (l : Label) : Prop :=
  l = .handle → ∀ w ws, s.backlog = w :: ws → Rewrites s.midi w → s.shared.core1_running = true

/-- The gate is kept, core1 is live where the gate is to be passed, and it is on its way
round the gate while the lock is held. -/
structure Excluded (s : Firmware F) : Prop where
  kept : GateKept s
  live : Effect.flash .gate_running ∈ s.todo → s.shared.core1_running = true
  locked : HoldsGate s → s.core1.pc.AtGate

/-- Round the gate core1 sees the request again. -/
theorem core1_atGate {sh : Shared F} {c : Core1 F} (hreq : sh.gate_req = true)
    (h : c.pc.AtGate) : (Core1.step sh c).2.pc.AtGate :=
  (Core1.step_steps sh c).atGate hreq h

omit [F32 F] in
/-- The effects after an access were to come before it. -/
theorem mem_rest {running : Bool} {e e' : Effect F} {es : List (Effect F)}
    (h : e' ∈ rest running (e :: es)) : e' ∈ e :: es := by
  rcases rest_cases running e es with hrest | hrest
  · rw [hrest] at h
    exact List.mem_cons_of_mem e h
  · rw [hrest]
    exact List.mem_cons_of_mem e (List.mem_cons_of_mem _ h)

omit [F32 F] in
/-- An access that leads into the lock is the end of the wait, and core1 is parked. -/
theorem Excluded.access {s : Firmware F} (h : Excluded s) {e : Effect F} {es : List (Effect F)}
    {sh : Shared F} (htodo : s.todo = e :: es) (hexec : s.shared.exec e = some sh)
    (hlock : HoldsLock (flashOf (rest s.shared.core1_running (e :: es)))) :
    s.core1.pc.AtGate := by
  obtain ⟨ph, horder, hreq, hasking⟩ := h.kept.order
  have hbefore : HoldsLock (flashOf (e :: es)) → s.core1.pc.AtGate := by
    intro hl
    apply h.locked
    unfold HoldsGate
    rw [htodo]
    exact hl
  have hother : (∀ op, e ≠ .flash op) → flashOf (e :: es) = flashOf es → s.core1.pc.AtGate := by
    intro he hflash
    rw [rest_tail (he _)] at hlock
    apply hbefore
    rw [hflash]
    exact hlock
  rw [htodo] at horder
  cases e with
  | control op => exact hother nofun rfl
  | preset_send p => exact hother nofun rfl
  | led on => exact hother nofun rfl
  | write_packet p => exact hother nofun rfl
  | handle_sysex call => exact hother nofun rfl
  | flash op =>
      obtain ⟨ph', hnext, hrest⟩ := horder
      cases hop : isGate op with
      | false =>
          have hne : Effect.flash (F := F) op ≠ .flash .gate_running := by
            rintro heq
            cases heq
            cases hop
          rw [rest_tail hne] at hlock
          apply hbefore
          rw [flashOf_cons_flash, HoldsLock, List.find?_cons_of_neg (by rw [hop]; decide)]
          exact hlock
      | true =>
          cases op with
          | gate_ack =>
              have hwait : (if s.shared.gate_ack then some s.shared else none) = some sh := hexec
              obtain ⟨hack, -⟩ := Option.ite_none_right_eq_some.mp hwait
              exact (h.kept.ack.mp hack).atGate
          | gate_running =>
              -- core1 is live, so the wait is still to come
              have hlive := h.live (by rw [htodo]; exact List.mem_cons_self)
              obtain ⟨-, rfl⟩ := GatePhase.next_running hnext
              obtain ⟨es', rfl, -⟩ := asking_next hrest
              rw [rest, if_pos hlive] at hlock
              have hasking' : InOrder .asking (.flash .gate_ack :: es') := hrest
              exact absurd (hasking'.shaped.holdsLock_iff.mp hlock) (by decide)
          | gate_req =>
              obtain ⟨-, rfl⟩ := GatePhase.next_req hnext
              change HoldsLock (flashOf es) at hlock
              exact absurd (hrest.shaped.holdsLock_iff.mp hlock) (by decide)
          | gate_release =>
              obtain ⟨-, rfl⟩ := GatePhase.next_release hnext
              change HoldsLock (flashOf es) at hlock
              exact absurd (hrest.shaped.holdsLock_iff.mp hlock) (by decide)
          | read addr len => cases hop
          | underflow => cases hop
          | write_raw data => cases hop
          | erase addr => cases hop
          | program addr data => cases hop
          | reinit => cases hop

/-- **The step lemma.** -/
theorem Excluded.step {s s' : Firmware F} {l : Label} (h : Excluded s) (hpatient : Patient s l)
    (hstep : s.step l = some s') : Excluded s' := by
  have hkept := h.kept.step hstep
  rcases outer_or_inner l with hl | rfl | rfl | rfl
  · have hsame := outer_same hl hstep
    refine ⟨hkept, ?_, ?_⟩
    · rw [hsame.todo, Device.outer_running hl hstep]
      exact h.live
    · unfold HoldsGate
      rw [hsame.todo, hsame.core1]
      exact h.locked
  · obtain ⟨w, ws, htodo, hbacklog, -, rfl⟩ := handle_cases hstep
    refine ⟨hkept, ?_, ?_⟩
    · -- only a rewrite has to do with the gate
      intro hmem
      by_cases hrewrites : Rewrites s.midi w
      · exact hpatient rfl w ws hbacklog hrewrites
      · cases work_outside hrewrites _ hmem
    · -- a piece of work begins outside of the lock
      intro hlock
      have hidle := (work_inOrder s.midi w).shaped.holdsLock_iff.mp hlock
      exact absurd hidle (by decide)
  · obtain ⟨e, es, sh, htodo, hexec, rfl⟩ := access_cases hstep
    refine ⟨hkept, ?_, h.access htodo hexec⟩
    intro hmem
    show sh.core1_running = true
    rw [Device.exec_running hexec]
    apply h.live
    rw [htodo]
    exact mem_rest hmem
  · cases hstep
    refine ⟨hkept, fun hmem => Device.core1_stays_live (h.live hmem), ?_⟩
    intro hlock
    obtain ⟨ph, horder, hreq, -⟩ := h.kept.order
    have hph : ph = .locked := horder.shaped.holdsLock_iff.mp hlock
    exact core1_atGate (hreq.mpr (by rw [hph]; decide)) (h.locked hlock)

omit [F32 F] in
/-- While the lock is held the request is up. -/
theorem GateKept.requested {s : Firmware F} (h : GateKept s) (hlock : HoldsGate s) :
    s.shared.gate_req = true := by
  obtain ⟨ph, horder, hreq, -⟩ := h.order
  rw [hreq, horder.shaped.holdsLock_iff.mp hlock]
  decide

end Exclusion

end Firmware

end PicoDsp
