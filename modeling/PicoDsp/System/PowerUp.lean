/-
The device from power-up: what `main` hands to its two tasks (`main.rs`), the deferred
format, and core1 going live.

A write to the flash stops the bus that both cores execute from, and the lock around it
asks core1 to get out of the way first. But a core1 that is not up yet cannot answer, so
`lock_core1_off_psram` waits for it only if it has announced itself, and the source
says that the first format must not be made before that.

`midi_task` waits for core1 before the format that `main` deferred. The other two
ways into `write_raw`, a ResetStorage command and an accepted SysEx image, do not
wait, and `lock_core1_off_psram` then skips the wait for the acknowledgement. So
the flash is written with core1 live exactly as long as no such work is begun
before that (`Patient`).

The device is the tasks of `System/Firmware.lean` behind a prologue: as long as
`needs_format` is open, `midi_task` stands in front of its loop, with everything around it
moving. `Ready` is the invariant, that a sector write to come finds core1 live. core1 never
takes its announcement back (`core1_stays_live`), so it is enough to look at where such
work begins.

The condition is on the moment at which work is begun and not on the write, since the
accesses of a rewrite come later, one by one. It is exact too: patient runs write after the
announcement only (`flash_after_core1`), and work that is begun before it erases the
first sector before it, if core1 does not come up meanwhile (`early_rewrite`).
-/
import PicoDsp.Control.BootMirror
import PicoDsp.Control.Restart
import PicoDsp.System.Firmware

set_option autoImplicit false

namespace PicoDsp

open Lib Storage MidiTask Transition

namespace MidiTask

open Sysex

variable {F : Type}

/-- The work writes the bank: ResetStorage, or the last byte of a complete SysEx
image with a valid header. -/
def Rewrites (t : MidiTask F) : Work → Prop
  | .voice _ _ _ => False
  | .sysex_byte b => ∃ call, (t.rx.receive b).2 = some call ∧ call.cmd = CMD_WRITE_REQ
      ∧ call.overflow = false ∧ call.raw_len = STORAGE_IMAGE_SIZE
      ∧ (StorageHeader.from_bytes (t.rx.receive b).1.image.toList).Valid
  | .reset_storage => True

variable [F32 F]

/-- A request that is refused writes nothing. -/
theorem write_req_still {n : ℕ} {ov : Bool} {t : MidiTask F}
    (h : ¬ (ov = false ∧ n = STORAGE_IMAGE_SIZE
      ∧ (StorageHeader.from_bytes t.rx.image.toList).Valid)) :
    ∀ op ∈ flashOf (handle_write_req n ov t).1, Still op := by
  by_cases hlen : ov = true ∨ n ≠ STORAGE_IMAGE_SIZE
  · rw [write_req_bad_length hlen, flashOf_packets]
    simp
  · rw [not_or, Bool.not_eq_true, ne_eq, not_not] at hlen
    obtain ⟨rfl, rfl⟩ := hlen
    have hvalid : ¬ (StorageHeader.from_bytes t.rx.image.toList).Valid := fun hv => h ⟨rfl, rfl, hv⟩
    rw [write_req_bad_magic hvalid, flashOf_packets]
    simp

/-- Other work leaves the flash alone. -/
theorem work_still {t : MidiTask F} {w : Work} (h : ¬ Rewrites t w) :
    ∀ op ∈ flashOf (handle_work w t).1, Still op := by
  cases w with
  | reset_storage => exact absurd trivial h
  | voice status d1 d2 =>
      rw [handle_work, handle_voice_message_eq]
      exact flashOf_quiet
        (voice_leaves (quiet_allows (F := F) t.flash) (voiceKind status d1 d2) t.rx t rfl).1
  | sysex_byte b =>
      cases hcall : (t.rx.receive b).2 with
      | none =>
          rw [handle_work, sysex_byte_quiet hcall, flashOf_nil]
          simp
      | some call =>
          rw [handle_work, sysex_byte_call hcall]
          by_cases hdump : call.cmd = CMD_DUMP_REQ
          · rw [handle_sysex_dump hdump, dump_req_run, flashOf_cons_sysex, flashOf_cons_flash,
              flashOf_packets]
            exact List.forall_mem_cons.mpr ⟨trivial, by simp⟩
          by_cases hwrite : call.cmd = CMD_WRITE_REQ
          · rw [handle_sysex_write hwrite, flashOf_cons_sysex]
            apply write_req_still
            rintro ⟨hov, hlen, hvalid⟩
            exact h ⟨call, hcall, hwrite, hov, hlen, hvalid⟩
          · rw [handle_sysex_other hdump hwrite, flashOf_cons_sysex, flashOf_nil]
            simp

/-- A rewrite of the bank begins with the accesses of the first sector. -/
theorem writeOps_first {data : List UInt8} (h : data.length = STORAGE_IMAGE_SIZE) :
    ∃ late, writeOps data = .write_raw data :: .gate_req :: .gate_running :: .gate_ack
      :: .erase ADDR_OFFSET :: late := by
  rw [writeOps, sectorCount_image h, sectorsOps]
  exact ⟨_, rfl⟩

/-- Work that writes the bank does so first of all. -/
theorem work_rewrites {t : MidiTask F} {w : Work} (h : Rewrites t w) :
    ∃ (calls : List SysexCall) (data : List UInt8) (late : List (Effect F)), (handle_work w t).1
        = calls.map Effect.handle_sysex ++ .flash (.write_raw data) :: .flash .gate_req
          :: .flash .gate_running :: .flash .gate_ack :: .flash (.erase ADDR_OFFSET) :: late := by
  cases w with
  | voice status d1 d2 => exact h.elim
  | reset_storage =>
      obtain ⟨late, hops⟩ := writeOps_first format_image_length
      rw [reset_storage_run]
      generalize format_image = image at hops ⊢
      rw [hops]
      exact ⟨[], image, late.map Effect.flash, rfl⟩
  | sysex_byte b =>
      obtain ⟨call, hcall, hwrite, hov, hlen, hvalid⟩ := h
      have himage : (t.rx.receive b).1.image.toList.length = STORAGE_IMAGE_SIZE :=
        Vector.length_toList
      obtain ⟨late, hops⟩ := writeOps_first himage
      rw [handle_work, sysex_byte_call hcall, handle_sysex_write hwrite, hov, hlen,
        write_req_accepted (t := { t with rx := (t.rx.receive b).1 }) hvalid]
      generalize (t.rx.receive b).1.image.toList = image at hops ⊢
      rw [hops]
      exact ⟨[call], image, _, rfl⟩

end MidiTask

/-! ## The composition of `main` -/

/-- The label is a move of the loop of `midi_task`. -/
def Label.OfMidi : Label → Prop
  | .usb_read _ | .command | .ble_receive | .handle | .access => True
  | _ => False

instance (l : Label) : Decidable l.OfMidi := by
  unfold Label.OfMidi
  split
  · exact isTrue trivial
  · exact isTrue trivial
  · exact isTrue trivial
  · exact isTrue trivial
  · exact isTrue trivial
  · exact isFalse id

/-- The device: `needs_format` until `midi_task` is past its wait for core1, and
the tasks. -/
structure Device (F : Type) where
  prologue : Option Bool
  firmware : Firmware F

/-- Who moves. -/
inductive Move
  /-- `midi_task` leaves its wait for core1, or has none, and goes on to its loop. -/
  | enter
  | task (l : Label)

namespace Device

variable {F : Type} [F32 F]

/-- `midi_task` up to its loop; what it does to the flash is still to come. -/
def enter (needs_format : Bool) (s : Firmware F) : Firmware F :=
  let r := MidiTask.start (F := F) needs_format s.midi.flash
  { s with
    midi := (r.2.map Prod.fst).getD s.midi
    todo := r.1.map Effect.flash
    halted := r.2.isNone }

@[simp] theorem enter_todo (needs_format : Bool) (s : Firmware F) : (enter needs_format s).todo
    = (MidiTask.start (F := F) needs_format s.midi.flash).1.map Effect.flash := rfl

@[simp] theorem enter_core1 (needs_format : Bool) (s : Firmware F) :
    (enter needs_format s).core1 = s.core1 := rfl

@[simp] theorem enter_halted (needs_format : Bool) (s : Firmware F) : (enter needs_format s).halted
    = (MidiTask.start (F := F) needs_format s.midi.flash).2.isNone := rfl

@[simp] theorem enter_backlog (needs_format : Bool) (s : Firmware F) :
    (enter needs_format s).backlog = s.backlog := rfl

@[simp] theorem enter_shared (needs_format : Bool) (s : Firmware F) :
    (enter needs_format s).shared = s.shared := rfl

def step (d : Device F) : Move → Option (Device F)
  | .enter =>
      match d.prologue with
      | some needs_format =>
          if needs_format = true ∧ d.firmware.shared.core1_running = false then none
          else some ⟨none, enter needs_format d.firmware⟩
      | none => none
  | .task l =>
      if d.prologue.isSome = true ∧ l.OfMidi then none
      else (d.firmware.step l).map fun s => { d with firmware := s }

/-- The device when `main` has spawned its tasks, with the flash contents `f`. -/
structure PowerOn (f : Flash) (d : Device F) : Prop where
  prologue : d.prologue = some (!decide (header f).Valid)
  flash : d.firmware.midi.flash = f
  todo : d.firmware.todo = []
  backlog : d.firmware.backlog = []
  halted : d.firmware.halted = false
  link : d.firmware.link = .idle
  core1 : d.firmware.core1 = Core1.start ((bootPatch f).map F32.from_bits)
  core1_running : d.firmware.shared.core1_running = false
  gate_req : d.firmware.shared.gate_req = false
  gate_ack : d.firmware.shared.gate_ack = false
  preset_channel : d.firmware.shared.preset_channel.items = []
  ble_channel : d.firmware.shared.ble_channel.items = []

/-- The next access of `midi_task` erases or programs a sector. -/
def WritesNext (d : Device F) : Prop :=
  ∃ op late, d.firmware.todo = .flash op :: late ∧ ¬ Still op

/-- No work that writes the bank is begun before core1 is live. -/
def Patient (d : Device F) (m : Move) : Prop :=
  m = .task .handle → ∀ w ws, d.firmware.backlog = w :: ws → Rewrites d.firmware.midi w →
    d.firmware.shared.core1_running = true

/-- With a sector write to come, core1 is live. -/
def Ready (s : Firmware F) : Prop :=
  ∀ op, Effect.flash op ∈ s.todo → ¬ Still op → s.shared.core1_running = true

/-! ## What a step does to the flag -/

/-- core1 announces itself once and for all. -/
theorem core1_stays_live {sh : Shared F} {c : Core1 F} (h : sh.core1_running = true) :
    (Core1.step sh c).1.core1_running = true :=
  (Core1.step_steps sh c).running h

omit [F32 F] in
/-- `midi_task` leaves the flag alone. -/
theorem exec_running {sh sh' : Shared F} {e : Effect F} (h : sh.exec e = some sh') :
    sh'.core1_running = sh.core1_running := by
  cases Shared.exec_made h with
  | stored op => rfl
  | sent p => rfl
  | other req hcontrol hsend => rfl

/-- Inputs and events of the link leave the flag alone. -/
theorem outer_running {s s' : Firmware F} {l : Label} (hl : Firmware.Outer l)
    (h : s.step l = some s') : s'.shared.core1_running = s.shared.core1_running := by
  cases Firmware.outer_arrives hl h with
  | _ => rfl

/-! ## The invariant -/

/-- **The step lemma of the tasks.** -/
theorem Ready.step {s s' : Firmware F} {l : Label} (h : Ready s)
    (hpatient : l = .handle → ∀ w ws, s.backlog = w :: ws → Rewrites s.midi w →
      s.shared.core1_running = true) (hstep : s.step l = some s') : Ready s' := by
  rcases Firmware.outer_or_inner l with hl | rfl | rfl | rfl
  · have hsame := Firmware.outer_same hl hstep
    intro op hop hwrites
    rw [hsame.todo] at hop
    rw [outer_running hl hstep]
    exact h op hop hwrites
  · obtain ⟨w, ws, -, hbacklog, -, rfl⟩ := Firmware.handle_cases hstep
    intro op hop hwrites
    by_cases hrewrites : Rewrites s.midi w
    · exact hpatient rfl w ws hbacklog hrewrites
    · exact absurd (work_still hrewrites op (mem_flashOf.mpr hop)) hwrites
  · obtain ⟨e, es, sh, htodo, hexec, rfl⟩ := Firmware.access_cases hstep
    intro op hop hwrites
    have hmem : Effect.flash op ∈ es := by
      rcases Firmware.rest_cases s.shared.core1_running e es with hrest | hrest
      · rw [hrest] at hop
        exact hop
      · rw [hrest]
        exact List.mem_cons_of_mem _ hop
    have hlive := h op (by rw [htodo]; exact List.mem_cons_of_mem e hmem) hwrites
    change sh.core1_running = true
    rw [exec_running hexec, hlive]
  · cases hstep
    intro op hop hwrites
    exact core1_stays_live (h op hop hwrites)

/-- Going into the loop: what `main` decided about the format, and the wait if there is one. -/
theorem enter_cases {d d' : Device F} (h : d.step .enter = some d') :
    ∃ needs_format, d.prologue = some needs_format
      ∧ (needs_format = true → d.firmware.shared.core1_running = true)
      ∧ d' = ⟨none, enter needs_format d.firmware⟩ := by
  rw [Device.step] at h
  split at h
  · rename_i needs_format hprologue
    rw [Option.ite_none_left_eq_some, Option.some.injEq] at h
    refine ⟨needs_format, hprologue, ?_, h.2.symm⟩
    intro hformat
    exact Bool.eq_true_of_not_eq_false fun hdead => h.1 ⟨hformat, hdead⟩
  · cases h

/-- The way into the loop writes only after the wait for core1. -/
theorem ready_enter {s : Firmware F} {needs_format : Bool}
    (h : needs_format = true → s.shared.core1_running = true) : Ready (enter needs_format s) := by
  intro op hop hwrites
  rw [enter_shared]
  cases needs_format with
  | true => exact h rfl
  | false =>
      -- without a format the task only reads
      rw [enter_todo, start, if_neg Bool.false_ne_true] at hop
      obtain ⟨op', hop', heq⟩ := List.mem_map.mp hop
      cases heq
      exact absurd (enter_loop_still s.midi.flash op hop') hwrites

/-- **The step lemma of the device.** -/
theorem ready_step {d d' : Device F} {m : Move} (h : Ready d.firmware) (hm : Patient d m)
    (hstep : d.step m = some d') : Ready d'.firmware := by
  cases m with
  | task l =>
      rw [Device.step, Option.ite_none_left_eq_some] at hstep
      obtain ⟨s, hs, rfl⟩ := Option.map_eq_some_iff.mp hstep.2
      exact h.step (fun hl => hm (congrArg Move.task hl)) hs
  | enter =>
      obtain ⟨needs_format, -, hwait, rfl⟩ := enter_cases hstep
      exact ready_enter hwait

/-- **No sector is erased or programmed before core1 is live**, on every boot and
in every run in which no work that writes the bank is begun before that. -/
theorem flash_after_core1 {f : Flash} {d d' : Device F} (hd : PowerOn f d)
    (h : ReachedBy step Patient d d') (hwrites : WritesNext d') :
    d'.firmware.shared.core1_running = true := by
  have hstart : Ready d.firmware := by
    intro op hop
    rw [hd.todo] at hop
    exact absurd hop List.not_mem_nil
  have hready := h.invariant (fun _ _ _ hinv hok hstep => ready_step hinv hok hstep) hstart
  obtain ⟨op, late, htodo, hop⟩ := hwrites
  exact hready op (by rw [htodo]; exact List.mem_cons_self) hop

/-! ## The condition is exact -/

/-- An access that waits for nobody and that others do not see. -/
def Passes : Effect F → Prop
  | .flash (.read _ _) | .flash .underflow | .flash (.write_raw _) | .handle_sysex _ => True
  | _ => False

omit [F32 F] in
/-- Others do not see such an access. -/
theorem Passes.exec {e : Effect F} (h : Passes e) (sh : Shared F) : sh.exec e = some sh := by
  cases e with
  | flash op => cases op <;> first | rfl | exact h.elim
  | handle_sysex call => rfl
  | control op => exact h.elim
  | preset_send p => exact h.elim
  | led on => exact h.elim
  | write_packet p => exact h.elim

omit [F32 F] in
/-- And it is always enabled. -/
theorem Passes.rest {e : Effect F} (h : Passes e) (running : Bool) (es : List (Effect F)) :
    Firmware.rest running (e :: es) = es := by
  unfold Firmware.rest
  split
  · rename_i heq
    obtain ⟨rfl, -⟩ := List.cons.inj heq
    exact h.elim
  · rfl

/-- `midi_task` goes on to its loop. -/
theorem step_enter {d : Device F} {needs_format : Bool} (h : d.prologue = some needs_format)
    (hwait : ¬ (needs_format = true ∧ d.firmware.shared.core1_running = false)) :
    d.step .enter = some ⟨none, enter needs_format d.firmware⟩ := by
  rw [Device.step, h]
  exact if_neg hwait

/-- An access in the loop of `midi_task`. -/
theorem access_step {s : Firmware F} {e : Effect F} {es : List (Effect F)} {sh : Shared F}
    (htodo : s.todo = e :: es) (hexec : s.shared.exec e = some sh) :
    (⟨none, s⟩ : Device F).step (.task .access) = some ⟨none, { s with
      shared := sh
      todo := Firmware.rest s.shared.core1_running (e :: es) }⟩ := by
  rw [Device.step, if_neg (by simp), Firmware.step, htodo]
  simp only [hexec, Option.map_some]

omit [F32 F] in
/-- An access begins no work. -/
theorem access_patient {d : Device F} : Patient d (.task .access) := nofun

/-- `midi_task` makes such accesses by itself. -/
theorem passes {s : Firmware F} {pre late : List (Effect F)} (htodo : s.todo = pre ++ late)
    (hpre : ∀ e ∈ pre, Passes e) :
    ∃ s' : Firmware F, ReachedBy step Patient ⟨none, s⟩ ⟨none, s'⟩ ∧ s'.todo = late
      ∧ s'.backlog = s.backlog ∧ s'.halted = s.halted
      ∧ s'.shared = s.shared ∧ s'.core1 = s.core1 := by
  induction pre generalizing s with
  | nil => exact ⟨s, ReachedBy.refl _, htodo, rfl, rfl, rfl, rfl⟩
  | cons e pre ih =>
      have he : Passes e := hpre e List.mem_cons_self
      have hstep := access_step htodo (he.exec s.shared)
      rw [he.rest] at hstep
      obtain ⟨s', hrun, hrest⟩ := ih (s := { s with todo := pre ++ late }) rfl
        fun x hx => hpre x (List.mem_cons_of_mem e hx)
      exact ⟨s', (ReachedBy.single access_patient hstep).trans hrun, hrest⟩

/-- **Work that writes the bank and is begun before core1 is live erases the first
sector before core1 is live**, if core1 does not come up meanwhile. -/
theorem early_rewrite {s : Firmware F} {w : Work} {ws : List Work} (htodo : s.todo = [])
    (hbacklog : s.backlog = w :: ws) (hhalted : s.halted = false) (hrewrites : Rewrites s.midi w)
    (hdead : s.shared.core1_running = false) :
    ∃ s' : Firmware F, Reached step ⟨none, s⟩ ⟨none, s'⟩ ∧ WritesNext ⟨none, s'⟩
      ∧ s'.shared.core1_running = false := by
  obtain ⟨calls, data, late, hwork⟩ := work_rewrites hrewrites
  -- the work is begun
  obtain ⟨s₁, hhandle, htodo₁, hdead₁⟩ : ∃ s₁ : Firmware F,
      (⟨none, s⟩ : Device F).step (.task .handle) = some ⟨none, s₁⟩
        ∧ s₁.todo = (calls.map Effect.handle_sysex ++ [.flash (.write_raw data)])
          ++ .flash .gate_req :: .flash .gate_running :: .flash .gate_ack
            :: .flash (.erase ADDR_OFFSET) :: late
        ∧ s₁.shared.core1_running = false := by
    rw [Device.step, if_neg (by simp), Firmware.step, htodo, hbacklog, hhalted]
    refine ⟨_, rfl, ?_, hdead⟩
    rw [hwork, List.append_assoc, List.singleton_append]
  have hpre : ∀ e ∈ calls.map Effect.handle_sysex ++ [Effect.flash (.write_raw data)],
      Passes (F := F) e := by
    intro e he
    rcases List.mem_append.mp he with hcall | hraw
    · obtain ⟨call, -, rfl⟩ := List.mem_map.mp hcall
      trivial
    · rw [List.mem_singleton.mp hraw]
      trivial
  obtain ⟨s₂, hpass, htodo₂, -, -, hshared₂, -⟩ := passes htodo₁ hpre
  -- the request, and no wait for an acknowledgement
  have hreq := access_step htodo₂ rfl
  have hdead₂ : s₂.shared.core1_running = false := by rw [hshared₂, hdead₁]
  generalize hs₃ : ({ s₂ with
    shared := { s₂.shared with gate_req := true }
    todo := _ } : Firmware F) = s₃ at hreq
  have htodo₃ : s₃.todo
      = .flash .gate_running :: .flash .gate_ack :: .flash (.erase ADDR_OFFSET) :: late := by
    rw [← hs₃]
    rfl
  have hdead₃ : s₃.shared.core1_running = false := by
    rw [← hs₃]
    exact hdead₂
  have hskip := access_step htodo₃ rfl
  rw [hdead₃] at hskip
  have hlast : Reached step ⟨none, s₃⟩ _ := ReachedBy.single trivial hskip
  have hrun := (((ReachedBy.single trivial hhandle).trans (hpass.mono fun _ _ _ => trivial)).trans
    (ReachedBy.single trivial hreq)).trans hlast
  exact ⟨_, hrun, ⟨.erase ADDR_OFFSET, late, rfl, fun h => h⟩, hdead₃⟩

/-! ## A boot that formats, and one that is too fast -/

/-- The first voice is built, and core1 goes live. -/
theorem building_announces (p : Preset F) (rest : List (Atom × F)) (v : Option (Preset F))
    {sh : Shared F} (hdead : sh.core1_running = false) :
    ∃ sh', Core1.Alone (sh, ⟨.building p rest, v⟩) (sh', ⟨.top, some p⟩)
      ∧ sh'.core1_running = true := by
  induction rest generalizing sh with
  | nil =>
      have hbuilt := Core1.Alone.step (sh, (⟨.building p [], v⟩ : Core1 F))
      simp only [Core1.step, hdead, Bool.false_eq_true, if_false] at hbuilt
      have hlive := Core1.Alone.step (sh, (⟨.announce, some p⟩ : Core1 F))
      exact ⟨{ sh with core1_running := true }, hbuilt.trans hlive, rfl⟩
  | cons av rest ih =>
      have hdead' : ({ sh with
          control := (ControlOp.store av.1 av.2).apply sh.control } : Shared F).core1_running
            = false := hdead
      obtain ⟨sh', hrun, hlive⟩ := ih hdead'
      have hfirst := Core1.Alone.step (sh, (⟨.building p (av :: rest), v⟩ : Core1 F))
      exact ⟨sh', hfirst.trans hrun, hlive⟩

omit [F32 F] in
/-- core1 begins no work of `midi_task`. -/
theorem core1_patient {d : Device F} : Patient d (.task .core1) := nofun

/-- core1 moves whatever `midi_task` waits for. -/
theorem core1_reached {prologue : Option Bool} {s : Firmware F} {r : Shared F × Core1 F}
    (h : Core1.Alone (s.shared, s.core1) r) :
    ReachedBy step Patient ⟨prologue, s⟩ ⟨prologue, { s with shared := r.1, core1 := r.2 }⟩ := by
  induction h with
  | refl => exact ReachedBy.refl _
  | tail _ hstep ih =>
      refine ih.trans (ReachedBy.single core1_patient ?_)
      rw [hstep, Device.step, if_neg (fun hmidi => hmidi.2)]
      rfl

/-- With core1 at the top of its loop the rewrite goes on to its first erase. -/
theorem parked_rewrite {s : Firmware F} {data : List UInt8} {late : List (Effect F)}
    (htodo : s.todo = .flash (.write_raw data) :: .flash .gate_req :: .flash .gate_running
      :: .flash .gate_ack :: .flash (.erase ADDR_OFFSET) :: late)
    (hlive : s.shared.core1_running = true) (htop : s.core1.pc = .top) :
    ∃ s' : Firmware F, ReachedBy step Patient ⟨none, s⟩ ⟨none, s'⟩ ∧ WritesNext ⟨none, s'⟩ := by
  have hpre : ∀ e ∈ [Effect.flash (.write_raw data)], Passes (F := F) e := by
    intro e he
    rw [List.mem_singleton.mp he]
    trivial
  rw [← List.singleton_append] at htodo
  obtain ⟨s₁, hpass, htodo₁, -, -, hshared, hcore1⟩ := passes htodo hpre
  rw [← hshared] at hlive
  rw [← hcore1] at htop
  obtain ⟨midi, todo, backlog, halted, link, ⟨control, pch, bch, req, ack, running⟩, ⟨pc, v⟩⟩ := s₁
  dsimp only at htodo₁ hlive htop
  subst htodo₁ hlive htop
  -- the request, the two moves of core1 that answer it, and the accesses that see this
  have hparked : ∃ s' : Firmware F, ReachedBy step Patient
      ⟨none, ⟨midi, .flash .gate_req :: .flash .gate_running :: .flash .gate_ack
        :: .flash (.erase ADDR_OFFSET) :: late, backlog, halted, link,
        ⟨control, pch, bch, req, ack, true⟩, ⟨.top, v⟩⟩⟩ ⟨none, s'⟩
      ∧ s'.todo = .flash (.erase ADDR_OFFSET) :: late :=
    ⟨_, ⟨[.task .access, .task .core1, .task .core1, .task .access, .task .access],
      .cons access_patient rfl <| .cons core1_patient rfl <| .cons core1_patient rfl <|
      .cons access_patient rfl <| .cons access_patient rfl <| .nil _⟩, rfl⟩
  obtain ⟨s', hrun, htodo'⟩ := hparked
  exact ⟨s', hpass.trans hrun, .erase ADDR_OFFSET, late, htodo', fun h => h⟩

/-- The device as `main` leaves it. -/
def powered (f : Flash) : Device F where
  prologue := some (!decide (header f).Valid)
  firmware :=
    let preset : Preset F := (bootPatch f).map F32.from_bits
    let resonance := F32.clamp preset.filter.resonance (F32.lit 0) (F32.lit 1)
    { Firmware.atBoot preset with
      midi := entered F f
      shared := { (Firmware.atBoot preset).shared with
        control := ControlOp.applyAll
          [.store .parameter_1 (MidiControl.cutoff_norm preset.filter.cutoff),
            .store .parameter_2 resonance] MidiControl.new } }

/-- It is one of the devices that the results are about. -/
theorem powered_on (f : Flash) : PowerOn f (powered (F := F) f) :=
  ⟨rfl, rfl, rfl, rfl, rfl, rfl, rfl, rfl, rfl, rfl, rfl, rfl⟩

/-- core1 goes live by itself. -/
theorem goes_live {s : Firmware F} {p : Preset F} (prologue : Option Bool)
    (hcore1 : s.core1 = Core1.start p) (hdead : s.shared.core1_running = false) :
    ∃ s' : Firmware F, ReachedBy step Patient ⟨prologue, s⟩ ⟨prologue, s'⟩
      ∧ s'.shared.core1_running = true ∧ s'.core1.pc = .top := by
  have hdead' : (Core1.step s.shared (Core1.start p)).1.core1_running = false := hdead
  obtain ⟨sh, hrun, hlive⟩ :=
    building_announces p (MidiControl.seed_from_preset p) none hdead'
  have hfirst := Core1.Alone.step (s.shared, s.core1)
  rw [hcore1] at hfirst
  have halone := hfirst.trans hrun
  rw [← hcore1] at halone
  exact ⟨_, core1_reached halone, hlive, rfl⟩

/-- A bank without a valid header is formatted once core1 is live. -/
theorem formats {f : Flash} {d : Device F} (hd : PowerOn f d) (hinvalid : ¬ (header f).Valid) :
    ∃ d', ReachedBy step Patient d d' ∧ WritesNext d' := by
  obtain ⟨prologue, s₀⟩ := d
  have hprologue : prologue = some true := by
    have hmain := hd.prologue
    rw [decide_eq_false hinvalid, Bool.not_false] at hmain
    exact hmain
  obtain ⟨s, hlive, hrunning, htop⟩ := goes_live prologue hd.core1 hd.core1_running
  have henter : (⟨prologue, s⟩ : Device F).step .enter = some ⟨none, enter true s⟩ :=
    step_enter hprologue fun hwait => Bool.false_ne_true (hwait.2.symm.trans hrunning)
  obtain ⟨late, hops⟩ := writeOps_first format_image_length
  have htodo : (enter true s).todo = .flash (.write_raw format_image) :: .flash .gate_req
      :: .flash .gate_running :: .flash .gate_ack :: .flash (.erase ADDR_OFFSET)
      :: (late ++ (enter_loop (F := F) (written s.midi.flash format_image)).1).map Effect.flash := by
    rw [enter_todo, start_events (F := F) (format_run s.midi.flash), hops]
    simp only [List.cons_append, List.map_cons]
  rw [← enter_shared true s] at hrunning
  rw [← enter_core1 true s] at htop
  obtain ⟨s', hparked, hwrites⟩ := parked_rewrite htodo hrunning htop
  exact ⟨_, (hlive.trans (ReachedBy.single (l := Move.enter) nofun henter)).trans hparked, hwrites⟩

/-- A blank flash. -/
theorem flash_after_core1_blank : ∃ d : Device ℝ,
    ReachedBy step Patient (powered fun _ => 0xFF) d ∧ WritesNext d
      ∧ d.firmware.shared.core1_running = true := by
  have hinvalid : ¬ (header fun _ => 0xFF).Valid := by decide
  have hon := powered_on (F := ℝ) fun _ => 0xFF
  obtain ⟨d, hrun, hwrites⟩ := formats hon hinvalid
  exact ⟨d, hrun, hwrites, flash_after_core1 hon hrun hwrites⟩

omit [F32 F] in
/-- On its way into the loop `midi_task` only reads flash. -/
theorem enterOps_pass (f : Flash) : ∀ e ∈ (enterOps f).map Effect.flash, Passes (F := F) e := by
  intro e he
  obtain ⟨op, hop, rfl⟩ := List.mem_map.mp he
  rw [enterOps] at hop
  split at hop
  · rcases List.mem_cons.mp hop with rfl | hop
    · trivial
    · rw [List.mem_singleton.mp hop]
      trivial
  · rcases List.mem_cons.mp hop with rfl | hop
    · trivial
    · split at hop
      · rw [List.mem_singleton.mp hop]
        trivial
      · cases hop

/-- A ResetStorage command that comes before anything else, on a valid bank. -/
theorem flash_before_core1 :
    ¬ ∀ (f : Flash) (d d' : Device ℝ), PowerOn f d → Reached step d d' → WritesNext d' →
      d'.firmware.shared.core1_running = true := by
  intro hclaim
  obtain ⟨f, hvalid⟩ : ∃ f : Flash, (header f).Valid := by
    refine ⟨blankFlash 128, ?_⟩
    rw [header_blankFlash]
    exact ⟨rfl, rfl⟩
  have hon := powered_on (F := ℝ) f
  have henter : (powered (F := ℝ) f).step .enter
      = some ⟨none, enter false (powered (F := ℝ) f).firmware⟩ := by
    have hprologue : (powered (F := ℝ) f).prologue = some false := by
      rw [hon.prologue, decide_eq_true hvalid, Bool.not_true]
    exact step_enter hprologue fun hwait => Bool.false_ne_true hwait.1
  have htodo : (enter false (powered (F := ℝ) f).firmware).todo
      = (enterOps f).map Effect.flash ++ [] := by
    rw [enter_todo, hon.flash, start, if_neg Bool.false_ne_true, enter_loop_eq, List.append_nil]
  have hhalted : (enter false (powered (F := ℝ) f).firmware).halted = false := by
    rw [enter_halted, hon.flash, start, if_neg Bool.false_ne_true, enter_loop_eq]
    rfl
  obtain ⟨s, hpass, htodo', hbacklog', hhalted', hshared, -⟩ := passes htodo (enterOps_pass f)
  rw [enter_backlog, hon.backlog] at hbacklog'
  rw [hhalted] at hhalted'
  -- the command
  have hidle : s.Idle := ⟨htodo', hbacklog', hhalted'⟩
  have hcommand : (⟨none, s⟩ : Device ℝ).step (.task .command)
      = some ⟨none, { s with backlog := Input.command.works }⟩ := by
    rw [Device.step, if_neg (by simp), Firmware.step, if_pos hidle]
    rfl
  have hdead : s.shared.core1_running = false := by
    rw [hshared, enter_shared, hon.core1_running]
  obtain ⟨s', hearly, hwrites, hdead'⟩ := early_rewrite (s := { s with
    backlog := Input.command.works }) htodo' rfl hhalted' trivial hdead
  have hstart : Reached step (powered (F := ℝ) f) _ := ReachedBy.single trivial henter
  have hread : Reached step (⟨none, s⟩ : Device ℝ) _ := ReachedBy.single trivial hcommand
  have hall := ((hstart.trans (hpass.mono fun _ _ _ => trivial)).trans hread).trans hearly
  exact Bool.false_ne_true (hdead'.symm.trans (hclaim f _ _ hon hall hwrites))

end Device

end PicoDsp
