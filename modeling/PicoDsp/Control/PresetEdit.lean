/-
What a piece of work does to the working preset, and what of it other parties
see (`midi_task` of `control/midi.rs`).

The task keeps the preset as the player has edited it, the live controls hold what
`core1` reads for every block, and `PRESET_CHANNEL` carries whole presets to it. Whether
the three agree is the subject of `System/VoiceSync.lean` and `System/LiveSync.lean`, and
there a piece of work is seen from outside, effect by effect, with `core1` moving in
between. What those proofs need is collected here: of what shape the effects are.

`Edit` lists the ways: a continuous controller stores one live control, a
structural one sends the preset, a load seeds all controls and sends the preset,
and any other work leaves the preset alone. A send is always the last effect, of
the preset the task ends with.

The lists say nothing about effects in front of the relevant ones, a flash access or a
packet for the host (`Unrelated`), and a load is the same wherever it stands: behind a
Program Change, behind a soft-pedal tap, behind an accepted bank. So each handler is
brought to `Reload` by one lemma, `Reload.of_run`.

`Owed` is what is left of an edit that has been interrupted: the effects still to come,
of which the last sends the preset or none does. It survives each effect
(`Owed.tail`), so an invariant about an interleaving carries it along.
-/
import PicoDsp.Control.MidiSpec

set_option autoImplicit false

namespace PicoDsp.MidiTask

open Lib Sysex Storage

section

variable {F : Type}

/-- Neither a send of a preset nor a store to a control that presets seed. -/
def Unrelated : Effect F → Prop
  | .preset_send _ => False
  | .control (.store a _) => a ∉ seededAtoms
  | _ => True

variable [F32 F]

/-- A load: the preset is missing, or it replaces `p`. -/
inductive Reload (p : Preset F) : List (Effect F) → Preset F → Prop
  | missed {es : List (Effect F)} (hes : ∀ e ∈ es, Unrelated e) : Reload p es p
  | loaded {es : List (Effect F)} {p' : Preset F} (hes : ∀ e ∈ es, Unrelated e) :
      Reload p (es ++ (seedEffects p' ++ [.preset_send p'])) p'

/-- How the work `w`, done with the preset `p`, has the effects `es` and leaves
the preset `p'`. -/
inductive Edit (w : Work) (p : Preset F) : List (Effect F) → Preset F → Prop
  | reload {es : List (Effect F)} {p' : Preset F} (h : Reload p es p') : Edit w p es p'
  | continuous {status cc value : UInt8} {p' : Preset F} {a : Atom} {v : F}
      (hw : w = .voice status cc value) (hkind : voiceKind status cc value = .parameter cc value)
      (h : CcMap.apply_cc cc value p = .continuous p' a v) :
      Edit w p [.control (.store a v)] p'
  | structural {status cc value : UInt8} {p' : Preset F} (hw : w = .voice status cc value)
      (hkind : voiceKind status cc value = .parameter cc value)
      (h : CcMap.apply_cc cc value p = .structural p') :
      Edit w p [.preset_send p'] p'

/-- Unrelated effects in front of a load. -/
theorem Reload.prepend {p p' : Preset F} {es fs : List (Effect F)} (h : Reload p es p')
    (hfs : ∀ e ∈ fs, Unrelated e) : Reload p (fs ++ es) p' := by
  cases h with
  | missed hes =>
      refine .missed fun e he => ?_
      rcases List.mem_append.mp he with he | he
      · exact hfs e he
      · exact hes e he
  | loaded hes =>
      rw [← List.append_assoc]
      refine .loaded fun e he => ?_
      rcases List.mem_append.mp he with he | he
      · exact hfs e he
      · exact hes e he

/-- The preset a program ends with, the one before it when it panics. -/
def endPreset (m : Proc (MidiTask F) (Effect F) Unit) (t : MidiTask F) : Preset F :=
  ((Proc.final m t).getD t).working_preset

omit [F32 F] in
/-- A program that ends has the preset of its last state. -/
theorem endPreset_some {m : Proc (MidiTask F) (Effect F) Unit} {t t' : MidiTask F}
    {es : List (Effect F)} (h : m t = (es, some ((), t'))) : endPreset m t = t'.working_preset := by
  rw [endPreset, Proc.final, h]
  rfl

omit [F32 F] in
/-- A program that panics keeps the preset it began with; nothing reads it any more. -/
theorem endPreset_none {m : Proc (MidiTask F) (Effect F) Unit} {t : MidiTask F}
    {es : List (Effect F)} (h : m t = (es, none)) : endPreset m t = t.working_preset := by
  rw [endPreset, Proc.final, h]
  rfl

omit [F32 F] in
/-- Flash accesses have nothing to do with the preset. -/
theorem unrelated_flash (ops : List FlashOp) :
    ∀ e ∈ ops.map (Effect.flash (F := F)), Unrelated e := by
  intro e he
  obtain ⟨op, -, rfl⟩ := List.mem_map.mp he
  trivial

omit [F32 F] in
/-- Neither have replies to the host. -/
theorem unrelated_packets (ps : List Packet) :
    ∀ e ∈ ps.map (Effect.write_packet (F := F)), Unrelated e := by
  intro e he
  obtain ⟨p, -, rfl⟩ := List.mem_map.mp he
  trivial

/-! ## Loads -/

/-- A load, with any of its three outcomes: the preset is missing, it is there, or its
record lies past the flash and the task panics. -/
theorem load_reload (i : ℕ) (t : MidiTask F) :
    Reload t.working_preset (load_and_apply_preset i t).1
      (endPreset (load_and_apply_preset i) t) := by
  rcases hload : Storage.load_preset i t.flash with ⟨ops, _ | ⟨_ | record, f⟩⟩
  · -- the read of the record halts the task
    have hrun : load_and_apply_preset i t = (ops.map Effect.flash, none) := by
      rw [load_and_apply_preset, Proc.bind_none (storage_none hload)]
    rw [endPreset_none hrun, hrun]
    exact .missed (unrelated_flash ops)
  · have hrun : load_and_apply_preset i t
        = (ops.map Effect.flash, some ((), { t with flash := f })) := by
      rw [load_and_apply_preset, Proc.bind_some (storage_some hload)]
      simp only [Proc.pure_run, List.append_nil]
    rw [endPreset_some hrun, hrun]
    exact .missed (unrelated_flash ops)
  · have hrun : load_and_apply_preset i t
        = (ops.map Effect.flash ++ (seedEffects (record.map F32.from_bits)
              ++ [.preset_send (record.map F32.from_bits)]),
            some ((), { t with flash := f, working_preset := record.map F32.from_bits })) := by
      rw [load_and_apply_preset, Proc.bind_some (storage_some hload)]
      simp only [controls_bind_run, Proc.modify_bind_run, Proc.emit_run, List.map_map]
      rfl
    rw [endPreset_some hrun, hrun]
    exact .loaded (unrelated_flash ops)

omit [F32 F] in
theorem unrelated_nil : ∀ e ∈ ([] : List (Effect F)), Unrelated e := by simp

/-- A program that continues as another one does, with unrelated effects in
front and other variables changed before. -/
theorem Reload.of_run {m m' : Proc (MidiTask F) (Effect F) Unit} {t u : MidiTask F}
    {fs : List (Effect F)} (hfs : ∀ e ∈ fs, Unrelated e)
    (h : Reload u.working_preset (m' u).1 (endPreset m' u))
    (hrun : m t = (fs ++ (m' u).1, (m' u).2)) (hu : u.working_preset = t.working_preset) :
    Reload t.working_preset (m t).1 (endPreset m t) := by
  have hend : endPreset m t = endPreset m' u := by
    rw [endPreset, endPreset, Proc.final, Proc.final, hrun]
    cases (m' u).2 with
    | none => exact hu.symm
    | some r => rfl
  rw [hend, hrun, ← hu]
  exact h.prepend hfs

/-! ## Work that leaves the preset alone -/

/-- The program leaves the preset alone, and its effects are unrelated. -/
def StaysPreset {α : Type} (p : Preset F) (m : Proc (MidiTask F) (Effect F) α) : Prop :=
  Proc.Stays (fun t : MidiTask F => t.working_preset) p Unrelated m

/-- A program that leaves the preset alone loads a missing one. -/
theorem reload_of_stays {m : Proc (MidiTask F) (Effect F) Unit} {t : MidiTask F}
    (h : StaysPreset t.working_preset m) :
    Reload t.working_preset (m t).1 (endPreset m t) := by
  obtain ⟨hev, hpost⟩ := h t rfl
  have hend : endPreset m t = t.working_preset := by
    rw [endPreset, Proc.final]
    cases hr : (m t).2 with
    | none => rfl
    | some r => exact hpost r.1 r.2 hr
  rw [hend]
  exact .missed hev

/-- The same, from a run. -/
theorem reload_of_run {m : Proc (MidiTask F) (Effect F) Unit} {t t' : MidiTask F}
    {es : List (Effect F)} (h : m t = (es, some ((), t'))) (hes : ∀ e ∈ es, Unrelated e)
    (hp : t'.working_preset = t.working_preset) :
    Reload t.working_preset (m t).1 (endPreset m t) := by
  rw [endPreset_some h, h, hp]
  exact .missed hes

variable {p : Preset F}

omit [F32 F] in
/-- Stores to controls that no preset seeds. -/
theorem controls_stay {ops : List (ControlOp F)} (h : ∀ op ∈ ops, Unrelated (.control op)) :
    StaysPreset p (controls ops) := by
  apply Proc.Stays.emits
  intro e he
  obtain ⟨op, hop, rfl⟩ := List.mem_map.mp he
  exact h op hop

omit [F32 F] in
/-- A store to a control of the notes. -/
theorem store_unrelated {a : Atom} (ha : a ∉ seededAtoms) (v : F) :
    ∀ op ∈ [ControlOp.store a v], Unrelated (.control op) :=
  List.forall_mem_singleton.mpr ha

omit [F32 F] in
/-- The gate belongs to the keys. -/
theorem set_gate_unrelated (g : Bool) :
    ∀ op ∈ MidiControl.set_gate g, Unrelated (.control op : Effect F) := by
  intro op hop
  cases g with
  | true => simp_all [MidiControl.set_gate, Unrelated]
  | false =>
      simp only [MidiControl.set_gate, Bool.false_eq_true, if_false, List.mem_cons,
        List.not_mem_nil, or_false] at hop
      rcases hop with rfl | rfl
      · trivial
      · trivial

/-- The gate, the pitch and the LED follow the keys only. -/
theorem follow_stack_stays : StaysPreset p (follow_stack (F := F)) := by
  apply Proc.Stays.bind Proc.Stays.get
  intro t
  cases t.notes.active_note with
  | none =>
      apply Proc.Stays.bind (controls_stay (set_gate_unrelated false))
      exact fun _ => Proc.Stays.emit trivial
  | some k =>
      refine Proc.Stays.bind (controls_stay ?_) fun _ => controls_stay (set_gate_unrelated true)
      exact store_unrelated (by decide) _

/-- A Note On stores the velocity, the pitch and the gate. -/
theorem note_on_stays (key velocity : UInt8) :
    StaysPreset p (voice_note_on (F := F) key velocity) := by
  refine Proc.Stays.bind (Proc.Stays.modify fun t => rfl) fun _ => ?_
  refine Proc.Stays.bind (controls_stay (store_unrelated (by decide) _)) fun _ => ?_
  refine Proc.Stays.bind (controls_stay (store_unrelated (by decide) _)) fun _ => ?_
  refine Proc.Stays.bind (controls_stay (set_gate_unrelated true)) fun _ => ?_
  exact Proc.Stays.emit trivial

/-- All Notes Off resets the controls of the notes. -/
theorem all_off_stays : StaysPreset p (voice_all_off (F := F)) := by
  have hreset : ∀ op ∈ MidiControl.reset (F := F), Unrelated (.control op) := by
    have hbend : Atom.pitch_bend ∉ seededAtoms := by decide
    have hwheel : Atom.mod_wheel ∉ seededAtoms := by decide
    simp only [MidiControl.reset, List.forall_mem_cons]
    exact ⟨trivial, trivial, hbend, hwheel, by simp⟩
  refine Proc.Stays.bind (Proc.Stays.modify fun t => rfl) fun _ => ?_
  refine Proc.Stays.bind (controls_stay hreset) fun _ => ?_
  exact Proc.Stays.emit trivial

/-! ## Every piece of work -/

/-- A soft-pedal tap loads the next preset, or finds no bank. -/
theorem soft_pedal_reload (value : UInt8) (t : MidiTask F) :
    Reload t.working_preset (voice_soft_pedal value t).1 (endPreset (voice_soft_pedal value) t) := by
  cases htap : (t.notes.soft_pedal (64 ≤ value)).1 with
  | false => exact reload_of_run (soft_pedal_idle htap) (by simp) rfl
  | true =>
      by_cases hn : 0 < presetCount t.flash
      · have hrun := soft_pedal_next htap hn
        rw [← List.singleton_append] at hrun
        have hread : ∀ e ∈ [Effect.flash (F := F) (.read ADDR_OFFSET 16)], Unrelated e :=
          List.forall_mem_singleton.mpr trivial
        exact (load_reload _ _).of_run hread hrun rfl
      · have hrun := soft_pedal_empty htap (Nat.eq_zero_of_not_pos hn)
        exact reload_of_run hrun (List.forall_mem_cons.mpr ⟨trivial, by simp⟩) rfl

/-- A write request loads the current preset again when the bank is accepted. -/
theorem write_req_reload (n : ℕ) (ov : Bool) (t : MidiTask F) :
    Reload t.working_preset (handle_write_req n ov t).1 (endPreset (handle_write_req n ov) t) := by
  by_cases hlen : ov = true ∨ n ≠ STORAGE_IMAGE_SIZE
  · exact reload_of_run (write_req_bad_length hlen t) (unrelated_packets _) rfl
  · rw [not_or, Bool.not_eq_true, ne_eq, not_not] at hlen
    obtain ⟨rfl, rfl⟩ := hlen
    by_cases hvalid : (StorageHeader.from_bytes t.rx.image.toList).Valid
    · have hrun := write_req_accepted hvalid
      rw [← List.append_assoc] at hrun
      have hpre := List.forall_mem_append.mpr
        ⟨unrelated_flash (F := F) (writeOps t.rx.image.toList),
          unrelated_packets (send_sysex_status CMD_WRITE_SUCCESS none)⟩
      exact (load_reload _ _).of_run hpre hrun rfl
    · exact reload_of_run (write_req_bad_magic hvalid) (unrelated_packets _) rfl

/-- So does SysEx of any kind, or it leaves the preset alone. -/
theorem sysex_reload (call : SysexCall) (t : MidiTask F) :
    Reload t.working_preset (handle_sysex call t).1 (endPreset (handle_sysex call) t) := by
  by_cases hdump : call.cmd = CMD_DUMP_REQ
  · have hrun := handle_sysex_dump hdump t
    rw [dump_req_run] at hrun
    refine reload_of_run hrun ?_ rfl
    exact List.forall_mem_cons.mpr
      ⟨trivial, List.forall_mem_cons.mpr ⟨trivial, unrelated_packets _⟩⟩
  by_cases hwrite : call.cmd = CMD_WRITE_REQ
  · have hcall : ∀ e ∈ [Effect.handle_sysex (F := F) call], Unrelated e :=
      List.forall_mem_singleton.mpr trivial
    exact (write_req_reload call.raw_len call.overflow t).of_run hcall
      (handle_sysex_write hwrite t) rfl
  · exact reload_of_run (handle_sysex_other hdump hwrite t)
      (List.forall_mem_singleton.mpr trivial) rfl

/-- A message for a DSP parameter names it in its data bytes. -/
theorem voiceKind_parameter {status d1 d2 cc value : UInt8}
    (h : voiceKind status d1 d2 = .parameter cc value) : cc = d1 ∧ value = d2 := by
  unfold voiceKind at h
  simp only at h
  repeat' split at h
  all_goals cases h
  exact ⟨rfl, rfl⟩

/-- **A channel-voice message is an edit.** The controllers are told apart by what `apply_cc`
makes of them; all other kinds are loads or leave the preset alone. -/
theorem voice_edit (status d1 d2 : UInt8) (t : MidiTask F) :
    Edit (.voice status d1 d2) t.working_preset (handle_voice_message status d1 d2 t).1
      (endPreset (handle_voice_message status d1 d2) t) := by
  rw [handle_voice_message_eq]
  cases hkind : voiceKind status d1 d2 with
  | note_on key velocity => exact .reload (reload_of_stays (note_on_stays key velocity))
  | note_off key =>
      refine .reload (reload_of_stays ?_)
      exact Proc.Stays.bind (Proc.Stays.modify fun t => rfl) fun _ => follow_stack_stays
  | mod_wheel value =>
      exact .reload (reload_of_stays (controls_stay (store_unrelated (by decide) _)))
  | sustain value =>
      refine .reload (reload_of_stays ?_)
      refine Proc.Stays.bind (Proc.Stays.modify fun t => rfl) fun _ => ?_
      exact Proc.Stays.ite follow_stack_stays (Proc.Stays.pure ())
  | soft_pedal value => exact .reload (soft_pedal_reload value t)
  | all_off => exact .reload (reload_of_stays all_off_stays)
  -- the only kind that edits the preset in place
  | parameter cc value =>
      obtain ⟨rfl, rfl⟩ := voiceKind_parameter hkind
      cases hcc : CcMap.apply_cc cc value t.working_preset with
      | continuous p' a v =>
          have hrun := parameter_continuous hcc
          rw [handleKind, endPreset_some hrun, hrun]
          exact .continuous rfl hkind hcc
      | structural p' =>
          have hrun := parameter_structural hcc
          rw [handleKind, endPreset_some hrun, hrun]
          exact .structural rfl hkind hcc
      | unmapped => exact .reload (reload_of_run (parameter_unmapped hcc) (by simp) rfl)
  | program index =>
      set u : MidiTask F := { t with current_preset_index := index.toNat } with hu
      have hload := load_reload (F := F) index.toNat u
      have hrun : handleKind (.program index) t
          = ([] ++ (load_and_apply_preset index.toNat u).1, (load_and_apply_preset index.toNat u).2) := by
        rw [handleKind, program_run, List.nil_append]
      exact .reload (hload.of_run unrelated_nil hrun rfl)
  | pitch_bend d1 d2 =>
      exact .reload (reload_of_stays (controls_stay (store_unrelated (by decide) _)))
  | ignored => exact .reload (reload_of_stays (Proc.Stays.pure ()))

/-- **What a piece of work does to the preset.** -/
theorem work_edit (w : Work) (t : MidiTask F) :
    Edit w t.working_preset (handle_work w t).1 (endPreset (handle_work w) t) := by
  cases w with
  | voice status d1 d2 => exact voice_edit status d1 d2 t
  | reset_storage => exact .reload (reload_of_run (reset_storage_run t) (unrelated_flash _) rfl)
  | sysex_byte b =>
      apply Edit.reload
      cases hcall : (t.rx.receive b).2 with
      | none =>
          exact reload_of_run (m := handle_sysex_byte b) (sysex_byte_quiet hcall) (by simp) rfl
      | some call =>
          have hsysex := sysex_reload (F := F) call { t with rx := (t.rx.receive b).1 }
          exact hsysex.of_run unrelated_nil (sysex_byte_call hcall) rfl

/-! ## What is left of an edit -/

/-- The effect sends a preset. -/
def isSend : Effect F → Bool
  | .preset_send _ => true
  | _ => false

/-- The effects that are left of an edit that ends with the preset `p`: a send of
`p` is the last of them, or there is none. -/
inductive Owed (p : Preset F) : List (Effect F) → Prop
  | nothing {es : List (Effect F)} (hes : ∀ e ∈ es, Unrelated e) : Owed p es
  | send {es : List (Effect F)} (hes : ∀ e ∈ es, isSend e = false) :
      Owed p (es ++ [.preset_send p])
  | store (a : Atom) (v : F) : Owed p [.control (.store a v)]

omit [F32 F] in
/-- A send is never unrelated. -/
theorem isSend_of_unrelated {e : Effect F} (h : Unrelated e) : isSend e = false := by
  cases e with
  | preset_send p => exact h.elim
  | control op => rfl
  | led on => rfl
  | write_packet p => rfl
  | flash op => rfl
  | handle_sysex call => rfl

/-- The stores of a load are no send; the send comes behind them. -/
theorem isSend_seedEffects (p : Preset F) : ∀ e ∈ seedEffects p, isSend e = false := by
  intro e he
  obtain ⟨av, -, rfl⟩ := List.mem_map.mp he
  rfl

/-- When a piece of work begins, all its effects are owed. -/
theorem Edit.owed {w : Work} {p p' : Preset F} {es : List (Effect F)} (h : Edit w p es p') :
    Owed p' es := by
  cases h with
  | reload h =>
      cases h with
      | missed hes => exact .nothing hes
      | loaded hes =>
          rw [← List.append_assoc]
          refine .send (List.forall_mem_append.mpr ⟨?_, isSend_seedEffects p'⟩)
          exact fun e he => isSend_of_unrelated (hes e he)
  | continuous hw hkind h => exact .store _ _
  | structural hw hkind h =>
      have hnil : ∀ e ∈ ([] : List (Effect F)), isSend e = false := by simp
      exact .send hnil

omit [F32 F] in
/-- The first of the effects is made. -/
theorem Owed.tail {p : Preset F} {e : Effect F} {es : List (Effect F)} (h : Owed p (e :: es)) :
    Owed p es := by
  generalize heq : e :: es = fs at h
  cases h with
  | nothing hes =>
      subst heq
      exact .nothing fun x hx => hes x (List.mem_cons_of_mem e hx)
  | send hes =>
      rename_i gs
      cases gs with
      | nil =>
          obtain ⟨-, rfl⟩ := List.cons.inj heq
          exact .nothing (by simp)
      | cons g gs =>
          obtain ⟨-, rfl⟩ := List.cons.inj heq
          exact .send fun x hx => hes x (List.mem_cons_of_mem g hx)
  | store a v =>
      obtain ⟨-, rfl⟩ := List.cons.inj heq
      exact .nothing (by simp)

omit [F32 F] in
/-- A send is made last, of the preset that is owed. -/
theorem Owed.of_send {p q : Preset F} {es : List (Effect F)} (h : Owed p (.preset_send q :: es)) :
    q = p ∧ es = [] := by
  generalize heq : Effect.preset_send q :: es = fs at h
  cases h with
  | nothing hes =>
      subst heq
      exact (hes _ List.mem_cons_self).elim
  | send hes =>
      rename_i gs
      cases gs with
      | nil =>
          obtain ⟨hq, hes⟩ := List.cons.inj heq
          cases hq
          exact ⟨rfl, hes⟩
      | cons g gs =>
          obtain ⟨rfl, -⟩ := List.cons.inj heq
          exact absurd (hes _ List.mem_cons_self) (by simp [isSend])
  | store a v =>
      obtain ⟨hq, -⟩ := List.cons.inj heq
      cases hq

end

end PicoDsp.MidiTask
