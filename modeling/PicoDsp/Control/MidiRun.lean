/-
`midi_task` over a list of inputs (`control/midi.rs`).

The handlers of `Control/MidiSpec.lean` speak of one message. Here they are put in a
row: the task is started on some flash contents, works through what it is sent, and
either ends in a state or has halted on the way. Everything that later modules state
about runs of the task starts from here.

Two things hold of every state the task reaches from boot (`Sound`): the bank
in flash has a header of this firmware, because boot formats any other and
`handle_sysex` accepts no other, and the current index names a record that ends
inside the flash, because the task would have halted on the way to any other.
The second makes the one way to halt a condition on the state before a message
(`PastFlash`), and not one on what the message does.

`work_ends` is the step lemma: a piece of work ends and keeps the task sound unless it is
`PastFlash`, and `work_halts` the converse. From the two follows, by induction on the
work, that a run ends exactly when it is safe (`run_ends_iff`). Statements of the form
"the task does X unless it halted" use it to turn the unless into a condition on
messages.

A Program Change cannot halt the task, since its data byte is at most 255 and record 326
lies in the flash (`byte_le_last`); it takes soft-pedal taps on a large bank.
-/
import PicoDsp.Control.MidiSpec
import PicoDsp.Control.SysexReceiver

set_option autoImplicit false

namespace PicoDsp.MidiTask

open Lib Sysex Storage

variable {F : Type} [F32 F]

/-! ## Boot -/

/-- The flash the task starts its loop with. -/
def bootFlash (f : Flash) : Flash := if (header f).Valid then f else written f format_image

/-- After the boot there is a header of this firmware: the one that was there, or the empty
bank's. -/
theorem bootFlash_valid (f : Flash) : (header (bootFlash f)).Valid := by
  unfold bootFlash
  by_cases hvalid : (header f).Valid
  · rw [if_pos hvalid]
    exact hvalid
  · rw [if_neg hvalid, header_format]
    exact ⟨rfl, rfl⟩

/-- The task as it enters its loop with flash contents `f`. -/
def entered (F : Type) [F32 F] (f : Flash) : MidiTask F where
  flash := f
  notes := NoteStack.new
  current_preset_index := 4
  working_preset :=
    if 4 < presetCount f then loaded F f 4 else Preset.default.map F32.from_bits
  rx := SysexRx.new

@[simp] theorem entered_flash (f : Flash) : (entered F f).flash = f := rfl

/-- The flash accesses on the way into the loop. -/
def enterOps (f : Flash) : List FlashOp := if 4 < presetCount f then hitOps 4 else missOps f

theorem enter_loop_eq (f : Flash) :
    enter_loop (F := F) f = (enterOps f, some (entered F f, f)) := by
  unfold entered enterOps
  by_cases hlt : 4 < presetCount f
  · rw [enter_loop, Proc.bind_some (load_preset_found hlt (by decide)), if_pos hlt, if_pos hlt]
    rfl
  · rw [enter_loop, Proc.bind_some (load_preset_missing (Nat.not_lt.mp hlt)), if_neg hlt, if_neg hlt]
    simp only [Proc.get_bind_run, Proc.pure_run, List.append_nil]
    rfl

/-- The way into the loop never halts. -/
theorem enter_loop_run (f : Flash) :
    ∃ es, enter_loop (F := F) f = (es, some (entered F f, f)) := ⟨_, enter_loop_eq f⟩

/-- A start that formats, for any outcome of the format. -/
private theorem start_of_format {f f' : Flash} {ops es : List FlashOp} {r : Option (MidiTask F × Flash)}
    (hformat : format f = (ops, some ((), f'))) (henter : enter_loop f' = (es, r)) :
    start true f = (ops ++ es, r) := by
  rw [start, if_pos rfl, Proc.bind_some hformat, henter]

/-- The task up to its loop, on what `main` decided. -/
theorem start_run (f : Flash) :
    ∃ es, start (F := F) (!decide (header f).Valid) f
      = (es, some (entered F (bootFlash f), bootFlash f)) := by
  obtain ⟨es, henter⟩ := enter_loop_run (F := F) (bootFlash f)
  unfold bootFlash at henter ⊢
  by_cases hvalid : (header f).Valid
  · rw [if_pos hvalid] at henter ⊢
    rw [decide_eq_true hvalid, Bool.not_true, start, if_neg Bool.false_ne_true]
    exact ⟨es, henter⟩
  · rw [if_neg hvalid] at henter ⊢
    rw [decide_eq_false hvalid, Bool.not_false]
    exact ⟨_, start_of_format (format_run f) henter⟩

/-- Boot always ends, with a valid bank. -/
theorem boot_run (f : Flash) :
    ∃ es, boot (F := F) f = (es, some (entered F (bootFlash f), bootFlash f)) := by
  obtain ⟨es, hstart⟩ := start_run (F := F) f
  rw [boot, Proc.bind_some (needs_format_run f), hstart]
  exact ⟨_, rfl⟩

/-! ## Halting -/

/-- The index a channel-voice message makes the task load. -/
def selected (k : VoiceKind) (t : MidiTask F) : Option ℕ :=
  match k with
  | .program index => some index.toNat
  | .soft_pedal value =>
      if (t.notes.soft_pedal (64 ≤ value)).1 = true ∧ 0 < presetCount t.flash then
        some (nextIndex t)
      else none
  | _ => none

/-- The work is a message that selects an index below the count whose record
ends past the flash. -/
def PastFlash (w : Work) (t : MidiTask F) : Prop :=
  match w with
  | .voice status d1 d2 =>
      ∃ i, selected (voiceKind status d1 d2) t = some i ∧ i < presetCount t.flash
        ∧ LAST_RECORD < i
  | _ => False

/-- The three outcomes of a load, as far as the task goes on. -/
theorem load_ends {t : MidiTask F} {i : ℕ} (hi : i ≤ LAST_RECORD ∨ presetCount t.flash ≤ i) :
    ∃ es p, load_and_apply_preset i t = (es, some ((), { t with working_preset := p })) := by
  by_cases hlt : i < presetCount t.flash
  · have hle : i ≤ LAST_RECORD := by omega
    exact ⟨_, _, load_found hlt hle⟩
  · exact ⟨_, t.working_preset, load_missing (Nat.not_lt.mp hlt)⟩

/-- The index of a Program Change names a record inside of the flash. -/
theorem byte_le_last (b : UInt8) : b.toNat ≤ LAST_RECORD := by
  have hlt := b.toNat_lt
  simp only [LAST_RECORD]
  omega

/-- A message ends, and leaves the index at a record inside the flash, unless
it selects a record past the flash. -/
theorem voice_ends {k : VoiceKind} {t : MidiTask F} (ht : t.current_preset_index ≤ LAST_RECORD)
    (hk : ∀ i, selected k t = some i → i < presetCount t.flash → i ≤ LAST_RECORD) :
    ∃ es t', handleKind k t = (es, some ((), t')) ∧ t'.current_preset_index ≤ LAST_RECORD := by
  cases k with
  | note_on key velocity =>
      obtain ⟨v, freq, hrun⟩ := note_on_run (F := F) key velocity t
      exact ⟨_, _, hrun, ht⟩
  | note_off key => exact ⟨_, _, note_off_run key t, ht⟩
  | mod_wheel value => exact ⟨_, _, controls_run _ t, ht⟩
  | sustain value => exact ⟨_, _, sustain_run value t, ht⟩
  | soft_pedal value =>
      -- the only kind whose record is counted on, not given by a byte
      by_cases htap : (t.notes.soft_pedal (64 ≤ value)).1 = true
      · by_cases hn : 0 < presetCount t.flash
        · have hsel : selected (.soft_pedal value) t = some (nextIndex t) := by
            rw [selected, if_pos ⟨htap, hn⟩]
          have hle : nextIndex t ≤ LAST_RECORD := hk _ hsel (Nat.mod_lt _ hn)
          obtain ⟨es, p, hload⟩ := load_ends (t := tapped value t) (Or.inl hle)
          have hrun := soft_pedal_next htap hn
          rw [hload] at hrun
          exact ⟨_, _, hrun, hle⟩
        · have hzero : presetCount t.flash = 0 := Nat.eq_zero_of_not_pos hn
          have hrun := soft_pedal_empty htap hzero
          exact ⟨_, _, hrun, ht⟩
      · have hfalse : (t.notes.soft_pedal (64 ≤ value)).1 = false := Bool.eq_false_iff.mpr htap
        have hrun := soft_pedal_idle hfalse
        exact ⟨_, _, hrun, ht⟩
  | all_off => exact ⟨_, _, all_off_run t, ht⟩
  | parameter cc value =>
      cases hcc : CcMap.apply_cc cc value t.working_preset with
      | continuous p a v => exact ⟨_, _, parameter_continuous hcc, ht⟩
      | structural p => exact ⟨_, _, parameter_structural hcc, ht⟩
      | unmapped => exact ⟨_, _, parameter_unmapped hcc, ht⟩
  | program index =>
      obtain ⟨es, p, hload⟩ := load_ends (t := { t with current_preset_index := index.toNat })
        (Or.inl (byte_le_last index))
      exact ⟨es, _, (program_run index t).trans hload, byte_le_last index⟩
  | pitch_bend d1 d2 => exact ⟨_, _, controls_run _ t, ht⟩
  | ignored => exact ⟨[], t, rfl, ht⟩

/-- A message that selects a record past the flash halts the task. -/
theorem voice_halts {k : VoiceKind} {t : MidiTask F} {i : ℕ}
    (ht : t.current_preset_index ≤ LAST_RECORD) (hsel : selected k t = some i)
    (hlt : i < presetCount t.flash) (hi : LAST_RECORD < i) :
    (handleKind k t).2 = none := by
  cases k with
  | program index =>
      cases hsel
      exact absurd hi (Nat.not_lt.mpr (byte_le_last index))
  | soft_pedal value =>
      rw [selected] at hsel
      split at hsel
      · rename_i htap
        cases hsel
        -- the address of the record does not wrap
        have hbound : nextIndex t < 2 ^ 24 := by
          have hle := Nat.mod_le (t.current_preset_index + 1) (presetCount t.flash)
          simp only [LAST_RECORD, nextIndex] at ht ⊢
          omega
        rw [handleKind, soft_pedal_next htap.1 htap.2,
          load_halts (t := tapped value t) hlt hi hbound]
      · cases hsel
  | note_on key velocity => cases hsel
  | note_off key => cases hsel
  | mod_wheel value => cases hsel
  | sustain value => cases hsel
  | all_off => cases hsel
  | parameter cc value => cases hsel
  | pitch_bend d1 d2 => cases hsel
  | ignored => cases hsel

/-! ## Reachable states -/

/-- What boot establishes and every handler keeps. -/
structure Sound (t : MidiTask F) : Prop where
  header : (header t.flash).Valid
  index : t.current_preset_index ≤ LAST_RECORD

omit [F32 F] in
/-- A valid image that is written is a valid bank. -/
theorem written_valid {data : List UInt8} (hlen : data.length = STORAGE_IMAGE_SIZE)
    (h : (StorageHeader.from_bytes data).Valid) (f : Flash) : (header (written f data)).Valid := by
  rw [header_written hlen]
  exact h

/-- The boot makes the task sound: record 4 lies in the flash. -/
theorem entered_sound (f : Flash) : Sound (entered F (bootFlash f)) :=
  ⟨bootFlash_valid f, show 4 ≤ 326 by decide⟩

/-- A completed SysEx message never halts the task. -/
theorem sysex_ends (call : SysexCall) {t : MidiTask F} (ht : Sound t) :
    ∃ es t', handle_sysex call t = (es, some ((), t')) ∧ Sound t'
      ∧ t'.rx.in_sysex = t.rx.in_sysex := by
  by_cases hdump : call.cmd = CMD_DUMP_REQ
  · have hrun := handle_sysex_dump hdump t
    rw [dump_req_run] at hrun
    exact ⟨_, _, hrun, ⟨ht.header, ht.index⟩, SysexRx.in_sysex_with_image _ _⟩
  by_cases hwrite : call.cmd = CMD_WRITE_REQ
  · have hrun := handle_sysex_write hwrite t
    by_cases hlen : call.overflow = true ∨ call.raw_len ≠ STORAGE_IMAGE_SIZE
    · rw [write_req_bad_length hlen] at hrun
      exact ⟨_, _, hrun, ht, rfl⟩
    · have hov : call.overflow = false := Bool.eq_false_iff.mpr fun h => hlen (Or.inl h)
      have hraw : call.raw_len = STORAGE_IMAGE_SIZE := not_not.mp fun h => hlen (Or.inr h)
      rw [hov, hraw] at hrun
      by_cases hvalid : (StorageHeader.from_bytes t.rx.image.toList).Valid
      · obtain ⟨es, p, hload⟩ := load_ends
          (t := { t with flash := written t.flash t.rx.image.toList }) (Or.inl ht.index)
        rw [write_req_accepted hvalid, hload] at hrun
        exact ⟨_, _, hrun, ⟨written_valid Vector.length_toList hvalid _, ht.index⟩, rfl⟩
      · rw [write_req_bad_magic hvalid] at hrun
        exact ⟨_, _, hrun, ht, rfl⟩
  · exact ⟨_, _, handle_sysex_other hdump hwrite t, ht, rfl⟩

/-- One piece of work ends and keeps the task sound unless it selects a record
past the flash. -/
theorem work_ends {w : Work} {t : MidiTask F} (ht : Sound t) (hw : ¬ PastFlash w t) :
    ∃ es t', handle_work w t = (es, some ((), t')) ∧ Sound t' := by
  cases w with
  | voice status d1 d2 =>
      have hk : ∀ i, selected (voiceKind status d1 d2) t = some i → i < presetCount t.flash →
          i ≤ LAST_RECORD := fun i hsel hlt => Nat.not_lt.mp fun hi => hw ⟨i, hsel, hlt, hi⟩
      obtain ⟨es, t', hrun, hindex⟩ := voice_ends ht.index hk
      have hwork : handle_work (.voice status d1 d2) t = (es, some ((), t')) := by
        rw [handle_work, handle_voice_message_eq, hrun]
      refine ⟨es, t', hwork, ?_, hindex⟩
      rw [(voice_frame hwork).1]
      exact ht.header
  | sysex_byte b =>
      cases hcall : (t.rx.receive b).2 with
      | none => exact ⟨_, _, sysex_byte_quiet hcall, ht.header, ht.index⟩
      | some call =>
          have ht' : Sound { t with rx := (t.rx.receive b).1 } := ⟨ht.header, ht.index⟩
          obtain ⟨es, t', hrun, hsound, -⟩ := sysex_ends call ht'
          exact ⟨es, t', (sysex_byte_call hcall).trans hrun, hsound⟩
  | reset_storage =>
      refine ⟨_, _, reset_storage_run t, ?_, ht.index⟩
      simp only [header_format]
      exact ⟨rfl, rfl⟩

/-- A message that selects a record past the flash is where the task ends. -/
theorem work_halts {w : Work} {t : MidiTask F} (ht : Sound t) (hw : PastFlash w t) :
    (handle_work w t).2 = none := by
  cases w with
  | voice status d1 d2 =>
      obtain ⟨i, hsel, hlt, hi⟩ := hw
      rw [handle_work, handle_voice_message_eq]
      exact voice_halts ht.index hsel hlt hi
  | sysex_byte b => cases hw
  | reset_storage => cases hw

/-- Soundness along a run. -/
theorem Sound.run {ws : List Work} {t t' : MidiTask F} {es : List (Effect F)} (ht : Sound t)
    (h : Proc.each handle_work ws t = (es, some ((), t'))) : Sound t' := by
  have hstep : ∀ w ∈ ws, Proc.Triple Sound (handle_work (F := F) w) (fun _ => True)
      (fun _ => Sound) := by
    intro w _ s hs
    refine ⟨fun _ _ => trivial, fun a s' hr => ?_⟩
    by_cases hw : PastFlash w s
    · rw [work_halts hs hw] at hr
      cases hr
    · obtain ⟨es, u, hrun, hu⟩ := work_ends hs hw
      rw [hrun] at hr
      cases hr
      exact hu
  exact (Proc.Triple.each hstep t ht).2 () t' (by rw [h])

/-- No work of the list selects a record past the flash in the state it is
handled in. -/
def SafeRun (t : MidiTask F) (ws : List Work) : Prop :=
  ∀ pre w post, ws = pre ++ w :: post → ∀ es t',
    Proc.each handle_work pre t = (es, some ((), t')) → ¬ PastFlash w t'

/-- **A run ends exactly when it is safe.** -/
theorem run_ends_iff {t : MidiTask F} (ht : Sound t) (ws : List Work) :
    (∃ es t', Proc.each handle_work ws t = (es, some ((), t'))) ↔ SafeRun t ws := by
  -- the first unsafe message is the one at which the run stops
  induction ws using List.reverseRecOn with
  | nil =>
      refine ⟨fun _ pre w post h => ?_, fun _ => ⟨_, _, rfl⟩⟩
      exact absurd h.symm (List.append_ne_nil_of_right_ne_nil _ (List.cons_ne_nil _ _))
  | append_singleton ws w ih =>
      constructor
      · rintro ⟨es, t', hrun⟩ pre v post heq es' s hpre hpast
        have hs := ht.run hpre
        -- the run dies at `v`, whatever follows
        have hdead : ∃ fs, Proc.each handle_work (pre ++ [v]) t = (fs, none) := by
          refine ⟨es' ++ (handle_work v s).1, ?_⟩
          rw [Proc.each_append_some hpre, Proc.each_singleton_run, work_halts hs hpast]
        obtain ⟨fs, hdead⟩ := hdead
        rw [heq, ← List.singleton_append, ← List.append_assoc, Proc.each_append_none hdead] at hrun
        cases hrun
      · intro hsafe
        have hprefix : SafeRun t ws := by
          intro pre v post heq
          refine hsafe pre v (post ++ [w]) ?_
          rw [heq, List.append_assoc, List.cons_append]
        obtain ⟨es, s, hws⟩ := ih.mpr hprefix
        obtain ⟨fs, t', hw, -⟩ := work_ends (ht.run hws) (hsafe ws w [] rfl es s hws)
        refine ⟨es ++ fs, t', ?_⟩
        rw [Proc.each_append_some hws, Proc.each_singleton_run, hw]

/-- The states of `midi_task` between two pieces of work: boot on some flash
contents, then any work that did not halt it. -/
def Reachable (t : MidiTask F) : Prop :=
  ∃ f t₀ f₀ es₀ ws es, boot f = (es₀, some (t₀, f₀))
    ∧ Proc.each handle_work ws t₀ = (es, some ((), t))

/-- Every state the task reaches is sound. -/
theorem Reachable.sound {t : MidiTask F} (h : Reachable t) : Sound t := by
  obtain ⟨f, t₀, f₀, es₀, ws, es, hboot, hrun⟩ := h
  obtain ⟨es', hbooted⟩ := boot_run (F := F) f
  rw [hbooted] at hboot
  cases hboot
  exact (entered_sound f).run hrun

/-- The state in which the task enters its loop. -/
theorem entered_reachable (F : Type) [F32 F] (f : Flash) : Reachable (entered F (bootFlash f)) := by
  obtain ⟨es, hboot⟩ := boot_run (F := F) f
  exact ⟨f, _, _, es, [], [], hboot, rfl⟩

/-- Any more work that does not halt the task. -/
theorem Reachable.each {t t' : MidiTask F} {ws : List Work} {es : List (Effect F)}
    (h : Reachable t) (hws : Proc.each handle_work ws t = (es, some ((), t'))) : Reachable t' := by
  obtain ⟨f, t₀, f₀, es₀, past, fs, hboot, hrun⟩ := h
  refine ⟨f, t₀, f₀, es₀, past ++ ws, fs ++ es, hboot, ?_⟩
  rw [Proc.each_append_some hrun, hws]

/-- One more piece of work. -/
theorem Reachable.step {t t' : MidiTask F} {w : Work} {es : List (Effect F)} (h : Reachable t)
    (hw : handle_work w t = (es, some ((), t'))) : Reachable t' := by
  have hone : Proc.each handle_work [w] t = (es, some ((), t')) := by
    rw [Proc.each_singleton_run, hw]
  exact h.each hone

/-- Bytes other than F7 change the receiver only. -/
theorem bytes_run {bs : List UInt8} (h : SYSEX_END ∉ bs) (t : MidiTask F) :
    Proc.each handle_work (bs.map Work.sysex_byte) t
      = ([], some ((), { t with rx := bs.foldl (fun rx b => (rx.receive b).1) t.rx })) := by
  induction bs generalizing t with
  | nil => rfl
  | cons b bs ih =>
      rw [List.mem_cons, not_or] at h
      have hfirst : handle_work (.sysex_byte b) t
          = ([], some ((), { t with rx := (t.rx.receive b).1 })) :=
        sysex_byte_quiet (receive_quiet (Ne.symm h.1) t.rx)
      rw [List.map_cons, Proc.each_cons, Proc.bind_some hfirst, ih h.2]
      rfl

end PicoDsp.MidiTask
