/-
Stepping through the bank with the soft pedal (`NoteStack::soft_pedal` and the arm of
`handle_voice_message` for CC67).

The pedal is used as a button: a value of 64 or more holds it, the next smaller value
lets it go, and letting it go selects the next preset. The task sees positions only,
mixed with all other messages, from two keyboards. So the gesture is not an event of the
stream but a fall in it, and a half-pressed pedal that sends 127, 90, 20 makes one.

The latch of the note stack is the last position of the pedal, whatever else the
messages do to the stack (`latch_run`), so the gestures are the falls of the stream of
positions (`gestures`), counted on the stream alone with the position from before in
front of it. Each of them loads the preset behind the current one, modulo the count,
and nothing else loads one (`pedal_step`).

Program changes are left out of the runs, since they move the index by themselves. What
a load is, is read off the flash accesses as in `Control/PresetIndex.lean`, and a run
loads the presets of a walk around the bank (`pedal_run`). Any `n` steps in a row of a
walk around `n` places visit each of them once, which is `Lib/Cycle.lean`.
-/
import PicoDsp.Control.PresetIndex
import PicoDsp.Lib.Cycle

set_option autoImplicit false

namespace PicoDsp.MidiTask

open Lib Storage

variable {F : Type}

/-- The pedal position that a message of the kind brings. -/
def VoiceKind.pedal : VoiceKind → Option Bool
  | .soft_pedal value => some (64 ≤ value)
  | _ => none

/-- The pedal position that a message brings. -/
def Work.pedal : Work → Option Bool
  | .voice status d1 d2 => (voiceKind status d1 d2).pedal
  | _ => none

/-- A channel-voice message that is no Program Change. -/
def NoProgram (w : Work) : Prop :=
  ∃ status d1 d2, w = .voice status d1 d2 ∧ ∀ i, voiceKind status d1 d2 ≠ .program i

/-- The number of times the pedal is let go, from the position it has in `t`. -/
def gestures (t : MidiTask F) (ws : List Work) : ℕ :=
  falls (t.notes.soft_pedal_held :: ws.filterMap Work.pedal)

/-- A pedal that was held is let go. -/
def LetsGo (held : Bool) (position : Option Bool) : Prop := held = true ∧ position = some false

instance (held : Bool) (position : Option Bool) : Decidable (LetsGo held position) :=
  inferInstanceAs (Decidable (held = true ∧ position = some false))

/-- A message in front: the fall between the position held so far and the one it brings, and
the falls behind it. -/
theorem falls_pedal (held : Bool) (position : Option Bool) (bs : List Bool) :
    falls (held :: (position.toList ++ bs))
      = falls (position.getD held :: bs) + if LetsGo held position then 1 else 0 := by
  cases position with
  | none =>
      have hnot : ¬ LetsGo held none := by
        rintro ⟨-, hsome⟩
        cases hsome
      rw [if_neg hnot]
      rfl
  | some b =>
      rw [Option.toList_some, List.singleton_append, falls_cons_cons, Option.getD_some]
      cases held <;> cases b <;> rfl

/-! ## The latch -/

/-- A strike leaves the latch. -/
theorem held_note_on (s : NoteStack) (key : UInt8) :
    (s.note_on key).soft_pedal_held = s.soft_pedal_held := by
  unfold NoteStack.note_on
  split
  · rfl
  · rfl

/-- A release leaves the latch. -/
theorem held_note_off (s : NoteStack) (key : UInt8) :
    (s.note_off key).soft_pedal_held = s.soft_pedal_held := by
  unfold NoteStack.note_off
  split
  · split
    · rfl
    · rfl
  · rfl

/-- The sustain pedal leaves the latch of the soft pedal. -/
theorem held_set_sustain (s : NoteStack) (active : Bool) :
    (s.set_sustain active).soft_pedal_held = s.soft_pedal_held := by
  unfold NoteStack.set_sustain
  split
  · rfl
  · rfl

section

variable [F32 F]

/-- A message leaves the latch at the position it brings. -/
theorem latch_run {k : VoiceKind} (hk : ∀ i, k ≠ .program i) {t t' : MidiTask F}
    {es : List (Effect F)} (hmax : presetCount t.flash ≤ LAST_RECORD)
    (h : handleKind k t = (es, some ((), t'))) :
    t'.notes.soft_pedal_held = k.pedal.getD t.notes.soft_pedal_held := by
  -- the state at the end is that of the spec lemma of each message
  have hend : ∀ {fs : List (Effect F)} {u : MidiTask F}, handleKind k t = (fs, some ((), u)) →
      u = t' := by
    intro fs u hrun
    rw [h, Prod.mk.injEq, Option.some.injEq, Prod.mk.injEq] at hrun
    exact hrun.2.2.symm
  cases k with
  | note_on key velocity =>
      obtain ⟨v, freq, hrun⟩ := note_on_run (F := F) key velocity t
      rw [← hend hrun]
      exact held_note_on _ _
  | note_off key =>
      rw [← hend (note_off_run key t)]
      exact held_note_off _ _
  | mod_wheel value =>
      rw [← hend (controls_run _ t)]
      rfl
  | sustain value =>
      rw [← hend (sustain_run value t)]
      exact held_set_sustain _ _
  | soft_pedal value =>
      by_cases htap : (t.notes.soft_pedal (64 ≤ value)).1 = true
      · by_cases hn : 0 < presetCount t.flash
        · -- a tap loads the next preset, which leaves the stack alone
          have hlt : nextIndex t < presetCount t.flash := Nat.mod_lt _ hn
          have hrun := soft_pedal_next htap hn
          rw [load_found (t := tapped value t) hlt (by omega)] at hrun
          rw [← hend hrun]
          rfl
        · rw [← hend (soft_pedal_empty htap (Nat.eq_zero_of_not_pos hn))]
          rfl
      · rw [← hend (soft_pedal_idle (Bool.eq_false_iff.mpr htap))]
        rfl
  | all_off =>
      rw [← hend (all_off_run t)]
      rfl
  | parameter cc value =>
      cases hcc : CcMap.apply_cc cc value t.working_preset with
      | continuous p a v =>
          rw [← hend (parameter_continuous hcc)]
          rfl
      | structural p =>
          rw [← hend (parameter_structural hcc)]
          rfl
      | unmapped =>
          rw [← hend (parameter_unmapped hcc)]
          rfl
  | program index => exact absurd rfl (hk index)
  | pitch_bend d1 d2 =>
      rw [← hend (controls_run _ t)]
      rfl
  | ignored =>
      rw [← hend (rfl : handleKind .ignored t = ([], some ((), t)))]
      rfl

omit [F32 F] in
/-- Among these kinds only a pedal that is let go selects a preset. -/
theorem selected_eq {k : VoiceKind} (hk : ∀ i, k ≠ .program i) {t : MidiTask F}
    (hpos : 0 < presetCount t.flash) :
    selected k t = if LetsGo t.notes.soft_pedal_held k.pedal then some (nextIndex t) else none := by
  have hother : ∀ {k : VoiceKind}, k.pedal = none →
      ¬ LetsGo t.notes.soft_pedal_held k.pedal := by
    rintro k hnone ⟨-, hsome⟩
    rw [hnone] at hsome
    cases hsome
  cases k with
  | soft_pedal value =>
      have hiff : LetsGo t.notes.soft_pedal_held (VoiceKind.soft_pedal value).pedal
          ↔ (t.notes.soft_pedal (64 ≤ value)).1 = true ∧ 0 < presetCount t.flash := by
        rw [LetsGo, VoiceKind.pedal, NoteStack.soft_pedal, Bool.and_eq_true, Option.some.injEq,
          Bool.not_eq_true', and_iff_left hpos]
      rw [selected]
      simp only [hiff]
  | program index => exact absurd rfl (hk index)
  | note_on key velocity => exact (if_neg (hother rfl)).symm
  | note_off key => exact (if_neg (hother rfl)).symm
  | mod_wheel value => exact (if_neg (hother rfl)).symm
  | sustain value => exact (if_neg (hother rfl)).symm
  | all_off => exact (if_neg (hother rfl)).symm
  | parameter cc value => exact (if_neg (hother rfl)).symm
  | pitch_bend d1 d2 => exact (if_neg (hother rfl)).symm
  | ignored => exact (if_neg (hother rfl)).symm

/-! ## A message and a run -/

/-- One message: it loads the next preset if it lets the pedal go, and none
otherwise. -/
theorem pedal_step {w : Work} (hw : NoProgram w) {t : MidiTask F}
    (hpos : 0 < presetCount t.flash) (hmax : presetCount t.flash ≤ LAST_RECORD) :
    ∃ es t', handle_work w t = (es, some ((), t')) ∧ t'.flash = t.flash
      ∧ t'.notes.soft_pedal_held = w.pedal.getD t.notes.soft_pedal_held
      ∧ (if LetsGo t.notes.soft_pedal_held w.pedal then
          es.filterMap recordRead = [nextIndex t] ∧ t'.current_preset_index = nextIndex t
        else es.filterMap recordRead = [] ∧ t'.current_preset_index = t.current_preset_index) := by
  obtain ⟨status, d1, d2, rfl, hk⟩ := hw
  obtain ⟨es, t', hrun, hout⟩ := voice_outcome (F := F) status d1 d2 hpos hmax
  have hkind : handleKind (voiceKind status d1 d2) t = (es, some ((), t')) := by
    rw [← handle_voice_message_eq]
    exact hrun
  have hsel : (Request.voice status d1 d2).selected t
      = if LetsGo t.notes.soft_pedal_held (Work.voice status d1 d2).pedal then some (nextIndex t)
        else none := selected_eq hk hpos
  refine ⟨es, t', hrun, (voice_frame hrun).1, latch_run hk hmax hkind, ?_⟩
  cases hout with
  | quiet hnone hread hindex =>
      rw [hnone] at hsel
      split at hsel
      · cases hsel
      · rename_i hkeep
        rw [if_neg hkeep]
        exact ⟨hread, hindex⟩
  | hit i hsome hlt hread hindex =>
      rw [hsome] at hsel
      split at hsel
      · rename_i hgo
        cases hsel
        rw [if_pos hgo]
        exact ⟨hread, hindex⟩
      · cases hsel
  | missed i hprogram hge hread hindex =>
      -- only a Program Change misses
      rw [Request.program] at hprogram
      cases hv : voiceKind status d1 d2 with
      | program index => exact absurd hv (hk index)
      | _ =>
          rw [hv] at hprogram
          cases hprogram

/-- A run loads the presets of a walk around the bank, one for each gesture. -/
theorem pedal_run {ws : List Work} (hws : ∀ w ∈ ws, NoProgram w) {t : MidiTask F}
    (hpos : 0 < presetCount t.flash) (hmax : presetCount t.flash ≤ LAST_RECORD) :
    ∃ es t', Proc.each handle_work ws t = (es, some ((), t')) ∧ t'.flash = t.flash
      ∧ es.filterMap recordRead
        = walk (presetCount t.flash) t.current_preset_index (gestures t ws)
      ∧ t'.current_preset_index
        = if gestures t ws = 0 then t.current_preset_index
          else (t.current_preset_index + gestures t ws) % presetCount t.flash := by
  induction ws generalizing t with
  | nil => exact ⟨[], t, rfl, rfl, rfl, rfl⟩
  | cons w ws ih =>
      obtain ⟨es, u, hrun, hflash, hlatch, hstep⟩ := pedal_step (hws w List.mem_cons_self) hpos hmax
      obtain ⟨fs, v, hrest, hflash', hread, hindex⟩ :=
        ih (fun x hx => hws x (List.mem_cons_of_mem w hx)) (t := u) (by rw [hflash]; exact hpos)
          (by rw [hflash]; exact hmax)
      -- the latch before `ws` is the position that `w` leaves
      have hcount : gestures t (w :: ws)
          = gestures u ws + if LetsGo t.notes.soft_pedal_held w.pedal then 1 else 0 := by
        unfold gestures
        rw [hlatch, ← falls_pedal]
        cases hp : w.pedal with
        | none => rw [List.filterMap_cons_none hp]; rfl
        | some b => rw [List.filterMap_cons_some hp]; rfl
      refine ⟨es ++ fs, v, ?_, hflash'.trans hflash, ?_⟩
      · rw [Proc.each_cons, Proc.bind_some hrun, hrest]
      rw [List.filterMap_append, hread, hindex, hcount, hflash]
      by_cases hgo : LetsGo t.notes.soft_pedal_held w.pedal
      · -- a gesture: the walk goes on from the next index
        rw [if_pos hgo] at hstep ⊢
        rw [hstep.1, hstep.2, walk_succ, if_neg (Nat.succ_ne_zero _)]
        refine ⟨rfl, ?_⟩
        unfold nextIndex
        split
        · rename_i hzero
          rw [hzero]
        · rw [Nat.mod_add_mod, Nat.add_assoc, Nat.add_comm 1]
      · rw [if_neg hgo] at hstep ⊢
        rw [hstep.1, hstep.2]
        exact ⟨rfl, rfl⟩

/-- **The soft pedal takes one step per tap and visits the whole bank.** Whatever else
is played, a run loads one preset for each fall of the stream of pedal positions; the
index is that many steps further, and any `n` loads in a row are the `n` presets of the
bank, each once. -/
theorem soft_pedal_cycles {t : MidiTask F} {n : ℕ} (hn : presetCount t.flash = n)
    (hpos : 1 ≤ n) (hmax : n ≤ MAX_PRESETS) {ws : List Work} (hws : ∀ w ∈ ws, NoProgram w) :
    ∃ es t', Proc.each handle_work ws t = (es, some ((), t'))
      ∧ (es.filterMap recordRead).length = gestures t ws
      ∧ (1 ≤ gestures t ws →
          t'.current_preset_index = (t.current_preset_index + gestures t ws) % n)
      ∧ ∀ pre window post, es.filterMap recordRead = pre ++ window ++ post →
          window.length = n → window.Perm (List.range n) := by
  subst hn
  obtain ⟨es, t', hrun, -, hread, hindex⟩ := pedal_run hws hpos (max_presets_le_last hmax)
  refine ⟨es, t', hrun, ?_, ?_, ?_⟩
  · rw [hread, walk_length]
  · intro hk
    rw [hindex, if_neg (Nat.one_le_iff_ne_zero.mp hk)]
  · intro pre window post hsplit hlen
    rw [hread] at hsplit
    exact walk_window hsplit hlen

end

/-- Two taps, the first with a half-pressed pedal, on a bank of two presets. -/
theorem soft_pedal_cycles_two :
    ∃ es t', Proc.each handle_work [.voice 0xB0 67 90, .voice 0x90 60 1, .voice 0xB0 67 70,
        .voice 0xB0 67 10, .voice 0xB0 123 0, .voice 0xB0 67 64, .voice 0xB0 67 0]
          (entered ℝ (blankFlash 2)) = (es, some ((), t'))
      ∧ (es.filterMap recordRead).Perm [0, 1] ∧ t'.current_preset_index = 0 := by
  have hws : ∀ w ∈ [Work.voice 0xB0 67 90, .voice 0x90 60 1, .voice 0xB0 67 70, .voice 0xB0 67 10,
      .voice 0xB0 123 0, .voice 0xB0 67 64, .voice 0xB0 67 0], NoProgram w := by
    intro w hw
    simp only [List.mem_cons, List.not_mem_nil, or_false] at hw
    rcases hw with rfl | rfl | rfl | rfl | rfl | rfl | rfl
    all_goals
      refine ⟨_, _, _, rfl, fun i h => ?_⟩
      cases h
  obtain ⟨es, t', hrun, hlen, hindex, hwindow⟩ := soft_pedal_cycles (t := entered ℝ (blankFlash 2))
    (presetCount_blankFlash 2) (by decide) (by decide) hws
  refine ⟨es, t', hrun, ?_, hindex (by decide)⟩
  exact hwindow [] _ [] (by rw [List.nil_append, List.append_nil]) hlen

end PicoDsp.MidiTask
