/-
The pitch and the key that was struck last (`NoteStack` and the handlers of `midi_task`).

The synth is monophonic and is said to play the key that was struck last among those
that sound. A Note On stores the pitch of its key. A Note Off and a pedal that goes up
take the pitch from the end of the stack, which is the tracked key that began to
sound last (`Ordered`). A key that is struck again while it sounds keeps its
place in the stack, so there the two can differ.

The history of messages decides which key was struck last, and `Lib/LastStruck.lean`
has the two rankings of the keys as functions of the history: by the last strike, and by
when the key began to sound. The stack lists the second (`Ordered.note_on` and the
lemmas behind it), and the pitch is that of the stack's end or of the key just struck.

`last_note_iff` is an equivalence over whole runs: after each message the pitch is right,
exactly if after each release the key that should sound is the one the stack ends
with (`LastRemains`). The condition is about the history alone. Its last
clause is there because a pitch stays as it was when no key is left in the stack: the
synth then goes on with the pitch of before, and a 17th key that was not tracked may
still be the one struck last.

The only arithmetic is that different keys have different pitches
(`midi_to_freq_injective`), without which a wrong key could sound right. It is the
reason why the equivalence is stated over the reals.
-/
import PicoDsp.Lib.LastStruck
import PicoDsp.Control.KeyTracking

set_option autoImplicit false

namespace PicoDsp

open Lib Keyboard Storage

/-! ## The stack as a ranking -/

namespace NoteStack

/-- The stack lists the tracked keys of a history, in the order in which they
began to sound. -/
structure Ordered (n : NoteStack) (es : List (KeyEvent UInt8)) : Prop where
  holds : n.Holds (tracked 16 es)
  ranked : Ranked 16 es n.notes.items

variable {n : NoteStack} {es : List (KeyEvent UInt8)}

/-- An empty stack lists the keys of an empty history. -/
theorem ordered_new : Ordered new [] := ⟨holds_new, ranked_nil 16⟩

/-- An event that takes keys out of the stack. -/
theorem Ordered.sublist {n' : NoteStack} {e : KeyEvent UInt8} (h : n.Ordered es)
    (hholds : n'.Holds ((tracked 16 es).track 16 e))
    (hsub : n'.notes.items.Sublist n.notes.items) : n'.Ordered (es ++ [e]) := by
  rw [← tracked_snoc] at hholds
  exact ⟨hholds, h.ranked.sublist hsub hholds.mem_notes⟩

/-- A strike puts a new key at the end, and leaves a key that sounds where it is. -/
theorem Ordered.note_on (h : n.Ordered es) (k : UInt8) :
    (n.note_on k).Ordered (es ++ [.press k]) := by
  have hholds := h.holds.note_on k
  by_cases hk : n.notes.items.contains k = true
  · apply h.sublist hholds
    rw [NoteStack.note_on, if_pos hk]
  · have hitems : (n.note_on k).notes = n.notes.offer k := by
      rw [NoteStack.note_on, if_neg hk]
    by_cases hfull : n.notes.Full
    · apply h.sublist hholds
      rw [hitems, BoundedList.offer_of_full hfull]
    · have hnew : k ∉ n.notes.items := fun hin => hk (List.contains_iff_mem.mpr hin)
      have happ := BoundedList.offer_items_of_not_full hfull k
      rw [← tracked_snoc] at hholds
      have hmem := hholds.mem_notes
      rw [hitems, happ] at hmem
      refine ⟨hholds, ?_⟩
      rw [hitems, happ]
      exact h.ranked.append hnew hmem

/-- A release takes a key out or leaves it as sustained, and moves no other. -/
theorem Ordered.note_off (h : n.Ordered es) (k : UInt8) :
    (n.note_off k).Ordered (es ++ [.release k]) := by
  apply h.sublist (h.holds.note_off k)
  unfold NoteStack.note_off
  split
  · split
    · exact List.Sublist.refl _
    · exact List.Sublist.refl _
  · rw [BoundedList.removeFirst_items]
    exact List.erase_sublist

/-- The pedal going up takes the sustained keys out, and moves no other. -/
theorem Ordered.set_sustain (h : n.Ordered es) (down : Bool) :
    (n.set_sustain down).Ordered (es ++ [.pedal down]) := by
  apply h.sublist (h.holds.set_sustain down)
  cases down with
  | true => exact List.Sublist.refl _
  | false =>
      have hitems : (n.set_sustain false).notes.items = n.notes.items.diff n.pending_off.items :=
        BoundedList.foldl_removeFirst_items _ _
      rw [hitems]
      exact List.diff_sublist _ _

/-- All Notes Off leaves no key. -/
theorem Ordered.clear (h : n.Ordered es) : n.clear.Ordered (es ++ [.clear]) :=
  h.sublist (holds_clear n) (List.nil_sublist _)

end NoteStack

namespace MidiTask

/-! ## One message -/

section Step

variable {F : Type} [F32 F]

/-- The pitch the voice glides to. -/
def pitch (c : MidiControl F) : F := c.value .target_freq

/-- The event can silence a key. -/
def Releases (e : KeyEvent UInt8) : Prop := (∃ k, e = .release k) ∨ e = .pedal false

/-- What a message does to the pitch. -/
structure Pitched (e : KeyEvent UInt8) (n' : NoteStack) (c c' : MidiControl F) : Prop where
  press : ∀ k, e = .press k → pitch c' = midi_to_freq k
  releases : Releases e → pitch c' = (n'.active_note.map midi_to_freq).getD (pitch c)
  pedal : e = .pedal true → pitch c' = pitch c

/-- `follow_stack` takes the pitch of the stack's end, and keeps it when there is none. -/
theorem pitch_follow (n : NoteStack) (c : MidiControl F) :
    pitch (controlsAfter (followEffects n) c)
      = (n.active_note.map midi_to_freq).getD (pitch c) := by
  unfold followEffects
  cases n.active_note with
  | some k => rfl
  | none => rfl

/-- A Note On stores the pitch of its own key, also when there is no place for it. -/
theorem note_on_step {t : MidiTask F} {es : List (KeyEvent UInt8)} (c : MidiControl F)
    (h : t.notes.Ordered es) (key velocity : UInt8) :
    ∃ fs t', voice_note_on key velocity t = (fs, some ((), t'))
      ∧ t'.notes.Ordered (es ++ [.press key])
      ∧ Pitched (.press key) t'.notes c (controlsAfter fs c) := by
  refine ⟨_, _, rfl, h.note_on key, ?_, ?_, ?_⟩
  · intro k hk
    rw [KeyEvent.press.injEq] at hk
    rw [← hk]
    rfl
  · rintro (⟨k, hk⟩ | hk)
    · cases hk
    · cases hk
  · intro hk
    cases hk

/-- A Note Off takes the pitch from the stack's end. -/
theorem note_off_step {t : MidiTask F} {es : List (KeyEvent UInt8)} (c : MidiControl F)
    (h : t.notes.Ordered es) (key : UInt8) :
    ∃ fs t', voice_note_off key t = (fs, some ((), t'))
      ∧ t'.notes.Ordered (es ++ [.release key])
      ∧ Pitched (.release key) t'.notes c (controlsAfter fs c) := by
  refine ⟨_, _, note_off_run key t, h.note_off key, ?_, ?_, ?_⟩
  · intro k hk
    cases hk
  · intro _
    exact pitch_follow _ c
  · intro hk
    cases hk

/-- A pedal that goes up takes the pitch from the stack's end; going down it stores nothing. -/
theorem sustain_step {t : MidiTask F} {es : List (KeyEvent UInt8)} (c : MidiControl F)
    (h : t.notes.Ordered es) (value : UInt8) :
    ∃ fs t', voice_sustain value t = (fs, some ((), t'))
      ∧ t'.notes.Ordered (es ++ [.pedal (64 ≤ value)])
      ∧ Pitched (.pedal (64 ≤ value)) t'.notes c (controlsAfter fs c) := by
  refine ⟨_, _, sustain_run value t, h.set_sustain (64 ≤ value), ?_, ?_, ?_⟩
  · intro k hk
    cases hk
  · rintro (⟨k, hk⟩ | hk)
    · cases hk
    · rw [KeyEvent.pedal.injEq] at hk
      have hup : ¬ 64 ≤ value := of_decide_eq_false hk
      rw [if_neg hup, hk]
      exact pitch_follow _ c
  · intro hk
    rw [KeyEvent.pedal.injEq] at hk
    have hdown : 64 ≤ value := of_decide_eq_true hk
    rw [if_pos hdown]
    rfl

/-- All Notes Off stores the pitch of no key. -/
theorem all_off_step {t : MidiTask F} {es : List (KeyEvent UInt8)} (c : MidiControl F)
    (h : t.notes.Ordered es) :
    ∃ fs t', voice_all_off t = (fs, some ((), t')) ∧ t'.notes.Ordered (es ++ [.clear])
      ∧ Pitched .clear t'.notes c (controlsAfter fs c) := by
  refine ⟨_, _, all_off_run t, h.clear, ?_, ?_, ?_⟩
  · intro k hk
    cases hk
  · rintro (⟨k, hk⟩ | hk)
    · cases hk
    · cases hk
  · intro hk
    cases hk

/-- **One message of the keyboard.** -/
theorem key_step {t : MidiTask F} {es : List (KeyEvent UInt8)} (c : MidiControl F) {w : Work}
    (h : t.notes.Ordered es) (hw : w.keyEvent ≠ .other) :
    ∃ fs t', handle_work w t = (fs, some ((), t')) ∧ t'.notes.Ordered (es ++ [w.keyEvent])
      ∧ Pitched w.keyEvent t'.notes c (controlsAfter fs c) := by
  obtain ⟨k, hwork, hevent, hk⟩ := key_work (F := F) hw
  rw [hwork, hevent]
  rcases hk with ⟨key, velocity, rfl⟩ | ⟨key, rfl⟩ | ⟨value, rfl⟩ | rfl
  · exact note_on_step c h key velocity
  · exact note_off_step c h key
  · exact sustain_step c h value
  · exact all_off_step c h

end Step

/-! ## A run of messages -/

section Run

variable {F : Type} [F32 F]

/-- If a key sounds, the pitch is that of the sounding key that was struck last. -/
def PlaysLast (es : List (KeyEvent UInt8)) (c : MidiControl F) : Prop :=
  (∃ k, Sounds es k) → ∃ k, LastStruck es k ∧ pitch c = midi_to_freq k

/-- The event `e` leaves a key sounding that was struck last; then this key is
tracked, and no other tracked key began after it. If no key is tracked any more,
it is the one that was struck last before. -/
def LastRemains (es : List (KeyEvent UInt8)) (e : KeyEvent UInt8) : Prop :=
  ∀ k, LastStruck (es ++ [e]) k →
    (k ∈ (tracked 16 (es ++ [e])).sounding ∧ ¬ ∃ j, StartedAfter 16 (es ++ [e]) j k)
      ∨ ((tracked 16 (es ++ [e])).sounding = ∅ ∧ LastStruck es k)

/-- An event that silences a key strikes none. -/
theorem not_press_of_releases {e : KeyEvent UInt8} (h : Releases e) : ∀ j, e ≠ .press j := by
  intro j hj
  rcases h with ⟨k, hk⟩ | hk
  · rw [hk] at hj
    cases hj
  · rw [hk] at hj
    cases hj

/-- An event that silences no key by itself keeps the pitch right. -/
theorem plays_of_not_releases {es : List (KeyEvent UInt8)} {e : KeyEvent UInt8} {n' : NoteStack}
    {c c' : MidiControl F} (he : e ≠ .other) (h : PlaysLast es c) (hp : Pitched e n' c c')
    (hnot : ¬ Releases e) : PlaysLast (es ++ [e]) c' := by
  rintro ⟨k, hk⟩
  cases e with
  | press j => exact ⟨j, lastStruck_press es j, hp.press j rfl⟩
  | release j => exact absurd (Or.inl ⟨j, rfl⟩) hnot
  | clear => exact absurd hk not_sounds_clear
  | other => exact absurd rfl he
  | pedal down =>
      cases down with
      | false => exact absurd (Or.inr rfl) hnot
      | true =>
          obtain ⟨j, hj, hpitch⟩ := h ⟨k, sounds_pedal_down.mp hk⟩
          refine ⟨j, ?_, (hp.pedal rfl).trans hpitch⟩
          exact (lastStruck_snoc (fun i hi => by cases hi) fun i => sounds_pedal_down).mpr hj

/-- An event that can silence keys keeps the pitch right if the last key remains. -/
theorem plays_of_remains {es : List (KeyEvent UInt8)} {e : KeyEvent UInt8} {n' : NoteStack}
    {c c' : MidiControl F} (h : PlaysLast es c) (hp : Pitched e n' c c')
    (hord : n'.Ordered (es ++ [e])) (hrel : Releases e) (hremains : LastRemains es e) :
    PlaysLast (es ++ [e]) c' := by
  rintro ⟨i, hi⟩
  obtain ⟨k, hk⟩ := exists_lastStruck hi
  have hpitch := hp.releases hrel
  refine ⟨k, hk, ?_⟩
  rcases hremains k hk with htracked | ⟨hempty, hold⟩
  · have htop : n'.active_note = some k := hord.ranked.getLast_iff.mpr htracked
    rw [hpitch, htop]
    rfl
  · have hnone : n'.active_note = none := by
      rw [← Option.not_isSome_iff_eq_none, hord.holds.active_note, hempty]
      exact Finset.not_nonempty_empty
    obtain ⟨j, hj, hbefore⟩ := h ⟨k, hold.1⟩
    rw [hpitch, hnone, hold.unique hj]
    exact hbefore

/-- If the pitch stays right, the last key remains. -/
theorem remains_of_plays {es : List (KeyEvent UInt8)} {e : KeyEvent UInt8} {n' : NoteStack}
    {c c' : MidiControl F} (hinj : Function.Injective (midi_to_freq : UInt8 → F))
    (h : PlaysLast es c) (hp : Pitched e n' c c') (hord : n'.Ordered (es ++ [e]))
    (hrel : Releases e) (hplays : PlaysLast (es ++ [e]) c') : LastRemains es e := by
  intro k hk
  obtain ⟨k', hk', hpitch'⟩ := hplays ⟨k, hk.1⟩
  have hpitch := hp.releases hrel
  rw [hpitch', hk'.unique hk] at hpitch
  cases htop : n'.active_note with
  | some j =>
      -- the pitch is that of the top of the stack
      rw [htop] at hpitch
      have hkj : k = j := hinj hpitch
      rw [← hkj] at htop
      exact Or.inl (hord.ranked.getLast_iff.mp htop)
  | none =>
      -- the pitch is what it was
      rw [htop] at hpitch
      have hempty : (tracked 16 (es ++ [e])).sounding = ∅ := by
        rw [← Finset.not_nonempty_iff_eq_empty, ← hord.holds.active_note, htop]
        exact Bool.false_ne_true
      have hbefore := sounds_of_snoc (not_press_of_releases hrel) hk.1
      obtain ⟨j, hj, hold⟩ := h ⟨k, hbefore⟩
      have hkj : k = j := hinj (hpitch.trans hold)
      rw [hkj]
      exact Or.inr ⟨hempty, hj⟩

/-- After the messages `ws` the pitch is that of the sounding key struck last. -/
def InPitch (F : Type) [F32 F] (f : Flash) (ws : List Work) : Prop :=
  ∃ es t, Proc.each handle_work ws (entered F f) = (es, some ((), t))
    ∧ PlaysLast (ws.map Work.keyEvent) (controlsAfter es MidiControl.new)

/-- Only messages of the keyboard. -/
def AllKeys (ws : List Work) : Prop := ∀ w ∈ ws, w.keyEvent ≠ .other

instance (ws : List Work) : Decidable (AllKeys ws) :=
  inferInstanceAs (Decidable (∀ w ∈ ws, w.keyEvent ≠ .other))

/-- The events of a message more. -/
theorem map_snoc (ws : List Work) (w : Work) :
    (ws ++ [w]).map Work.keyEvent = ws.map Work.keyEvent ++ [w.keyEvent] := by
  rw [List.map_append, List.map_singleton]

/-- A run of such messages keeps the stack in order. -/
theorem run_ordered (f : Flash) {ws : List Work} (h : AllKeys ws) :
    ∃ es t, Proc.each handle_work ws (entered F f) = (es, some ((), t))
      ∧ t.notes.Ordered (ws.map Work.keyEvent) := by
  induction ws using List.reverseRecOn with
  | nil => exact ⟨[], entered F f, rfl, NoteStack.ordered_new⟩
  | append_singleton ws w ih =>
      have hws : AllKeys ws := fun x hx => h x (List.mem_append_left _ hx)
      have hw : w.keyEvent ≠ .other := h w (List.mem_append_right _ (List.mem_singleton_self w))
      obtain ⟨es, t, hrun, hord⟩ := ih hws
      obtain ⟨fs, t', hstep, hord', -⟩ := key_step MidiControl.new hord hw
      refine ⟨es ++ fs, t', ?_, ?_⟩
      · rw [Proc.each_append_some hrun, Proc.each_singleton_run, hstep]
      · rw [map_snoc]
        exact hord'

/-- The step of `InPitch`: what the message `w` does to the pitch that the run
of `ws` left. -/
theorem in_pitch_snoc {f : Flash} {ws : List Work} {w : Work} (h : AllKeys (ws ++ [w]))
    (hpitch : InPitch F f ws) :
    ∃ (n' : NoteStack) (c c' : MidiControl F), n'.Ordered (ws.map Work.keyEvent ++ [w.keyEvent])
      ∧ PlaysLast (ws.map Work.keyEvent) c ∧ Pitched w.keyEvent n' c c'
      ∧ (InPitch F f (ws ++ [w]) ↔ PlaysLast (ws.map Work.keyEvent ++ [w.keyEvent]) c') := by
  have hws : AllKeys ws := fun x hx => h x (List.mem_append_left _ hx)
  have hw : w.keyEvent ≠ .other := h w (List.mem_append_right _ (List.mem_singleton_self w))
  obtain ⟨es, t, hrun, hplays⟩ := hpitch
  obtain ⟨es', t₁, hrun', hord⟩ := run_ordered (F := F) f hws
  rw [hrun, Prod.mk.injEq, Option.some.injEq, Prod.mk.injEq] at hrun'
  obtain ⟨-, -, rfl⟩ := hrun'
  obtain ⟨fs, t', hstep, hord', hp⟩ := key_step (controlsAfter es MidiControl.new) hord hw
  refine ⟨t'.notes, _, _, hord', hplays, hp, ?_⟩
  -- the run with one more piece of work
  have hall : Proc.each handle_work (ws ++ [w]) (entered F f) = (es ++ fs, some ((), t')) := by
    rw [Proc.each_append_some hrun, Proc.each_singleton_run, hstep]
  unfold InPitch
  rw [map_snoc, hall]
  constructor
  · rintro ⟨gs, u, heq, hlast⟩
    rw [Prod.mk.injEq] at heq
    rw [← heq.1, controlsAfter_append] at hlast
    exact hlast
  · intro hlast
    refine ⟨es ++ fs, t', rfl, ?_⟩
    rw [controlsAfter_append]
    exact hlast

/-- As long as the key struck last remains, the pitch stays right. -/
theorem in_pitch_of_remains {f : Flash} {ws : List Work} (h : AllKeys ws)
    (hremains : ∀ pre e post, ws.map Work.keyEvent = pre ++ e :: post → Releases e →
      LastRemains pre e) : InPitch F f ws := by
  induction ws using List.reverseRecOn with
  | nil =>
      refine ⟨[], entered F f, rfl, ?_⟩
      rintro ⟨k, hk⟩
      obtain ⟨n, hn⟩ := hk.pressed
      cases hn
  | append_singleton ws w ih =>
      have hws : AllKeys ws := fun x hx => h x (List.mem_append_left _ hx)
      have hw : w.keyEvent ≠ .other := h w (List.mem_append_right _ (List.mem_singleton_self w))
      have hbefore : InPitch F f ws := by
        apply ih hws
        intro pre e post heq
        apply hremains pre e (post ++ [w.keyEvent])
        rw [map_snoc, heq, List.append_assoc, List.cons_append]
      obtain ⟨n', c, c', hord, hplays, hp, hiff⟩ := in_pitch_snoc h hbefore
      rw [hiff]
      by_cases hrel : Releases w.keyEvent
      · exact plays_of_remains hplays hp hord hrel (hremains _ _ [] (map_snoc ws w) hrel)
      · exact plays_of_not_releases hw hplays hp hrel

/-- As long as the pitch is right, the key struck last remains. -/
theorem remains_of_in_pitch (hinj : Function.Injective (midi_to_freq : UInt8 → F)) {f : Flash}
    {ws : List Work} (h : AllKeys ws) (hpitch : ∀ pre post, ws = pre ++ post → InPitch F f pre)
    {pre post : List (KeyEvent UInt8)} {e : KeyEvent UInt8}
    (heq : ws.map Work.keyEvent = pre ++ e :: post) (hrel : Releases e) : LastRemains pre e := by
  obtain ⟨wpre, wrest, rfl, rfl, hrest⟩ := List.map_eq_append_iff.mp heq
  obtain ⟨w, wpost, rfl, rfl, -⟩ := List.map_eq_cons_iff.mp hrest
  have hsplit : wpre ++ w :: wpost = (wpre ++ [w]) ++ wpost := by
    rw [List.append_assoc, List.singleton_append]
  have hkeys : AllKeys (wpre ++ [w]) := by
    intro x hx
    apply h x
    rw [hsplit]
    exact List.mem_append_left _ hx
  obtain ⟨n', c, c', hord, hplays, hp, hiff⟩ := in_pitch_snoc hkeys (hpitch wpre _ rfl)
  exact remains_of_plays hinj hplays hp hord hrel (hiff.mp (hpitch _ _ hsplit))

end Run

/-! ## Exact arithmetic -/

/-- Different keys have different pitches. -/
theorem midi_to_freq_injective : Function.Injective (midi_to_freq : UInt8 → ℝ) := by
  intro j k h
  simp only [midi_to_freq, F32.powf_real, F32.lit_real, F32.ofU8_real] at h
  have hpow := mul_left_cancel₀ (by norm_num : ((440 : ℚ) : ℝ) ≠ 0) h
  have hbase : (1 : ℝ) < ((2 : ℚ) : ℝ) := by norm_num
  have hmono : StrictMono fun x : ℝ => ((2 : ℚ) : ℝ) ^ x := by
    intro x y hxy
    exact (Real.rpow_lt_rpow_left_iff hbase).mpr hxy
  have hexp := hmono.injective hpow
  rw [div_left_inj' (by norm_num : ((12 : ℚ) : ℝ) ≠ 0), sub_left_inj, Nat.cast_inj] at hexp
  exact UInt8.toNat_inj.mp hexp

/-- **Last-note priority.** After each message the pitch is that of the sounding
key struck last, exactly if after each release of a key or of the pedal the key
struck last is the tracked key that began last, or no key is tracked and it was
the one struck last before. -/
theorem last_note_iff {f : Flash} {ws : List Work} (h : AllKeys ws) :
    (∀ pre post, ws = pre ++ post → InPitch ℝ f pre)
      ↔ ∀ pre e post, ws.map Work.keyEvent = pre ++ e :: post → Releases e →
          LastRemains pre e := by
  constructor
  · intro hpitch pre e post heq hrel
    exact remains_of_in_pitch midi_to_freq_injective h hpitch heq hrel
  · rintro hremains pre post rfl
    apply in_pitch_of_remains fun w hw => h w (List.mem_append_left _ hw)
    intro epre e epost heq
    apply hremains epre e (epost ++ post.map Work.keyEvent)
    rw [List.map_append, heq, List.append_assoc, List.cons_append]

/-- A key that is struck over another and released gives the pitch back. -/
theorem last_note_second :
    AllKeys [.voice NOTE_ON 60 100, .voice NOTE_ON 64 100, .voice NOTE_OFF 64 0]
      ∧ ∀ pre post,
        [Work.voice NOTE_ON 60 100, .voice NOTE_ON 64 100, .voice NOTE_OFF 64 0] = pre ++ post →
          InPitch ℝ (fun _ => 0) pre := by
  have hkeys : AllKeys
      [.voice NOTE_ON 60 100, .voice NOTE_ON 64 100, .voice NOTE_OFF 64 0] := by decide
  refine ⟨hkeys, (last_note_iff hkeys).mpr ?_⟩
  intro pre e post heq hrel k hk
  -- the only release is the last message
  have hlast : pre = [.press 60, .press 64] ∧ e = .release 64 := by
    rcases pre with _ | ⟨e₁, _ | ⟨e₂, _ | ⟨e₃, pre⟩⟩⟩
    · cases heq
      exact absurd rfl (not_press_of_releases hrel 60)
    · cases heq
      exact absurd rfl (not_press_of_releases hrel 64)
    · cases heq
      exact ⟨rfl, rfl⟩
    · have hlength := congrArg List.length heq
      rw [List.length_append, List.length_cons, List.length_map] at hlength
      simp only [List.length_cons, List.length_nil] at hlength
      omega
  obtain ⟨rfl, rfl⟩ := hlast
  have hsounds : (Keyboard.after [.press 60, .press 64, .release 64]).sounding
      = ({60} : Finset UInt8) := by decide +kernel
  have htracked : (tracked 16 [.press 60, .press 64, .release 64]).sounding
      = ({60} : Finset UInt8) := by decide +kernel
  have hk60 : k = 60 := by
    have hmem := sounds_iff.mp hk.1
    rw [List.cons_append, List.cons_append, List.nil_append, hsounds, Finset.mem_singleton] at hmem
    exact hmem
  rw [List.cons_append, List.cons_append, List.nil_append, hk60]
  refine Or.inl ⟨?_, ?_⟩
  · rw [htracked]
    exact Finset.mem_singleton_self 60
  · rintro ⟨j, hj⟩
    have hmem := hj.both.1
    rw [htracked, Finset.mem_singleton] at hmem
    rw [hmem] at hj
    exact hj.asymm hj

/-- Two keys struck, the first one again, and a third one struck and released:
the first was struck last, and the second sets the pitch. -/
theorem last_note_missed :
    ¬ ∀ (f : Flash) (ws : List Work), AllKeys ws →
      ∀ pre post, ws = pre ++ post → InPitch ℝ f pre := by
  intro hclaim
  have hkeys : AllKeys [.voice NOTE_ON 60 100, .voice NOTE_ON 64 100, .voice NOTE_ON 60 100,
      .voice NOTE_ON 67 100, .voice NOTE_OFF 67 0] := by decide
  have hsplit : [Work.voice NOTE_ON 60 100, .voice NOTE_ON 64 100, .voice NOTE_ON 60 100,
      .voice NOTE_ON 67 100, .voice NOTE_OFF 67 0].map Work.keyEvent
        = [.press 60, .press 64, .press 60, .press 67] ++ .release 67 :: [] := rfl
  have hremains := remains_of_in_pitch midi_to_freq_injective hkeys
    (hclaim (fun _ => 0) _ hkeys) hsplit (Or.inl ⟨67, rfl⟩)
  have hlast : LastStruck
      ([.press 60, .press 64, .press 60, .press 67] ++ [.release 67]) (60 : UInt8) := by
    refine ⟨?_, 2, rfl, ?_⟩
    · rw [sounds_iff]
      decide +kernel
    · intro m j hm hj hsounds
      have hlt := (List.getElem?_eq_some_iff.mp hj).1
      have h67 : j = 67 := by
        have hm' : m = 3 ∨ m = 4 := by
          change m < 5 at hlt
          omega
        rcases hm' with rfl | rfl
        · cases hj
          rfl
        · cases hj
      rw [sounds_iff, h67] at hsounds
      revert hsounds
      decide +kernel
  -- the second key is tracked and began after the first
  have hafter : StartedAfter 16
      ([.press 60, .press 64, .press 60, .press 67] ++ [.release 67]) (64 : UInt8) 60 := by
    refine ⟨1, by decide, by decide +kernel, by decide +kernel, ?_⟩
    intro m hlt hle
    change m ≤ 5 at hle
    interval_cases m <;> decide +kernel
  rcases hremains 60 hlast with ⟨-, hnone⟩ | ⟨hempty, -⟩
  · exact hnone ⟨64, hafter⟩
  · have hmem := hafter.both.1
    rw [hempty] at hmem
    exact Finset.notMem_empty _ hmem

end MidiTask

end PicoDsp
