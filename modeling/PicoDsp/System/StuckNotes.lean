/-
Notes over BLE that stay on (`bt/mod.rs`, `control/midi.rs`).

The keyboard never waits: a message that finds `BLE_MIDI_CHANNEL` full is gone,
and so is the All Notes Off at the end of a session, which is sent so that no note
sticks after a disconnect. What midi_task will have in
its stack once it has worked off what waits for it (`WillHold`) moves only when
a message is sent, however long the task is busy in between. So a note stays on
only if a Note Off is lost, or the All Notes Off is.

The stack itself would be the wrong thing to look at. At the moment a Note Off is lost the
Note On may still wait in the channel, and a full channel is just when it does. `WillHold`
reads the stack and the work that waits as one keyboard, whose events are those of the work
still to come, and the invariant of a run is about it (`NoneStuck`): no key whose last
message was a Note Off will be in the stack, and none at all once the link has dropped.

The condition (`Delivered`) is on the state before a message: the channel has room, or the
message makes no difference. It is exact: after a loss that it excludes, a key will be in
the stack though the keyboard has released it or the session is over (`stuck_of_lost`).

Keys struck over USB are left out, since they hold notes that BLE knows nothing of, and so
is the pedal. The gate follows the stack as in `Control/KeyTracking.lean`. The run at the
end, a key and fifteen values of its pressure in one notification, fills the 16
places of the channel while midi_task is busy.
-/
import PicoDsp.Control.KeyTracking
import PicoDsp.System.Firmware

set_option autoImplicit false

namespace PicoDsp.Firmware

open Lib MidiTask Transition

/-- The event of the keyboard in a decoded message. -/
def keyEventOf (m : BleMidi.Message) : KeyEvent UInt8 := (voiceKind m.1 m.2.1 m.2.2).keyEvent

/-- What the keyboard sends at a label. -/
def sent : Label → List (KeyEvent UInt8)
  | .notify packet => (BleMidi.parse_ble_midi packet).map keyEventOf
  | _ => []

/-- No key is struck over USB, and the pedal stays up. -/
def KeysOverBle (l : Label) : Prop :=
  (∀ data, l = .usb_read data → ∀ w ∈ (Input.usb_read data).works,
    (∀ k, w.keyEvent ≠ .press k) ∧ w.keyEvent ≠ .pedal true)
    ∧ ∀ e ∈ sent l, e ≠ .pedal true

section

variable {F : Type}

/-- `midi_task` has worked off all it was given. -/
structure Drained (s : Firmware F) : Prop where
  todo : s.todo = []
  backlog : s.backlog = []
  ble_channel : s.shared.ble_channel.items = []

/-- The events that wait for `midi_task`. -/
def waiting (s : Firmware F) : List (KeyEvent UInt8) :=
  s.backlog.map Work.keyEvent ++ s.shared.ble_channel.items.map keyEventOf

/-- The key is in the stack, or what waits will bring it there. -/
def WillHold (s : Firmware F) (k : UInt8) : Prop :=
  (waiting s).foldl (Keyboard.holdsKey k) (decide (k ∈ s.midi.notes.notes.items)) = true

/-- The channel after some messages. -/
def received (s : Firmware F) (ms : List BleMidi.Message) : Firmware F :=
  { s with shared := { s.shared with ble_channel := forward ms s.shared.ble_channel } }

/-- No Note Off is lost of a key that will be in the stack, and no All Notes Off
while one will be. -/
def Delivered (s : Firmware F) (l : Label) : Prop :=
  (∀ packet, l = .notify packet → ∀ ms m ms' k,
    BleMidi.parse_ble_midi packet = ms ++ m :: ms' → keyEventOf m = .release k →
      (received s ms).shared.ble_channel.Full → ¬ WillHold (received s ms) k)
    ∧ (l = .link_lost → s.shared.ble_channel.Full → ∀ k, ¬ WillHold s k)

/-- With nothing left to do, the keys to come are those in the stack. -/
theorem Drained.willHold_iff {s : Firmware F} (h : Drained s) (k : UInt8) :
    WillHold s k ↔ k ∈ s.midi.notes.notes.items := by
  have hnone : waiting s = [] := by
    rw [waiting, h.backlog, h.ble_channel]
    rfl
  rw [WillHold, hnone]
  exact decide_eq_true_iff

/-! ## What a message does to the keys to come -/

/-- A message that finds room waits last. -/
theorem waiting_received {s : Firmware F} {m : BleMidi.Message}
    (hroom : ¬ s.shared.ble_channel.Full) :
    waiting (received s [m]) = waiting s ++ [keyEventOf m] := by
  have hitems : (received s [m]).shared.ble_channel.items = s.shared.ble_channel.items ++ [m] :=
    BoundedList.offer_items_of_not_full hroom m
  rw [waiting, hitems, List.map_append, ← List.append_assoc]
  rfl

/-- A full channel takes nothing. -/
theorem received_of_full {s : Firmware F} (hfull : s.shared.ble_channel.Full)
    (ms : List BleMidi.Message) : received s ms = s := by
  have hsame : forward ms s.shared.ble_channel = s.shared.ble_channel := by
    induction ms with
    | nil => rfl
    | cons m ms ih => rwa [forward, List.foldl_cons, BoundedList.offer_of_full hfull]
  rw [received, hsame]

/-- More messages. -/
theorem received_append (s : Firmware F) (ms ms' : List BleMidi.Message) :
    received s (ms ++ ms') = received (received s ms) ms' := by
  simp only [received, forward, List.foldl_append]

/-- A message that finds room: the keys to come, in the form of the keyboard's own step. -/
theorem willHold_received {s : Firmware F} {m : BleMidi.Message}
    (hroom : ¬ s.shared.ble_channel.Full) (k : UInt8) :
    WillHold (received s [m]) k ↔ keyEventOf m = .press k
      ∨ (WillHold s k ∧ keyEventOf m ≠ .release k ∧ keyEventOf m ≠ .clear) := by
  have hmidi : (received s [m]).midi = s.midi := rfl
  rw [WillHold, waiting_received hroom, hmidi, List.foldl_append]
  exact Keyboard.holdsKey_iff

/-- A message that is no strike brings no key. -/
theorem willHold_of_received {s : Firmware F} {m : BleMidi.Message} {k : UInt8}
    (hm : keyEventOf m ≠ .press k) (h : WillHold (received s [m]) k) : WillHold s k := by
  by_cases hfull : s.shared.ble_channel.Full
  · rwa [received_of_full hfull] at h
  · rw [willHold_received hfull] at h
    exact (h.resolve_left hm).1

/-- What waits after a message. -/
theorem mem_waiting_received {s : Firmware F} {m : BleMidi.Message} {e : KeyEvent UInt8}
    (h : e ∈ waiting (received s [m])) : e ∈ waiting s ∨ e = keyEventOf m := by
  by_cases hfull : s.shared.ble_channel.Full
  · rw [received_of_full hfull] at h
    exact Or.inl h
  · rw [waiting_received hfull, List.mem_append, List.mem_singleton] at h
    exact h

/-! ## The invariant -/

/-- The stack and the gate are in step with a keyboard whose pedal is up. -/
def KeysUp (s : Firmware F) : Prop :=
  ∃ kb : Keyboard UInt8, InStep s.midi (controlsAfter s.todo s.shared.control) kb
    ∧ kb.pedal = false

/-- No key whose last message was a Note Off will be in the stack, and no key at
all once the link has dropped. -/
structure NoneStuck (played : List (KeyEvent UInt8)) (s : Firmware F) : Prop where
  keys : KeysUp s
  pedal : ∀ e ∈ waiting s, e ≠ .pedal true
  released : ∀ k, LastReleased played k → ¬ WillHold s k
  dropped : s.link = .dropped → ∀ k, ¬ WillHold s k

/-- One message of a notification. -/
theorem NoneStuck.receive {played : List (KeyEvent UInt8)} {s : Firmware F} {m : BleMidi.Message}
    (h : NoneStuck played s) (hup : s.link = .up) (hpedal : keyEventOf m ≠ .pedal true)
    (hdelivered : ∀ k, keyEventOf m = .release k → s.shared.ble_channel.Full → ¬ WillHold s k) :
    NoneStuck (played ++ [keyEventOf m]) (received s [m]) := by
  refine ⟨h.keys, ?_, ?_, ?_⟩
  · intro e he
    rcases mem_waiting_received he with he | rfl
    · exact h.pedal e he
    · exact hpedal
  · -- a key is released by this message, or was before and is not struck by it
    intro k hlast hwill
    have hcases : keyEventOf m = .release k ∨ (LastReleased played k ∧ keyEventOf m ≠ .press k) :=
      (since_snoc played (keyEventOf m)).mp hlast
    rcases hcases with hrelease | ⟨hlast, hpress⟩
    · -- the Note Off is lost, or it waits last
      by_cases hfull : s.shared.ble_channel.Full
      · rw [received_of_full hfull] at hwill
        exact hdelivered k hrelease hfull hwill
      · rw [willHold_received hfull, hrelease] at hwill
        rcases hwill with hpress | ⟨-, hne, -⟩
        · cases hpress
        · exact hne rfl
    · exact h.released k hlast (willHold_of_received hpress hwill)
  · -- only a live link delivers
    intro hdropped
    have hlink : (received s [m]).link = s.link := rfl
    rw [hlink, hup] at hdropped
    cases hdropped

/-- The messages of a notification. -/
theorem NoneStuck.receive_all {played : List (KeyEvent UInt8)} {s : Firmware F}
    (h : NoneStuck played s) (hup : s.link = .up) (ms : List BleMidi.Message)
    (hpedal : ∀ m ∈ ms, keyEventOf m ≠ .pedal true)
    (hdelivered : ∀ pre m post k, ms = pre ++ m :: post → keyEventOf m = .release k →
      (received s pre).shared.ble_channel.Full → ¬ WillHold (received s pre) k) :
    NoneStuck (played ++ ms.map keyEventOf) (received s ms) := by
  induction ms using List.reverseRecOn with
  | nil =>
      rw [List.map_nil, List.append_nil]
      exact h
  | append_singleton ms m ih =>
      -- induction on the end: the last message finds what the others left
      have hfirst := ih (fun x hx => hpedal x (List.mem_append_left _ hx)) fun pre x post k heq =>
        hdelivered pre x (post ++ [m]) k (by rw [heq, List.append_assoc, List.cons_append])
      have hlast := hfirst.receive (m := m) hup
        (hpedal m (List.mem_append_right _ (List.mem_singleton_self m)))
        fun k => hdelivered ms m [] k rfl
      rw [← received_append] at hlast
      rwa [List.map_append, List.map_singleton, ← List.append_assoc]

/-! ## Steps -/

/-- The keys in the stack are those that are held. -/
theorem mem_notes_iff {t : MidiTask F} {c : MidiControl F} {kb : Keyboard UInt8}
    (h : InStep t c kb) (hup : kb.pedal = false) (k : UInt8) :
    k ∈ t.notes.notes.items ↔ k ∈ kb.held := by
  rw [h.holds.mem_notes, Keyboard.sounding_of_pedal_up hup]

/-- The work of an input with no strike in it brings no key. -/
theorem willHold_of_input {s : Firmware F} {ws : List Work} {k : UInt8} (hidle : s.backlog = [])
    (hws : ∀ w ∈ ws, w.keyEvent ≠ .press k) (h : WillHold { s with backlog := ws } k) :
    WillHold s k := by
  have hwaiting : waiting { s with backlog := ws }
      = ws.map Work.keyEvent ++ s.shared.ble_channel.items.map keyEventOf := rfl
  have hbefore : waiting s = s.shared.ble_channel.items.map keyEventOf := by
    rw [waiting, hidle]
    rfl
  rw [WillHold, hwaiting, List.foldl_append] at h
  rw [WillHold, hbefore]
  refine Keyboard.foldl_holdsKey_mono (fun hheld => ?_) _ h
  refine Keyboard.held_of_foldl (fun e he => ?_) hheld
  obtain ⟨w, hw, rfl⟩ := List.mem_map.mp he
  exact hws w hw

/-- The invariant after a step that sends nothing and brings no key. -/
theorem NoneStuck.of_quiet {played : List (KeyEvent UInt8)} {s s' : Firmware F}
    (h : NoneStuck played s) (hkeys : KeysUp s') (hpedal : ∀ e ∈ waiting s', e ≠ .pedal true)
    (hwill : ∀ k, WillHold s' k → WillHold s k) (hlink : s'.link = .dropped → s.link = .dropped) :
    NoneStuck played s' := by
  refine ⟨hkeys, hpedal, fun k hlast hk => h.released k hlast (hwill k hk), fun hdropped k hk => ?_⟩
  exact h.dropped (hlink hdropped) k (hwill k hk)

/-- An input of `midi_task` other than a message of the keyboard. -/
theorem input_none_stuck {played : List (KeyEvent UInt8)} {s : Firmware F} {ws : List Work}
    (h : NoneStuck played s) (hidle : s.backlog = [])
    (hws : ∀ w ∈ ws, (∀ k, w.keyEvent ≠ .press k) ∧ w.keyEvent ≠ .pedal true) :
    NoneStuck played { s with backlog := ws } := by
  refine h.of_quiet h.keys ?_ (fun k => willHold_of_input hidle fun w hw => (hws w hw).1 k) id
  intro e he
  rcases List.mem_append.mp he with he | he
  · obtain ⟨w, hw, rfl⟩ := List.mem_map.mp he
    exact (hws w hw).2
  · exact h.pedal e (List.mem_append_right _ he)

/-- The end of a session. -/
theorem link_lost_none_stuck {played : List (KeyEvent UInt8)} {s : Firmware F}
    (h : NoneStuck played s) (hlost : s.shared.ble_channel.Full → ∀ k, ¬ WillHold s k) :
    NoneStuck played { received s [ALL_NOTES_OFF] with link := .dropped } := by
  have hclear : keyEventOf ALL_NOTES_OFF = .clear := by decide
  -- the message that clears the stack waits last, or nothing waits to be held
  have hnone : ∀ k, ¬ WillHold (received s [ALL_NOTES_OFF]) k := by
    intro k hk
    by_cases hfull : s.shared.ble_channel.Full
    · rw [received_of_full hfull] at hk
      exact hlost hfull k hk
    · rw [willHold_received hfull, hclear] at hk
      rcases hk with hpress | ⟨-, -, hne⟩
      · cases hpress
      · exact hne rfl
  have hpedal : ∀ e ∈ waiting (received s [ALL_NOTES_OFF]), e ≠ .pedal true := by
    intro e he
    rcases mem_waiting_received he with he | heq
    · exact h.pedal e he
    · rw [heq, hclear]
      exact nofun
  exact ⟨h.keys, hpedal, fun k _ => hnone k, fun _ => hnone⟩

variable [F32 F]

/-- A piece of work is what was expected of it. -/
theorem handle_none_stuck {played : List (KeyEvent UInt8)} {s s' : Firmware F}
    (h : NoneStuck played s) (hstep : s.step .handle = some s') : NoneStuck played s' := by
  obtain ⟨w, ws, htodo, hbacklog, -, rfl⟩ := handle_cases hstep
  obtain ⟨kb, hkb, hup⟩ := h.keys
  -- the first of the waiting messages is handled
  have hwaiting : waiting s = w.keyEvent
      :: (ws.map Work.keyEvent ++ s.shared.ble_channel.items.map keyEventOf) := by
    rw [waiting, hbacklog]
    rfl
  rw [htodo, controlsAfter_nil] at hkb
  have hnext := work_in_step_final (w := w) hkb
  -- no pedal waits, so none goes down
  have hup' : (kb.track 16 w.keyEvent).pedal = false := by
    rw [Bool.eq_false_iff]
    intro hdown
    rcases Keyboard.pedal_of_track hdown with hpedal | hpedal
    · exact h.pedal _ (by rw [hwaiting]; exact List.mem_cons_self) hpedal
    · rw [hup] at hpedal
      cases hpedal
  refine h.of_quiet ⟨_, hnext, hup'⟩ ?_ ?_ id
  · intro e he
    apply h.pedal
    rw [hwaiting]
    exact List.mem_cons_of_mem _ he
  · intro k hk
    rw [WillHold, hwaiting, List.foldl_cons]
    refine Keyboard.foldl_holdsKey_mono (fun hin => ?_) _ hk
    rw [decide_eq_true_eq] at hin
    have hheld := Keyboard.holdsKey_of_track ((mem_notes_iff hnext hup' k).mp hin)
    rwa [decide_eq_decide.mpr (mem_notes_iff hkb hup k)]

omit [F32 F] in
/-- An access makes its store, and leaves the channel of messages. -/
theorem exec_keys {sh sh' : Shared F} {e : Effect F} (h : sh.exec e = some sh') :
    sh'.control = controlsAfter [e] sh.control ∧ sh'.ble_channel = sh.ble_channel := by
  cases Shared.exec_made h with
  | stored op => exact ⟨rfl, rfl⟩
  | sent p => exact ⟨rfl, rfl⟩
  | other req hcontrol hsend =>
      have hnone : controlsOf [e] = [] := by
        cases e with
        | control op => exact absurd rfl (hcontrol op)
        | _ => rfl
      rw [controlsAfter, hnone]
      exact ⟨rfl, rfl⟩

/-- An access of `midi_task` changes no key. -/
theorem access_none_stuck {played : List (KeyEvent UInt8)} {s s' : Firmware F}
    (h : NoneStuck played s) (hstep : s.step .access = some s') : NoneStuck played s' := by
  obtain ⟨e, es, sh, htodo, hexec, rfl⟩ := access_cases hstep
  obtain ⟨hcontrol, hchannel⟩ := exec_keys hexec
  obtain ⟨kb, hkb, hup⟩ := h.keys
  -- the store moves from the effects to come into the controls
  have hrest : controlsAfter (rest s.shared.core1_running (e :: es)) sh.control
      = controlsAfter s.todo s.shared.control := by
    rw [htodo, ← List.singleton_append, controlsAfter_append, ← hcontrol, List.singleton_append]
    rcases rest_cases s.shared.core1_running e es with heq | heq
    · rw [heq]
    · nth_rewrite 2 [heq]
      rfl
  have hwaiting : waiting
      { s with shared := sh, todo := rest s.shared.core1_running (e :: es) } = waiting s := by
    rw [waiting, waiting, hchannel]
  refine h.of_quiet ⟨kb, ?_, hup⟩ ?_ ?_ id
  · rw [← hrest] at hkb
    exact hkb
  · rw [hwaiting]
    exact h.pedal
  · intro k hk
    rwa [WillHold, hwaiting] at hk

/-- core1 knows no keys. -/
theorem core1_none_stuck {played : List (KeyEvent UInt8)} {s s' : Firmware F}
    (h : NoneStuck played s) (hstep : s.step .core1 = some s') : NoneStuck played s' := by
  cases hstep
  obtain ⟨hgate, hchannel⟩ := Core1.step_keeps s.shared s.core1
  obtain ⟨kb, hkb, hup⟩ := h.keys
  have hwaiting : waiting { s with
      shared := (Core1.step s.shared s.core1).1
      core1 := (Core1.step s.shared s.core1).2 } = waiting s := by
    rw [waiting, waiting, hchannel]
  refine h.of_quiet ⟨kb, ⟨hkb.holds, ?_⟩, hup⟩ ?_ ?_ id
  · rw [controlsAfter_gate_congr hgate]
    exact hkb.gate
  · rw [hwaiting]
    exact h.pedal
  · intro k hk
    rwa [WillHold, hwaiting] at hk

/-- **The step lemma.** -/
theorem NoneStuck.step {played : List (KeyEvent UInt8)} {s s' : Firmware F} {l : Label}
    (h : NoneStuck played s) (hble : KeysOverBle l) (hdelivered : Delivered s l)
    (hstep : s.step l = some s') : NoneStuck (played ++ sent l) s' := by
  rcases outer_or_inner l with hl | rfl | rfl | rfl
  · cases outer_arrives hl hstep with
    | notify hup =>
        refine h.receive_all hup _ (fun m hm => ?_) (hdelivered.1 _ rfl)
        exact hble.2 _ (List.mem_map.mpr ⟨m, hm, rfl⟩)
    | usb_read hidle =>
        simp only [sent, List.append_nil]
        exact input_none_stuck h hidle.2.1 (hble.1 _ rfl)
    | command hidle =>
        simp only [sent, List.append_nil]
        refine input_none_stuck h hidle.2.1 fun w hw => ?_
        rw [Input.works, List.mem_singleton] at hw
        have hother : w.keyEvent = .other := by
          rw [hw]
          rfl
        simp [hother]
    | @ble_receive m ch hidle htake =>
        simp only [sent, List.append_nil]
        -- the message is now the backlog
        have hitems := BoundedList.items_of_try_receive htake
        have hwaiting : waiting { s with
            backlog := (Input.ble m.1 m.2.1 m.2.2).works
            shared := { s.shared with ble_channel := ch } } = waiting s := by
          have hbefore : waiting s = (m :: ch.items).map keyEventOf := by
            rw [waiting, hidle.2.1, hitems]
            rfl
          rw [hbefore]
          rfl
        refine h.of_quiet h.keys ?_ (fun k hk => ?_) id
        · rw [hwaiting]
          exact h.pedal
        · rwa [WillHold, hwaiting] at hk
    | paired hdown =>
        simp only [sent, List.append_nil]
        refine h.of_quiet h.keys h.pedal (fun _ => id) fun hdropped => ?_
        cases hdropped
    | link_lost hup =>
        simp only [sent, List.append_nil]
        exact link_lost_none_stuck h (hdelivered.2 rfl)
  · simp only [sent, List.append_nil]
    exact handle_none_stuck h hstep
  · simp only [sent, List.append_nil]
    exact access_none_stuck h hstep
  · simp only [sent, List.append_nil]
    exact core1_none_stuck h hstep

omit [F32 F] in
/-- At boot there is no key. -/
theorem Boot.none_stuck {p : Preset F} {s : Firmware F} (h : Boot p s) : NoneStuck [] s := by
  have hwaiting : waiting s = [] := by
    rw [waiting, h.backlog, h.ble_channel]
    rfl
  refine ⟨⟨Keyboard.new, ⟨?_, ?_⟩, rfl⟩, ?_, ?_, ?_⟩
  · rw [h.notes]
    exact NoteStack.holds_new
  · rw [h.todo, controlsAfter_nil, h.gate]
    exact iff_of_false Bool.false_ne_true Finset.not_nonempty_empty
  · rw [hwaiting]
    exact nofun
  · intro k hlast
    exact absurd hlast since_nil
  · intro hdropped
    rw [h.link] at hdropped
    cases hdropped

/-- **No note stays on over BLE** in a run that loses no Note Off of a key that
will be in the stack, and no All Notes Off while one will be: after the end of a
session the stack is empty and the gate closed, and a key whose last message was
a Note Off is not in the stack, whenever `midi_task` has worked off its input. -/
theorem no_stuck_notes {p : Preset F} {s t : Firmware F} {ls : List Label} (hs : Boot p s)
    (h : RunBy step (fun s l => KeysOverBle l ∧ Delivered s l) s ls t) (ht : Drained t) :
    (t.link = .dropped → t.midi.notes.notes.items = [] ∧ t.midi.notes.pending_off.items = []
        ∧ t.shared.control.gate = false)
      ∧ ∀ k, LastReleased (ls.flatMap sent) k → k ∉ t.midi.notes.notes.items := by
  have hstuck : NoneStuck (ls.flatMap sent) t := by
    apply h.invariant_trace
    · intro past u l v hu hok hstep
      rw [List.flatMap_append, List.flatMap_singleton]
      exact hu.step hok.1 hok.2 hstep
    · exact hs.none_stuck
  obtain ⟨kb, hkb, hup⟩ := hstuck.keys
  -- after a drop nobody holds a key, and a drained device has none waiting
  constructor
  · intro hdropped
    have hnone : ∀ k, k ∉ t.midi.notes.notes.items := by
      intro k hk
      exact hstuck.dropped hdropped k ((ht.willHold_iff k).mpr hk)
    have hsilent : ¬ kb.sounding.Nonempty := by
      rintro ⟨k, hk⟩
      exact hnone k ((hkb.holds.mem_notes k).mpr hk)
    refine ⟨List.eq_nil_iff_forall_not_mem.mpr hnone, ?_, ?_⟩
    · rw [List.eq_nil_iff_forall_not_mem]
      intro k hk
      rw [hkb.holds.mem_pending, kb.pedal_up hup] at hk
      exact Finset.notMem_empty k hk
    · have hgate := hkb.gate
      rw [ht.todo, controlsAfter_nil] at hgate
      exact Bool.eq_false_iff.mpr fun hopen => hsilent (hgate.mp hopen)
  · intro k hlast hk
    exact hstuck.released k hlast ((ht.willHold_iff k).mpr hk)

/-- **The condition is exact**: after a loss a key will be in the stack though the
keyboard has released it, or the session is over. -/
theorem stuck_of_lost {s s' : Firmware F} {l : Label} (hlost : ¬ Delivered s l)
    (h : s.step l = some s') :
    ∃ k, WillHold s' k ∧ (.release k ∈ sent l ∨ s'.link = .dropped) := by
  rw [Delivered, not_and_or] at hlost
  push Not at hlost
  rcases hlost with ⟨packet, rfl, ms, m, ms', k, hparse, hrelease, hfull, hwill⟩
    | ⟨rfl, hfull, k, hwill⟩
  · cases outer_arrives (show Outer (.notify packet) from trivial) h
    refine ⟨k, ?_, Or.inl ?_⟩
    · -- what follows the lost message is lost with it
      have hsame : received s (BleMidi.parse_ble_midi packet) = received s ms := by
        rw [hparse, received_append, received_of_full hfull]
      rw [← hsame] at hwill
      exact hwill
    · rw [sent, List.mem_map]
      refine ⟨m, ?_, hrelease⟩
      rw [hparse]
      exact List.mem_append_right _ List.mem_cons_self
  · cases outer_arrives (show Outer .link_lost from trivial) h
    have hsame : received s [ALL_NOTES_OFF] = s := received_of_full hfull _
    rw [← hsame] at hwill
    exact ⟨k, hwill, Or.inr rfl⟩

end

/-! ## Runs -/

/-- Neither an input over USB nor something sent over BLE. -/
def sendsNothing : Label → Bool
  | .usb_read _ | .notify _ | .link_lost => false
  | _ => true

/-- Where nothing is sent, nothing is lost. -/
theorem of_sendsNothing {F : Type} (s : Firmware F) {l : Label} (h : sendsNothing l = true) :
    KeysOverBle l ∧ Delivered s l := by
  cases l with
  | usb_read data => cases h
  | notify packet => cases h
  | link_lost => cases h
  | command => exact ⟨⟨nofun, nofun⟩, nofun, nofun⟩
  | ble_receive => exact ⟨⟨nofun, nofun⟩, nofun, nofun⟩
  | handle => exact ⟨⟨nofun, nofun⟩, nofun, nofun⟩
  | access => exact ⟨⟨nofun, nofun⟩, nofun, nofun⟩
  | core1 => exact ⟨⟨nofun, nofun⟩, nofun, nofun⟩
  | paired => exact ⟨⟨nofun, nofun⟩, nofun, nofun⟩

/-- A key struck. -/
def struck : List UInt8 := [0x80, 0x80, 0x90, 60, 64]

theorem struck_messages : BleMidi.parse_ble_midi struck = [(0x90, 60, 64)] := by decide

/-- `midi_task` handles a message with `n` accesses. -/
def handles (n : ℕ) : List Label := [.ble_receive, .handle] ++ List.replicate n .access

/-- Working off a message sends nothing. -/
theorem handles_quiet (n : ℕ) : ∀ l ∈ handles n, sendsNothing l = true := by
  intro l hl
  simp only [handles, List.mem_append, List.mem_cons, List.not_mem_nil, or_false,
    List.mem_replicate] at hl
  rcases hl with (rfl | rfl) | ⟨-, rfl⟩
  · rfl
  · rfl
  · rfl

/-- A key held to the end of a session. -/
theorem no_stuck_notes_drop : ∃ t : Firmware ℝ, ∃ ls,
    RunBy step (fun s l => KeysOverBle l ∧ Delivered s l) (atBoot (default_preset.map F32.lit)) ls t
      ∧ Drained t ∧ t.link = .dropped ∧ t.midi.notes.notes.items = []
      ∧ t.shared.control.gate = false := by
  have hnotify : ∀ s : Firmware ℝ, KeysOverBle (.notify struck) ∧ Delivered s (.notify struck) := by
    intro s
    refine ⟨⟨nofun, ?_⟩, ?_, nofun⟩
    · decide
    · intro packet hpacket ms m ms' k hparse hrelease
      -- the only message is a strike
      cases hpacket
      rw [struck_messages] at hparse
      have hm : m ∈ [((0x90 : UInt8), (60 : UInt8), (64 : UInt8))] := by
        rw [hparse]
        exact List.mem_append_right _ List.mem_cons_self
      rw [List.mem_singleton.mp hm] at hrelease
      cases hrelease
  have hrun : ∃ t ls, RunBy step (fun s l => KeysOverBle l ∧ Delivered s l)
      (atBoot (default_preset.map (F32.lit (F := ℝ)))) ls t ∧ Drained t ∧ t.link = .dropped := by
    refine ⟨_, [.paired, .notify struck] ++ (handles 4 ++ .link_lost :: handles 5),
      .append (.cons (of_sendsNothing _ rfl) rfl (.cons (hnotify _) rfl (.nil _)))
        (.append ((RunBy.of_run rfl (handles_quiet 4)).mono fun _ _ => of_sendsNothing _)
          (.cons ⟨⟨nofun, nofun⟩, nofun, fun _ hfull => ?_⟩ rfl
            ((RunBy.of_run rfl (handles_quiet 5)).mono fun _ _ => of_sendsNothing _))),
      ⟨rfl, rfl, rfl⟩, rfl⟩
    exact absurd hfull (Nat.not_succ_le_zero 15)
  obtain ⟨t, ls, hrun, hdrained, hlink⟩ := hrun
  obtain ⟨hnotes, -, hgate⟩ := (no_stuck_notes (atBoot_boot _) hrun hdrained).1 hlink
  exact ⟨t, ls, hrun, hdrained, hlink, hnotes, hgate⟩

/-- A key struck, then fifteen values of its pressure. -/
def pressed_hard : List UInt8 := struck ++ [0x80, 0xD0, 1] ++ (List.replicate 14 [0x80, 1]).flatten

/-- **A note can stay on**: the All Notes Off at the end of a session is lost when
the channel is full. -/
theorem note_stuck : ∃ (p : Preset ℝ) (s t : Firmware ℝ) (ls : List Label), Boot p s
    ∧ RunBy step (fun _ l => KeysOverBle l) s ls t
    ∧ (∀ es, es <+: ls.flatMap sent → (Keyboard.after es).held.card ≤ 16)
    ∧ Drained t ∧ t.link = .dropped
    ∧ ¬ (t.midi.notes.notes.items = [] ∧ t.shared.control.gate = false) := by
  let ls : List Label := [.paired, .notify pressed_hard, .link_lost]
    ++ (handles 4 ++ (List.replicate 15 (handles 0)).flatten)
  have hrun : ∃ t, run step (atBoot (default_preset.map (F32.lit (F := ℝ)))) ls = some t
      ∧ Drained t ∧ t.link = .dropped ∧ t.midi.notes.notes.items = [60] :=
    ⟨_, rfl, ⟨rfl, rfl, rfl⟩, rfl, rfl⟩
  obtain ⟨t, hrun, hdrained, hlink, hnotes⟩ := hrun
  -- all of it is allowed: no cable, and no pedal
  have hble : ∀ l ∈ ls, KeysOverBle l := by
    have hnotify : ∀ e ∈ sent (.notify pressed_hard), e ≠ .pedal true := by decide
    have hquiet : ∀ l ∈ handles 4 ++ (List.replicate 15 (handles 0)).flatten,
        sendsNothing l = true := by decide
    intro l hl
    simp only [ls, List.cons_append, List.nil_append, List.mem_cons] at hl
    rcases hl with rfl | rfl | rfl | hl
    · exact (of_sendsNothing t rfl).1
    · exact ⟨nofun, hnotify⟩
    · exact ⟨nofun, nofun⟩
    · exact (of_sendsNothing t (hquiet l hl)).1
  have hheld : ∀ es ∈ (ls.flatMap sent).inits, (Keyboard.after es).held.card ≤ 16 := by
    decide +kernel
  refine ⟨_, _, t, ls, atBoot_boot _, RunBy.of_run hrun hble, ?_, hdrained, hlink, ?_⟩
  · intro es hes
    exact hheld es ((List.mem_inits _ _).mpr hes)
  · rw [hnotes]
    exact fun h => List.cons_ne_nil _ _ h.1

end PicoDsp.Firmware
