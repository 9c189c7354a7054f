/-
The voice of core1 and the preset of midi_task (`control/midi.rs`, `tasks/core1.rs`).

A changed configuration reaches core1 in a copy of the preset, through a channel
that holds one copy and drops the next. Seen through the configuration the two
tasks are a `Handover` (`Lib/Handover.lean`): midi_task wants the configuration of its
working preset, core1 installs the one it takes out of the channel.

The source says that a structural controller rebuilds the voice with all tweaks. What can
prevent it is a send that finds the channel full, since its result is ignored, and
that happens when core1 is still busy with a copy from before. The loss matters only if
the copy in the way has another configuration, so that is the condition
(`SendsInTime`), on the state in front of the send. A later send of any kind repairs the
loss; there is none that must come.

`voice_in_sync` is about every interleaving of single accesses whose sends are in time, at
the moments at which nothing is on its way. That moment is the only one at which the two
can be compared, since a rebuild takes time.

The condition is exact: after a send that is not in time core1 alone comes to rest with a
wrong voice (`late_send_lost`). `voice_out_of_sync` is such a run, with two switches of the
panel within one rebuild.
-/
import PicoDsp.Control.CcSpec
import PicoDsp.Lib.Handover
import PicoDsp.System.PresetFlow

set_option autoImplicit false

namespace PicoDsp.Firmware

open Lib MidiTask Transition

variable {F : Type}

/-- No preset is sent while a copy with another configuration is in the channel. -/
def SendsInTime (s : Firmware F) (l : Label) : Prop :=
  l = .access → ∀ p es, s.todo = .preset_send p :: es →
    ∀ q ∈ s.shared.preset_channel.items, q.configuration = p.configuration

variable [F32 F]

/-- The hand-over of the configuration. -/
def configHandover (s : Firmware F) : Handover (Option VoiceConfig) where
  want := some s.midi.working_preset.configuration
  owed := s.todo.any isSend
  slot := s.shared.preset_channel.items.head?.map fun p => some p.configuration
  installing := s.core1.pc.pending.map fun r => some r.1.configuration
  live := s.core1.voice.map Preset.configuration

/-- A device at rest has no configuration under way. -/
theorem AtRest.config_quiet {s : Firmware F} (h : AtRest s) : (configHandover s).Quiet := by
  refine ⟨?_, ?_, ?_⟩
  · simp only [configHandover, h.todo, List.any_nil]
  · simp only [configHandover, h.preset_channel, List.head?_nil, Option.map_none]
  · simp only [configHandover, h.core1.pending, Option.map_none]

/-! ## The steps of the two tasks are moves of the hand-over -/

/-- **A step of core1 is a step of the reader**, or shows in nothing. -/
theorem config_core1 {s s' : Firmware F} (h : s.step .core1 = some s') :
    ReachedBy Handover.step (fun _ m => m.OfReader) (configHandover s) (configHandover s') := by
  obtain ⟨hmoved, hmidi, htodo⟩ := core1_moved h
  unfold configHandover
  rw [hmidi, htodo]
  generalize s'.shared = sh', s'.core1 = c' at hmoved ⊢
  cases hmoved with
  | looped hset hset' hchannel hcontrol =>
      apply ReachedBy.of_eq
      rw [hchannel, hset.pending, hset'.pending]
  | stored hpending =>
      apply ReachedBy.of_eq
      rw [hpending]
      rfl
  | built hpending hset =>
      apply ReachedBy.single (l := Handover.Move.install true) trivial
      rw [hpending, hset.pending]
      rfl
  | taken hset htake =>
      rename_i q ch
      obtain ⟨hitems, hrest⟩ := BoundedList.try_receive_one htake
      rw [hitems, hrest, hset.pending]
      -- the old voice is dropped before the new one is built
      refine ReachedBy.trans (ReachedBy.single (l := Handover.Move.take) trivial rfl) ?_
      exact ReachedBy.single (l := Handover.Move.disturb none) trivial
        (Handover.disturb_of_installing rfl none)

/-- A piece of work sends the preset it ends with, or keeps the configuration. -/
theorem config_of_edit {w : Work} {p p' : Preset F} {es : List (Effect F)} (h : Edit w p es p') :
    es.any isSend = true ∨ es.any isSend = false ∧ p'.configuration = p.configuration := by
  cases h with
  | reload h =>
      cases h with
      | missed hes =>
          refine Or.inr ⟨List.any_eq_false.mpr fun e he => ?_, rfl⟩
          rw [isSend_of_unrelated (hes e he)]
          exact Bool.false_ne_true
      | loaded hes => exact Or.inl (by simp [isSend])
  | continuous hw hkind hcc =>
      rename_i cc value a v
      have hkeeps := CcMap.apply_cc_configuration cc value p
      rw [hcc] at hkeeps
      exact Or.inr ⟨rfl, hkeeps⟩
  | structural hw hkind hcc => exact Or.inl rfl

/-- A piece of work that begins is an edit of the writer's configuration, or none. -/
theorem config_handle {s s' : Firmware F} (h : s.step .handle = some s') :
    ReachedBy Handover.step Handover.Timely (configHandover s) (configHandover s') := by
  obtain ⟨w, ws, htodo, -, hedit, hshared, hcore1⟩ := handle_edit h
  unfold configHandover
  rw [htodo, hshared, hcore1]
  rcases config_of_edit hedit with hsend | ⟨hsend, hconfig⟩
  · rw [hsend]
    exact ReachedBy.single (l := Handover.Move.edit _) trivial rfl
  · rw [hsend, hconfig]
    exact ReachedBy.refl _

/-- `try_send` is a send of the hand-over. -/
theorem config_send {s s' : Firmware F} {p : Preset F} {es : List (Effect F)}
    (hs : PresetOwed s) (htodo : s.todo = .preset_send p :: es) (h : s.step .access = some s') :
    (configHandover s).step .send = some (configHandover s') := by
  rw [PresetOwed, htodo] at hs
  obtain ⟨rfl, rfl⟩ := hs.of_send
  rw [step, htodo] at h
  cases h
  simp only [Handover.step, configHandover, head_offer, rest, List.tail_cons, List.any_nil]

/-- **An access in time is a timely move of the writer**, or none. -/
theorem config_access {s s' : Firmware F} (hs : PresetOwed s) (hok : SendsInTime s .access)
    (h : s.step .access = some s') :
    ReachedBy Handover.step Handover.Timely (configHandover s) (configHandover s') := by
  obtain ⟨e, es, sh, htodo, hexec, hs'⟩ := access_cases h
  cases hsend : isSend e with
  | false =>
      subst hs'
      apply ReachedBy.of_eq
      simp only [configHandover, htodo, any_rest (q := isSend) rfl hsend,
        exec_preset_channel hsend hexec]
  | true =>
      cases e with
      | preset_send p =>
          refine ReachedBy.single (l := Handover.Move.send) ?_ (config_send hs htodo h)
          intro b hb
          obtain ⟨q, hq, rfl⟩ := Option.map_eq_some_iff.mp hb
          rw [PresetOwed, htodo] at hs
          have hsame := hok rfl p es htodo q (List.mem_of_mem_head? hq)
          rw [hsame, hs.of_send.1]
          rfl
      | control op => cases hsend
      | led on => cases hsend
      | write_packet p => cases hsend
      | flash op => cases hsend
      | handle_sysex call => cases hsend

/-- **Every step in time is a run of the hand-over in time.** -/
theorem config_step {s s' : Firmware F} {l : Label} (hs : PresetOwed s) (hok : SendsInTime s l)
    (h : s.step l = some s') :
    ReachedBy Handover.step Handover.Timely (configHandover s) (configHandover s') := by
  rcases outer_or_inner l with hl | rfl | rfl | rfl
  · have hsame := outer_same hl h
    apply ReachedBy.of_eq
    unfold configHandover
    rw [hsame.midi, hsame.todo, hsame.core1, hsame.preset_channel]
  · exact config_handle h
  · exact config_access hs hok h
  · exact (config_core1 h).mono fun _ _ hm => Handover.timely_of_reader hm

/-- At boot core1 is about to build its voice from the preset that midi_task has. -/
theorem Boot.config_in_step {p : Preset F} {s : Firmware F} (h : Boot p s) :
    (configHandover s).InStep := by
  intro _
  simp only [Handover.latest, Handover.underway, configHandover, h.preset_channel, h.core1,
    h.working, Core1.start, Pc.pending]
  rfl

/-- **The voice has the configuration of the working preset whenever the device
is at rest**, in every run in which no preset is sent while a copy with another
configuration is in the channel. -/
theorem voice_in_sync {p : Preset F} {s t : Firmware F} (hs : Boot p s)
    (h : ReachedBy step SendsInTime s t) (ht : AtRest t) :
    t.core1.voice.map Preset.configuration = some t.midi.working_preset.configuration := by
  have hsim := h.simulates (fun _ _ _ hinv hok hstep => ⟨hinv.step hstep, config_step hinv hok hstep⟩)
    hs.presetOwed
  exact Handover.live_eq_want hs.config_in_step hsim.2 ht.config_quiet

omit [F32 F] in
/-- core1 alone sends nothing. -/
theorem OnlyCore1.sendsInTime {s : Firmware F} {l : Label} (h : OnlyCore1 s l) : SendsInTime s l := by
  intro haccess
  rw [OnlyCore1, haccess] at h
  cases h

/-- The delay switched on at boot. -/
theorem voice_in_sync_delay : ∃ t : Firmware ℝ,
    ReachedBy step SendsInTime (atBoot (default_preset.map F32.lit)) t ∧ AtRest t
      ∧ t.midi.working_preset.configuration.delay_enabled = true
      ∧ t.core1.voice.map Preset.configuration = some t.midi.working_preset.configuration := by
  have hedit : ∃ u : Firmware ℝ,
      ReachedBy step SendsInTime (atBoot (default_preset.map F32.lit)) u ∧ u.todo = []
        ∧ u.midi.working_preset.configuration.delay_enabled = true
        ∧ u.shared.gate_req = false :=
    ⟨_, ⟨[.usb_read [0x0B, 0xB0, 117, 127], .handle, .access],
      .cons nofun rfl <| .cons nofun rfl <| .cons (fun _ _ _ _ q hq => nomatch hq) rfl <|
      .nil _⟩, rfl, rfl, rfl⟩
  obtain ⟨u, hrun, htodo, hdelay, hreq⟩ := hedit
  obtain ⟨sh, c, halone, hempty, hset⟩ := core1_comes_to_rest u hreq
  have hall := hrun.trans (halone.mono fun _ _ h => h.sendsInTime)
  have hrest : AtRest { u with shared := sh, core1 := c } := ⟨htodo, hset, hempty⟩
  exact ⟨_, hall, hrest, hdelay, voice_in_sync (atBoot_boot _) hall hrest⟩

/-! ## The condition is exact -/

/-- **After a send that is not in time core1 alone comes to rest with a wrong voice.** -/
theorem late_send_lost {s s' : Firmware F} (hs : PresetOwed s) (hlate : ¬ SendsInTime s .access)
    (h : s.step .access = some s') (hreq : s'.shared.gate_req = false) :
    ∃ t, ReachedBy step OnlyCore1 s' t ∧ AtRest t
      ∧ t.core1.voice.map Preset.configuration
        ≠ some t.midi.working_preset.configuration := by
  rw [SendsInTime] at hlate
  push Not at hlate
  obtain ⟨-, p, es, htodo, q, hq, hne⟩ := hlate
  have hsend := config_send hs htodo h
  rw [PresetOwed, htodo] at hs
  obtain ⟨hp, hes⟩ := hs.of_send
  have huntimely : ¬ (configHandover s).Timely .send := by
    -- the copy in the way is the one that is in the channel
    intro htimely
    have hslot : (configHandover s).slot = some (some q.configuration) := by
      simp only [configHandover, BoundedList.head_of_mem_one hq, Option.map_some]
    have hsame := Option.some.inj (htimely _ hslot)
    exact hne (hsame.trans (by rw [hp]))
  have hwrong := Handover.latest_of_untimely huntimely hsend
  have htodo' : s'.todo = [] := by
    rw [step, htodo] at h
    cases h
    exact hes
  have howed : (configHandover s').owed = false := by
    simp only [configHandover, htodo', List.any_nil]
  have hcore1 : ∀ u v : Firmware F, True → u.step .core1 = some v → True ∧
      ReachedBy Handover.step (fun _ m => m.OfReader) (configHandover u) (configHandover v) :=
    fun u v _ hstep => ⟨trivial, config_core1 hstep⟩
  obtain ⟨t, hrun, hrest, hmidi, hvoice⟩ :=
    rests_at_latest hcore1 (fun u hu => hu.config_quiet) trivial howed htodo' hreq
  refine ⟨t, hrun, hrest, ?_⟩
  change t.core1.voice.map Preset.configuration = _ at hvoice
  rw [hvoice, hmidi]
  exact hwrong

/-- **Not always in sync**: of two structural controllers within one rebuild the
second is lost. -/
theorem voice_out_of_sync : ∃ (p : Preset ℝ) (s t : Firmware ℝ),
    Boot p s ∧ Reached step s t ∧ AtRest t
      ∧ t.core1.voice.map Preset.configuration
        ≠ some t.midi.working_preset.configuration := by
  -- both before core1 has taken a copy out of the channel
  have hedits : ∃ (u : Firmware ℝ) (p q : Preset ℝ),
      Reached step (atBoot (default_preset.map F32.lit)) u ∧ u.todo = [.preset_send p]
        ∧ u.shared.preset_channel.items = [q] ∧ q.configuration ≠ p.configuration
        ∧ u.shared.gate_req = false :=
    ⟨_, _, _, ⟨[.usb_read [0x0B, 0xB0, 117, 127, 0x0B, 0xB0, 118, 127], .handle, .access, .handle],
        .cons trivial rfl <| .cons trivial rfl <| .cons trivial rfl <| .cons trivial rfl <|
        .nil _⟩, rfl, rfl, by decide, rfl⟩
  obtain ⟨u, p, q, hrun, htodo, hq, hne, hreq⟩ := hedits
  have hboot := atBoot_boot (default_preset.map (F32.lit (F := ℝ)))
  have howed : PresetOwed u :=
    hrun.invariant (fun _ _ _ hinv _ hstep => hinv.step hstep) hboot.presetOwed
  have hlate : ¬ SendsInTime u .access := by
    intro htime
    exact hne (htime rfl p [] htodo q (by rw [hq]; exact List.mem_singleton_self q))
  obtain ⟨u', hstep, hreq'⟩ : ∃ u', u.step .access = some u' ∧ u'.shared.gate_req = false := by
    rw [step, htodo]
    exact ⟨_, rfl, hreq⟩
  obtain ⟨t, halone, hrest, hvoice⟩ := late_send_lost howed hlate hstep hreq'
  have hall := hrun.trans ((ReachedBy.single (l := Label.access) trivial hstep).trans
    (halone.mono fun _ _ _ => trivial))
  exact ⟨_, _, t, hboot, hall, hrest, hvoice⟩

end PicoDsp.Firmware
