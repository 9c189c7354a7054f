/-
Presets on their way from midi_task to core1 (`control/midi.rs`, `common/shared.rs`).

What holds of every interleaving: a preset that midi_task sends is its working
preset, and the send is the last effect of the message it is handling
(`PresetOwed`). So a copy in the channel is never newer than the working preset, and
while a message is being handled everything that is still to come of it belongs to the
preset it ends with.

`System/VoiceSync.lean` and `System/LiveSync.lean` look at the same flow through different views, the
configuration of a preset and the seed of one control. What the two need in common stands
here, stated for any view: how `try_send` looks through it (`head_offer`), that other
accesses leave the channel alone, and that a device left alone with core1 comes to
rest with what the hand-over predicts (`rests_at_latest`). The last is the lemma by which
the conditions of both are shown to be exact.
-/
import PicoDsp.Control.PresetEdit
import PicoDsp.Lib.Handover
import PicoDsp.System.Firmware

set_option autoImplicit false

namespace PicoDsp

open Lib MidiTask

namespace Firmware

variable {F : Type}

/-- Both tasks are between two steps, and no preset is on its way. -/
structure AtRest (s : Firmware F) : Prop where
  todo : s.todo = []
  core1 : s.core1.pc.Settled
  preset_channel : s.shared.preset_channel.items = []

/-- What is left of the message being handled. -/
def PresetOwed (s : Firmware F) : Prop := Owed s.midi.working_preset s.todo

/-- `try_send` on the channel of presets, seen through a view of them. -/
theorem head_offer {β : Type} (view : Preset F → β) (ch : BoundedList (Preset F) 1) (p : Preset F) :
    (ch.offer p).items.head?.map view = (ch.items.head?.map view).or (some (view p)) := by
  rcases BoundedList.one_cases ch with hnil | ⟨q, hq⟩
  · have hroom : ¬ ch.Full := BoundedList.not_full_one_iff.mpr hnil
    rw [BoundedList.offer_items_of_not_full hroom, hnil]
    rfl
  · have hfull : ch.Full := by
      rw [BoundedList.Full, hq]
      exact Nat.le_refl 1
    rw [BoundedList.offer_of_full hfull, hq]
    rfl

/-- The rest of what is owed, with the accesses to the gate cut short. -/
theorem owed_rest {p : Preset F} {e : Effect F} {es : List (Effect F)} (h : Owed p (e :: es))
    (running : Bool) : Owed p (rest running (e :: es)) := by
  rcases rest_cases running e es with heq | heq
  · rw [heq]
    exact h.tail
  · have htail := h.tail
    rw [heq] at htail
    exact htail.tail

/-- An access that is no send leaves the channel of presets alone. -/
theorem exec_preset_channel {sh sh' : Shared F} {e : Effect F} (he : isSend e = false)
    (h : sh.exec e = some sh') : sh'.preset_channel = sh.preset_channel := by
  cases Shared.exec_made h with
  | stored op => rfl
  | sent p => cases he
  | other req hcontrol hsend => rfl

/-- An access that is no send leaves the sends to come. -/
theorem any_rest {q : Effect F → Bool} (hack : q (.flash .gate_ack) = false) {e : Effect F}
    (he : q e = false) (running : Bool) (es : List (Effect F)) :
    (rest running (e :: es)).any q = (e :: es).any q := by
  have htail : (e :: es).any q = es.any q := by
    rw [List.any_cons, he, Bool.false_or]
  rcases rest_cases running e es with heq | heq
  · rw [htail, heq]
  · rw [htail]
    nth_rewrite 2 [heq]
    rw [List.any_cons, hack, Bool.false_or]

variable [F32 F]

/-- The preset of midi_task after a piece of work. -/
theorem handle_edit {s s' : Firmware F} (h : s.step .handle = some s') :
    ∃ w ws, s.todo = [] ∧ s.backlog = w :: ws
      ∧ Edit w s.midi.working_preset s'.todo s'.midi.working_preset
      ∧ s'.shared = s.shared ∧ s'.core1 = s.core1 := by
  obtain ⟨w, ws, htodo, hbacklog, -, rfl⟩ := handle_cases h
  exact ⟨w, ws, htodo, hbacklog, work_edit w s.midi, rfl, rfl⟩

/-- A step of core1, as far as presets go, with `midi_task` where it was. -/
theorem core1_moved {s s' : Firmware F} (h : s.step .core1 = some s') :
    Core1.Moved s.shared s.core1 s'.shared s'.core1 ∧ s'.midi = s.midi ∧ s'.todo = s.todo := by
  cases h
  exact ⟨Core1.step_moved s.shared s.core1, rfl, rfl⟩

/-- **The step lemma.** -/
theorem PresetOwed.step {s s' : Firmware F} {l : Label} (hs : PresetOwed s)
    (h : s.step l = some s') : PresetOwed s' := by
  rcases outer_or_inner l with hl | rfl | rfl | rfl
  · have hsame := outer_same hl h
    rw [PresetOwed, hsame.midi, hsame.todo]
    exact hs
  · obtain ⟨w, ws, -, -, hedit, -, -⟩ := handle_edit h
    exact hedit.owed
  · obtain ⟨e, es, sh, htodo, -, rfl⟩ := access_cases h
    rw [PresetOwed, htodo] at hs
    exact owed_rest hs _
  · cases h
    exact hs

/-- Seen through a hand-over that core1 follows, the device left alone with core1
comes to rest with what the hand-over predicts. -/
theorem rests_at_latest {β : Type} {abs : Firmware F → Handover β} {Inv : Firmware F → Prop}
    {s : Firmware F}
    (hcore1 : ∀ u v, Inv u → u.step .core1 = some v →
      Inv v ∧ Transition.ReachedBy Handover.step (fun _ m => m.OfReader) (abs u) (abs v))
    (hquiet : ∀ u, AtRest u → (abs u).Quiet) (hs : Inv s) (howed : (abs s).owed = false)
    (htodo : s.todo = []) (hreq : s.shared.gate_req = false) :
    ∃ t, Transition.ReachedBy step OnlyCore1 s t ∧ AtRest t ∧ t.midi = s.midi
      ∧ (abs t).live = (abs s).latest := by
  obtain ⟨sh, c, hrun, hempty, hset⟩ := core1_comes_to_rest s hreq
  have hrest : AtRest { s with shared := sh, core1 := c } := ⟨htodo, hset, hempty⟩
  have hsim := hrun.simulates (fun u l v hu hl hstep => hcore1 u v hu (hl ▸ hstep)) hs
  refine ⟨_, hrun, hrest, rfl, ?_⟩
  rw [← (Handover.latest_of_reader howed hsim.2).1, (hquiet _ hrest).live_eq]

omit [F32 F] in
/-- At boot nothing is owed. -/
theorem Boot.presetOwed {p : Preset F} {s : Firmware F} (h : Boot p s) : PresetOwed s := by
  rw [PresetOwed, h.todo]
  exact .nothing (by simp)

end Firmware

end PicoDsp
