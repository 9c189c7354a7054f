/-
The firmware with the real BLE loop (`bt/mod.rs`).

`Firmware` has the link as three events that come in any order its `Link` allows. Here
`central_loop` itself runs beside the other tasks, on whatever the stack answers, and
puts what it has into `BLE_MIDI_CHANNEL`. Every run of this board is a run of `Firmware`
(`board_refines`): the events of the link are those of the sessions of the loop, so what
holds in every run there holds on the board.

The loop has many more states than the link: it scans, connects, waits for pairing, looks
the service up, subscribes, and listens, and each of these may fail or be cut off. From
the tasks' side almost all of its moves show nothing. `Seen` relates a board to a state
of `Firmware` by two facts, that everything but the link is the same and that the link is up
exactly in a session; a move of the loop is then one event of the link or none
(`Seen.stack`), and a move of another task is the same move on both sides
(`step_link`), since no task but the loop looks at the link.

The stack's answers are labels, so the loop is run against every behaviour of the radio,
including one that does not exist. That a session comes about at all is shown by a run
for any keyboard that advertises the service (`session_run`): found, paired, subscribed,
one notification forwarded, and the drop.
-/
import PicoDsp.Bt.Central
import PicoDsp.System.Firmware

set_option autoImplicit false

namespace PicoDsp

open Lib Firmware

/-- The tasks, and the loop. -/
structure Board (F : Type) where
  firmware : Firmware F
  central : Central

inductive BoardLabel
  /-- The stack answers the loop. -/
  | stack (e : StackEvent)
  /-- Another task moves. -/
  | task (l : Label)

/-- The labels of the link, which the loop stands for. -/
def Label.OfLink : Label → Bool
  | .notify _ | .paired | .link_lost => true
  | _ => false

namespace Board

variable {F : Type} [F32 F]

def step (b : Board F) : BoardLabel → Option (Board F)
  | .stack e =>
      (b.central.step e).map fun r =>
        { firmware := { b.firmware with
            shared := { b.firmware.shared with
              ble_channel := forward r.2 b.firmware.shared.ble_channel } }
          central := r.1 }
  | .task l =>
      if l.OfLink then none else (b.firmware.step l).map fun s => { b with firmware := s }

/-- The moves of the other tasks in a run. -/
def tasks (bs : List BoardLabel) : List Label :=
  bs.filterMap fun
    | .task l => some l
    | .stack _ => none

/-! ## One step -/

/-- No task but the loop looks at the link. -/
theorem step_link (s : Firmware F) (link : Link) {l : Label} (hl : l.OfLink = false) :
    ({ s with link := link } : Firmware F).step l
      = (s.step l).map fun s' => { s' with link := link } := by
  cases l with
  | usb_read data =>
      rw [Firmware.step, Firmware.step]
      by_cases hidle : s.Idle
      · refine (if_pos hidle).trans ?_
        rw [if_pos hidle]
        rfl
      · refine (if_neg hidle).trans ?_
        rw [if_neg hidle]
        rfl
  | command =>
      rw [Firmware.step, Firmware.step]
      by_cases hidle : s.Idle
      · refine (if_pos hidle).trans ?_
        rw [if_pos hidle]
        rfl
      · refine (if_neg hidle).trans ?_
        rw [if_neg hidle]
        rfl
  | ble_receive =>
      rw [Firmware.step, Firmware.step]
      by_cases hidle : s.Idle
      · refine (if_pos hidle).trans ?_
        rw [if_pos hidle, Option.map_map]
        rfl
      · refine (if_neg hidle).trans ?_
        rw [if_neg hidle]
        rfl
  | handle =>
      simp only [Firmware.step]
      split
      · rfl
      · rfl
  | access =>
      simp only [Firmware.step]
      split
      · rfl
      · rw [Option.map_map]
        rfl
  | core1 => rfl
  | notify packet => cases hl
  | paired => cases hl
  | link_lost => cases hl

/-- What the tasks see of the board: the link is up in a session. -/
structure Seen (b : Board F) (s : Firmware F) : Prop where
  same : s = { b.firmware with link := s.link }
  up : s.link = .up ↔ b.central.BT_CONNECTED = true
  connected : b.central.BT_CONNECTED = true ↔ b.central.pc.InGatt

variable {b b' : Board F} {s : Firmware F}

omit [F32 F] in
/-- The statics are the same on both sides. -/
theorem Seen.shared (h : Seen b s) : s.shared = b.firmware.shared := by
  have hshared := congrArg Firmware.shared h.same
  exact hshared

omit [F32 F] in
/-- The loop moves without anyone seeing it. -/
theorem Seen.unseen {c : Central} (h : Seen b s) (hflag : c.BT_CONNECTED = b.central.BT_CONNECTED)
    (hgatt : c.BT_CONNECTED = true ↔ c.pc.InGatt) :
    Seen { firmware := { b.firmware with
      shared := { b.firmware.shared with
        ble_channel := forward [] b.firmware.shared.ble_channel } }, central := c } s := by
  refine ⟨h.same, ?_, hgatt⟩
  rw [hflag]
  exact h.up

/-- What the loop does is one event of the link, or none. -/
theorem Seen.stack {e : StackEvent} {c : Central} {ms : List BleMidi.Message} (h : Seen b s)
    (hstep : b.central.step e = some (c, ms)) :
    ∃ ks s', Transition.run Firmware.step s ks = some s' ∧ (∀ l ∈ ks, l.OfLink = true)
      ∧ Seen { firmware := { b.firmware with
          shared := { b.firmware.shared with
            ble_channel := forward ms b.firmware.shared.ble_channel } }, central := c } s' := by
  have hmoves := Central.step_moves hstep
  have hgatt := hmoves.connected_iff h.connected
  have hnone : ∀ l ∈ ([] : List Label), l.OfLink = true := fun l hl => by cases hl
  cases hmoves with
  | reports it => exact ⟨[], s, rfl, hnone, h.unseen rfl hgatt⟩
  | search _ pc _ _ => exact ⟨[], s, rfl, hnone, h.unseen rfl hgatt⟩
  | choose addr _ _ => exact ⟨[], s, rfl, hnone, h.unseen rfl hgatt⟩
  | go_on _ pc target _ _ _ => exact ⟨[], s, rfl, hnone, h.unseen rfl hgatt⟩
  | gives_up _ _ hout => exact ⟨[], s, rfl, hnone, h.unseen rfl hgatt⟩
  -- the link is encrypted
  | complete target hpc =>
      have hdown : ¬ s.link = .up := by
        rw [h.up, h.connected, hpc]
        exact id
      refine ⟨[.paired], { s with link := .up }, ?_, by simp [Label.OfLink], ?_, ?_, hgatt⟩
      · rw [Transition.run_cons, Firmware.step, if_neg hdown]
        rfl
      · rw [h.same]
        rfl
      · exact iff_of_true rfl rfl
  -- a notification
  | plays packet target accepting hpc =>
      have hup : s.link = .up := by
        rw [h.up, h.connected, hpc]
        trivial
      refine ⟨[.notify packet], { s with
        shared := { s.shared with
          ble_channel := forward (BleMidi.parse_ble_midi packet) s.shared.ble_channel } },
        ?_, by simp [Label.OfLink], ?_, h.up, hgatt⟩
      · rw [Transition.run_cons, Firmware.step, if_pos hup]
        rfl
      · rw [h.shared]
        conv_lhs => rw [h.same]
  -- the session is over
  | ends _ hin =>
      have hup : s.link = .up := h.up.mpr (h.connected.mpr hin)
      refine ⟨[.link_lost], { s with
        link := .dropped
        shared := { s.shared with ble_channel := s.shared.ble_channel.offer ALL_NOTES_OFF } },
        ?_, by simp [Label.OfLink], ?_, ?_, hgatt⟩
      · rw [Transition.run_cons, Firmware.step, if_pos hup]
        rfl
      · rw [h.shared]
        conv_lhs => rw [h.same]
        rfl
      · exact iff_of_false (fun h => by cases h) Bool.false_ne_true

/-! ## Runs -/

/-- **The loop is the link.** Whatever the stack answers and in whatever order the loop and
the other tasks move: the tasks see a run of `Firmware`, with their own moves in their own
order and the sessions of the loop as its link. The link is up exactly while
`BT_CONNECTED` is. -/
theorem board_refines {s : Firmware F} (hs : s.link = .idle) {bs : List BoardLabel} {b : Board F}
    (h : Transition.run step ⟨s, Central.start⟩ bs = some b) :
    ∃ ks u, Transition.run Firmware.step s ks = some u
      ∧ ks.filter (fun l => !l.OfLink) = tasks bs
      ∧ u = { b.firmware with link := u.link }
      ∧ (u.link = .up ↔ b.central.BT_CONNECTED = true)
      ∧ (b.central.BT_CONNECTED = true ↔ b.central.pc.InGatt) := by
  have hrun := Transition.RunBy.of_run (P := fun _ => True) h fun _ _ => trivial
  have hseen : ∃ ks u, Transition.run Firmware.step s ks = some u
      ∧ ks.filter (fun l => !l.OfLink) = tasks bs ∧ Seen b u := by
    refine @Transition.RunBy.invariant_trace _ _ _ _ (fun past b => ∃ ks u,
      Transition.run Firmware.step s ks = some u
        ∧ ks.filter (fun l => !l.OfLink) = tasks past ∧ Seen b u) _ _ _ hrun ?_ ?_
    · rintro past b l b' ⟨ks, u, hks, hpast, hu⟩ - hstep
      cases l with
      -- the loop: one event of the link, or none
      | stack e =>
          obtain ⟨⟨c, ms⟩, hone, rfl⟩ := Option.map_eq_some_iff.mp hstep
          obtain ⟨js, v, hjs, hlink, hv⟩ := hu.stack hone
          refine ⟨ks ++ js, v, ?_, ?_, hv⟩
          · rw [Transition.run_append, hks]
            exact hjs
          · have hnone : js.filter (fun l => !l.OfLink) = [] := by
              rw [List.filter_eq_nil_iff]
              intro l hl
              rw [hlink l hl]
              exact Bool.false_ne_true
            rw [List.filter_append, hnone, List.append_nil, hpast, tasks, tasks,
              List.filterMap_append]
            exact (List.append_nil _).symm
      -- any other task: the same move, whatever the link
      | task l =>
          rw [step] at hstep
          split at hstep
          · cases hstep
          · rename_i hl
            rw [Bool.not_eq_true] at hl
            obtain ⟨t, hone, rfl⟩ := Option.map_eq_some_iff.mp hstep
            refine ⟨ks ++ [l], { t with link := u.link }, ?_, ?_, rfl, hu.up, hu.connected⟩
            · have hmove := step_link b.firmware u.link hl
              rw [← hu.same, hone] at hmove
              rw [Transition.run_append, hks]
              show Transition.run Firmware.step u [l] = _
              rw [Transition.run_cons, hmove]
              rfl
            · rw [List.filter_append, hpast, tasks, tasks, List.filterMap_append,
                List.filter_cons_of_pos (by rw [hl]; rfl)]
              rfl
    · refine ⟨[], s, rfl, rfl, rfl, ?_, ?_⟩
      · rw [hs]
        exact iff_of_false (fun h => by cases h) Bool.false_ne_true
      · exact iff_of_false Bool.false_ne_true id
  obtain ⟨ks, u, hks, htasks, hu⟩ := hseen
  exact ⟨ks, u, hks, htasks, hu.same, hu.up, hu.connected⟩

/-! ## A session -/

/-- From the first scan to a keyboard that plays: the loop finds it, pairs, subscribes and
forwards a notification. -/
theorem session_run (s : Firmware F) (a : Address) (packet : List UInt8) :
    Transition.run step ⟨s, Central.start⟩ [.stack (.scan true),
        .stack (.adv_reports [some ⟨a, Central.midiAd.encode⟩]), .stack .wake,
        .stack (.connected true true), .stack (.event .PairingComplete), .stack (.client true),
        .stack (.services (some 1)), .stack (.characteristic true), .stack (.subscribed true),
        .stack (.notification packet)]
      = some ⟨{ s with shared := { s.shared with
          ble_channel := forward (BleMidi.parse_ble_midi packet) s.shared.ble_channel } },
        ⟨.gatt a .listening false, none, true⟩⟩ := by
  have hreport : step (⟨s, ⟨.waiting, none, false⟩⟩ : Board F)
      (.stack (.adv_reports [some ⟨a, Central.midiAd.encode⟩]))
      = some ⟨s, ⟨.waiting, some a, false⟩⟩ := by
    show some (⟨s, ⟨.waiting, Central.on_adv_reports none _, false⟩⟩ : Board F) = _
    rw [Central.midiAd_found]
  have hscan : step (⟨s, Central.start⟩ : Board F) (.stack (.scan true))
      = some ⟨s, ⟨.waiting, none, false⟩⟩ := rfl
  exact Transition.run_step hscan (Transition.run_step hreport rfl)

/-- A keyboard is found, plays a note while core1 builds its voice, and drops. -/
theorem board_refines_session : ∃ (b c : Board ℝ) (ks js : List Label) (u v : Firmware ℝ)
    (bs : List BoardLabel),
    Transition.run step ⟨atBoot (default_preset.map F32.lit), Central.start⟩ bs = some b
      ∧ Transition.run Firmware.step (atBoot (default_preset.map F32.lit)) ks = some u
      ∧ ks.filter (fun l => !l.OfLink) = [.core1]
      ∧ u.link = .up ∧ u.shared.ble_channel.items = [(0x90, 60, 64)]
      ∧ Transition.run step ⟨atBoot (default_preset.map F32.lit), Central.start⟩
        (bs ++ [.stack (.event .Disconnected)]) = some c
      ∧ Transition.run Firmware.step (atBoot (default_preset.map F32.lit)) js = some v
      ∧ v.link ≠ .up ∧ v.shared.ble_channel.items = [(0x90, 60, 64), ALL_NOTES_OFF] := by
  set s : Firmware ℝ := atBoot (default_preset.map F32.lit) with hs
  have hpaired := session_run s ⟨0, Vector.replicate 6 1⟩ [0x80, 0x80, 0x90, 60, 64]
  have hnote : BleMidi.parse_ble_midi [0x80, 0x80, 0x90, 60, 64] = [(0x90, 60, 64)] := by decide
  rw [hnote] at hpaired
  -- core1 makes a move meanwhile
  have hplayed := @Transition.run_trans _ _ step _ _ _ [.task .core1] _ hpaired rfl
  have hdropped := @Transition.run_trans _ _ step _ _ _ [.stack (.event .Disconnected)] _
    hplayed rfl
  obtain ⟨ks, u, hks, htasks, hsame, hup, -⟩ := board_refines rfl hplayed
  obtain ⟨js, v, hjs, -, hsame', hup', -⟩ := board_refines rfl hdropped
  refine ⟨_, _, ks, js, u, v, _, hplayed, hks, htasks, hup.mpr rfl, ?_, hdropped, hjs, ?_, ?_⟩
  · rw [hsame]
    rfl
  · intro hlink
    cases hup'.mp hlink
  · rw [hsame']
    rfl

end Board

end PicoDsp
