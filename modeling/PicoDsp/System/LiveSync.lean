/-
The live controls and the preset of midi_task (`control/midi.rs`, `tasks/core1.rs`).

Both cores store to the controls a preset seeds: midi_task what a controller
says, core1 what its copy of a preset says when it builds a voice. The two may
interleave store by store, and a rebuild that begins while a knob is turned may put the
knob back.

Control by control the two tasks are a `Handover` (`Lib/Handover.lean`): midi_task wants
what its working preset seeds, and reaches the control either with a store or through a
copy of the preset. The mailbox is `PRESET_CHANNEL`, seen through the one control, and
installing a copy is the store of a rebuild to it. So one control at a time the argument is
the one of the library, and what has to be shown here is that every step of the tasks
is a permitted move of it, or none.

An access that is not in time (`InTime`) is a send while a copy that seeds other values
is in the channel, or a store of a controller while a copy with another value for the
control is on its way. Both are conditions on the state in front of the access.
`live_in_sync` is about every interleaving all of whose accesses are in time, at the
moments at which nothing is on its way, and about all the controls of presets at once.

The condition is exact: after an access that is not in time core1 alone brings the device
to rest with a wrong control (`late_access_undone`). That it is needed although no send
fails is the last theorem: a portamento that is turned while a copy is on its way snaps
back. Seeding gives back what a controller stored only over the reals
(`Control/Seeds.lean`), so this module is about them.
-/
import PicoDsp.Control.Seeds
import PicoDsp.Lib.Handover
import PicoDsp.System.PresetFlow

set_option autoImplicit false

namespace PicoDsp.Firmware

open Lib MidiTask Transition MidiControl

/-- The effect stores to the control. -/
def storesTo {F : Type} (a : Atom) : Effect F → Bool
  | .control (.store b _) => b = a
  | _ => false

section

variable {F : Type} [F32 F]

/-- The value a rebuild still stores to the control. -/
def installs (a : Atom) (c : Core1 F) : Option (Option F) :=
  match c.pc.pending with
  | some (p, stores) => if a ∈ stores.map Prod.fst then some (seedOf p a) else none
  | none => none

/-- The hand-over of one control. -/
def liveHandover (a : Atom) (s : Firmware F) : Handover (Option F) where
  want := seedOf s.midi.working_preset a
  owed := s.todo.any fun e => isSend e || storesTo a e
  slot := s.shared.preset_channel.items.head?.map fun p => seedOf p a
  installing := installs a s.core1
  live := some (s.shared.control.value a)

/-- A device at rest has nothing under way, for any control. -/
theorem AtRest.live_quiet {s : Firmware F} (h : AtRest s) (a : Atom) :
    (liveHandover a s).Quiet := by
  refine ⟨?_, ?_, ?_⟩
  · simp only [liveHandover, h.todo, List.any_nil]
  · simp only [liveHandover, h.preset_channel, List.head?_nil, Option.map_none]
  · simp only [liveHandover, installs, h.core1.pending]

/-- No preset is sent while a copy that seeds other values is in the channel. -/
def CopiesInTime (s : Firmware F) : Prop :=
  ∀ p es, s.todo = .preset_send p :: es → ∀ q ∈ s.shared.preset_channel.items,
    seed_from_preset q = seed_from_preset p

/-- The copies on their way have the value `v` for a control: the one in the
channel, or else the one that is installed. -/
def CopiesHold (s : Firmware F) (a : Atom) (v : F) : Prop :=
  (∀ q ∈ s.shared.preset_channel.items, seedOf q a = some v)
    ∧ (s.shared.preset_channel.items = [] →
        ∀ r stores w, s.core1.pc.pending = some (r, stores) → (a, w) ∈ stores → w = v)

/-- No controller stores a control while a copy on its way has another value for
it. -/
def StoresInTime (s : Firmware F) : Prop :=
  ∀ a v, s.todo = [.control (.store a v)] → a ∈ seededAtoms → CopiesHold s a v

/-- An access that is made in time. -/
def InTime (s : Firmware F) (l : Label) : Prop := l = .access → CopiesInTime s ∧ StoresInTime s

/-- The values of the controllers that are handled are data bytes. -/
def DataBytes (s : Firmware F) (l : Label) : Prop :=
  l = .handle → ∀ status cc value ws, s.backlog = .voice status cc value :: ws →
    voiceKind status cc value = .parameter cc value → value ≤ 127

/-! ## Steps of core1 -/

/-- The stores of a rebuild are those of its preset. -/
def PendingSeeds (c : Core1 F) : Prop :=
  ∀ p stores, c.pc.pending = some (p, stores) →
    ∀ av ∈ stores, av ∈ seed_from_preset p

/-- A rebuild begins with all of its stores to come. -/
theorem PendingSeeds.of_switching (p : Preset F) (v : Option (Preset F)) :
    PendingSeeds ⟨.switching p, v⟩ := by
  intro q stores hpending av hav
  cases hpending
  rcases List.mem_cons.mp hav with rfl | hav
  · -- the portamento is stored once more than the others
    simp [seed_from_preset]
  · exact hav

/-- And makes them one by one. -/
theorem PendingSeeds.moved {sh sh' : Shared F} {c c' : Core1 F} (hc : PendingSeeds c)
    (h : Core1.Moved sh c sh' c') : PendingSeeds c' := by
  cases h with
  | looped hset hset' hchannel hcontrol =>
      intro p stores hpending
      rw [hset'.pending] at hpending
      cases hpending
  | stored hpending =>
      intro p stores hpending' av hav
      cases hpending'
      exact hc _ _ hpending av (List.mem_cons_of_mem _ hav)
  | built hpending hset =>
      intro p stores hpending'
      rw [hset.pending] at hpending'
      cases hpending'
  | taken hset htake => exact PendingSeeds.of_switching _ _

/-- What a rebuild still stores to the control is the value of one of its stores. -/
theorem installs_some {a : Atom} {c : Core1 F} {b : Option F} (hc : PendingSeeds c)
    (h : installs a c = some b) :
    ∃ p stores w, c.pc.pending = some (p, stores) ∧ (a, w) ∈ stores ∧ b = some w := by
  unfold installs at h
  split at h
  · rename_i p stores hpending
    split at h
    · rename_i hatom
      obtain ⟨⟨d, w⟩, hmem, rfl⟩ := List.mem_map.mp hatom
      have hseed : seedOf p d = some w := seedOf_eq_some_iff.mpr (hc p stores hpending _ hmem)
      exact ⟨p, stores, w, hpending, hmem, (Option.some.inj h).symm.trans hseed⟩
    · cases h
  · cases h

/-- **A step of core1 is a step of the reader**, or shows in nothing: it takes the copy out of
the channel, or makes one store of the rebuild. -/
theorem live_core1 {a : Atom} (ha : a ∈ seededAtoms) {s s' : Firmware F} (hs : PendingSeeds s.core1)
    (h : s.step .core1 = some s') :
    ReachedBy Handover.step (fun _ m => m.OfReader) (liveHandover a s) (liveHandover a s') := by
  obtain ⟨hmoved, hmidi, htodo⟩ := core1_moved h
  unfold liveHandover
  rw [hmidi, htodo]
  generalize s'.shared = sh', s'.core1 = c' at hmoved ⊢
  cases hmoved with
  | looped hset hset' hchannel hcontrol =>
      apply ReachedBy.of_eq
      unfold installs
      rw [hchannel, hcontrol, hset.pending, hset'.pending]
  -- no store was left: nothing is pending before or after
  | built hpending hset =>
      apply ReachedBy.of_eq
      unfold installs
      rw [hpending, hset.pending]
      simp
  | taken hset htake =>
      rename_i q ch
      obtain ⟨hitems, hrest⟩ := BoundedList.try_receive_one htake
      apply ReachedBy.single (l := Handover.Move.take) trivial
      -- every seeded control is among the stores of the switch
      have hall : a ∈ ((Atom.portamento_amount, q.portamento) :: seed_from_preset q).map Prod.fst := by
        rw [List.map_cons, seed_from_preset_atoms]
        exact List.mem_cons_of_mem _ ha
      have hinstalls : installs a (⟨.switching q, none⟩ : Core1 F) = some (seedOf q a) := if_pos hall
      rw [hitems, hrest, hinstalls]
      rfl
  | stored hpending =>
      rename_i p b v stores
      have hmem : (b, v) ∈ seed_from_preset p := hs _ _ hpending _ List.mem_cons_self
      have hbefore : installs a s.core1
          = if a ∈ ((b, v) :: stores).map Prod.fst then some (seedOf p a) else none := by
        unfold installs
        rw [hpending]
      have hafter : installs a (⟨.building p stores, s.core1.voice⟩ : Core1 F)
          = if a ∈ stores.map Prod.fst then some (seedOf p a) else none := rfl
      by_cases hab : a = b
      · -- the store of this control, perhaps not the last one
        have hvalue : seedOf p a = some v := by
          rw [hab]
          exact seedOf_eq_some_iff.mpr hmem
        have hfirst : a ∈ ((b, v) :: stores).map Prod.fst := by
          rw [hab]
          exact List.mem_cons_self
        rw [if_pos hfirst] at hbefore
        apply ReachedBy.single (l := Handover.Move.install (decide (a ∉ stores.map Prod.fst))) trivial
        rw [hbefore, hafter, hvalue, ← hab]
        simp only [Handover.step, Option.map_some, ControlOp.apply, Function.update_self]
        by_cases hmore : a ∈ stores.map Prod.fst
        · rw [if_pos hmore, if_neg (by simpa using hmore)]
        · rw [if_neg hmore, if_pos (by simpa using hmore)]
      · -- the store of another control
        apply ReachedBy.of_eq
        have hsame : a ∈ ((b, v) :: stores).map Prod.fst ↔ a ∈ stores.map Prod.fst := by
          rw [List.map_cons, List.mem_cons]
          exact or_iff_right hab
        have hlive : ((ControlOp.store b v).apply s.shared.control).value a
            = s.shared.control.value a := Function.update_of_ne hab _ _
        rw [hbefore, hafter, hlive]
        simp only [hsame]

/-! ## Steps of midi_task -/

omit [F32 F] in
/-- Effects that have nothing to do with presets neither store to the control nor send. -/
theorem unrelated_quiet {a : Atom} (ha : a ∈ seededAtoms) {es : List (Effect F)}
    (h : ∀ e ∈ es, Unrelated e) : (es.any fun e => isSend e || storesTo a e) = false := by
  rw [List.any_eq_false]
  intro e he
  have hun := h e he
  rw [isSend_of_unrelated hun, Bool.false_or]
  cases e with
  | control op =>
      cases op with
      | store b v =>
          have hne : b ≠ a := by
            rintro rfl
            exact hun ha
          simp [storesTo, hne]
      | gate g => exact Bool.false_ne_true
      | gate_reset g => exact Bool.false_ne_true
  | preset_send p => exact hun.elim
  | led on => exact Bool.false_ne_true
  | write_packet p => exact Bool.false_ne_true
  | flash op => exact Bool.false_ne_true
  | handle_sysex call => exact Bool.false_ne_true

omit [F32 F] in
/-- A store to a control of presets is the only effect of its message, or a
preset is sent after it. -/
theorem owed_store {p : Preset F} {a : Atom} (ha : a ∈ seededAtoms) {v : F} {es : List (Effect F)}
    (h : Owed p (.control (.store a v) :: es)) : es = [] ∨ es.any isSend = true := by
  generalize heq : Effect.control (.store a v) :: es = fs at h
  cases h with
  | nothing hes =>
      subst heq
      exact absurd ha (hes _ List.mem_cons_self)
  | store b w => exact Or.inl (List.cons.inj heq).2
  | send hes =>
      rename_i gs
      cases gs with
      | nil => cases heq
      | cons g gs =>
          obtain ⟨-, rfl⟩ := List.cons.inj heq
          exact Or.inr (by simp [isSend])

omit [F32 F] in
/-- The store of a controller is never left over from a longer message. -/
theorem owed_last_store {p : Preset F} {a : Atom} (ha : a ∈ seededAtoms) {v : F}
    {es : List (Effect F)} (h : Owed p (es ++ [.control (.store a v)])) : es = [] := by
  generalize heq : es ++ [Effect.control (.store a v)] = fs at h
  cases h with
  | nothing hes =>
      subst heq
      exact absurd ha (hes _ (List.mem_append_right _ (List.mem_singleton_self _)))
  | store b w =>
      rw [List.append_eq_singleton_iff] at heq
      rcases heq with ⟨hnil, -⟩ | ⟨-, hcons⟩
      · exact hnil
      · cases hcons
  | send hes =>
      obtain ⟨-, hlast⟩ := List.append_inj' heq rfl
      cases hlast

end

variable {a : Atom} {s s' : Firmware ℝ}

/-- A piece of work owes the control a store or a send, or keeps its seed. -/
theorem live_of_edit (ha : a ∈ seededAtoms) {w : Work} {p p' : Preset ℝ} {es : List (Effect ℝ)}
    (h : Edit w p es p')
    (hbytes : ∀ status cc value, w = .voice status cc value →
      voiceKind status cc value = .parameter cc value → value ≤ 127) :
    (es.any fun e => isSend e || storesTo a e) = true
      ∨ (es.any fun e => isSend e || storesTo a e) = false ∧ seedOf p' a = seedOf p a := by
  cases h with
  | reload h =>
      cases h with
      | missed hes => exact Or.inr ⟨unrelated_quiet ha hes, rfl⟩
      | loaded hes => exact Or.inl (by simp [isSend])
  | structural hw hkind hcc => exact Or.inl rfl
  | continuous hw hkind hcc =>
      rename_i status cc value b v
      obtain ⟨-, hseeds⟩ := CcMap.seedOf_of_continuous (hbytes _ _ _ hw hkind) hcc
      by_cases hab : a = b
      · exact Or.inl (by simp [storesTo, hab])
      · have hba : b ≠ a := fun heq => hab heq.symm
        refine Or.inr ⟨by simp [isSend, storesTo, hba], ?_⟩
        rw [hseeds, if_neg hab]

/-- A piece of work that begins is an edit of the writer's value, or none. -/
theorem live_handle (ha : a ∈ seededAtoms) (hbytes : DataBytes s .handle)
    (h : s.step .handle = some s') :
    ReachedBy Handover.step Handover.Timely (liveHandover a s) (liveHandover a s') := by
  obtain ⟨w, ws, htodo, hbacklog, hedit, hshared, hcore1⟩ := handle_edit h
  have hwork : ∀ status cc value, w = .voice status cc value →
      voiceKind status cc value = .parameter cc value → value ≤ 127 := by
    intro status cc value hw hkind
    rw [hw] at hbacklog
    exact hbytes rfl status cc value ws hbacklog hkind
  unfold liveHandover
  rw [htodo, hshared, hcore1]
  rcases live_of_edit ha hedit hwork with howed | ⟨howed, hseed⟩
  · rw [howed]
    exact ReachedBy.single (l := Handover.Move.edit _) trivial rfl
  · rw [howed, hseed]
    exact ReachedBy.refl _

/-- A controller stores what its preset then seeds. -/
theorem store_of_edit (ha : a ∈ seededAtoms) {w : Work} {p p' : Preset ℝ} {v : ℝ}
    (h : Edit w p [.control (.store a v)] p')
    (hbytes : ∀ status cc value, w = .voice status cc value →
      voiceKind status cc value = .parameter cc value → value ≤ 127) :
    seedOf p' a = some v := by
  generalize hes : [Effect.control (.store a v)] = es at h
  cases h with
  | reload hreload =>
      cases hreload with
      | missed hun =>
          rw [← hes] at hun
          exact absurd ha (hun _ (List.mem_singleton_self _))
      | loaded hun =>
          rw [← List.append_assoc, ← List.nil_append [Effect.control _]] at hes
          obtain ⟨-, hlast⟩ := List.append_inj' hes rfl
          cases hlast
  | structural hw hkind hcc => cases hes
  | continuous hw hkind hcc =>
      cases hes
      have hvalue := hbytes _ _ _ hw hkind
      rw [(CcMap.seedOf_of_continuous hvalue hcc).2, if_pos rfl]

/-- What is left of a controller is the store of what its preset seeds. -/
def StoreOwed (s : Firmware ℝ) : Prop :=
  ∀ a v, a ∈ seededAtoms → s.todo = [.control (.store a v)] →
    seedOf s.midi.working_preset a = some v

/-- What is left of a controller stays so until it is made. -/
theorem StoreOwed.step {l : Label} (h : StoreOwed s) (howed : PresetOwed s) (hbytes : DataBytes s l)
    (hstep : s.step l = some s') : StoreOwed s' := by
  rcases outer_or_inner l with hl | rfl | rfl | rfl
  · have hsame := outer_same hl hstep
    intro a v ha htodo
    rw [hsame.todo] at htodo
    rw [hsame.midi]
    exact h a v ha htodo
  · obtain ⟨w, ws, -, hbacklog, hedit, -, -⟩ := handle_edit hstep
    intro a v ha htodo
    rw [htodo] at hedit
    refine store_of_edit ha hedit fun status cc value hw hkind => ?_
    rw [hw] at hbacklog
    exact hbytes rfl status cc value ws hbacklog hkind
  · obtain ⟨e, es, sh, htodo, -, rfl⟩ := access_cases hstep
    intro a v ha hlast
    -- the rest of a longer message is no such store
    rw [PresetOwed, htodo] at howed
    have hlast' : rest s.shared.core1_running (e :: es) = [.control (.store a v)] := hlast
    exfalso
    rcases rest_cases s.shared.core1_running e es with heq | heq
    · rw [hlast'] at heq
      rw [← heq] at howed
      have hlast : Owed s.midi.working_preset ([e] ++ [.control (.store a v)]) := howed
      exact List.cons_ne_nil _ _ (owed_last_store ha hlast)
    · rw [hlast'] at heq
      rw [heq] at howed
      have hlast : Owed s.midi.working_preset
          ([e, .flash .gate_ack] ++ [.control (.store a v)]) := howed
      exact List.cons_ne_nil _ _ (owed_last_store ha hlast)
  · cases hstep
    exact h

/-- An access to something else leaves the value of the control. -/
theorem exec_value {sh sh' : Shared ℝ} {e : Effect ℝ} (hstore : storesTo a e = false)
    (h : sh.exec e = some sh') : sh'.control.value a = sh.control.value a := by
  cases Shared.exec_made h with
  | stored op =>
      cases op with
      | store b v =>
          have hba : b ≠ a := of_decide_eq_false hstore
          exact Function.update_of_ne hba.symm _ _
      | gate g => rfl
      | gate_reset g => rfl
  | sent p => rfl
  | other req hcontrol hsend => rfl

/-- The store of a controller is a store of the hand-over. -/
theorem live_store (ha : a ∈ seededAtoms) {v : ℝ} (hs : StoreOwed s)
    (htodo : s.todo = [.control (.store a v)]) (h : s.step .access = some s') :
    (liveHandover a s).step .store = some (liveHandover a s') := by
  have hwant : seedOf s.midi.working_preset a = some v := hs a v ha htodo
  rw [step, htodo] at h
  cases h
  simp only [Handover.step, liveHandover, hwant, rest, List.tail_cons, List.any_nil,
    ControlOp.apply, Function.update_self]

/-- The store of a controller in time. -/
theorem timely_store (ha : a ∈ seededAtoms) {v : ℝ} (hs : StoreOwed s)
    (hcore1 : PendingSeeds s.core1) (hok : StoresInTime s)
    (htodo : s.todo = [.control (.store a v)]) : (liveHandover a s).Timely .store := by
  have hwant : seedOf s.midi.working_preset a = some v := hs a v ha htodo
  obtain ⟨hslot, hinstalling⟩ := hok a v htodo ha
  -- what is under way is the copy in the channel, or the one that is installed
  intro b hb
  show b = seedOf s.midi.working_preset a
  rw [hwant]
  rcases BoundedList.one_cases s.shared.preset_channel with hnil | ⟨q, hq⟩
  · have hb' : installs a s.core1 = some b := by
      simpa only [Handover.underway, liveHandover, hnil, List.head?_nil, Option.map_none,
        Option.none_or] using hb
    obtain ⟨p, stores, w, hpending, hmem, rfl⟩ := installs_some hcore1 hb'
    rw [hinstalling hnil p stores w hpending hmem]
  · have hb' : seedOf q a = b := by
      simpa only [Handover.underway, liveHandover, hq, List.head?_cons, Option.map_some,
        Option.some_or, Option.some.injEq] using hb
    rw [← hb']
    exact hslot q (by rw [hq]; exact List.mem_singleton_self q)

/-- `try_send` is a send of the hand-over. -/
theorem live_send {p : Preset ℝ} {es : List (Effect ℝ)} (hs : PresetOwed s)
    (htodo : s.todo = .preset_send p :: es) (h : s.step .access = some s') :
    (liveHandover a s).step .send = some (liveHandover a s') := by
  rw [PresetOwed, htodo] at hs
  obtain ⟨rfl, rfl⟩ := hs.of_send
  rw [step, htodo] at h
  cases h
  simp only [Handover.step, liveHandover, head_offer, rest, List.tail_cons, List.any_nil]

/-- A store that a send follows does not count. -/
theorem live_seed {v : ℝ} {es : List (Effect ℝ)} (htodo : s.todo = .control (.store a v) :: es)
    (hsend : es.any isSend = true) (h : s.step .access = some s') :
    (liveHandover a s).step (.disturb (some v)) = some (liveHandover a s') := by
  have howed : (es.any fun e => isSend e || storesTo a e) = true := by
    obtain ⟨e, he, hsend⟩ := List.any_eq_true.mp hsend
    exact List.any_eq_true.mpr ⟨e, he, by rw [hsend, Bool.true_or]⟩
  rw [step, htodo] at h
  cases h
  simp only [Handover.step, liveHandover, htodo, rest, List.tail_cons, List.any_cons, howed,
    Bool.or_true, true_or, if_true, ControlOp.apply, Function.update_self]

/-- **An access in time is a timely move of the writer**, or none. -/
theorem live_access (ha : a ∈ seededAtoms) (hs : PresetOwed s) (hstores : StoreOwed s)
    (hcore1 : PendingSeeds s.core1) (hok : InTime s .access) (h : s.step .access = some s') :
    ReachedBy Handover.step Handover.Timely (liveHandover a s) (liveHandover a s') := by
  obtain ⟨hcopies, hcontrollers⟩ := hok rfl
  obtain ⟨e, es, sh, htodo, hexec, hs'⟩ := access_cases h
  -- of the accesses only a send and a store to this control matter
  by_cases hother : (isSend e || storesTo a e) = false
  · obtain ⟨hsend, hstore⟩ := Bool.or_eq_false_iff.mp hother
    subst hs'
    apply ReachedBy.of_eq
    simp only [liveHandover, htodo, any_rest (q := fun e => isSend e || storesTo a e) rfl hother,
      exec_preset_channel hsend hexec, exec_value hstore hexec]
  · cases e with
    | preset_send p =>
        refine ReachedBy.single (l := Handover.Move.send) ?_ (live_send hs htodo h)
        intro b hb
        obtain ⟨q, hq, rfl⟩ := Option.map_eq_some_iff.mp hb
        have hsame := hcopies p es htodo q (List.mem_of_mem_head? hq)
        rw [PresetOwed, htodo] at hs
        show seedOf q a = seedOf s.midi.working_preset a
        rw [← hs.of_send.1, seedOf, seedOf, hsame]
    | control op =>
        cases op with
        | store b v =>
            have hba : b = a := by simpa [isSend, storesTo] using hother
            subst hba
            rw [PresetOwed, htodo] at hs
            rcases owed_store ha hs with rfl | hsend
            · exact ReachedBy.single (l := Handover.Move.store)
                (timely_store ha hstores hcore1 hcontrollers htodo) (live_store ha hstores htodo h)
            · exact ReachedBy.single (l := Handover.Move.disturb _) trivial (live_seed htodo hsend h)
        | gate g => exact absurd rfl hother
        | gate_reset g => exact absurd rfl hother
    | led on => exact absurd rfl hother
    | write_packet p => exact absurd rfl hother
    | flash op => exact absurd rfl hother
    | handle_sysex call => exact absurd rfl hother

/-! ## Runs -/

/-- What holds of every interleaving. -/
structure Editing (s : Firmware ℝ) : Prop where
  preset : PresetOwed s
  store : StoreOwed s
  pending : PendingSeeds s.core1

/-- **The step lemma.** -/
theorem Editing.step {l : Label} (h : Editing s) (hbytes : DataBytes s l)
    (hstep : s.step l = some s') : Editing s' := by
  refine ⟨h.preset.step hstep, h.store.step h.preset hbytes hstep, ?_⟩
  rcases outer_or_inner l with hl | rfl | rfl | rfl
  · have hsame := outer_same hl hstep
    rw [hsame.core1]
    exact h.pending
  · obtain ⟨w, ws, -, -, -, -, hcore1⟩ := handle_edit hstep
    rw [hcore1]
    exact h.pending
  · obtain ⟨e, es, sh, -, -, rfl⟩ := access_cases hstep
    exact h.pending
  · exact h.pending.moved (core1_moved hstep).1

/-- **Every step in time is a run of the hand-over in time.** -/
theorem live_step (ha : a ∈ seededAtoms) {l : Label} (hs : Editing s) (hok : InTime s l)
    (hbytes : DataBytes s l) (h : s.step l = some s') :
    ReachedBy Handover.step Handover.Timely (liveHandover a s) (liveHandover a s') := by
  rcases outer_or_inner l with hl | rfl | rfl | rfl
  · have hsame := outer_same hl h
    apply ReachedBy.of_eq
    unfold liveHandover
    rw [hsame.midi, hsame.todo, hsame.core1, hsame.preset_channel, hsame.control]
  · exact live_handle ha hbytes h
  · exact live_access ha hs.preset hs.store hs.pending hok h
  · exact (live_core1 ha hs.pending h).mono fun _ _ hm => Handover.timely_of_reader hm

/-- At boot nothing is owed. -/
theorem Boot.editing {p : Preset ℝ} (h : Boot p s) : Editing s := by
  refine ⟨h.presetOwed, ?_, ?_⟩
  · intro a v _ htodo
    rw [h.todo] at htodo
    cases htodo
  · rw [h.core1]
    exact PendingSeeds.of_switching p none

/-- At boot core1 is about to build its voice from the preset that midi_task has. -/
theorem Boot.live_in_step {p : Preset ℝ} (h : Boot p s) (ha : a ∈ seededAtoms) :
    (liveHandover a s).InStep := by
  intro _
  have hinstalls : installs a (Core1.start p) = some (seedOf p a) := by
    apply if_pos
    rw [List.map_cons, seed_from_preset_atoms]
    exact List.mem_cons_of_mem _ ha
  simp only [Handover.latest, Handover.underway, liveHandover, h.preset_channel, h.core1,
    h.working, hinstalls]
  rfl

/-- Controls that hold their seeds, one by one. -/
theorem agrees_of_live (h : ∀ a ∈ seededAtoms, (liveHandover a s).live = (liveHandover a s).want) :
    s.shared.control.Agrees s.midi.working_preset := by
  rw [agrees_iff]
  intro a v hseed
  have ha : a ∈ seededAtoms := by
    rw [← seed_from_preset_atoms s.midi.working_preset]
    exact List.mem_map.mpr ⟨(a, v), seedOf_eq_some_iff.mp hseed, rfl⟩
  exact Option.some.inj ((h a ha).trans hseed)

/-- **The live controls hold what the working preset seeds whenever the device is
at rest**, in every run in which no preset is sent while a copy that seeds other
values is in the channel, and no controller stores a control while a copy with
another value for it is on its way. -/
theorem live_in_sync {p : Preset ℝ} {t : Firmware ℝ} (hs : Boot p s)
    (h : ReachedBy step (fun s l => InTime s l ∧ DataBytes s l) s t) (ht : AtRest t) :
    t.shared.control.Agrees t.midi.working_preset := by
  apply agrees_of_live
  intro a ha
  have hsim := h.simulates (fun _ _ _ hinv hok hstep =>
    ⟨hinv.step hok.2 hstep, live_step ha hinv hok.1 hok.2 hstep⟩) hs.editing
  exact Handover.live_eq_want (hs.live_in_step ha) hsim.2 (ht.live_quiet a)

/-- core1 makes no access that could be late. -/
theorem OnlyCore1.inTime {s : Firmware ℝ} {l : Label} (h : OnlyCore1 s l) :
    InTime s l ∧ DataBytes s l := by
  rw [OnlyCore1] at h
  subst h
  exact ⟨nofun, nofun⟩

/-- The portamento turned up once the first voice is there. -/
theorem live_in_sync_portamento : ∃ t : Firmware ℝ,
    ReachedBy step (fun s l => InTime s l ∧ DataBytes s l)
      (atBoot (default_preset.map F32.lit)) t ∧ AtRest t
      ∧ t.midi.working_preset.portamento = 1
      ∧ t.shared.control.Agrees t.midi.working_preset := by
  obtain ⟨sh, c, halone, hempty, hset⟩ :=
    core1_comes_to_rest (atBoot (default_preset.map (F32.lit (F := ℝ)))) rfl
  have hfirst := halone.mono fun _ _ h => h.inTime
  -- the controller is handled with nothing on its way
  have hedit : ∃ u : Firmware ℝ,
      ReachedBy step (fun s l => InTime s l ∧ DataBytes s l)
        { atBoot (default_preset.map (F32.lit (F := ℝ))) with shared := sh, core1 := c } u
        ∧ u.todo = [] ∧ u.core1 = c ∧ u.shared.preset_channel = sh.preset_channel
        ∧ u.midi.working_preset.portamento = F32.ofU8 127 / F32.lit 127 := by
    refine ⟨_, ⟨[.usb_read [0x0B, 0xB0, 5, 127], .handle, .access],
      .cons ⟨nofun, nofun⟩ rfl <| .cons ⟨nofun, ?_⟩ rfl <| .cons ⟨?_, nofun⟩ rfl <| .nil _⟩,
      rfl, rfl, rfl, rfl⟩
    · intro _ status cc value ws hbacklog _
      cases hbacklog
      decide
    · intro _
      refine ⟨fun p es htodo => (nomatch htodo), fun a v _ _ => ⟨?_, ?_⟩⟩
      · intro q hq
        have hnone : q ∈ sh.preset_channel.items := hq
        rw [hempty] at hnone
        cases hnone
      · intro _ r stores w hpending
        have hnone : c.pc.pending = some (r, stores) := hpending
        rw [hset.pending] at hnone
        cases hnone
  obtain ⟨u, hrun, htodo, hcore1, hchannel, hportamento⟩ := hedit
  have hall := hfirst.trans hrun
  have hrest : AtRest u := by
    refine ⟨htodo, ?_, ?_⟩
    · rw [hcore1]
      exact hset
    · rw [hchannel]
      exact hempty
  refine ⟨u, hall, hrest, ?_, live_in_sync (atBoot_boot _) hall hrest⟩
  have hvalue : (127 : UInt8).toNat = 127 := rfl
  rw [hportamento, F32.ofU8_real, hvalue]
  norm_num

/-! ## The condition is exact -/

/-- Only messages have data bytes. -/
theorem dataBytes_of_ne {s : Firmware ℝ} {l : Label} (h : l ≠ .handle) : DataBytes s l :=
  fun hl => absurd hl h

/-- A move that is not timely leaves the control wrong once core1 is at rest. -/
theorem undone_of_untimely (ha : a ∈ seededAtoms) (hs : Editing s')
    {m : Handover.Move (Option ℝ)} (hm : ¬ (liveHandover a s).Timely m)
    (hstep : (liveHandover a s).step m = some (liveHandover a s')) (htodo : s'.todo = [])
    (hreq : s'.shared.gate_req = false) :
    ∃ t, ReachedBy step OnlyCore1 s' t ∧ AtRest t
      ∧ ¬ t.shared.control.Agrees t.midi.working_preset := by
  have hwrong := Handover.latest_of_untimely hm hstep
  have howed : (liveHandover a s').owed = false := by
    simp only [liveHandover, htodo, List.any_nil]
  have hcore1 : ∀ u v, Editing u → u.step .core1 = some v → Editing v ∧
      ReachedBy Handover.step (fun _ m => m.OfReader) (liveHandover a u) (liveHandover a v) :=
    fun u v hu hstep => ⟨hu.step (dataBytes_of_ne (by simp)) hstep, live_core1 ha hu.pending hstep⟩
  obtain ⟨t, hrun, hrest, hmidi, hvalue⟩ :=
    rests_at_latest hcore1 (fun u hu => hu.live_quiet a) hs howed htodo hreq
  change some (t.shared.control.value a) = _ at hvalue
  refine ⟨t, hrun, hrest, fun hagrees => hwrong ?_⟩
  obtain ⟨v, hv⟩ := exists_seedOf t.midi.working_preset ha
  rw [agrees_iff] at hagrees
  show (liveHandover a s').latest = seedOf s'.midi.working_preset a
  rw [← hvalue, hagrees a v hv, ← hv, hmidi]

/-- A store over a copy with another value is not timely. -/
theorem untimely_store {v : ℝ} (ha : a ∈ seededAtoms) (hs : Editing s)
    (htodo : s.todo = [.control (.store a v)]) (hlate : ¬ CopiesHold s a v) :
    ¬ (liveHandover a s).Timely .store := by
  intro htimely
  have hwant : seedOf s.midi.working_preset a = some v := hs.store a v ha htodo
  have hway : ∀ b, (liveHandover a s).underway = some b → b = some v :=
    fun b hb => (htimely b hb).trans hwant
  apply hlate
  rcases BoundedList.one_cases s.shared.preset_channel with hnil | ⟨q, hq⟩
  · refine ⟨by simp [hnil], fun _ r stores w hpending hmem => ?_⟩
    -- the store of the rebuild is the seed of its preset
    have hseed : seedOf r a = some w :=
      seedOf_eq_some_iff.mpr (hs.pending r stores hpending _ hmem)
    have hatom : a ∈ stores.map Prod.fst := List.mem_map.mpr ⟨(a, w), hmem, rfl⟩
    have hinstalls : (liveHandover a s).underway = some (some w) := by
      simp only [Handover.underway, liveHandover, hnil, List.head?_nil, Option.map_none,
        Option.none_or, installs, hpending, if_pos hatom, hseed]
    exact Option.some.inj (hway _ hinstalls)
  · have hslot : (liveHandover a s).underway = some (seedOf q a) := by
      simp only [Handover.underway, liveHandover, hq, List.head?_cons, Option.map_some,
        Option.some_or]
    refine ⟨fun r hr => ?_, by simp [hq]⟩
    rw [hq, List.mem_singleton] at hr
    rw [hr]
    exact hway _ hslot

/-- **After an access that is not in time core1 alone comes to rest with a wrong
control.** -/
theorem late_access_undone (hs : Editing s) (hlate : ¬ InTime s .access)
    (h : s.step .access = some s') (hreq : s'.shared.gate_req = false) :
    ∃ t, ReachedBy step OnlyCore1 s' t ∧ AtRest t
      ∧ ¬ t.shared.control.Agrees t.midi.working_preset := by
  have hs' : Editing s' := hs.step (l := .access) nofun h
  by_cases hcopies : CopiesInTime s
  · have hstores : ¬ StoresInTime s := fun hstores => hlate fun _ => ⟨hcopies, hstores⟩
    rw [StoresInTime] at hstores
    push Not at hstores
    obtain ⟨a, v, htodo, ha, hhold⟩ := hstores
    refine undone_of_untimely ha hs' (untimely_store ha hs htodo hhold)
      (live_store ha hs.store htodo h) ?_ hreq
    rw [step, htodo] at h
    cases h
    rfl
  · rw [CopiesInTime] at hcopies
    push Not at hcopies
    obtain ⟨p, es, htodo, q, hq, hne⟩ := hcopies
    -- the two copies differ in a control
    obtain ⟨a, ha, hseed⟩ : ∃ a ∈ seededAtoms, seedOf q a ≠ seedOf p a := by
      by_contra hnone
      push Not at hnone
      exact hne (seed_ext hnone)
    have howed := hs.preset
    rw [PresetOwed, htodo] at howed
    obtain ⟨hp, hes⟩ := howed.of_send
    refine undone_of_untimely ha hs' ?_ (live_send hs.preset htodo h) ?_ hreq
    · intro htimely
      have hslot : (liveHandover a s).slot = some (seedOf q a) := by
        simp only [liveHandover, BoundedList.head_of_mem_one hq, Option.map_some]
      have hsame : seedOf q a = seedOf s.midi.working_preset a := htimely _ hslot
      rw [hp] at hseed
      exact hseed hsame
    · rw [step, htodo] at h
      cases h
      exact hes

/-- No send fails. -/
def SendsArrive (s : Firmware ℝ) (l : Label) : Prop :=
  l = .access → ∀ p es, s.todo = .preset_send p :: es → s.shared.preset_channel.items = []

/-- Only accesses send. -/
theorem sendsArrive_of_ne {s : Firmware ℝ} {l : Label} (h : l ≠ .access) : SendsArrive s l :=
  fun hl => absurd hl h

/-- core1 sends no preset. -/
theorem OnlyCore1.sendsArrive {s : Firmware ℝ} {l : Label} (h : OnlyCore1 s l) :
    SendsArrive s l := by
  rw [OnlyCore1] at h
  exact sendsArrive_of_ne (by simp [h])

/-- **Not always in sync**, though no send fails: the portamento turned while the
copy that a switch sent is on its way snaps back. -/
theorem live_edit_undone : ∃ (p : Preset ℝ) (s t : Firmware ℝ),
    Boot p s ∧ ReachedBy step (fun s l => SendsArrive s l ∧ DataBytes s l) s t ∧ AtRest t
      ∧ ¬ t.shared.control.Agrees t.midi.working_preset := by
  -- both before core1 has taken the copy out of the channel
  have hedits : ∃ (u : Firmware ℝ) (q : Preset ℝ),
      ReachedBy step (fun s l => SendsArrive s l ∧ DataBytes s l)
        (atBoot (default_preset.map F32.lit)) u
        ∧ u.todo = [.control (.store .portamento_amount (F32.ofU8 127 / F32.lit 127))]
        ∧ u.shared.preset_channel.items = [q]
        ∧ seedOf q .portamento_amount = some (F32.lit 0.0) ∧ u.shared.gate_req = false := by
    refine ⟨_, _, ⟨[.usb_read [0x0B, 0xB0, 117, 127, 0x0B, 0xB0, 5, 127], .handle, .access, .handle],
      .cons ⟨sendsArrive_of_ne (by simp), dataBytes_of_ne (by simp)⟩ rfl <|
      .cons ⟨sendsArrive_of_ne (by simp), ?_⟩ rfl <|
      .cons ⟨fun _ _ _ _ => rfl, dataBytes_of_ne (by simp)⟩ rfl <|
      .cons ⟨sendsArrive_of_ne (by simp), ?_⟩ rfl <| .nil _⟩, rfl, rfl, rfl, rfl⟩
    · intro _ status cc value ws hbacklog _
      cases hbacklog
      decide
    · intro _ status cc value ws hbacklog _
      cases hbacklog
      decide
  obtain ⟨u, q, hrun, htodo, hq, hseed, hreq⟩ := hedits
  have hboot := atBoot_boot (default_preset.map (F32.lit (F := ℝ)))
  have hediting : Editing u :=
    hrun.invariant (fun _ _ _ hinv hok hstep => hinv.step hok.2 hstep) hboot.editing
  have hlate : ¬ InTime u .access := by
    intro htime
    have hhold := (htime rfl).2 _ _ htodo (by decide)
    have hvalue := hhold.1 q (by rw [hq]; exact List.mem_singleton_self q)
    have hbyte : (127 : UInt8).toNat = 127 := rfl
    rw [hseed, Option.some.injEq, F32.ofU8_real, hbyte] at hvalue
    norm_num at hvalue
  obtain ⟨u', hstep, hreq'⟩ : ∃ u', u.step .access = some u' ∧ u'.shared.gate_req = false := by
    rw [step, htodo]
    exact ⟨_, rfl, hreq⟩
  obtain ⟨t, halone, hrest, hvalue⟩ := late_access_undone hediting hlate hstep hreq'
  have hstore : SendsArrive u .access ∧ DataBytes u .access := by
    refine ⟨fun _ p es hsend => ?_, dataBytes_of_ne (by simp)⟩
    rw [htodo] at hsend
    cases hsend
  have hcore1 := halone.mono fun _ _ hl => And.intro hl.sendsArrive hl.inTime.2
  have hall := hrun.trans ((ReachedBy.single (l := Label.access) hstore hstep).trans hcore1)
  exact ⟨_, _, t, hboot, hall, hrest, hvalue⟩

end PicoDsp.Firmware
