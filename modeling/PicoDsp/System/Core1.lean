/-
`core1_task` (`tasks/core1.rs`) over the statics of `common/shared.rs`.

The task is a program counter over its accesses to shared state; between two of
them it touches nothing another task can see. A rebuild is not one step:
`build_synth` stores the live controls of its copy of the preset one by one, so
that midi_task can act in the middle of it. Log messages, statistics and the
audio that is computed and sent away are left out; they are in
`System/AudioPath.lean`, which puts them around the same steps.

A step of core1 is a function and always enabled: where the code spins, the step goes
round. What a step does to the statics depends on them, so `Shared` stands beside the
task and not in it, and an access of midi_task is a function on the same record (`exec`),
with `none` where it waits.

Later modules look at core1 in different ways, and what they have in common stands here.
`Steps` lists what a step does at each place of the loop, and what it does to the gate and
to the flags is a case analysis of that; `Moved` is a step as far as presets and live
controls go, and `step_keeps` is its frame. The predicates on the program counter name
where core1 is with respect to the PSRAM (`Inside`, `Parked`, `AtGate`) and to a rebuild
(`Settled`, `pending`).

The last section is about core1 left alone. With the gate open it ends its rebuild, empties
the channel of presets and comes to rest (`comes_to_rest`); that is how statements about
what a state leads to are made without any assumption on a schedule.
-/
import Mathlib.Logic.Relation
import PicoDsp.Control.Midi

set_option autoImplicit false

namespace PicoDsp

open Lib

/-- The statics two tasks share. -/
structure Shared (F : Type) where
  control : MidiControl F
  preset_channel : BoundedList (Preset F) 1
  ble_channel : BoundedList (UInt8 × UInt8 × UInt8) 16
  gate_req : Bool
  gate_ack : Bool
  core1_running : Bool

namespace Shared

variable {F : Type}

/-- What an access of midi_task to the PSRAM gate does; `none` while it waits. -/
def execFlash (sh : Shared F) : Storage.FlashOp → Option (Shared F)
  | .gate_req => some { sh with gate_req := true }
  | .gate_ack => if sh.gate_ack then some sh else none
  | .gate_release => some { sh with gate_req := false }
  | _ => some sh

/-- The most an access to the gate changes is the request. -/
theorem execFlash_cases {sh sh' : Shared F} {op : Storage.FlashOp}
    (h : sh.execFlash op = some sh') : ∃ req, sh' = { sh with gate_req := req } := by
  unfold execFlash at h
  split at h
  · cases h
    exact ⟨true, rfl⟩
  · split at h
    · cases h
      exact ⟨sh.gate_req, rfl⟩
    · cases h
  · cases h
    exact ⟨false, rfl⟩
  · cases h
    exact ⟨sh.gate_req, rfl⟩

/-- What an effect of midi_task does to the statics. -/
def exec (sh : Shared F) : Effect F → Option (Shared F)
  | .control op => some { sh with control := op.apply sh.control }
  | .preset_send p => some { sh with preset_channel := sh.preset_channel.offer p }
  | .flash op => sh.execFlash op
  | .led _ | .write_packet _ | .handle_sysex _ => some sh

/-- What an access leaves of the statics. -/
inductive Made (sh : Shared F) : Effect F → Shared F → Prop
  /-- A live control is stored. -/
  | stored (op : ControlOp F) :
      Made sh (.control op) { sh with control := op.apply sh.control }
  /-- A preset is sent. -/
  | sent (p : Preset F) :
      Made sh (.preset_send p) { sh with preset_channel := sh.preset_channel.offer p }
  /-- At most the request changes. -/
  | other {e : Effect F} (req : Bool) (hcontrol : ∀ op, e ≠ .control op)
      (hsend : ∀ p, e ≠ .preset_send p) : Made sh e { sh with gate_req := req }

/-- What an access of midi_task leaves, by the kind of the effect. -/
theorem exec_made {sh sh' : Shared F} {e : Effect F} (h : sh.exec e = some sh') :
    Made sh e sh' := by
  cases e with
  | control op =>
      cases h
      exact .stored op
  | preset_send p =>
      cases h
      exact .sent p
  | flash op =>
      obtain ⟨req, rfl⟩ := execFlash_cases h
      exact .other req nofun nofun
  | led on =>
      cases h
      exact .other sh.gate_req nofun nofun
  | write_packet p =>
      cases h
      exact .other sh.gate_req nofun nofun
  | handle_sysex call =>
      cases h
      exact .other sh.gate_req nofun nofun

end Shared

/-- Where core1 is: the access it makes next. -/
inductive Pc (F : Type)
  /-- `set_portamento`, with a preset to build from. -/
  | switching (p : Preset F)
  /-- In `build_synth(p)`, with these stores of `seed_from_preset` to come. -/
  | building (p : Preset F) (rest : List (Atom × F))
  /-- `CORE1_RUNNING.store(true)` -/
  | announce
  /-- `PSRAM_GATE_REQ.load()` at the top of the loop. -/
  | top
  /-- `PSRAM_GATE_ACK.store(true)` -/
  | ack_raise
  /-- `while PSRAM_GATE_REQ.load()` -/
  | spin
  /-- `PSRAM_GATE_ACK.store(false)`, then `continue`. -/
  | ack_lower
  /-- `PRESET_CHANNEL.try_receive()` -/
  | receive
  /-- In `synth.process`. -/
  | process
  /-- `AUDIO_CHANNEL.send(..).await` -/
  | send

/-- The task: its program counter and the preset its voice was built from. -/
structure Core1 (F : Type) where
  pc : Pc F
  voice : Option (Preset F)

namespace Core1

variable {F : Type} [F32 F]

/-- The task before its first voice. -/
def start (initial_preset : Preset F) : Core1 F := ⟨.switching initial_preset, none⟩

/-- Only the first voice is built while the task is not live yet. -/
def step (sh : Shared F) (c : Core1 F) : Shared F × Core1 F :=
  match c.pc with
  | .switching p =>
      ({ sh with control := (ControlOp.store .portamento_amount p.portamento).apply sh.control },
        { c with pc := .building p (MidiControl.seed_from_preset p) })
  | .building p ((a, v) :: rest) =>
      ({ sh with control := (ControlOp.store a v).apply sh.control },
        { c with pc := .building p rest })
  | .building p [] => (sh, ⟨if sh.core1_running then .process else .announce, some p⟩)
  | .announce => ({ sh with core1_running := true }, { c with pc := .top })
  | .top => (sh, { c with pc := if sh.gate_req then .ack_raise else .receive })
  | .ack_raise => ({ sh with gate_ack := true }, { c with pc := .spin })
  | .spin => (sh, { c with pc := if sh.gate_req then .spin else .ack_lower })
  | .ack_lower => ({ sh with gate_ack := false }, { c with pc := .top })
  | .receive =>
      match sh.preset_channel.try_receive with
      | some (p, ch) => ({ sh with preset_channel := ch }, ⟨.switching p, none⟩)
      | none => (sh, { c with pc := .process })
  | .process => ({ sh with control := sh.control.take_gate_reset.2 }, { c with pc := .send })
  | .send => (sh, { c with pc := .top })

end Core1

/-- In the part of the code that uses the PSRAM: `build_synth` or `synth.process`. -/
def Pc.Inside {F : Type} : Pc F → Prop
  | .building _ _ | .process => True
  | _ => False

/-- Between raising and lowering `PSRAM_GATE_ACK`. -/
def Pc.Parked {F : Type} : Pc F → Prop
  | .spin | .ack_lower => True
  | _ => False

/-- On the way round the gate: from the check at the top to the check at the top. -/
def Pc.AtGate {F : Type} : Pc F → Prop
  | .top | .ack_raise | .spin | .ack_lower => True
  | _ => False

/-- Not between a preset and the voice built from it. -/
def Pc.Settled {F : Type} : Pc F → Prop
  | .switching _ | .building _ _ => False
  | _ => True

/-- The preset of the rebuild that is going on, and its stores to come. -/
def Pc.pending {F : Type} [F32 F] : Pc F → Option (Preset F × List (Atom × F))
  | .switching p => some (p, (.portamento_amount, p.portamento) :: MidiControl.seed_from_preset p)
  | .building p rest => some (p, rest)
  | _ => none

/-- Where core1 is settled no rebuild is going on. -/
theorem Pc.Settled.pending {F : Type} [F32 F] {pc : Pc F} (h : pc.Settled) : pc.pending = none := by
  cases pc with
  | switching p => exact h.elim
  | building p rest => exact h.elim
  | announce => rfl
  | top => rfl
  | ack_raise => rfl
  | spin => rfl
  | ack_lower => rfl
  | receive => rfl
  | process => rfl
  | send => rfl

namespace Core1

variable {F : Type} [F32 F]

/-! ## What a step can do -/

/-- A step as far as presets and live controls go. -/
inductive Moved (sh : Shared F) (c : Core1 F) : Shared F → Core1 F → Prop
  /-- Somewhere in the loop. -/
  | looped {sh' : Shared F} {pc : Pc F} (hset : c.pc.Settled) (hset' : pc.Settled)
      (hchannel : sh'.preset_channel = sh.preset_channel)
      (hcontrol : sh'.control.value = sh.control.value) : Moved sh c sh' { c with pc := pc }
  /-- A live control is stored. -/
  | stored {p : Preset F} {a : Atom} {v : F} {rest : List (Atom × F)}
      (hpending : c.pc.pending = some (p, (a, v) :: rest)) :
      Moved sh c { sh with control := (ControlOp.store a v).apply sh.control }
        { c with pc := .building p rest }
  /-- The voice is there. -/
  | built {p : Preset F} {pc : Pc F} (hpending : c.pc.pending = some (p, [])) (hset : pc.Settled) :
      Moved sh c sh ⟨pc, some p⟩
  /-- A preset is taken out of the channel. -/
  | taken {p : Preset F} {ch : BoundedList (Preset F) 1} (hset : c.pc.Settled)
      (htake : sh.preset_channel.try_receive = some (p, ch)) :
      Moved sh c { sh with preset_channel := ch } ⟨.switching p, none⟩

/-- Every step is one of the list. -/
theorem step_moved (sh : Shared F) (c : Core1 F) :
    Moved sh c (Core1.step sh c).1 (Core1.step sh c).2 := by
  obtain ⟨pc, v⟩ := c
  cases pc with
  | switching p => exact .stored rfl
  | building p rest =>
      cases rest with
      | cons av rest => exact .stored rfl
      | nil =>
          apply Moved.built rfl
          cases sh.core1_running with
          | true => trivial
          | false => trivial
  | announce => exact .looped trivial trivial rfl rfl
  -- the test of the gate changes nothing but the place
  | top =>
      refine .looped trivial ?_ rfl rfl
      cases sh.gate_req with
      | true => trivial
      | false => trivial
  | ack_raise => exact .looped trivial trivial rfl rfl
  | spin =>
      refine .looped trivial ?_ rfl rfl
      cases sh.gate_req with
      | true => trivial
      | false => trivial
  | ack_lower => exact .looped trivial trivial rfl rfl
  | receive =>
      cases htake : sh.preset_channel.try_receive with
      | none =>
          simp only [Core1.step, htake]
          exact .looped trivial trivial rfl rfl
      | some r =>
          simp only [Core1.step, htake]
          exact .taken trivial htake
  | process => exact .looped trivial trivial rfl rfl
  | send => exact .looped trivial trivial rfl rfl

/-- The steps one by one, without the voice: what each of them tests, and where it leads. -/
inductive Steps (sh : Shared F) : Pc F → Shared F → Pc F → Prop
  | switching {p : Preset F} : Steps sh (.switching p)
      { sh with control := (ControlOp.store .portamento_amount p.portamento).apply sh.control }
      (.building p (MidiControl.seed_from_preset p))
  | store {p : Preset F} {a : Atom} {v : F} {rest : List (Atom × F)} :
      Steps sh (.building p ((a, v) :: rest))
        { sh with control := (ControlOp.store a v).apply sh.control } (.building p rest)
  | first_voice {p : Preset F} (hdead : sh.core1_running = false) :
      Steps sh (.building p []) sh .announce
  | voice {p : Preset F} (hlive : sh.core1_running = true) : Steps sh (.building p []) sh .process
  | announce : Steps sh .announce { sh with core1_running := true } .top
  | requested (hreq : sh.gate_req = true) : Steps sh .top sh .ack_raise
  | unrequested (hreq : sh.gate_req = false) : Steps sh .top sh .receive
  | ack_raise : Steps sh .ack_raise { sh with gate_ack := true } .spin
  | spin (hreq : sh.gate_req = true) : Steps sh .spin sh .spin
  | released (hreq : sh.gate_req = false) : Steps sh .spin sh .ack_lower
  | ack_lower : Steps sh .ack_lower { sh with gate_ack := false } .top
  | receive {p : Preset F} {ch : BoundedList (Preset F) 1}
      (htake : sh.preset_channel.try_receive = some (p, ch)) :
      Steps sh .receive { sh with preset_channel := ch } (.switching p)
  | no_preset (htake : sh.preset_channel.try_receive = none) : Steps sh .receive sh .process
  | process : Steps sh .process { sh with control := sh.control.take_gate_reset.2 } .send
  | send : Steps sh .send sh .top

/-- Every step is one of them. -/
theorem step_steps (sh : Shared F) (c : Core1 F) :
    Steps sh c.pc (Core1.step sh c).1 (Core1.step sh c).2.pc := by
  obtain ⟨pc, v⟩ := c
  cases pc with
  | switching p => exact .switching
  | building p rest =>
      cases rest with
      | cons av rest => exact .store
      | nil =>
          cases hlive : sh.core1_running with
          | true =>
              simp only [Core1.step, hlive, if_true]
              exact .voice hlive
          | false =>
              simp only [Core1.step, hlive, Bool.false_eq_true, if_false]
              exact .first_voice hlive
  | announce => exact .announce
  -- the two tests of the request
  | top =>
      cases hreq : sh.gate_req with
      | true =>
          simp only [Core1.step, hreq, if_true]
          exact .requested hreq
      | false =>
          simp only [Core1.step, hreq, Bool.false_eq_true, if_false]
          exact .unrequested hreq
  | spin =>
      cases hreq : sh.gate_req with
      | true =>
          simp only [Core1.step, hreq, if_true]
          exact .spin hreq
      | false =>
          simp only [Core1.step, hreq, Bool.false_eq_true, if_false]
          exact .released hreq
  | ack_raise => exact .ack_raise
  | ack_lower => exact .ack_lower
  | receive =>
      cases htake : sh.preset_channel.try_receive with
      | none =>
          simp only [Core1.step, htake]
          exact .no_preset htake
      | some r =>
          simp only [Core1.step, htake]
          exact .receive htake
  | process => exact .process
  | send => exact .send

namespace Steps

variable {sh sh' : Shared F} {pc pc' : Pc F}

/-- core1 leaves the gate of the notes and the channel of messages. -/
theorem keeps (h : Steps sh pc sh' pc') :
    sh'.control.gate = sh.control.gate ∧ sh'.ble_channel = sh.ble_channel := by
  cases h with
  | _ => exact ⟨rfl, rfl⟩

/-- The request is for core0 to make. -/
theorem gate_req (h : Steps sh pc sh' pc') : sh'.gate_req = sh.gate_req := by
  cases h with
  | _ => rfl

/-- The acknowledgement is raised and lowered as core1 parks and goes on. -/
theorem gate_ack (h : Steps sh pc sh' pc') (hack : sh.gate_ack = true ↔ pc.Parked) :
    sh'.gate_ack = true ↔ pc'.Parked := by
  cases h with
  | ack_raise => exact iff_of_true rfl trivial
  | ack_lower => exact iff_of_false Bool.false_ne_true id
  | _ => exact hack

/-- Round the gate core1 sees a request again. -/
theorem atGate (h : Steps sh pc sh' pc') (hreq : sh.gate_req = true) (hgate : pc.AtGate) :
    pc'.AtGate := by
  cases h with
  | unrequested hopen =>
      rw [hreq] at hopen
      cases hopen
  | requested _ => trivial
  | ack_raise => trivial
  | spin _ => trivial
  | released _ => trivial
  | ack_lower => trivial
  -- the other places are not at the gate
  | _ => exact hgate.elim

/-- core1 announces itself once and for all. -/
theorem running (h : Steps sh pc sh' pc') (hlive : sh.core1_running = true) :
    sh'.core1_running = true := by
  cases h with
  | announce => rfl
  | _ => exact hlive

/-- Only `process` leads to `send`. -/
theorem ne_send (h : Steps sh pc sh' pc') (hprocess : pc ≠ .process) : pc' ≠ .send := by
  cases h with
  | process => exact absurd rfl hprocess
  | _ => exact nofun

/-- A rebuild begins with all of its stores, and goes on with one less. -/
theorem stores_le (h : Steps sh pc sh' pc') {n : ℕ}
    (hseed : ∀ p : Preset F, (MidiControl.seed_from_preset p).length ≤ n)
    (hpc : ∀ p rest, pc = .building p rest → rest.length ≤ n) :
    ∀ p rest, pc' = .building p rest → rest.length ≤ n := by
  intro q stores hnext
  cases h with
  | switching =>
      cases hnext
      exact hseed q
  | store =>
      cases hnext
      exact Nat.le_of_succ_le (hpc _ _ rfl)
  | _ => cases hnext

end Steps

/-- core1 leaves the gate and the channel of messages. -/
theorem step_keeps (sh : Shared F) (c : Core1 F) :
    (Core1.step sh c).1.control.gate = sh.control.gate
      ∧ (Core1.step sh c).1.ble_channel = sh.ble_channel :=
  (step_steps sh c).keeps

/-! ## core1 left alone -/

/-- core1 gets from the one state to the other by itself. -/
def Alone : Shared F × Core1 F → Shared F × Core1 F → Prop :=
  Relation.ReflTransGen fun a b => b = Core1.step a.1 a.2

/-- One step. -/
theorem Alone.step (a : Shared F × Core1 F) : Alone a (Core1.step a.1 a.2) :=
  Relation.ReflTransGen.single rfl

/-- And then some more. -/
theorem Alone.trans {a b c : Shared F × Core1 F} (h : Alone a b) (h' : Alone b c) : Alone a c :=
  Relation.ReflTransGen.trans h h'

/-- The presets and the gate as they were. -/
structure Undisturbed (sh sh' : Shared F) : Prop where
  preset_channel : sh'.preset_channel = sh.preset_channel
  gate_req : sh'.gate_req = sh.gate_req

omit [F32 F] in
theorem Undisturbed.refl (sh : Shared F) : Undisturbed sh sh := ⟨rfl, rfl⟩

omit [F32 F] in
theorem Undisturbed.trans {sh₁ sh₂ sh₃ : Shared F} (h : Undisturbed sh₁ sh₂)
    (h' : Undisturbed sh₂ sh₃) : Undisturbed sh₁ sh₃ :=
  ⟨h'.preset_channel.trans h.preset_channel, h'.gate_req.trans h.gate_req⟩

/-- A rebuild comes to its end. -/
theorem building_ends (p : Preset F) (rest : List (Atom × F)) (v : Option (Preset F))
    (sh : Shared F) :
    ∃ sh' c, Alone (sh, ⟨.building p rest, v⟩) (sh', c) ∧ Undisturbed sh sh' ∧ c.pc.Settled := by
  induction rest generalizing sh with
  | nil =>
      refine ⟨_, _, Alone.step _, Undisturbed.refl sh, ?_⟩
      cases sh.core1_running with
      | true => trivial
      | false => trivial
  | cons av rest ih =>
      obtain ⟨sh', c, hrun, hsame, hset⟩ :=
        ih { sh with control := (ControlOp.store av.1 av.2).apply sh.control }
      have hfirst := Alone.step (sh, (⟨.building p (av :: rest), v⟩ : Core1 F))
      exact ⟨sh', c, hfirst.trans hrun, ⟨hsame.preset_channel, hsame.gate_req⟩, hset⟩

/-- A switch to another preset comes to its end. -/
theorem switching_ends (p : Preset F) (v : Option (Preset F)) (sh : Shared F) :
    ∃ sh' c, Alone (sh, ⟨.switching p, v⟩) (sh', c) ∧ Undisturbed sh sh' ∧ c.pc.Settled := by
  obtain ⟨sh', c, hrun, hsame, hset⟩ := building_ends p (MidiControl.seed_from_preset p) v
    { sh with control := (ControlOp.store .portamento_amount p.portamento).apply sh.control }
  have hfirst := Alone.step (sh, (⟨.switching p, v⟩ : Core1 F))
  exact ⟨sh', c, hfirst.trans hrun, ⟨hsame.preset_channel, hsame.gate_req⟩, hset⟩

/-- With the gate open, core1 gets from the top of its loop to `try_receive`. -/
theorem top_receives {sh : Shared F} (hreq : sh.gate_req = false) (v : Option (Preset F)) :
    ∃ sh', Alone (sh, ⟨.top, v⟩) (sh', ⟨.receive, v⟩) ∧ Undisturbed sh sh' := by
  have hstep := Alone.step (sh, (⟨.top, v⟩ : Core1 F))
  simp only [Core1.step, hreq, Bool.false_eq_true, if_false] at hstep
  exact ⟨sh, hstep, Undisturbed.refl sh⟩

/-- A step in front of a way to `try_receive`. -/
theorem receives_of_step {sh sh₁ : Shared F} {c c₁ : Core1 F} {v : Option (Preset F)}
    (hstep : Core1.step sh c = (sh₁, c₁)) (hsame : Undisturbed sh sh₁)
    (h : ∃ sh', Alone (sh₁, c₁) (sh', ⟨.receive, v⟩) ∧ Undisturbed sh₁ sh') :
    ∃ sh', Alone (sh, c) (sh', ⟨.receive, v⟩) ∧ Undisturbed sh sh' := by
  obtain ⟨sh', hrun, hsame'⟩ := h
  have hfirst := Alone.step (sh, c)
  rw [hstep] at hfirst
  exact ⟨sh', hfirst.trans hrun, hsame.trans hsame'⟩

/-- With the gate open, core1 gets to `try_receive` from anywhere in its loop. -/
theorem settled_receives {sh : Shared F} {c : Core1 F} (hreq : sh.gate_req = false)
    (hset : c.pc.Settled) :
    ∃ sh', Alone (sh, c) (sh', ⟨.receive, c.voice⟩) ∧ Undisturbed sh sh' := by
  obtain ⟨pc, v⟩ := c
  have htop : ∀ sh : Shared F, sh.gate_req = false →
      ∃ sh', Alone (sh, ⟨.top, v⟩) (sh', ⟨.receive, v⟩) ∧ Undisturbed sh sh' :=
    fun sh hreq => top_receives hreq v
  -- round the gate it lowers its acknowledgement first
  have hlower : ∀ sh : Shared F, sh.gate_req = false →
      ∃ sh', Alone (sh, ⟨.ack_lower, v⟩) (sh', ⟨.receive, v⟩) ∧ Undisturbed sh sh' :=
    fun sh hreq => receives_of_step rfl ⟨rfl, rfl⟩ (htop { sh with gate_ack := false } hreq)
  have hspin : ∀ sh : Shared F, sh.gate_req = false →
      ∃ sh', Alone (sh, ⟨.spin, v⟩) (sh', ⟨.receive, v⟩) ∧ Undisturbed sh sh' := by
    intro sh hreq
    refine receives_of_step ?_ (Undisturbed.refl sh) (hlower sh hreq)
    simp only [Core1.step, hreq, Bool.false_eq_true, if_false]
  have hsend : ∀ sh : Shared F, sh.gate_req = false →
      ∃ sh', Alone (sh, ⟨.send, v⟩) (sh', ⟨.receive, v⟩) ∧ Undisturbed sh sh' :=
    fun sh hreq => receives_of_step rfl (Undisturbed.refl sh) (htop sh hreq)
  cases pc with
  | switching p => exact hset.elim
  | building p rest => exact hset.elim
  | announce => exact receives_of_step rfl ⟨rfl, rfl⟩ (htop { sh with core1_running := true } hreq)
  | top => exact htop sh hreq
  | ack_raise => exact receives_of_step rfl ⟨rfl, rfl⟩ (hspin { sh with gate_ack := true } hreq)
  | spin => exact hspin sh hreq
  | ack_lower => exact hlower sh hreq
  | receive => exact ⟨sh, Relation.ReflTransGen.refl, Undisturbed.refl sh⟩
  | process =>
      exact receives_of_step rfl ⟨rfl, rfl⟩
        (hsend { sh with control := sh.control.take_gate_reset.2 } hreq)
  | send => exact hsend sh hreq

/-- **With the gate open, core1 left alone empties `PRESET_CHANNEL` and ends its
rebuild.** -/
theorem comes_to_rest (sh : Shared F) (c : Core1 F) (hreq : sh.gate_req = false) :
    ∃ sh' c', Alone (sh, c) (sh', c') ∧ sh'.preset_channel.items = [] ∧ c'.pc.Settled := by
  -- first the rebuild that is going on
  have hfirst : ∃ sh₁ c₁, Alone (sh, c) (sh₁, c₁) ∧ Undisturbed sh sh₁ ∧ c₁.pc.Settled := by
    obtain ⟨pc, v⟩ := c
    cases pc with
    | switching p => exact switching_ends p v sh
    | building p rest => exact building_ends p rest v sh
    | announce => exact ⟨sh, _, Relation.ReflTransGen.refl, Undisturbed.refl sh, trivial⟩
    | top => exact ⟨sh, _, Relation.ReflTransGen.refl, Undisturbed.refl sh, trivial⟩
    | ack_raise => exact ⟨sh, _, Relation.ReflTransGen.refl, Undisturbed.refl sh, trivial⟩
    | spin => exact ⟨sh, _, Relation.ReflTransGen.refl, Undisturbed.refl sh, trivial⟩
    | ack_lower => exact ⟨sh, _, Relation.ReflTransGen.refl, Undisturbed.refl sh, trivial⟩
    | receive => exact ⟨sh, _, Relation.ReflTransGen.refl, Undisturbed.refl sh, trivial⟩
    | process => exact ⟨sh, _, Relation.ReflTransGen.refl, Undisturbed.refl sh, trivial⟩
    | send => exact ⟨sh, _, Relation.ReflTransGen.refl, Undisturbed.refl sh, trivial⟩
  obtain ⟨sh₁, c₁, hrun₁, hsame₁, hset₁⟩ := hfirst
  rcases BoundedList.one_cases sh₁.preset_channel with hnil | ⟨q, hq⟩
  · exact ⟨sh₁, c₁, hrun₁, hnil, hset₁⟩
  · -- then the copy in the channel
    obtain ⟨sh₂, hrun₂, hsame₂⟩ := settled_receives (hsame₁.gate_req.trans hreq) hset₁
    rw [← hsame₂.preset_channel] at hq
    obtain ⟨ch, htake, hch⟩ := BoundedList.try_receive_cons hq
    have htaken := Alone.step (sh₂, (⟨.receive, c₁.voice⟩ : Core1 F))
    simp only [Core1.step, htake] at htaken
    obtain ⟨sh₃, c₃, hrun₃, hsame₃, hset₃⟩ := switching_ends q none { sh₂ with preset_channel := ch }
    refine ⟨sh₃, c₃, ((hrun₁.trans hrun₂).trans htaken).trans hrun₃, ?_, hset₃⟩
    rw [hsame₃.preset_channel]
    exact hch

end Core1

end PicoDsp
