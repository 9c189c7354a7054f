/-
The PSRAM gate between the cores (`data/storage.rs`, `tasks/core1.rs`).

core0 rewrites flash sectors, each inside a lock of its own, and core1 keeps off
the PSRAM meanwhile. The two flags are used again for the next sector without a
second handshake, so core0 may enter on the acknowledgement of the sector
before. What makes that safe is an invariant on both program counters
(`Gated`): while core0 holds the lock, core1 is on its way round the gate, and
it re-checks `PSRAM_GATE_REQ` before it gets off it.

core0's side is a list of accesses still to come, as a write leaves them, and where it is in
the protocol is a phase of four (`GatePhase`), with the accesses that are allowed in each.
That a write follows the protocol is proved of the list once, for any number of sectors
(`shaped_writeOps`), by a walk over one sector; after that core0 is only its phase. For
each access to the gate there is one lemma that says where it is allowed and where
it leads, and no proof about the gate looks at the table of phases again.

core1's side is its own program counter. `Gated` ties each flag to where a core is, the
request to the phase of core0 and the acknowledgement to a parked core1, and says that
core1 is on its way round the gate while the lock is held; it is preserved by an access of
either core (`Gated.core0`, `Gated.core1`). The critical case is the stale acknowledgement:
core1 has left its spin, has not lowered the flag yet, and core0 asks again.

`psram_exclusion` is about two cores and any number of writes, over all interleavings
of single accesses: while core0 holds the lock core1 is outside of the code that uses the
PSRAM, and stays outside until the release.
-/
import PicoDsp.Lib.Transition
import PicoDsp.Data.StorageSpec
import PicoDsp.System.Core1

set_option autoImplicit false

namespace PicoDsp

open Lib Storage

/-! ## core0's side of the protocol -/

/-- Where core0 is in `lock_core1_off_psram` .. `unlock_core1`. -/
inductive GatePhase
  | idle
  /-- `PSRAM_GATE_REQ` is up. -/
  | requested
  /-- core1 is known to run; the wait for `PSRAM_GATE_ACK` is next. -/
  | asking
  /-- The lock is held. -/
  | locked
  deriving DecidableEq

/-- The accesses allowed in a phase, and the phase after them: the flash is
erased and programmed under the lock only. -/
def GatePhase.next : GatePhase → FlashOp → Option GatePhase
  | .idle, .gate_req => some .requested
  | .requested, .gate_running => some .asking
  | .asking, .gate_ack => some .locked
  | .locked, .gate_release => some .idle
  | .locked, .erase _ | .locked, .program _ _ | .locked, .reinit => some .locked
  | .idle, .read _ _ | .idle, .underflow | .idle, .write_raw _ => some .idle
  | _, _ => none

/-- The accesses still to come follow the protocol. -/
def Shaped : GatePhase → List FlashOp → Prop
  | ph, [] => ph = .idle
  | ph, op :: ops => ∃ ph', ph.next op = some ph' ∧ Shaped ph' ops

/-- One write behind another. -/
theorem Shaped.append {ph : GatePhase} {ops ops' : List FlashOp} (h : Shaped ph ops)
    (h' : Shaped .idle ops') : Shaped ph (ops ++ ops') := by
  induction ops generalizing ph with
  | nil =>
      rw [show ph = .idle from h]
      exact h'
  | cons op ops ih =>
      obtain ⟨ph', hnext, hrest⟩ := h
      exact ⟨ph', hnext, ih hrest⟩

/-- A sector is written under one lock. -/
theorem shaped_sectorOps (data : List UInt8) (off : ℕ) : Shaped .idle (sectorOps data off) :=
  ⟨_, rfl, _, rfl, _, rfl, _, rfl, _, rfl, _, rfl, _, rfl, rfl⟩

/-- `write_raw` follows the protocol, whatever the number of sectors. -/
theorem shaped_writeOps (data : List UInt8) : Shaped .idle (writeOps data) := by
  refine ⟨.idle, rfl, ?_⟩
  unfold sectorsOps
  induction (List.range (sectorCount data)).map (· * SECTOR_SIZE) with
  | nil => exact rfl
  | cons off offs ih =>
      rw [List.flatMap_cons]
      exact (shaped_sectorOps data off).append ih

/-- An access to the gate. -/
def isGate : FlashOp → Bool
  | .gate_req | .gate_running | .gate_ack | .gate_release => true
  | _ => false

/-- core0 is between the return of `lock_core1_off_psram` and `unlock_core1`:
the unlock is the next access to the gate it makes. -/
def HoldsLock (todo : List FlashOp) : Prop := todo.find? isGate = some .gate_release

instance (todo : List FlashOp) : Decidable (HoldsLock todo) :=
  inferInstanceAs (Decidable (todo.find? isGate = some .gate_release))

/-- An access that is none to the gate keeps the phase. -/
theorem GatePhase.next_quiet {ph ph' : GatePhase} {op : FlashOp} (h : ph.next op = some ph')
    (hop : isGate op = false) : ph' = ph := by
  cases op <;> cases ph <;> simp_all [GatePhase.next, isGate]

/-- The lock is released from the locked phase, and nothing else is done to the
gate there. -/
theorem GatePhase.next_gate {ph ph' : GatePhase} {op : FlashOp} (h : ph.next op = some ph')
    (hop : isGate op = true) : op = .gate_release ↔ ph = .locked := by
  cases op <;> cases ph <;> simp [GatePhase.next, isGate] at h hop ⊢

/-! One lemma for each access to the gate: where it is allowed, and where it leads. -/

section

variable {ph ph' : GatePhase}

/-- The request is made when nothing is going on. -/
theorem GatePhase.next_req (h : ph.next .gate_req = some ph') : ph = .idle ∧ ph' = .requested := by
  cases ph <;> simp_all [GatePhase.next]

/-- Behind the request core0 looks whether core1 is up. -/
theorem GatePhase.next_running (h : ph.next .gate_running = some ph') :
    ph = .requested ∧ ph' = .asking := by
  cases ph <;> simp_all [GatePhase.next]

/-- Behind that it waits for the acknowledgement, and has the lock. -/
theorem GatePhase.next_ack (h : ph.next .gate_ack = some ph') : ph = .asking ∧ ph' = .locked := by
  cases ph <;> simp_all [GatePhase.next]

/-- Once core1 is known to run there is only the wait. -/
theorem GatePhase.asking_next {op : FlashOp} (h : GatePhase.asking.next op = some ph) :
    op = .gate_ack ∧ ph = .locked := by
  cases op <;> simp_all [GatePhase.next]

/-- The release ends it. -/
theorem GatePhase.next_release (h : ph.next .gate_release = some ph') :
    ph = .locked ∧ ph' = .idle := by
  cases ph <;> simp_all [GatePhase.next]

end

/-- An access that is none to the gate leaves the statics alone. -/
theorem execFlash_quiet {F : Type} {sh sh' : Shared F} {op : FlashOp} (hop : isGate op = false)
    (h : sh.execFlash op = some sh') : sh' = sh := by
  cases op <;> simp_all [Shared.execFlash, isGate]

/-- The phase can be read off the accesses to come. -/
theorem Shaped.holdsLock_iff {ph : GatePhase} {ops : List FlashOp} (h : Shaped ph ops) :
    HoldsLock ops ↔ ph = .locked := by
  induction ops generalizing ph with
  | nil =>
      rw [show ph = .idle from h]
      simp [HoldsLock]
  | cons op ops ih =>
      obtain ⟨ph', hnext, hrest⟩ := h
      cases hop : isGate op with
      | true =>
          rw [← GatePhase.next_gate hnext hop, HoldsLock, List.find?_cons_of_pos hop,
            Option.some.injEq]
      | false =>
          rw [← GatePhase.next_quiet hnext hop, ← ih hrest, HoldsLock, HoldsLock,
            List.find?_cons_of_neg (by rw [hop]; exact Bool.false_ne_true)]

/-! ## The invariant of the two cores -/

section Gate

variable {F : Type}

/-- core1 runs, `PSRAM_GATE_REQ` is up from the request to the release,
`PSRAM_GATE_ACK` is up while core1 is parked, and core1 stays on its way round
the gate while core0 holds the lock. -/
structure Gated (ph : GatePhase) (sh : Shared F) (pc : Pc F) : Prop where
  running : sh.core1_running = true
  req : sh.gate_req = true ↔ ph ≠ .idle
  ack : sh.gate_ack = true ↔ pc.Parked
  locked : ph = .locked → pc.AtGate

/-- A parked core1 is at the gate. -/
theorem Pc.Parked.atGate {pc : Pc F} (h : pc.Parked) : pc.AtGate := by
  cases pc with
  | spin => trivial
  | ack_lower => trivial
  | switching p => exact h.elim
  | building p rest => exact h.elim
  | announce => exact h.elim
  | top => exact h.elim
  | ack_raise => exact h.elim
  | receive => exact h.elim
  | process => exact h.elim
  | send => exact h.elim

/-- At the gate core1 is outside of the code that uses the PSRAM. -/
theorem Pc.AtGate.not_inside {pc : Pc F} (h : pc.AtGate) : ¬ pc.Inside := by
  cases pc with
  | building p rest => exact h.elim
  | process => exact h.elim
  | switching p => exact fun hin => hin
  | announce => exact fun hin => hin
  | top => exact fun hin => hin
  | ack_raise => exact fun hin => hin
  | spin => exact fun hin => hin
  | ack_lower => exact fun hin => hin
  | receive => exact fun hin => hin
  | send => exact fun hin => hin

/-- Only the flags matter. -/
theorem Gated.congr {ph : GatePhase} {sh sh' : Shared F} {pc : Pc F} (h : Gated ph sh pc)
    (hrunning : sh'.core1_running = sh.core1_running) (hreq : sh'.gate_req = sh.gate_req)
    (hack : sh'.gate_ack = sh.gate_ack) : Gated ph sh' pc := by
  refine ⟨?_, ?_, ?_, h.locked⟩
  · rw [hrunning]
    exact h.running
  · rw [hreq]
    exact h.req
  · rw [hack]
    exact h.ack

/-- **An access of core0 keeps the invariant.** When it enters on an old
acknowledgement, core1 is still parked. -/
theorem Gated.core0 {ph ph' : GatePhase} {sh sh' : Shared F} {pc : Pc F} {op : FlashOp}
    (h : Gated ph sh pc) (hnext : ph.next op = some ph') (hexec : sh.execFlash op = some sh') :
    Gated ph' sh' pc := by
  cases hop : isGate op with
  | false =>
      -- not at the gate: the statics stay as they are
      rw [execFlash_quiet hop hexec, GatePhase.next_quiet hnext hop]
      exact h
  | true =>
      cases op with
      | gate_req =>
          cases hexec
          obtain ⟨rfl, rfl⟩ := GatePhase.next_req hnext
          exact ⟨h.running, by simp, h.ack, fun hl => absurd hl (by decide)⟩
      | gate_running =>
          cases hexec
          obtain ⟨rfl, rfl⟩ := GatePhase.next_running hnext
          have hreq : sh.gate_req = true := h.req.mpr (by decide)
          exact ⟨h.running, by simp [hreq], h.ack, fun hl => absurd hl (by decide)⟩
      | gate_ack =>
          obtain ⟨rfl, rfl⟩ := GatePhase.next_ack hnext
          have hwait : (if sh.gate_ack then some sh else none) = some sh' := hexec
          by_cases hack : sh.gate_ack = true
          · rw [if_pos hack] at hwait
            cases hwait
            have hreq : sh.gate_req = true := h.req.mpr (by decide)
            exact ⟨h.running, by simp [hreq], h.ack, fun _ => (h.ack.mp hack).atGate⟩
          · rw [if_neg hack] at hwait
            cases hwait
      | gate_release =>
          cases hexec
          obtain ⟨rfl, rfl⟩ := GatePhase.next_release hnext
          exact ⟨h.running, by simp, h.ack, fun hl => absurd hl (by decide)⟩
      | read addr len => cases hop
      | underflow => cases hop
      | write_raw data => cases hop
      | erase addr => cases hop
      | program addr data => cases hop
      | reinit => cases hop

variable [F32 F]

/-- **A step of core1 keeps the invariant.** At the top of its loop it sees
`PSRAM_GATE_REQ` and goes round again as long as core0 holds the lock. -/
theorem Gated.core1 {ph : GatePhase} {sh : Shared F} {c : Core1 F} (h : Gated ph sh c.pc) :
    Gated ph (Core1.step sh c).1 (Core1.step sh c).2.pc := by
  have hsteps := Core1.step_steps sh c
  refine ⟨hsteps.running h.running, ?_, hsteps.gate_ack h.ack, ?_⟩
  · rw [hsteps.gate_req]
    exact h.req
  · -- a locked gate is a requested one, so the test at the top cannot miss it
    rintro rfl
    exact hsteps.atGate (h.req.mpr (by decide)) (h.locked rfl)

end Gate

/-! ## Two cores and any number of writes -/

/-- core0 with the accesses of the current `write_raw` to come, and core1. -/
structure GateSys (F : Type) where
  shared : Shared F
  core1 : Core1 F
  flash : Flash
  todo : List FlashOp

inductive GateLabel (F : Type)
  /-- core0 calls `write_raw(data)`. -/
  | write (data : List UInt8)
  /-- A preset is pushed for core1. -/
  | send (p : Preset F)
  /-- core0 makes its next access. -/
  | core0
  | core1

namespace GateSys

variable {F : Type} [F32 F]

def step (s : GateSys F) : GateLabel F → Option (GateSys F)
  | .write data =>
      match s.todo, (write_raw data s.flash).2 with
      | [], some (_, flash) => some { s with flash := flash, todo := (write_raw data s.flash).1 }
      | _, _ => none
  | .send p =>
      some { s with
        shared := { s.shared with preset_channel := s.shared.preset_channel.offer p } }
  | .core0 =>
      match s.todo with
      | [] => none
      | op :: ops =>
          (s.shared.execFlash op).map fun sh =>
            -- without core1 there is no wait for its acknowledgement
            { s with
              shared := sh
              todo := if op = .gate_running ∧ ¬ s.shared.core1_running then ops.tail else ops }
  | .core1 =>
      some { s with
        shared := (Core1.step s.shared s.core1).1
        core1 := (Core1.step s.shared s.core1).2 }

/-- core1 is live and somewhere in its loop, and no write is going on. -/
structure Start (s : GateSys F) : Prop where
  running : s.shared.core1_running = true
  req : s.shared.gate_req = false
  ack : s.shared.gate_ack = false
  core1 : ¬ s.core1.pc.Parked
  todo : s.todo = []

/-- A write is entered when the one before is over. -/
theorem step_write {s : GateSys F} (data : List UInt8) (h : s.todo = []) :
    s.step (.write data)
      = some { s with flash := written s.flash data, todo := writeOps data } := by
  rw [GateSys.step, write_raw_run, h]

/-- The protocol is followed, and the invariant of the cores holds. -/
def Inv (s : GateSys F) : Prop := ∃ ph, Shaped ph s.todo ∧ Gated ph s.shared s.core1.pc

omit [F32 F] in
/-- Nothing is going on at the start. -/
theorem Start.inv {s : GateSys F} (h : Start s) : Inv s := by
  refine ⟨.idle, ?_, h.running, ?_, ?_, fun hl => absurd hl (by decide)⟩
  · rw [h.todo]
    rfl
  · simp [h.req]
  · rw [h.ack]
    exact iff_of_false Bool.false_ne_true h.core1

/-- **The step lemma.** -/
theorem Inv.step {s s' : GateSys F} {l : GateLabel F} (h : Inv s) (hstep : s.step l = some s') :
    Inv s' := by
  obtain ⟨ph, hshape, hgated⟩ := h
  cases l with
  | write data =>
      cases htodo : s.todo with
      | nil =>
          rw [step_write data htodo] at hstep
          cases hstep
          rw [htodo] at hshape
          rw [show ph = .idle from hshape] at hgated
          exact ⟨.idle, shaped_writeOps data, hgated⟩
      | cons op ops =>
          rw [GateSys.step, htodo] at hstep
          cases hstep
  | send p =>
      cases hstep
      exact ⟨ph, hshape, hgated.congr rfl rfl rfl⟩
  | core0 =>
      cases htodo : s.todo with
      | nil =>
          rw [GateSys.step, htodo] at hstep
          cases hstep
      | cons op ops =>
          rw [htodo] at hshape
          obtain ⟨ph', hnext, hrest⟩ := hshape
          rw [GateSys.step, htodo] at hstep
          obtain ⟨sh, hexec, rfl⟩ := Option.map_eq_some_iff.mp hstep
          refine ⟨ph', ?_, hgated.core0 hnext hexec⟩
          -- core1 is live, so core0 does not skip the wait
          have hrun : ¬ (op = .gate_running ∧ ¬ s.shared.core1_running = true) :=
            fun hskip => hskip.2 hgated.running
          simp only [if_neg hrun]
          exact hrest
  | core1 =>
      cases hstep
      exact ⟨ph, hshape, hgated.core1⟩

/-- So the invariant holds in every state of every run. -/
theorem Reached.inv {s t : GateSys F} (hs : Start s)
    (h : Transition.Reached (GateSys.step (F := F)) s t) : Inv t :=
  h.invariant (fun _ _ _ hinv _ hstep => hinv.step hstep) hs.inv

/-- **While core0 holds the lock core1 is outside the code that uses the PSRAM,
and does not get in before the lock is released; and a core1 that spins has its
acknowledgement up.** -/
theorem psram_exclusion {s t : GateSys F} (hs : Start s)
    (h : Transition.Reached (GateSys.step (F := F)) s t) :
    (HoldsLock t.todo →
      ¬ t.core1.pc.Inside
        ∧ ∀ ls u, Transition.RunBy (GateSys.step (F := F)) (fun v _ => HoldsLock v.todo) t ls u →
          ¬ u.core1.pc.Inside)
    ∧ (t.core1.pc = .spin → t.shared.gate_ack = true) := by
  have hinv := Reached.inv hs h
  have hout : ∀ v : GateSys F, Inv v → HoldsLock v.todo → ¬ v.core1.pc.Inside := by
    rintro v ⟨ph, hshape, hgated⟩ hlock
    exact (hgated.locked (hshape.holdsLock_iff.mp hlock)).not_inside
  refine ⟨fun hlock => ⟨hout t hinv hlock, ?_⟩, ?_⟩
  · intro ls u hrun
    -- a step from a locked state leaves core1 at the gate, the release included
    have hkeep : ∀ (v : GateSys F) l v', (Inv v ∧ ¬ v.core1.pc.Inside) → HoldsLock v.todo →
        v.step l = some v' → Inv v' ∧ ¬ v'.core1.pc.Inside := by
      rintro v l v' ⟨hv, hvout⟩ hvlock hstep
      refine ⟨hv.step hstep, ?_⟩
      cases l with
      | core1 =>
          have hsame : v'.todo = v.todo := by
            cases hstep
            rfl
          exact hout v' (hv.step hstep) (by rw [hsame]; exact hvlock)
      | write data =>
          have hsame : v'.core1 = v.core1 := by
            rw [GateSys.step, write_raw_run] at hstep
            split at hstep
            · cases hstep
              rfl
            · cases hstep
          rw [hsame]
          exact hvout
      | send p =>
          cases hstep
          exact hvout
      | core0 =>
          have hsame : v'.core1 = v.core1 := by
            cases htodo : v.todo with
            | nil =>
                rw [GateSys.step, htodo] at hstep
                cases hstep
            | cons op ops =>
                rw [GateSys.step, htodo] at hstep
                obtain ⟨sh, -, rfl⟩ := Option.map_eq_some_iff.mp hstep
                rfl
          rw [hsame]
          exact hvout
    exact (hrun.invariant hkeep ⟨hinv, hout t hinv hlock⟩).2
  · intro hspin
    obtain ⟨ph, -, hgated⟩ := hinv
    rw [hspin] at hgated
    exact hgated.ack.mpr trivial

/-- core1 at the top of its loop, and nothing going on. -/
def live (p : Preset F) : GateSys F where
  shared := ⟨.new, .new, .new, false, false, true⟩
  core1 := ⟨.top, some p⟩
  flash _ := 0xFF
  todo := []

/-- A device in which core1 is up and nothing is written. -/
theorem live_start (p : Preset F) : Start (live p) :=
  ⟨rfl, rfl, rfl, fun hp => hp, rfl⟩

/-- core0 in the lock of the first sector, with core1 parked. -/
theorem psram_exclusion_parked : ∃ t : GateSys ℝ,
    Transition.Reached (GateSys.step (F := ℝ)) (live (default_preset.map F32.lit)) t
      ∧ HoldsLock t.todo ∧ t.core1.pc = .spin ∧ ¬ t.core1.pc.Inside
      ∧ t.shared.gate_ack = true := by
  have hrun : Transition.Reached (GateSys.step (F := ℝ)) (live (default_preset.map F32.lit)) _ :=
    ⟨[.write [0], .core0, .core0, .core1, .core1, .core0, .core0],
      .cons trivial (step_write [0] rfl) <| .cons trivial rfl <| .cons trivial rfl <|
      .cons trivial rfl <| .cons trivial rfl <| .cons trivial rfl <| .cons trivial rfl <|
      .nil _⟩
  have hsafe := psram_exclusion (live_start _) hrun
  exact ⟨_, hrun, rfl, rfl, (hsafe.1 rfl).1, hsafe.2 rfl⟩

end GateSys

end PicoDsp
