/-
The two gate nodes of a voice (`MidiGate` in `control/midi.rs`, wired up in
`dsp/moog.rs`).

A key that is released and struck again between two blocks leaves the gate as it was, and
an envelope that only looked at the gate would not start anew. So `set_gate(false)` also
raises a one-shot flag, and a node that swaps the flag out puts four zeros in front of
its samples.

Both nodes read the gate and swap the one-shot `gate_reset` flag, the filter
node first. A block is described by the calls that reach the controls before it
and between its two nodes; everything a node puts out follows from two facts
about the calls alone: the gate they leave (`gateAfter`), and whether a
`set_gate(false)` is among them that no `reset` followed (`Armed`).

There is one flag for two nodes, and the swap takes it from whoever comes second. What a
node puts out is therefore stated for one node with the flag up or down
(`process_taken`, `process_steady`), and the two nodes of a block are compared
(`process_same_iff`). From these the condition under which both envelopes retrigger comes
out in terms of the calls alone (`Served`), and as an equivalence over all runs, without a
hypothesis. It is a strict condition: a close and reopen that both fall before a block
already violate it, since the filter node has taken the flag before the amp node looks
(`restruck_misses_amp`).
-/
import PicoDsp.Control.MidiControl
import PicoDsp.Lib.Keyboard

set_option autoImplicit false

namespace PicoDsp

open Lib

/-! ## The calls -/

/-- A call on the gate by a message handler. -/
inductive GateCall
  | set_gate (gate : Bool)
  | reset
  deriving DecidableEq

namespace GateCall

variable {F : Type} [F32 F]

def ops : GateCall → List (ControlOp F)
  | .set_gate gate => MidiControl.set_gate gate
  | .reset => MidiControl.reset

/-- The call closes the gate. -/
def Closes : GateCall → Prop
  | .set_gate gate => gate = false
  | .reset => True

/-- The gate after a call. -/
def gate : GateCall → Bool
  | .set_gate gate => gate
  | .reset => false

/-- The controls after a list of calls. -/
def calls (cs : List GateCall) (c : MidiControl F) : MidiControl F :=
  ControlOp.applyAll (cs.flatMap ops) c

@[simp] theorem calls_nil (c : MidiControl F) : calls [] c = c := rfl

/-- One call more. -/
theorem calls_snoc (cs : List GateCall) (e : GateCall) (c : MidiControl F) :
    calls (cs ++ [e]) c = ControlOp.applyAll e.ops (calls cs c) := by
  unfold calls
  rw [List.flatMap_append, ControlOp.applyAll_append, List.flatMap_singleton]

/-- The gate after a list of calls. -/
def gateAfter (cs : List GateCall) (g : Bool) : Bool := (cs.getLast?.map gate).getD g

/-- More calls. -/
theorem gateAfter_append (cs ds : List GateCall) (g : Bool) :
    gateAfter (cs ++ ds) g = gateAfter ds (gateAfter cs g) := by
  unfold gateAfter
  rw [List.getLast?_append]
  cases ds.getLast? with
  | none => rfl
  | some e => rfl

/-- The gate after some calls, whatever else they store. -/
theorem calls_gate (cs : List GateCall) (c : MidiControl F) :
    (calls cs c).gate = gateAfter cs c.gate := by
  rcases List.eq_nil_or_concat cs with rfl | ⟨cs, e, rfl⟩
  · rfl
  · rw [List.concat_eq_append, calls_snoc, gateAfter_append]
    cases e with
    | set_gate gate => exact ControlOp.applyAll_set_gate gate _
    | reset => exact ControlOp.applyAll_reset _

/-- Some `set_gate(false)` that no `reset` followed. -/
def Armed (cs : List GateCall) : Prop :=
  Since (fun _ e => e = .set_gate false) (fun e => e ≠ .reset) cs

/-- The flag after a list of calls that found it down. -/
theorem calls_gate_reset (cs : List GateCall) {c : MidiControl F} (h : c.gate_reset = false) :
    (calls cs c).gate_reset = true ↔ Armed cs := by
  induction cs using List.reverseRecOn with
  | nil =>
      rw [calls_nil, h]
      exact iff_of_false Bool.false_ne_true since_nil
  | append_singleton cs e ih =>
      have hlast : Armed (cs ++ [e]) ↔ e = .set_gate false ∨ (Armed cs ∧ e ≠ .reset) :=
        since_snoc cs e
      rw [calls_snoc, hlast, ← ih]
      cases e with
      | set_gate gate =>
          cases gate with
          | true => simp [ops, MidiControl.set_gate, ControlOp.apply]
          | false => simp [ops, MidiControl.set_gate, ControlOp.apply]
      | reset => simp [ops, MidiControl.reset, ControlOp.apply]

end GateCall

/-! ## The nodes -/

section Nodes

variable {F : Type} [F32 F]

def MidiControl.get_gate (c : MidiControl F) : F := if c.gate then F32.lit 1 else F32.lit 0

/-- `MidiGate::process` on a buffer of `n` samples. -/
def MidiGate.process (n : ℕ) (c : MidiControl F) : List F × MidiControl F :=
  let g := c.get_gate
  let (reset, c) := c.take_gate_reset
  ((List.range n).map fun i => if reset ∧ i < 4 then F32.lit 0 else g, c)

/-- Samples of one channel in a block. -/
def BLOCK_FRAMES : ℕ := 128

/-- The calls around one block of the voice. -/
structure Block where
  /-- Since the amp node of the block before. -/
  before : List GateCall
  /-- Between the filter node and the amp node of this block. -/
  between : List GateCall

/-- What the nodes put out in a block, and the controls after it. -/
structure Heard (F : Type) where
  filter : List F
  amp : List F
  control : MidiControl F

/-- The controls as the filter node finds them. -/
def Block.atFilter (b : Block) (c : MidiControl F) : MidiControl F := GateCall.calls b.before c

/-- The controls as the amp node finds them. -/
def Block.atAmp (b : Block) (c : MidiControl F) : MidiControl F :=
  GateCall.calls b.between (MidiGate.process BLOCK_FRAMES (b.atFilter c)).2

def Block.process (b : Block) (c : MidiControl F) : Heard F where
  filter := (MidiGate.process BLOCK_FRAMES (b.atFilter c)).1
  amp := (MidiGate.process BLOCK_FRAMES (b.atAmp c)).1
  control := (MidiGate.process BLOCK_FRAMES (b.atAmp c)).2

/-- The controls after some blocks. -/
def controlAfter (bs : List Block) : MidiControl F :=
  bs.foldl (fun c b => (b.process c).control) MidiControl.new

/-- One block more. -/
theorem controlAfter_snoc (bs : List Block) (b : Block) :
    (controlAfter (bs ++ [b]) : MidiControl F) = (b.process (controlAfter bs)).control := by
  rw [controlAfter, List.foldl_append]
  rfl

/-- The calls around some blocks, in order. -/
def callsOf (bs : List Block) : List GateCall := bs.flatMap fun b => b.before ++ b.between

/-- The calls around one block more. -/
theorem callsOf_snoc (bs : List Block) (b : Block) :
    callsOf (bs ++ [b]) = callsOf bs ++ (b.before ++ b.between) := by
  rw [callsOf, List.flatMap_append, List.flatMap_singleton]
  rfl

/-- A node keeps the gate. -/
@[simp] theorem process_gate (n : ℕ) (c : MidiControl F) :
    (MidiGate.process n c).2.gate = c.gate := rfl

/-- A node leaves the flag down. -/
@[simp] theorem process_gate_reset (n : ℕ) (c : MidiControl F) :
    (MidiGate.process n c).2.gate_reset = false := rfl

/-- No block ends with the flag up. -/
theorem controlAfter_gate_reset (bs : List Block) :
    (controlAfter bs : MidiControl F).gate_reset = false := by
  rcases List.eq_nil_or_concat bs with rfl | ⟨bs, b, rfl⟩
  · rfl
  · rw [List.concat_eq_append, controlAfter_snoc]
    rfl

/-- The gate the filter node finds, from the calls alone. -/
theorem atFilter_gate (b : Block) (c : MidiControl F) :
    (b.atFilter c).gate = GateCall.gateAfter b.before c.gate := GateCall.calls_gate _ _

/-- The gate the amp node finds, from the calls alone. -/
theorem atAmp_gate (b : Block) (c : MidiControl F) :
    (b.atAmp c).gate = GateCall.gateAfter (b.before ++ b.between) c.gate := by
  rw [Block.atAmp, GateCall.calls_gate, process_gate, atFilter_gate, GateCall.gateAfter_append]

/-- The gate after some blocks. -/
theorem controlAfter_gate (bs : List Block) :
    (controlAfter bs : MidiControl F).gate = GateCall.gateAfter (callsOf bs) false := by
  induction bs using List.reverseRecOn with
  | nil => rfl
  | append_singleton bs b ih =>
      rw [controlAfter_snoc, callsOf_snoc, GateCall.gateAfter_append, ← ih]
      exact atAmp_gate b _

/-- The flag the filter node finds. -/
theorem atFilter_gate_reset (bs : List Block) (b : Block) :
    (b.atFilter (controlAfter bs : MidiControl F)).gate_reset = true
      ↔ GateCall.Armed b.before :=
  GateCall.calls_gate_reset b.before (controlAfter_gate_reset bs)

/-- The flag the amp node finds: the filter node has taken every earlier one. -/
theorem atAmp_gate_reset (b : Block) (c : MidiControl F) :
    (b.atAmp c).gate_reset = true ↔ GateCall.Armed b.between :=
  GateCall.calls_gate_reset b.between (process_gate_reset _ _)

end Nodes

/-- The samples of a node. -/
theorem process_samples {F : Type} [F32 F] (n : ℕ) (c : MidiControl F) :
    (MidiGate.process n c).1
      = (List.range n).map fun i => if c.gate_reset = true ∧ i < 4 then F32.lit 0 else c.get_gate :=
  rfl

/-! ## Samples -/

/-- A sample below 0.5 comes before the first 1.0. -/
def Retriggers (samples : List ℝ) : Prop :=
  ∃ pre x post, samples = pre ++ x :: post ∧ x < 1 / 2 ∧ (1 : ℝ) ∉ pre

/-- The gate test of `Adsr::process` at one sample: the attack starts. -/
def Adsr.starts_attack {F : Type} [F32 F] (last_gate gate_val : F) : Bool :=
  !F32.lt gate_val (F32.lit 0.5) && F32.lt last_gate (F32.lit 0.5)

/-- The samples of a node that finds the flag down are all equal. -/
theorem process_steady {c : MidiControl ℝ} (hflag : c.gate_reset = false) :
    (MidiGate.process BLOCK_FRAMES c).1 = List.replicate BLOCK_FRAMES c.get_gate := by
  have hsample : ∀ i ∈ List.range BLOCK_FRAMES,
      (if c.gate_reset = true ∧ i < 4 then (F32.lit 0 : ℝ) else c.get_gate) = c.get_gate := by
    intro i _
    rw [hflag, if_neg (fun h => Bool.false_ne_true h.1)]
  rw [process_samples, List.map_congr_left hsample, List.map_const', List.length_range]

/-- A node that finds the flag up puts out four zeros, then the gate. -/
theorem process_taken {c : MidiControl ℝ} (hflag : c.gate_reset = true) :
    (MidiGate.process BLOCK_FRAMES c).1
      = List.replicate 4 0 ++ List.replicate (BLOCK_FRAMES - 4) c.get_gate := by
  have hrange : List.range BLOCK_FRAMES
      = List.range 4 ++ (List.range (BLOCK_FRAMES - 4)).map (4 + ·) :=
    List.range_add (n := 4) (m := 124)
  have hlow : ∀ i ∈ List.range 4,
      (if c.gate_reset = true ∧ i < 4 then (F32.lit 0 : ℝ) else c.get_gate) = 0 := by
    intro i hi
    rw [if_pos ⟨hflag, List.mem_range.mp hi⟩]
    simp
  have hhigh : ∀ i ∈ (List.range (BLOCK_FRAMES - 4)).map (4 + ·),
      (if c.gate_reset = true ∧ i < 4 then (F32.lit 0 : ℝ) else c.get_gate) = c.get_gate := by
    intro i hi
    obtain ⟨j, -, rfl⟩ := List.mem_map.mp hi
    rw [if_neg (by omega)]
  rw [process_samples, hrange, List.map_append, List.map_congr_left hlow,
    List.map_congr_left hhigh, List.map_const', List.map_const', List.length_map,
    List.length_range, List.length_range]

/-- An open gate is one. -/
theorem get_gate_open {c : MidiControl ℝ} (h : c.gate = true) : c.get_gate = 1 := by
  rw [MidiControl.get_gate, if_pos h]
  simp

/-- A closed gate is zero. -/
theorem get_gate_closed {c : MidiControl ℝ} (h : c.gate = false) : c.get_gate = 0 := by
  rw [MidiControl.get_gate, h, if_neg Bool.false_ne_true]
  simp

/-- **A node that finds the gate open puts out a low sample first when it finds
the flag up, and only then.** -/
theorem process_retriggers_iff {c : MidiControl ℝ} (hopen : c.gate = true) :
    Retriggers (MidiGate.process BLOCK_FRAMES c).1 ↔ c.gate_reset = true := by
  constructor
  · rintro ⟨pre, x, post, heq, hx, -⟩
    by_contra hflag
    rw [process_steady (Bool.eq_false_iff.mpr hflag), get_gate_open hopen] at heq
    have hmem : x ∈ List.replicate BLOCK_FRAMES (1 : ℝ) := by
      rw [heq]
      exact List.mem_append_right _ List.mem_cons_self
    rw [List.eq_of_mem_replicate hmem] at hx
    norm_num at hx
  · intro hflag
    refine ⟨[], 0, List.replicate 3 0 ++ List.replicate (BLOCK_FRAMES - 4) c.get_gate, ?_, ?_,
      List.not_mem_nil⟩
    · rw [process_taken hflag]
      rfl
    · norm_num

/-- Two nodes that find the same gate, the second with the flag down, agree
unless the first finds an open gate and the flag up. -/
theorem process_same_iff {c d : MidiControl ℝ} (hgate : d.gate = c.gate)
    (hdown : d.gate_reset = false) :
    (MidiGate.process BLOCK_FRAMES c).1 = (MidiGate.process BLOCK_FRAMES d).1
      ↔ (c.gate = true → c.gate_reset = false) := by
  have hsecond : (MidiGate.process BLOCK_FRAMES d).1
      = List.replicate BLOCK_FRAMES c.get_gate := by
    rw [process_steady hdown, MidiControl.get_gate, hgate]
    rfl
  rw [hsecond]
  by_cases hopen : c.gate = true
  · constructor
    · intro hsame _
      -- a retriggering block holds the low sample that a steady one lacks
      by_contra hflag
      rw [Bool.not_eq_false] at hflag
      obtain ⟨pre, x, post, heq, hx, -⟩ := (process_retriggers_iff hopen).mpr hflag
      have hmem : x ∈ List.replicate BLOCK_FRAMES c.get_gate := by
        rw [← hsame, heq]
        exact List.mem_append_right _ List.mem_cons_self
      rw [List.eq_of_mem_replicate hmem, get_gate_open hopen] at hx
      norm_num at hx
    · intro hflag
      exact process_steady (hflag hopen)
  · -- a closed gate puts out zeros with and without the flag
    refine iff_of_true ?_ fun h => absurd h hopen
    have hzero := get_gate_closed (Bool.eq_false_iff.mpr hopen)
    cases hflag : c.gate_reset with
    | false => exact process_steady hflag
    | true =>
        rw [process_taken hflag, hzero, List.replicate_append_replicate]
        rfl

/-! ## Runs -/

/-- Both nodes of the block find the gate open. -/
def Block.Open (b : Block) (c : MidiControl ℝ) : Prop :=
  (b.atFilter c).gate = true ∧ (b.atAmp c).gate = true

/-- Every close and reopen between two open blocks retriggers both envelopes,
and with no call between them the two nodes put out the same samples. -/
structure RetriggersBoth (bs : List Block) : Prop where
  restrike : ∀ pre b₁ b₂ post, bs = pre ++ b₁ :: b₂ :: post →
    b₁.Open (controlAfter pre) → (∃ e ∈ b₂.before, e.Closes) →
    b₂.Open (controlAfter (pre ++ [b₁])) →
    Retriggers (b₂.process (controlAfter (pre ++ [b₁]))).filter
      ∧ Retriggers (b₂.process (controlAfter (pre ++ [b₁]))).amp
  same : ∀ pre b post, bs = pre ++ b :: post → b.between = [] →
    (b.process (controlAfter pre : MidiControl ℝ)).filter = (b.process (controlAfter pre)).amp

/-- The same gate, from the calls alone. -/
def Block.FoundOpen (b : Block) (past : List GateCall) : Prop :=
  GateCall.gateAfter (past ++ b.before) false = true
    ∧ GateCall.gateAfter (past ++ (b.before ++ b.between)) false = true

/-- Whether both nodes find the gate open depends on the calls alone. -/
theorem open_iff (b : Block) (pre : List Block) :
    b.Open (controlAfter pre) ↔ b.FoundOpen (callsOf pre) := by
  rw [Block.Open, Block.FoundOpen, atFilter_gate, atAmp_gate, controlAfter_gate,
    ← GateCall.gateAfter_append, ← GateCall.gateAfter_append]

/-- The calls of a run on which the flag serves both nodes. -/
structure Served (bs : List Block) : Prop where
  /-- A close and reopen between two open blocks arms the flag anew for each node. -/
  restrike : ∀ pre b₁ b₂ post, bs = pre ++ b₁ :: b₂ :: post → b₁.FoundOpen (callsOf pre) →
    (∃ e ∈ b₂.before, e.Closes) → b₂.FoundOpen (callsOf (pre ++ [b₁])) →
    GateCall.Armed b₂.before ∧ GateCall.Armed b₂.between
  /-- Where the nodes follow each other at once, an open gate was not armed. -/
  same : ∀ pre b post, bs = pre ++ b :: post → b.between = [] →
    GateCall.gateAfter (callsOf pre ++ b.before) false = true → ¬ GateCall.Armed b.before

/-- **Both envelopes retrigger exactly on the runs whose flag serves both nodes.** The two
nodes read one flag, and the first one takes it back, so the second finds it up only
when a call between them has armed it again. The condition is about the calls alone, and
the run may mix the calls of any note with the blocks in any way. -/
theorem retriggers_both_iff (bs : List Block) : RetriggersBoth bs ↔ Served bs := by
  -- a node retriggers when the flag is up where it reads it
  have hrestrike : ∀ (pre : List Block) (b₁ b₂ : Block),
      b₂.Open (controlAfter (pre ++ [b₁])) →
      ((Retriggers (b₂.process (controlAfter (pre ++ [b₁]))).filter
          ∧ Retriggers (b₂.process (controlAfter (pre ++ [b₁]))).amp)
        ↔ GateCall.Armed b₂.before ∧ GateCall.Armed b₂.between) := by
    intro pre b₁ b₂ hopen
    have hfilter := process_retriggers_iff hopen.1
    have hamp := process_retriggers_iff hopen.2
    rw [atFilter_gate_reset] at hfilter
    rw [atAmp_gate_reset] at hamp
    exact and_congr hfilter hamp
  -- the filter takes the flag down, so the node behind it finds none
  have hsame : ∀ (pre : List Block) (b : Block), b.between = [] →
      ((b.process (controlAfter pre : MidiControl ℝ)).filter = (b.process (controlAfter pre)).amp
        ↔ (GateCall.gateAfter (callsOf pre ++ b.before) false = true →
            ¬ GateCall.Armed b.before)) := by
    intro pre b hnone
    have hgate : (b.atAmp (controlAfter pre : MidiControl ℝ)).gate
        = (b.atFilter (controlAfter pre : MidiControl ℝ)).gate := by
      rw [atAmp_gate, atFilter_gate, hnone, List.append_nil]
    have hdown : (b.atAmp (controlAfter pre : MidiControl ℝ)).gate_reset = false := by
      rw [Block.atAmp, hnone]
      rfl
    have hiff := process_same_iff hgate hdown
    rw [atFilter_gate, controlAfter_gate, ← GateCall.gateAfter_append, ← Bool.not_eq_true,
      atFilter_gate_reset] at hiff
    exact hiff
  constructor
  · intro h
    refine ⟨?_, ?_⟩
    · intro pre b₁ b₂ post heq hfirst hclose hsecond
      rw [← open_iff] at hfirst hsecond
      exact (hrestrike pre b₁ b₂ hsecond).mp (h.restrike pre b₁ b₂ post heq hfirst hclose hsecond)
    · intro pre b post heq hnone
      exact (hsame pre b hnone).mp (h.same pre b post heq hnone)
  · intro h
    refine ⟨?_, ?_⟩
    · intro pre b₁ b₂ post heq hfirst hclose hsecond
      refine (hrestrike pre b₁ b₂ hsecond).mpr ?_
      rw [open_iff] at hfirst hsecond
      exact h.restrike pre b₁ b₂ post heq hfirst hclose hsecond
    · intro pre b post heq hnone
      exact (hsame pre b hnone).mpr (h.same pre b post heq hnone)

/-- A key held through one block, released and struck again before the next. -/
def restruck : List Block :=
  [⟨[.set_gate true], []⟩, ⟨[.set_gate false, .set_gate true], []⟩]

/-- The amp node of the second block puts out nothing but ones. -/
theorem restruck_misses_amp : ¬ RetriggersBoth restruck := by
  intro h
  have hfirst : (⟨[.set_gate true], []⟩ : Block).Open (controlAfter []) := by
    rw [open_iff]
    exact ⟨rfl, rfl⟩
  have hsecond : (⟨[.set_gate false, .set_gate true], []⟩ : Block).Open
      (controlAfter ([] ++ [⟨[.set_gate true], []⟩])) := by
    rw [open_iff]
    exact ⟨rfl, rfl⟩
  obtain ⟨-, hamp⟩ := h.restrike [] _ _ [] rfl hfirst
    ⟨.set_gate false, List.mem_cons_self, rfl⟩ hsecond
  have hflag := (process_retriggers_iff hsecond.2).mp hamp
  rw [atAmp_gate_reset] at hflag
  exact since_nil hflag

end PicoDsp
