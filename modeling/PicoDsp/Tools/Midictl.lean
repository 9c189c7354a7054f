/-
The commands `dump` and `writeback` of `midictl` (`tools/midictl/src/main.rs`).

The input callback gathers the bytes since the last F0 and raises a flag at an F7; the
main thread waits for the flag, or for eight seconds, and then looks at what was
gathered. `Midictl.main` is one move of the main thread, with the bytes that it sends,
and `Midictl.timeout` the move after the eight seconds. Ports, printing and the other
commands are left out.

A waiting loop is a phase of its own, and the clock a move that can come at any moment:
so a statement about `midictl` holds however slow the device or the driver is. What the
program makes of an incomplete message matters as much as what it makes of a complete
one, because after eight seconds it looks at whatever is there. The checks are therefore
proved about every part of a message (`check_dump_part`, `check_reply_part`): the last
byte of a message is its only F7, and a part without it passes none of them.

The callback keeps the bytes of the last message only, so the program must clear them in
front of the second request of a `writeback`; that move has a phase of its own too.
-/
import PicoDsp.Control.DumpWriteBack
import PicoDsp.Lib.Slice

set_option autoImplicit false

namespace PicoDsp

open Lib

/-- The two commands that talk to the device in both directions. -/
inductive Command
  | dump
  | writeback
  deriving DecidableEq

/-- How the program ends. -/
inductive Outcome
  /-- `BAD framing` -/
  | bad_framing
  /-- The nibbles of the payload, and the words of the header. -/
  | report (nibbles : ℕ) (magic version num_presets : UInt32)
  /-- `dump failed`, an assertion. -/
  | dump_failed
  /-- An index past the end. -/
  | panicked
  | write_success
  | write_error (code : UInt8)
  | unexpected_reply
  deriving DecidableEq

/-- `buf` and `done`, shared with the callback. -/
structure Collector where
  buf : List UInt8
  done : Bool
  deriving DecidableEq

namespace Collector

def new : Collector := ⟨[], false⟩

/-- The body of the loop of the callback. -/
def push (self : Collector) (x : UInt8) : Collector :=
  if x = 0xF0 then { self with buf := [x] }
  else if self.buf.isEmpty then self
  else { buf := self.buf ++ [x], done := self.done || x = 0xF7 }

def callback (self : Collector) (msg : List UInt8) : Collector := msg.foldl push self

end Collector

inductive Phase
  /-- In front of the request. -/
  | asking
  /-- In the first waiting loop. -/
  | awaiting_dump
  /-- `done` is lowered, and `buf` still full. -/
  | clearing (dumped : List UInt8)
  /-- In the loop over the chunks. -/
  | sending (chunks : List (List UInt8))
  /-- In the second waiting loop. -/
  | awaiting_reply
  | finished (o : Outcome)

/-- The process has ended. -/
def Phase.ended : Phase → Bool
  | .finished _ => true
  | _ => false

structure Midictl where
  command : Command
  phase : Phase
  col : Collector

namespace Midictl

def DUMP_REQ : List UInt8 := [0xF0, 0x7D, 0x01, 0x01, 0xF7]

def CHUNK : ℕ := 240

/-- The closure `de`; `none` is an index past the end. -/
def de (payload : List UInt8) (i : ℕ) : Option UInt8 := do
  let hi ← payload[i * 2]?
  let lo ← payload[i * 2 + 1]?
  some ((hi <<< 4) ||| (lo &&& 0x0F))

/-- `u32::from_le_bytes` of four bytes from `i` on. -/
def word (payload : List UInt8) (i : ℕ) : Option UInt32 := do
  let b0 ← de payload i
  let b1 ← de payload (i + 1)
  let b2 ← de payload (i + 2)
  let b3 ← de payload (i + 3)
  some (Bytes.from_le_bytes b0 b1 b2 b3)

/-- The framing that `dump` asks for. -/
def Framed (b : List UInt8) : Prop :=
  6 ≤ b.length ∧ b[0]? = some 0xF0 ∧ b[1]? = some 0x7D ∧ b[2]? = some 0x01 ∧ b[3]? = some 0x02
    ∧ b.getLast? = some 0xF7

instance (b : List UInt8) : Decidable (Framed b) :=
  inferInstanceAs (Decidable (6 ≤ b.length ∧ b[0]? = some 0xF0 ∧ b[1]? = some 0x7D
    ∧ b[2]? = some 0x01 ∧ b[3]? = some 0x02 ∧ b.getLast? = some 0xF7))

/-- What `dump` makes of the bytes. -/
def check_dump (b : List UInt8) : Outcome :=
  if Framed b then
    match slice b 4 (b.length - 1) with
    | none => .panicked
    | some payload =>
        match word payload 0, word payload 4, word payload 8 with
        | some magic, some version, some num => .report payload.length magic version num
        | _, _, _ => .panicked
  else .bad_framing

/-- The assertion of `writeback`. -/
def Dumped (b : List UInt8) : Prop :=
  6 < b.length ∧ b[3]? = some 0x02 ∧ b.getLast? = some 0xF7

instance (b : List UInt8) : Decidable (Dumped b) :=
  inferInstanceAs (Decidable (6 < b.length ∧ b[3]? = some 0x02 ∧ b.getLast? = some 0xF7))

/-- The match on the reply. -/
def check_reply (reply : List UInt8) : Outcome :=
  if reply = [0xF0, 0x7D, 0x01, 0x03, 0xF7] then .write_success
  else
    match reply with
    | [a, b, c, d, code, e] =>
        if [a, b, c, d, e] = [0xF0, 0x7D, 0x01, 0x04, 0xF7] then .write_error code
        else .unexpected_reply
    | _ => .unexpected_reply

/-- Behind the first waiting loop. -/
def after_dump (self : Midictl) : Midictl :=
  match self.command with
  | .dump => { self with phase := .finished (check_dump self.col.buf) }
  | .writeback =>
      if Dumped self.col.buf then
        { self with
          phase := .clearing self.col.buf
          col := { self.col with done := false } }
      else { self with phase := .finished .dump_failed }

/-- Behind the second waiting loop. -/
def after_reply (self : Midictl) : Midictl :=
  { self with phase := .finished (check_reply self.col.buf) }

/-- A move of the main thread, with the bytes that it sends. -/
def main (self : Midictl) : Option (List UInt8 × Midictl) :=
  match self.phase with
  | .asking => some (DUMP_REQ, { self with phase := .awaiting_dump })
  | .awaiting_dump => if self.col.done then some ([], self.after_dump) else none
  | .clearing dumped =>
      some ([], { self with
        phase := .sending (chunks CHUNK dumped)
        col := { self.col with buf := [] } })
  | .sending [] => some ([], { self with phase := .awaiting_reply })
  | .sending (c :: cs) => some (c, { self with phase := .sending cs })
  | .awaiting_reply => if self.col.done then some ([], self.after_reply) else none
  | .finished _ => none

/-- A waiting loop ends after eight seconds. -/
def timeout (self : Midictl) : Option Midictl :=
  match self.phase with
  | .awaiting_dump => some self.after_dump
  | .awaiting_reply => some self.after_reply
  | _ => none

/-- The program at its start. -/
def new (command : Command) : Midictl := ⟨command, .asking, Collector.new⟩

end Midictl

/-! ## Behind the first waiting loop -/

namespace Midictl

variable {self : Midictl}

/-- A `dump` ends with what it makes of the bytes. -/
theorem after_dump_dump (h : self.command = .dump) :
    self.after_dump = { self with phase := .finished (check_dump self.col.buf) } := by
  unfold after_dump
  split
  · rfl
  · rename_i hother
    cases h.symm.trans hother

/-- A `writeback` with a dump in hand goes on to send it. -/
theorem after_dump_writeback (h : self.command = .writeback) (hdumped : Dumped self.col.buf) :
    self.after_dump = { self with
      phase := .clearing self.col.buf
      col := { self.col with done := false } } := by
  unfold after_dump
  split
  · rename_i hother
    cases h.symm.trans hother
  · exact if_pos hdumped

/-- A `writeback` without one ends here. -/
theorem after_dump_failed (h : self.command = .writeback) (hdumped : ¬ Dumped self.col.buf) :
    self.after_dump = { self with phase := .finished .dump_failed } := by
  unfold after_dump
  split
  · rename_i hother
    cases h.symm.trans hother
  · exact if_neg hdumped

/-- The command stays. -/
theorem after_dump_command : self.after_dump.command = self.command := by
  cases h : self.command with
  | dump =>
      rw [after_dump_dump h]
      exact h
  | writeback =>
      by_cases hdumped : Dumped self.col.buf
      · rw [after_dump_writeback h hdumped]
        exact h
      · rw [after_dump_failed h hdumped]
        exact h

/-- The command stays. -/
theorem main_command {r : List UInt8 × Midictl} (h : self.main = some r) :
    r.2.command = self.command := by
  unfold main at h
  split at h
  · cases h
    rfl
  · obtain ⟨-, hr⟩ := Option.ite_none_right_eq_some.mp h
    cases hr
    exact after_dump_command
  · cases h
    rfl
  · cases h
    rfl
  · cases h
    rfl
  · obtain ⟨-, hr⟩ := Option.ite_none_right_eq_some.mp h
    cases hr
    rfl
  · cases h

/-- And stays when the time is up. -/
theorem timeout_command {host : Midictl} (h : self.timeout = some host) :
    host.command = self.command := by
  unfold timeout at h
  split at h
  · cases h
    exact after_dump_command
  · cases h
    rfl
  · cases h

end Midictl

/-! ## One message -/

/-- A message with its F0 and its F7. -/
def Message (m : List UInt8) : Prop :=
  ∃ body, m = 0xF0 :: (body ++ [0xF7]) ∧ ∀ b ∈ body, b ≠ 0xF0 ∧ b ≠ 0xF7

section Message

variable {m p body : List UInt8}

/-- The callback behind the F0. -/
theorem callback_body (hbody : ∀ b ∈ body, b ≠ 0xF0 ∧ b ≠ 0xF7) {q : List UInt8}
    (h : q <+: body ++ [0xF7]) :
    Collector.callback ⟨[0xF0], false⟩ q = ⟨0xF0 :: q, decide (q = body ++ [0xF7])⟩ := by
  induction q using List.reverseRecOn with
  | nil =>
      have hne : ([] : List UInt8) ≠ body ++ [0xF7] := by simp
      rw [decide_eq_false hne]
      rfl
  | append_singleton q x ih =>
      have hfirst : q <+: body ++ [0xF7] := (List.prefix_append q [x]).trans h
      -- in front of the last byte the flag is down
      have hopen : ¬ q = body ++ [0xF7] := by
        rintro rfl
        have hlen := h.length_le
        rw [List.length_append, List.length_append, List.length_singleton,
          List.length_singleton] at hlen
        omega
      have hstep : Collector.callback ⟨[0xF0], false⟩ (q ++ [x])
          = (Collector.callback ⟨[0xF0], false⟩ q).push x := by
        rw [Collector.callback, List.foldl_append]
        rfl
      rw [hstep, ih hfirst, decide_eq_false hopen]
      rcases List.prefix_concat_iff.mp h with heq | hin
      · -- the F7
        obtain ⟨rfl, hx⟩ := List.append_inj' heq rfl
        rw [List.singleton_inj] at hx
        subst hx
        rw [decide_eq_true rfl]
        rfl
      · -- any other byte
        have hx := hbody x (hin.subset (List.mem_append_right q (List.mem_singleton_self x)))
        have hnot : ¬ q ++ [x] = body ++ [0xF7] := by
          intro heq
          exact hx.2 (List.singleton_inj.mp (List.append_inj' heq rfl).2)
        rw [decide_eq_false hnot, Collector.push, if_neg hx.1]
        show (⟨0xF0 :: q ++ [x], false || decide (x = 0xF7)⟩ : Collector) = _
        rw [decide_eq_false hx.2]
        rfl

/-- **Of a message that comes in pieces the callback has what came, and it raises the
flag with the last byte.** -/
theorem callback_prefix (hm : Message m) (h : p <+: m) :
    Collector.callback Collector.new p = ⟨p, decide (p = m)⟩ := by
  obtain ⟨body, rfl, hbody⟩ := hm
  cases p with
  | nil =>
      have hne : ([] : List UInt8) ≠ 0xF0 :: (body ++ [0xF7]) := by simp
      rw [decide_eq_false hne]
      rfl
  | cons x q =>
      obtain ⟨rfl, hq⟩ := List.cons_prefix_cons.mp h
      refine (callback_body hbody hq).trans ?_
      simp only [List.cons.injEq, true_and]

/-- A part of a message that ends with F7 is all of it. -/
theorem eq_of_last (hm : Message m) (h : p <+: m) (hlast : p.getLast? = some 0xF7) : p = m := by
  obtain ⟨body, rfl, hbody⟩ := hm
  rw [← List.cons_append] at h ⊢
  rcases List.prefix_concat_iff.mp h with heq | hin
  · exact heq
  · have hmem := hin.subset (List.mem_of_getLast? hlast)
    rcases List.mem_cons.mp hmem with hstart | hend
    · exact absurd hstart (by decide)
    · exact absurd rfl (hbody _ hend).2

/-- A message has its two ends at least. -/
theorem Message.ne_nil (hm : Message m) : m ≠ [] := by
  obtain ⟨body, rfl, -⟩ := hm
  exact List.cons_ne_nil _ _

end Message

/-! ## The messages of the device -/

namespace Midictl

open Sysex

/-- The message of a dump, with its F0 and its F7. -/
def dumpMessage (image : List UInt8) : List UInt8 := 0xF0 :: (dumpBody image ++ [0xF7])

/-- The reply to a write that was accepted. -/
def SUCCESS : List UInt8 := [0xF0, 0x7D, 0x01, 0x03, 0xF7]

/-- The request for a dump is a message. -/
theorem message_dump_req : Message DUMP_REQ := ⟨[0x7D, 0x01, 0x01], rfl, by simp⟩

/-- So is the reply to a write. -/
theorem message_success : Message SUCCESS := ⟨[0x7D, 0x01, 0x03], rfl, by simp⟩

/-- A dump has only nibbles between its ends. -/
theorem message_dump (image : List UInt8) : Message (dumpMessage image) := by
  refine ⟨dumpBody image, rfl, ?_⟩
  intro b hb
  have hlt := dumpBody_lt image b hb
  constructor
  · rintro rfl
    exact absurd hlt (by decide)
  · rintro rfl
    exact absurd hlt (by decide)

/-- Two bytes for each byte of the bank, and five more. -/
theorem dumpMessage_length (image : List UInt8) :
    (dumpMessage image).length = 5 + 2 * image.length := by
  rw [dumpMessage, List.length_cons, List.length_append, dumpBody, List.length_append,
    Bytes.nibbleize_length]
  simp only [List.length_cons, List.length_nil]
  omega

/-- It ends with F7. -/
theorem dumpMessage_getLast (image : List UInt8) :
    (dumpMessage image).getLast? = some 0xF7 := by
  rw [dumpMessage, ← List.cons_append, List.getLast?_append]
  rfl

/-! ## What the program makes of them -/

/-- The closure `de` undoes the nibbles. -/
theorem de_nibbleize {image : List UInt8} {i : ℕ} (h : i < image.length) :
    de (Bytes.nibbleize image) i = some (image.getD i 0) := by
  induction image generalizing i with
  | nil => cases h
  | cons b image ih =>
      cases i with
      | zero =>
          have hjoin : (Bytes.hi_nibble b <<< 4) ||| (Bytes.lo_nibble b &&& 0x0F) = b := by
            clear ih h
            revert b
            decide +kernel
          show some ((Bytes.hi_nibble b <<< 4) ||| (Bytes.lo_nibble b &&& 0x0F)) = _
          rw [hjoin]
          rfl
      | succ i =>
          rw [List.length_cons] at h
          have hnext := ih (Nat.lt_of_succ_lt_succ h)
          rw [List.getD_cons_succ, ← hnext, de, de, Nat.succ_mul]
          rfl

/-- A word of the image, out of its nibbles. -/
theorem word_nibbleize {image : List UInt8} {i : ℕ} (h : i + 3 < image.length) :
    word (Bytes.nibbleize image) i = some (Bytes.u32At image i) := by
  rw [word, de_nibbleize (by omega), de_nibbleize (by omega), de_nibbleize (by omega),
    de_nibbleize h]
  rfl

/-- The payload of a dump. -/
theorem slice_dump (image : List UInt8) :
    slice (dumpMessage image) 4 ((dumpMessage image).length - 1)
      = some (Bytes.nibbleize image) := by
  have hslice := slice_append [0xF0, SYSEX_ID, SYSEX_MODEL, CMD_WRITE_REQ]
    (Bytes.nibbleize image) [0xF7]
  have hend : [0xF0, SYSEX_ID, SYSEX_MODEL, CMD_WRITE_REQ].length + (Bytes.nibbleize image).length
      = (dumpMessage image).length - 1 := by
    rw [dumpMessage_length, Bytes.nibbleize_length]
    simp only [List.length_cons, List.length_nil]
    omega
  rw [hend] at hslice
  exact hslice

/-- The framing of a dump is accepted. -/
theorem framed_dump {image : List UInt8} (h : 1 ≤ image.length) : Framed (dumpMessage image) := by
  refine ⟨?_, rfl, rfl, rfl, rfl, dumpMessage_getLast image⟩
  rw [dumpMessage_length]
  omega

/-- **`dump` reports the header of the bank it was sent.** -/
theorem check_dump_whole {image : List UInt8} (h : 12 ≤ image.length) :
    check_dump (dumpMessage image)
      = .report (2 * image.length) (Bytes.u32At image 0) (Bytes.u32At image 4)
        (Bytes.u32At image 8) := by
  rw [check_dump, if_pos (framed_dump (by omega)), slice_dump]
  simp only
  rw [word_nibbleize (by omega), word_nibbleize (by omega), word_nibbleize (by omega)]
  simp only [Bytes.nibbleize_length]

/-- A part of a dump is no dump. -/
theorem check_dump_part {image p : List UInt8} (h : p <+: dumpMessage image)
    (hpart : p ≠ dumpMessage image) : check_dump p = .bad_framing := by
  rw [check_dump, if_neg]
  rintro ⟨-, -, -, -, -, hlast⟩
  exact hpart (eq_of_last (message_dump image) h hlast)

/-- A whole dump passes the assertion. -/
theorem dumped_whole {image : List UInt8} (h : 1 ≤ image.length) : Dumped (dumpMessage image) := by
  refine ⟨?_, rfl, dumpMessage_getLast image⟩
  rw [dumpMessage_length]
  omega

/-- And only a whole one does. -/
theorem eq_of_dumped {image p : List UInt8} (h : p <+: dumpMessage image) (hp : Dumped p) :
    p = dumpMessage image := eq_of_last (message_dump image) h hp.2.2

/-- The good reply is reported as good. -/
theorem check_reply_success : check_reply SUCCESS = .write_success := if_pos rfl

/-- A part of the reply is not taken for another one. -/
theorem check_reply_part {p : List UInt8} (h : p <+: SUCCESS) (hpart : p ≠ SUCCESS) :
    check_reply p = .unexpected_reply := by
  have hlen : p.length < 6 := Nat.lt_succ_of_le h.length_le
  unfold check_reply
  split
  · rename_i heq
    exact absurd heq hpart
  · split
    · exact absurd hlen (by simp)
    · rfl

end Midictl

end PicoDsp
