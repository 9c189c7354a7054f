/-
`command_listener_task` (`usb/device.rs`): the commands of the serial console.

The task keeps the unfinished line in a string of 32 bytes and ignores a push that does
not fit, so what it acts on at the end of a line is not the line but what of it was
kept. A byte from 128 on becomes a character of two bytes, so how many are kept depends
on which they are (`fitting`), and a character that no longer fits may be followed by one
that does. Blanks are trimmed only at the end of the line, after the cut.

The state after some bytes depends on the unfinished line alone (`Follows`), and the
commands executed are those that the kept parts of the finished lines spell, up to the
first that restarts the device. How the stream is cut into packets is of no consequence
(`task_eq_each`), which is why the statements speak of lines and not of packets.

That the bank is formatted once for each `reset` is wanted at every moment of the
reception, not only at its end: too many and too few could cancel out otherwise. The
condition under which it holds, `ReadsRight`, asks of each line whether its kept part
spells a command just when the line itself does. It is a predicate of the lines, and can
be evaluated without running the task.
-/
import PicoDsp.Lib.Proc
import Mathlib.Algebra.GroupWithZero.Nat
import Mathlib.Data.List.DropRight
import Mathlib.Data.List.Induction
import Mathlib.Data.List.Count

set_option autoImplicit false

namespace PicoDsp.CommandListener

open Lib

/-! ## The line buffer

A byte `b` becomes the character of that code, so a character is its byte. -/

/-- `char::len_utf8` -/
def len_utf8 (b : UInt8) : ℕ := if b < 0x80 then 1 else 2

/-- The bytes a string takes. -/
def size (cs : List UInt8) : ℕ := (cs.map len_utf8).sum

/-- `heapless::String<32>` -/
structure LineBuf where
  chars : List UInt8
  bound : size chars ≤ 32

namespace LineBuf

def new : LineBuf := ⟨[], Nat.zero_le _⟩

/-- `let _ = line_buf.push(b as char)` -/
def push (s : LineBuf) (b : UInt8) : LineBuf :=
  if h : size (s.chars ++ [b]) ≤ 32 then ⟨s.chars ++ [b], h⟩ else s

end LineBuf

/-- `char::is_whitespace`, for the characters below U+0100. -/
def is_whitespace (b : UInt8) : Bool :=
  b = 0x20 || (0x09 ≤ b && b ≤ 0x0D) || b = 0x85 || b = 0xA0

/-- `str::trim` -/
def trim (cs : List UInt8) : List UInt8 := (cs.dropWhile is_whitespace).rdropWhile is_whitespace

/-! ## The task -/

/-- `"reboot"` -/
def REBOOT : List UInt8 := [0x72, 0x65, 0x62, 0x6F, 0x6F, 0x74]
/-- `"restart"` -/
def RESTART : List UInt8 := [0x72, 0x65, 0x73, 0x74, 0x61, 0x72, 0x74]
/-- `"reset"` -/
def RESET : List UInt8 := [0x72, 0x65, 0x73, 0x65, 0x74]

inductive Request
  | reset_to_usb_boot
  /-- `watchdog.trigger_reset()` -/
  | trigger_reset
  /-- `COMMAND_CHANNEL.try_send(SystemCommand::ResetStorage)` -/
  | reset_storage
  deriving DecidableEq

/-- The match on the command; the first two restart the device. -/
def execute (cmd : List UInt8) : Proc LineBuf Request Unit :=
  if cmd = REBOOT then do
    Proc.emit .reset_to_usb_boot
    Proc.panic
  else if cmd = RESTART then do
    Proc.emit .trigger_reset
    Proc.panic
  else if cmd = RESET then Proc.emit .reset_storage
  else pure ()

def endsLine (b : UInt8) : Bool := b = 0x0D || b = 0x0A

/-- One round of the loop over the bytes of a packet. -/
def listen_byte (b : UInt8) : Proc LineBuf Request Unit :=
  if endsLine b then do
    let line_buf ← Proc.get
    execute (trim line_buf.chars)
    Proc.modify fun _ => LineBuf.new
  else Proc.modify fun line_buf => line_buf.push b

/-- What `read_packet` returns: a packet of the endpoint, or an error. -/
inductive Read
  | packet (data : List UInt8) (bound : data.length ≤ 64)
  | err

def Read.data : Read → List UInt8
  | .packet data _ => data
  | .err => []

def command_listener_task (reads : List Read) : Proc LineBuf Request Unit :=
  Proc.each (fun r => Proc.each listen_byte r.data) reads

/-- The bytes of a list of reads. -/
def bytes (reads : List Read) : List UInt8 := reads.flatMap Read.data

/-- The number of requests to format the bank that the task attempts. -/
def attempts (reads : List Read) : ℕ :=
  (command_listener_task reads LineBuf.new).1.count .reset_storage

/-! ## The lines of a stream -/

/-- The finished lines, given the line so far. -/
def linesFrom (line : List UInt8) : List UInt8 → List (List UInt8)
  | [] => []
  | b :: bs => if endsLine b then line :: linesFrom [] bs else linesFrom (line ++ [b]) bs

/-- The lines of a stream that a CR or LF has ended. -/
def lines (bs : List UInt8) : List (List UInt8) := linesFrom [] bs

def unfinishedFrom (line : List UInt8) : List UInt8 → List UInt8
  | [] => line
  | b :: bs => if endsLine b then unfinishedFrom [] bs else unfinishedFrom (line ++ [b]) bs

/-- What comes behind the last line end. -/
def unfinished (bs : List UInt8) : List UInt8 := unfinishedFrom [] bs

/-- The lines of two parts of a stream, of which the second goes on in the unfinished line. -/
theorem linesFrom_append (line bs cs : List UInt8) :
    linesFrom line (bs ++ cs) = linesFrom line bs ++ linesFrom (unfinishedFrom line bs) cs := by
  induction bs generalizing line with
  | nil => rfl
  | cons b bs ih =>
      rw [List.cons_append, linesFrom, linesFrom, unfinishedFrom]
      split
      · rw [ih, List.cons_append]
      · rw [ih]

/-- The unfinished line of a stream in two parts. -/
theorem unfinishedFrom_append (line bs cs : List UInt8) :
    unfinishedFrom line (bs ++ cs) = unfinishedFrom (unfinishedFrom line bs) cs := by
  induction bs generalizing line with
  | nil => rfl
  | cons b bs ih =>
      rw [List.cons_append, unfinishedFrom, unfinishedFrom]
      split
      · rw [ih]
      · rw [ih]

/-- A line end finishes the line. -/
theorem lines_end (bs : List UInt8) {b : UInt8} (hb : endsLine b = true) :
    lines (bs ++ [b]) = lines bs ++ [unfinished bs] ∧ unfinished (bs ++ [b]) = [] := by
  unfold lines unfinished
  rw [linesFrom_append, unfinishedFrom_append, linesFrom, unfinishedFrom, if_pos hb, if_pos hb]
  exact ⟨rfl, rfl⟩

/-- Another byte goes to the line. -/
theorem lines_open (bs : List UInt8) {b : UInt8} (hb : ¬ endsLine b = true) :
    lines (bs ++ [b]) = lines bs ∧ unfinished (bs ++ [b]) = unfinished bs ++ [b] := by
  unfold lines unfinished
  rw [linesFrom_append, unfinishedFrom_append, linesFrom, unfinishedFrom, if_neg hb, if_neg hb]
  exact ⟨List.append_nil _, rfl⟩

/-- More bytes, and the lines so far stay. -/
theorem lines_mono {bs cs : List UInt8} (h : bs <+: cs) : lines bs <+: lines cs := by
  obtain ⟨ds, rfl⟩ := h
  unfold lines
  rw [linesFrom_append]
  exact List.prefix_append _ _

/-- The first lines of a stream are the lines of a part of it. -/
theorem exists_part {bs : List UInt8} {ls : List (List UInt8)} (h : ls <+: lines bs) :
    ∃ cs, cs <+: bs ∧ lines cs = ls := by
  induction bs using List.reverseRecOn with
  | nil =>
      refine ⟨[], List.prefix_rfl, ?_⟩
      exact (List.prefix_nil.mp h).symm
  | append_singleton bs b ih =>
      by_cases hb : endsLine b = true
      · rw [(lines_end bs hb).1, List.prefix_concat_iff] at h
        rcases h with rfl | h
        · exact ⟨bs ++ [b], List.prefix_rfl, (lines_end bs hb).1⟩
        · obtain ⟨cs, hcs, hlines⟩ := ih h
          exact ⟨cs, hcs.trans (List.prefix_append _ _), hlines⟩
      · rw [(lines_open bs hb).1] at h
        obtain ⟨cs, hcs, hlines⟩ := ih h
        exact ⟨cs, hcs.trans (List.prefix_append _ _), hlines⟩

/-! ## What of a line is kept -/

/-- The characters that are taken one after the other where only `room` bytes are
left; one that does not fit is passed over. -/
def fitting : ℕ → List UInt8 → List UInt8
  | _, [] => []
  | room, b :: bs =>
      if len_utf8 b ≤ room then b :: fitting (room - len_utf8 b) bs else fitting room bs

/-- The part of a line that 32 bytes hold. -/
def kept (line : List UInt8) : List UInt8 := fitting 32 line

/-- The bytes of two strings. -/
theorem size_append (cs ds : List UInt8) : size (cs ++ ds) = size cs + size ds := by
  rw [size, List.map_append, List.sum_append]
  rfl

/-- The bytes of a string with one more character. -/
theorem size_snoc (cs : List UInt8) (b : UInt8) : size (cs ++ [b]) = size cs + len_utf8 b := by
  rw [size_append]
  rfl

/-- What the buffer holds after some pushes. -/
theorem pushes_chars (s : LineBuf) (line : List UInt8) :
    (line.foldl LineBuf.push s).chars = s.chars ++ fitting (32 - size s.chars) line := by
  induction line generalizing s with
  | nil => exact (List.append_nil _).symm
  | cons b line ih =>
      have hs : size s.chars ≤ 32 := s.bound
      rw [List.foldl_cons, ih, fitting, LineBuf.push]
      by_cases hb : size (s.chars ++ [b]) ≤ 32
      · have hroom : len_utf8 b ≤ 32 - size s.chars := by
          rw [size_snoc] at hb
          omega
        have hleft : 32 - size (s.chars ++ [b]) = 32 - size s.chars - len_utf8 b := by
          rw [size_snoc, Nat.sub_sub]
        rw [dif_pos hb, if_pos hroom, ← hleft, List.append_assoc]
        rfl
      · have hroom : ¬ len_utf8 b ≤ 32 - size s.chars := by
          rw [size_snoc] at hb
          omega
        rw [dif_neg hb, if_neg hroom]

/-- The buffer holds the kept part of the line. -/
theorem pushes_new (line : List UInt8) :
    (line.foldl LineBuf.push LineBuf.new).chars = kept line :=
  pushes_chars LineBuf.new line

/-- Nothing is passed over where there is room for all. -/
theorem fitting_eq_self {room : ℕ} {line : List UInt8} (h : size line ≤ room) :
    fitting room line = line := by
  induction line generalizing room with
  | nil => rfl
  | cons b line ih =>
      have hsize : size (b :: line) = len_utf8 b + size line := rfl
      rw [fitting, if_pos (by omega), ih (by omega)]

/-- A line that fits is kept whole. -/
theorem kept_of_fits {line : List UInt8} (h : size line ≤ 32) : kept line = line :=
  fitting_eq_self h

/-- The line is taken for a command that restarts the device. -/
def Restarts (line : List UInt8) : Prop :=
  trim (kept line) = REBOOT ∨ trim (kept line) = RESTART

instance (line : List UInt8) : Decidable (Restarts line) :=
  inferInstanceAs (Decidable (trim (kept line) = REBOOT ∨ trim (kept line) = RESTART))

/-- `reset` is none of the commands that restart the device. -/
theorem not_restarts_of_reset {line : List UInt8} (h : trim (kept line) = RESET) :
    ¬ Restarts line := by
  unfold Restarts
  rw [h]
  decide

/-- The task is at line `line`, behind the lines `past`, and formats the bank. -/
def Formats (past : List (List UInt8)) (line : List UInt8) : Prop :=
  trim (kept line) = RESET ∧ ∀ m ∈ past, ¬ Restarts m

instance (past : List (List UInt8)) (line : List UInt8) : Decidable (Formats past line) :=
  inferInstanceAs (Decidable (trim (kept line) = RESET ∧ ∀ m ∈ past, ¬ Restarts m))

/-! ## The task and the lines -/

/-- The number of lines at which the bank is formatted. -/
def formatted : List (List UInt8) → ℕ
  | [] => 0
  | line :: ls =>
      if Restarts line then 0 else (if trim (kept line) = RESET then 1 else 0) + formatted ls

/-- A further line counts when the task still runs. -/
theorem formatted_snoc (ls : List (List UInt8)) (line : List UInt8) :
    formatted (ls ++ [line]) = formatted ls + if Formats ls line then 1 else 0 := by
  induction ls with
  | nil =>
      simp only [List.nil_append, formatted, Formats, List.not_mem_nil, false_implies,
        implies_true, and_true, Nat.zero_add, Nat.add_zero]
      by_cases hr : Restarts line
      · rw [if_pos hr, if_neg]
        intro hreset
        exact not_restarts_of_reset hreset hr
      · rw [if_neg hr]
  | cons m ls ih =>
      rw [List.cons_append, formatted, formatted]
      by_cases hr : Restarts m
      · have hnot : ¬ Formats (m :: ls) line := fun h => h.2 m List.mem_cons_self hr
        rw [if_pos hr, if_pos hr, if_neg hnot]
      · have hiff : Formats (m :: ls) line ↔ Formats ls line := by
          simp only [Formats, List.forall_mem_cons, hr, not_false_eq_true, true_and]
        rw [if_neg hr, if_neg hr, ih, Nat.add_assoc]
        simp only [hiff]

/-- Where the task is after some bytes. -/
structure Follows (bs : List UInt8) (run : List Request × Option (Unit × LineBuf)) : Prop where
  requests : run.1.count .reset_storage = formatted (lines bs)
  halted : (∃ m ∈ lines bs, Restarts m) → run.2 = none
  line : (∀ m ∈ lines bs, ¬ Restarts m) →
    run.2 = some ((), (unfinished bs).foldl LineBuf.push LineBuf.new)

/-- A command that restarts the device formats nothing and does not come back. -/
theorem execute_restarts {cmd : List UInt8} (h : cmd = REBOOT ∨ cmd = RESTART) (s : LineBuf) :
    (execute cmd s).2 = none ∧ (execute cmd s).1.count .reset_storage = 0 := by
  rcases h with rfl | rfl
  · exact ⟨rfl, rfl⟩
  · exact ⟨rfl, rfl⟩

/-- Any other command comes back, and only `reset` formats the bank. -/
theorem execute_goes_on {cmd : List UInt8} (h : ¬ (cmd = REBOOT ∨ cmd = RESTART)) (s : LineBuf) :
    (execute cmd s).2 = some ((), s)
      ∧ (execute cmd s).1.count .reset_storage = if cmd = RESET then 1 else 0 := by
  rw [not_or] at h
  rw [execute, if_neg h.1, if_neg h.2]
  split
  · exact ⟨rfl, rfl⟩
  · exact ⟨rfl, rfl⟩

/-- The end of a line that restarts the device. -/
theorem listen_byte_restarts {b : UInt8} (hb : endsLine b = true) {s : LineBuf}
    (h : trim s.chars = REBOOT ∨ trim s.chars = RESTART) :
    (listen_byte b s).2 = none ∧ (listen_byte b s).1.count .reset_storage = 0 := by
  obtain ⟨hend, hcount⟩ := execute_restarts h s
  rw [listen_byte, if_pos hb, Proc.get_bind_run, Proc.bind_none (Prod.ext rfl hend)]
  exact ⟨rfl, hcount⟩

/-- The end of any other line. -/
theorem listen_byte_ends {b : UInt8} (hb : endsLine b = true) {s : LineBuf}
    (h : ¬ (trim s.chars = REBOOT ∨ trim s.chars = RESTART)) :
    (listen_byte b s).2 = some ((), LineBuf.new)
      ∧ (listen_byte b s).1.count .reset_storage = if trim s.chars = RESET then 1 else 0 := by
  obtain ⟨hend, hcount⟩ := execute_goes_on h s
  rw [listen_byte, if_pos hb, Proc.get_bind_run, Proc.bind_some (Prod.ext rfl hend),
    Proc.modify_run, List.append_nil]
  exact ⟨rfl, hcount⟩

/-- A byte inside of a line is pushed, and nothing else happens. -/
theorem listen_byte_open {b : UInt8} (hb : ¬ endsLine b = true) (s : LineBuf) :
    listen_byte b s = ([], some ((), s.push b)) := by
  rw [listen_byte, if_neg hb, Proc.modify_run]

/-- A task that has stopped reads no more. -/
theorem Follows.snoc_stopped {bs : List UInt8} {es : List Request} (b : UInt8)
    (h : Follows bs (es, none)) (hm : ∃ m ∈ lines bs, Restarts m) :
    Follows (bs ++ [b]) (es, none) := by
  obtain ⟨m, hmem, hr⟩ := hm
  have hpre : lines bs <+: lines (bs ++ [b]) := lines_mono (List.prefix_append _ _)
  refine ⟨?_, fun _ => rfl, fun hall => absurd hr (hall m (hpre.subset hmem))⟩
  rw [h.requests]
  by_cases hb : endsLine b = true
  · have hnot : ¬ Formats (lines bs) (unfinished bs) := fun hf => hf.2 m hmem hr
    rw [(lines_end bs hb).1, formatted_snoc, if_neg hnot, Nat.add_zero]
  · rw [(lines_open bs hb).1]

section Snoc

variable {bs : List UInt8} {es : List Request} {b : UInt8} {s : LineBuf}

/-- The end of a line that restarts the device. -/
theorem Follows.snoc_restarts (h : Follows bs (es, some ((), s)))
    (hkept : s.chars = kept (unfinished bs)) (hb : endsLine b = true)
    (hr : Restarts (unfinished bs)) :
    Follows (bs ++ [b]) (es ++ (listen_byte b s).1, (listen_byte b s).2) := by
  have hcmd : trim s.chars = REBOOT ∨ trim s.chars = RESTART := by
    rw [hkept]
    exact hr
  obtain ⟨hend, hcount⟩ := listen_byte_restarts hb hcmd
  obtain ⟨hlines, -⟩ := lines_end bs hb
  have hmem : unfinished bs ∈ lines (bs ++ [b]) := by
    rw [hlines]
    exact List.mem_append_right _ (List.mem_singleton_self _)
  refine ⟨?_, fun _ => hend, fun hall => absurd hr (hall _ hmem)⟩
  rw [List.count_append, hcount, h.requests, hlines, formatted_snoc, if_neg]
  intro hf
  exact not_restarts_of_reset hf.1 hr

/-- The end of another line: the buffer is new again. -/
theorem Follows.snoc_ends (h : Follows bs (es, some ((), s)))
    (hkept : s.chars = kept (unfinished bs)) (hb : endsLine b = true)
    (hgo : ∀ m ∈ lines bs, ¬ Restarts m) (hr : ¬ Restarts (unfinished bs)) :
    Follows (bs ++ [b]) (es ++ (listen_byte b s).1, (listen_byte b s).2) := by
  have hcmd : ¬ (trim s.chars = REBOOT ∨ trim s.chars = RESTART) := by
    rw [hkept]
    exact hr
  have hformats : Formats (lines bs) (unfinished bs) ↔ trim s.chars = RESET := by
    rw [hkept]
    exact ⟨fun hf => hf.1, fun hreset => ⟨hreset, hgo⟩⟩
  obtain ⟨hend, hcount⟩ := listen_byte_ends hb hcmd
  obtain ⟨hlines, hrest⟩ := lines_end bs hb
  refine ⟨?_, ?_, ?_⟩
  · rw [List.count_append, hcount, h.requests, hlines, formatted_snoc]
    simp only [hformats]
  · rintro ⟨m, hmem, hm⟩
    rw [hlines, List.mem_append, List.mem_singleton] at hmem
    rcases hmem with hmem | rfl
    · exact absurd hm (hgo m hmem)
    · exact absurd hm hr
  · intro _
    rw [hrest]
    exact hend

/-- A byte inside of a line. -/
theorem Follows.snoc_open (h : Follows bs (es, some ((), s)))
    (hs : s = (unfinished bs).foldl LineBuf.push LineBuf.new) (hb : ¬ endsLine b = true)
    (hgo : ∀ m ∈ lines bs, ¬ Restarts m) :
    Follows (bs ++ [b]) (es ++ (listen_byte b s).1, (listen_byte b s).2) := by
  obtain ⟨hlines, hrest⟩ := lines_open bs hb
  rw [listen_byte_open hb]
  refine ⟨?_, ?_, ?_⟩
  · rw [List.append_nil, h.requests, hlines]
  · rintro ⟨m, hmem, hm⟩
    rw [hlines] at hmem
    exact absurd hm (hgo m hmem)
  · intro _
    rw [hrest, List.foldl_append, hs]
    rfl

/-- **One byte**, while the task runs. -/
theorem Follows.snoc (b : UInt8)
    (h : Follows bs (es, some ((), (unfinished bs).foldl LineBuf.push LineBuf.new)))
    (hgo : ∀ m ∈ lines bs, ¬ Restarts m) :
    Follows (bs ++ [b])
      (es ++ (listen_byte b ((unfinished bs).foldl LineBuf.push LineBuf.new)).1,
        (listen_byte b ((unfinished bs).foldl LineBuf.push LineBuf.new)).2) := by
  by_cases hb : endsLine b = true
  · by_cases hr : Restarts (unfinished bs)
    · exact h.snoc_restarts (pushes_new _) hb hr
    · exact h.snoc_ends (pushes_new _) hb hgo hr
  · exact h.snoc_open rfl hb hgo

end Snoc

/-- The task over the bytes of a stream. -/
theorem follows (bs : List UInt8) : Follows bs (Proc.each listen_byte bs LineBuf.new) := by
  induction bs using List.reverseRecOn with
  | nil =>
      refine ⟨rfl, ?_, fun _ => rfl⟩
      rintro ⟨m, hmem, -⟩
      exact absurd hmem List.not_mem_nil
  | append_singleton bs b ih =>
      by_cases hm : ∃ m ∈ lines bs, Restarts m
      · obtain ⟨es, hes⟩ : ∃ es, Proc.each listen_byte bs LineBuf.new = (es, none) :=
          ⟨_, Prod.ext rfl (ih.halted hm)⟩
        rw [Proc.each_append_none hes]
        rw [hes] at ih
        exact ih.snoc_stopped b hm
      · have hgo : ∀ m ∈ lines bs, ¬ Restarts m := fun m hmem hr => hm ⟨m, hmem, hr⟩
        obtain ⟨es, hes⟩ : ∃ es, Proc.each listen_byte bs LineBuf.new
            = (es, some ((), (unfinished bs).foldl LineBuf.push LineBuf.new)) :=
          ⟨_, Prod.ext rfl (ih.line hgo)⟩
        rw [Proc.each_append_some hes, Proc.each_singleton_run]
        rw [hes] at ih
        exact ih.snoc b hgo

/-- The cut into packets does not matter. -/
theorem task_eq_each (reads : List Read) (s : LineBuf) :
    command_listener_task reads s = Proc.each listen_byte (bytes reads) s := by
  unfold command_listener_task
  induction reads generalizing s with
  | nil => rfl
  | cons r reads ih =>
      have hbytes : bytes (r :: reads) = r.data ++ bytes reads := List.flatMap_cons
      rw [hbytes, Proc.each_cons]
      rcases h : Proc.each listen_byte r.data s with ⟨es, _ | ⟨⟨⟩, s'⟩⟩
      · rw [Proc.bind_none h, Proc.each_append_none h]
      · rw [Proc.bind_some h, Proc.each_append_some h, ih]

/-- What the task does in a stream can be read off its lines. -/
theorem attempts_eq (reads : List Read) : attempts reads = formatted (lines (bytes reads)) := by
  rw [attempts, task_eq_each]
  exact (follows (bytes reads)).requests

/-- Every stream arrives in some packets. -/
theorem exists_reads (bs : List UInt8) : ∃ reads, bytes reads = bs := by
  induction bs with
  | nil => exact ⟨[], rfl⟩
  | cons b bs ih =>
      obtain ⟨reads, rfl⟩ := ih
      have hone : [b].length ≤ 64 := Nat.le_of_ble_eq_true rfl
      exact ⟨.packet [b] hone :: reads, List.flatMap_cons⟩

/-! ## The lines sent and the lines executed -/

/-- The number of lines whose content is `reset`. -/
def resets (bs : List UInt8) : ℕ := (lines bs).countP fun line => trim line = RESET

/-- The task takes each line for what it is: it formats the bank at a line just when
the line is `reset`. -/
def ReadsRight (ls : List (List UInt8)) : Prop :=
  ∀ past line rest, ls = past ++ line :: rest → (Formats past line ↔ trim line = RESET)

/-- Lines that are read right: each `reset` counts, and no other. -/
theorem formatted_eq_of_readsRight {ls : List (List UInt8)} (h : ReadsRight ls) :
    formatted ls = ls.countP fun line => trim line = RESET := by
  induction ls using List.reverseRecOn with
  | nil => rfl
  | append_singleton ls line ih =>
      have hls : ReadsRight ls := by
        rintro past m rest rfl
        exact h past m (rest ++ [line]) (List.append_assoc _ _ _)
      have hline : Formats ls line ↔ trim line = RESET := h ls line [] rfl
      rw [formatted_snoc, ih hls, List.countP_append, List.countP_singleton]
      simp only [hline, decide_eq_true_eq]

/-- Where every part of the lines gives the right number, each line is taken right. -/
theorem readsRight_of_formatted {ls : List (List UInt8)}
    (h : ∀ ms, ms <+: ls → formatted ms = ms.countP fun line => trim line = RESET) :
    ReadsRight ls := by
  rintro past line rest rfl
  have hpast := h past (List.prefix_append _ _)
  have hline := h (past ++ [line]) ⟨rest, by rw [List.append_assoc]; rfl⟩
  rw [formatted_snoc, hpast, List.countP_append, List.countP_singleton, Nat.add_left_cancel_iff]
    at hline
  by_cases hf : Formats past line
  · by_cases hreset : trim line = RESET
    · exact iff_of_true hf hreset
    · rw [if_pos hf, if_neg (by rwa [decide_eq_true_eq])] at hline
      cases hline
  · by_cases hreset : trim line = RESET
    · rw [if_neg hf, if_pos (by rwa [decide_eq_true_eq])] at hline
      cases hline
    · exact iff_of_false hf hreset

/-- The same of a stream in packets. -/
theorem attempts_eq_resets {reads : List Read} (h : ReadsRight (lines (bytes reads))) :
    attempts reads = resets (bytes reads) := by
  rw [attempts_eq, resets]
  exact formatted_eq_of_readsRight h

/-- What is read right to the end is read right before. -/
theorem ReadsRight.mono {ls ms : List (List UInt8)} (h : ReadsRight ms) (hpre : ls <+: ms) :
    ReadsRight ls := by
  obtain ⟨rest, rfl⟩ := hpre
  rintro past line tail rfl
  apply h past line (tail ++ rest)
  rw [List.append_assoc, List.cons_append]

/-- Only a line of more than 32 bytes is taken wrong. -/
theorem readsRight_of_size {ls : List (List UInt8)}
    (h : ∀ line ∈ ls, trim line ≠ REBOOT ∧ trim line ≠ RESTART)
    (hsize : ∀ line ∈ ls, size line ≤ 32) : ReadsRight ls := by
  rintro past line rest rfl
  have hgo : ∀ m ∈ past, ¬ Restarts m := by
    intro m hm
    have hmem : m ∈ past ++ line :: rest := List.mem_append_left _ hm
    obtain ⟨hreboot, hrestart⟩ := h m hmem
    rw [Restarts, kept_of_fits (hsize m hmem), not_or]
    exact ⟨hreboot, hrestart⟩
  rw [Formats, kept_of_fits (hsize line List.mem_append_cons_self)]
  exact and_iff_left hgo

/-- Without overlong lines the bank is formatted once for each `reset`. -/
theorem attempts_of_size {reads : List Read}
    (h : ∀ line ∈ lines (bytes reads), trim line ≠ REBOOT ∧ trim line ≠ RESTART)
    (hsize : ∀ line ∈ lines (bytes reads), size line ≤ 32) :
    attempts reads = resets (bytes reads) :=
  attempts_eq_resets (readsRight_of_size h hsize)

/-- The number of requests is the number of `reset` lines, at every moment of the
reception of a stream and whatever its packets, just when each line is taken for what
it is. -/
theorem console_iff (stream : List UInt8) :
    (∀ reads, bytes reads <+: stream → attempts reads = resets (bytes reads))
      ↔ ReadsRight (lines stream) := by
  constructor
  · intro hall
    apply readsRight_of_formatted
    intro ms hms
    obtain ⟨cs, hcs, rfl⟩ := exists_part hms
    obtain ⟨reads, rfl⟩ := exists_reads cs
    rw [← attempts_eq]
    exact hall reads hcs
  · intro hright reads hreads
    exact attempts_eq_resets (hright.mono (lines_mono hreads))

/-- `reset`, 27 blanks and an `x`: the `x` is not kept, and the line erases the bank. -/
theorem blanks_reset :
    attempts [.packet (RESET ++ List.replicate 27 0x20 ++ [0x78, 0x0A]) (by decide)] = 1
      ∧ resets (RESET ++ List.replicate 27 0x20 ++ [0x78, 0x0A]) = 0
      ∧ lines (RESET ++ List.replicate 27 0x20 ++ [0x78, 0x0A])
        = [RESET ++ List.replicate 27 0x20 ++ [0x78]] := by
  decide +kernel

end PicoDsp.CommandListener
