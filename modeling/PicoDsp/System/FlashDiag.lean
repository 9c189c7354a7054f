/-
The faster flash clock (`flash_diag.rs`).

`speed_up_flash_xip` raises the clock of the flash and looks for a sample point that
still reads right, by trying all of them while it runs from RAM. What the flash gives
under a timing it is not made for is anybody's guess: a read is a function of the timing,
of the word and of how many reads were made before (`FlashReads`), and every result is
about all of these functions. The trace has the writes to the timing register, the
flushes and the reads. Barriers, the masking of interrupts and the log are left out.

The result is about that trace. Whatever the flash does, the function comes to its end,
and leaves either the timing that it found, or the target divisor at a sample point under
which all words of the sample have just read as they did before; and such a point is the
middle of the first of the longest stretches of points that passed (`IsCenter`). A point
is never left in place on the strength of an earlier test: the chosen one is validated
once more, and the function goes back where that fails.

A validation returns at the first word that differs, so how many reads it makes depends
on what they give. `validate_run` therefore says what the reads were, and not only what
came out. The sweep over the eight points stores one bit for each, and the choice of the
stretch is `Lib/LongestRun.lean`.

The fields of `Timing` that the code does not name are one word, `rest`. The target
divisor is computed from the clock of the system by an addition that wraps, which the
theorem about it excludes (`target_clkdiv_least`).
-/
import Mathlib.Data.List.GetD
import Mathlib.Tactic.IntervalCases
import PicoDsp.Lib.LongestRun
import PicoDsp.Lib.Proc

set_option autoImplicit false

namespace PicoDsp.FlashDiag

open Lib

def SAMPLE_WORDS : ℕ := 256
def RXDELAY_MAX : ℕ := 7
def MIN_CLKDIV : UInt32 := 2
def MAX_FLASH_SCK_HZ : UInt32 := 100000000

structure Timing where
  clkdiv : UInt8
  rxdelay : UInt8
  rest : UInt32
  deriving DecidableEq

def Timing.set_clkdiv (t : Timing) (val : UInt8) : Timing := { t with clkdiv := val }

/-- RXDELAY is a 3-bit field. -/
def Timing.set_rxdelay (t : Timing) (val : UInt8) : Timing := { t with rxdelay := val &&& 0x07 }

inductive BusEvent
  | write_value (t : Timing)
  | flush
  /-- Word `i` of the flash read as `word` at timing `t`. -/
  | read (t : Timing) (i : ℕ) (word : UInt32)

/-- The register, and the number of reads so far. -/
structure Qmi where
  timing : Timing
  reads : ℕ

/-- What a read gives: how many came before, the timing, the word. -/
abbrev FlashReads : Type := ℕ → Timing → ℕ → UInt32

/-- Of `u32` operations, the sum wraps. -/
def target_clkdiv (sys : UInt32) : UInt8 :=
  let div := (sys + MAX_FLASH_SCK_HZ - 1) / MAX_FLASH_SCK_HZ
  if div < MIN_CLKDIV then MIN_CLKDIV.toUInt8 else if 255 < div then 255 else div.toUInt8

structure SweepResult where
  pass_bitmap : UInt8
  chosen : Option ℕ

section

variable (flash : FlashReads)

def read_volatile (i : ℕ) : Proc Qmi BusEvent UInt32 := do
  let q ← Proc.get
  Proc.emit (.read q.timing i (flash q.reads q.timing i))
  Proc.modify fun q => { q with reads := q.reads + 1 }
  pure (flash q.reads q.timing i)

def write_value (t : Timing) : Proc Qmi BusEvent Unit := do
  Proc.emit (.write_value t)
  Proc.modify fun q => { q with timing := t }

def flush : Proc Qmi BusEvent Unit := Proc.emit .flush

/-- The candidate: every other field is the one of the bootrom. -/
def candidate (orig : Timing) (target_clkdiv : UInt8) (rxdelay : ℕ) : Timing :=
  (orig.set_clkdiv target_clkdiv).set_rxdelay (UInt8.ofNat rxdelay)

/-- The closure `apply`, and the same with the original timing. -/
def apply (t : Timing) : Proc Qmi BusEvent Unit := do
  write_value t
  flush

/-- The body of the loop of `validate`. -/
def differs (golden : ℕ → UInt32) (i : ℕ) : Proc Qmi BusEvent (Option Unit) := do
  let word ← read_volatile flash i
  pure (if word ≠ golden i then some () else none)

/-- The closure `validate`: the loop returns at the first word that differs. -/
def validate (golden : ℕ → UInt32) : Proc Qmi BusEvent Bool := do
  let r ← Proc.firstSome (differs flash golden) (List.range SAMPLE_WORDS)
  pure r.isNone

/-- The loop over the candidates. -/
def try_all (golden : ℕ → UInt32) (orig : Timing) (target_clkdiv : UInt8) :
    List ℕ → (ℕ → Bool) × UInt8 → Proc Qmi BusEvent ((ℕ → Bool) × UInt8)
  | [], r => pure r
  | c :: cs, (pass, pass_bitmap) => do
      apply (candidate orig target_clkdiv c)
      let ok ← validate flash golden
      try_all golden orig target_clkdiv cs
        (Function.update pass c ok,
          if ok then pass_bitmap ||| (1 <<< UInt8.ofNat c) else pass_bitmap)

/-- `best_center` of a run. -/
def center (run_start run_len : ℕ) : ℕ := run_start + (run_len - 1) / 2

def sweep_rxdelay_at_target (golden : ℕ → UInt32) (orig : Timing) (target_clkdiv : UInt8) :
    Proc Qmi BusEvent SweepResult := do
  let (pass, pass_bitmap) ←
    try_all flash golden orig target_clkdiv (List.range (RXDELAY_MAX + 1)) (fun _ => false, 0)
  let run := LongestRun.scan center pass (RXDELAY_MAX + 1) 0
  if run.best_len = 0 then do
    apply orig
    pure ⟨pass_bitmap, none⟩
  else do
    apply (candidate orig target_clkdiv run.best)
    let ok ← validate flash golden
    if ok then pure ⟨pass_bitmap, some run.best⟩
    else do
      apply orig
      pure ⟨pass_bitmap, none⟩

/-- The golden copy. -/
def copy_golden : List ℕ → Proc Qmi BusEvent (List UInt32)
  | [] => pure []
  | i :: is => do
      let word ← read_volatile flash i
      let rest ← copy_golden is
      pure (word :: rest)

/-- The result is what the log speaks of, `none` when there was nothing to do. -/
def speed_up_flash_xip (sys : UInt32) : Proc Qmi BusEvent (Option SweepResult) := do
  let target := target_clkdiv sys
  let q ← Proc.get
  let orig := q.timing
  if orig.clkdiv ≠ 0 ∧ orig.clkdiv ≤ target then pure none
  else do
    flush
    let golden ← copy_golden flash (List.range SAMPLE_WORDS)
    let result ← sweep_rxdelay_at_target flash (fun i => golden.getD i 0) orig target
    pure (some result)

end

/-! ## The target -/

/-- **The target is the fastest allowed clock.** As long as the sum does not overflow, the
clock of the flash is at most 100 MHz, and no smaller divisor from two on would do. -/
theorem target_clkdiv_least {sys : UInt32} (h : sys.toNat + 99999999 < 2 ^ 32) :
    2 ≤ (target_clkdiv sys).toNat ∧ sys.toNat ≤ (target_clkdiv sys).toNat * 100000000
      ∧ ∀ d, 2 ≤ d → sys.toNat ≤ d * 100000000 → (target_clkdiv sys).toNat ≤ d := by
  have hdiv : ((sys + MAX_FLASH_SCK_HZ - 1) / MAX_FLASH_SCK_HZ).toNat
      = (sys.toNat + 99999999) / 100000000 := by
    -- the sum does not wrap
    have hsum : (sys + MAX_FLASH_SCK_HZ - 1).toNat = sys.toNat + 99999999 := by
      have hsys := sys.toNat_lt
      simp only [UInt32.toNat_sub, UInt32.toNat_add, MAX_FLASH_SCK_HZ, UInt32.reduceToNat]
      omega
    rw [UInt32.toNat_div, hsum]
    rfl
  unfold target_clkdiv
  generalize (sys + MAX_FLASH_SCK_HZ - 1) / MAX_FLASH_SCK_HZ = div at hdiv
  simp only
  split
  · rename_i hsmall
    have hlt : div.toNat < 2 := hsmall
    show 2 ≤ 2 ∧ _ ≤ 2 * _ ∧ ∀ d, 2 ≤ d → _ → 2 ≤ d
    refine ⟨Nat.le_refl 2, by omega, fun d hd _ => hd⟩
  · rename_i hlarge
    have hge : 2 ≤ div.toNat := Nat.le_of_not_lt hlarge
    -- and the quotient fits a byte, so the cap is not reached
    have hfits : div.toNat ≤ 255 := by omega
    have hnot : ¬ (255 : UInt32) < div := Nat.not_lt.mpr hfits
    have hbyte : div.toUInt8.toNat = div.toNat := by
      rw [UInt32.toNat_toUInt8]
      omega
    rw [if_neg hnot, hbyte]
    refine ⟨hge, by omega, fun d hd hle => by omega⟩

/-! ## Validation -/

/-- The reads of a validation at timing `t`: all words, and as in the golden copy, or up to
the first one that is not. -/
inductive Validation (golden : ℕ → UInt32) (t : Timing) : Bool → List BusEvent → Prop
  | good : Validation golden t true ((List.range SAMPLE_WORDS).map fun i => .read t i (golden i))
  | bad (i : ℕ) (word : UInt32) (hi : i < SAMPLE_WORDS) (hword : word ≠ golden i) :
      Validation golden t false
        ((List.range i).map (fun i => .read t i (golden i)) ++ [.read t i word])

variable {flash : FlashReads} {golden : ℕ → UInt32}

/-- A read takes what the flash gives at the time. -/
theorem read_volatile_run (i : ℕ) (q : Qmi) :
    read_volatile flash i q = ([.read q.timing i (flash q.reads q.timing i)],
      some (flash q.reads q.timing i, { q with reads := q.reads + 1 })) := rfl

/-- A timing is written, and the cache is flushed. -/
theorem apply_run (t : Timing) (q : Qmi) :
    apply t q = ([.write_value t, .flush], some ((), { q with timing := t })) := rfl

/-- A word is read and compared. -/
theorem differs_run (i : ℕ) (q : Qmi) :
    differs flash golden i q = ([.read q.timing i (flash q.reads q.timing i)],
      some (if flash q.reads q.timing i ≠ golden i then some () else none,
        { q with reads := q.reads + 1 })) := rfl

/-- The loop of `validate`, from word `k` on. -/
theorem validate_from (k n : ℕ) (q : Qmi) :
    ∃ reads r es, Proc.firstSome (differs flash golden) (List.range' k n) q
          = (es, some (r, { q with reads := reads }))
      ∧ (r = none ∧ es = (List.range' k n).map (fun i => .read q.timing i (golden i))
        ∨ ∃ i word, k ≤ i ∧ i < k + n ∧ word ≠ golden i ∧ r = some ()
          ∧ es = (List.range' k (i - k)).map (fun i => .read q.timing i (golden i))
            ++ [.read q.timing i word]) := by
  induction n generalizing k q with
  | zero => exact ⟨q.reads, none, [], rfl, Or.inl ⟨rfl, rfl⟩⟩
  | succ n ih =>
      have hfirst := @differs_run flash golden k q
      rw [List.range'_succ]
      -- the first word that differs ends the check
      by_cases hword : flash q.reads q.timing k ≠ golden k
      · rw [if_pos hword] at hfirst
        refine ⟨q.reads + 1, some (), _, Proc.firstSome_cons hfirst _,
          Or.inr ⟨k, _, Nat.le_refl k, by omega, hword, rfl, ?_⟩⟩
        rw [Nat.sub_self]
        rfl
      · obtain ⟨reads, r, es, hrun, hes⟩ := ih (k + 1) { q with reads := q.reads + 1 }
        rw [if_neg hword] at hfirst
        rw [ne_eq, not_not] at hword
        refine ⟨reads, r, .read q.timing k (golden k) :: es, ?_, ?_⟩
        · rw [Proc.firstSome, Proc.bind_some hfirst, hword]
          simp only [hrun]
          rfl
        · rcases hes with ⟨hnone, rfl⟩ | ⟨i, word, hi, hlt, hne, hsome, rfl⟩
          · exact Or.inl ⟨hnone, rfl⟩
          · refine Or.inr ⟨i, word, by omega, by omega, hne, hsome, ?_⟩
            have hlen : i - k = (i - (k + 1)) + 1 := by omega
            rw [hlen, List.range'_succ]
            rfl

/-- **`validate` says what the reads were.** -/
theorem validate_run (q : Qmi) :
    ∃ reads ok es, validate flash golden q = (es, some (ok, { q with reads := reads }))
      ∧ Validation golden q.timing ok es := by
  obtain ⟨reads, r, es, hrun, hes⟩ := @validate_from flash golden 0 SAMPLE_WORDS q
  rw [← List.range_eq_range'] at hrun
  refine ⟨reads, r.isNone, es, ?_, ?_⟩
  · rw [validate, Proc.bind_some hrun]
    exact congrArg (·, _) (List.append_nil es)
  · rcases hes with ⟨rfl, rfl⟩ | ⟨i, word, -, hi, hne, rfl, rfl⟩
    · rw [← List.range_eq_range']
      exact .good
    · rw [Nat.sub_zero, ← List.range_eq_range']
      exact .bad i word (by omega) hne

/-! ## The sweep -/

/-- The writes and reads of a candidate. -/
def trial (orig : Timing) (target : UInt8) (rs : ℕ → List BusEvent) (c : ℕ) : List BusEvent :=
  .write_value (candidate orig target c) :: .flush :: rs c

/-- A list of results, stored one by one. -/
theorem foldl_update {cs : List ℕ} (hcs : cs.Nodup) (ok pass : ℕ → Bool) (c : ℕ) :
    (cs.foldl (fun p c => Function.update p c (ok c)) pass) c
      = if c ∈ cs then ok c else pass c := by
  induction cs generalizing pass with
  | nil => rfl
  | cons x cs ih =>
      rw [List.nodup_cons] at hcs
      rw [List.foldl_cons, ih hcs.2]
      by_cases hin : c ∈ cs
      · rw [if_pos hin, if_pos (List.mem_cons_of_mem x hin)]
      · rw [if_neg hin]
        by_cases hx : c = x
        · rw [hx, Function.update_self, if_pos List.mem_cons_self]
        · rw [Function.update_of_ne hx, if_neg]
          rw [List.mem_cons, not_or]
          exact ⟨hx, hin⟩

/-- Every candidate is validated at its own timing. -/
theorem try_all_run (orig : Timing) (target : UInt8) {cs : List ℕ} (hcs : cs.Nodup)
    (pass : ℕ → Bool) (pass_bitmap : UInt8) (q : Qmi) :
    ∃ (ok : ℕ → Bool) (rs : ℕ → List BusEvent) (q' : Qmi),
      try_all flash golden orig target cs (pass, pass_bitmap) q
          = (cs.flatMap (trial orig target rs),
            some ((cs.foldl (fun p c => Function.update p c (ok c)) pass,
              cs.foldl (fun b c => if ok c then b ||| (1 <<< UInt8.ofNat c) else b) pass_bitmap),
              q'))
        ∧ ∀ c ∈ cs, Validation golden (candidate orig target c) (ok c) (rs c) := by
  induction cs generalizing pass pass_bitmap q with
  | nil => exact ⟨fun _ => false, fun _ => [], q, rfl, fun c hc => by cases hc⟩
  | cons c cs ih =>
      rw [List.nodup_cons] at hcs
      obtain ⟨reads, ok, es, hvalidate, hvalid⟩ :=
        @validate_run flash golden { q with timing := candidate orig target c }
      obtain ⟨oks, rs, q', hrest, hall⟩ := ih hcs.2 (Function.update pass c ok)
        (if ok then pass_bitmap ||| (1 <<< UInt8.ofNat c) else pass_bitmap)
        ⟨candidate orig target c, reads⟩
      -- what the rest says is not about `c`
      have hother : ∀ x ∈ cs, Function.update oks c ok x = oks x
          ∧ Function.update rs c es x = rs x := by
        intro x hx
        have hne : x ≠ c := by
          rintro rfl
          exact hcs.1 hx
        exact ⟨Function.update_of_ne hne _ _, Function.update_of_ne hne _ _⟩
      have hpass : ∀ p : ℕ → Bool, cs.foldl (fun p x =>
          Function.update p x (Function.update oks c ok x)) p
          = cs.foldl (fun p x => Function.update p x (oks x)) p := by
        intro p
        refine List.foldl_ext _ _ _ fun p x hx => ?_
        rw [(hother x hx).1]
      have hbits : ∀ b : UInt8, cs.foldl (fun b x =>
          if Function.update oks c ok x then b ||| (1 <<< UInt8.ofNat x) else b) b
          = cs.foldl (fun b x => if oks x then b ||| (1 <<< UInt8.ofNat x) else b) b := by
        intro b
        refine List.foldl_ext _ _ _ fun b x hx => ?_
        rw [(hother x hx).1]
      have htrials : cs.flatMap (trial orig target (Function.update rs c es))
          = cs.flatMap (trial orig target rs) := by
        refine List.flatMap_congr fun x hx => ?_
        rw [trial, trial, (hother x hx).2]
      refine ⟨Function.update oks c ok, Function.update rs c es, q', ?_, ?_⟩
      · rw [try_all, Proc.bind_some (apply_run _ q), Proc.bind_some hvalidate, hrest,
          List.flatMap_cons, htrials, List.foldl_cons, List.foldl_cons, hpass, hbits, trial,
          Function.update_self, Function.update_self]
        rfl
      · intro x hx
        rcases List.mem_cons.mp hx with rfl | hx
        · rw [Function.update_self, Function.update_self]
          exact hvalid
        · rw [(hother x hx).1, (hother x hx).2]
          exact hall x hx

/-- The bits of the map are the results. -/
theorem pass_bitmap_bits (ok : ℕ → Bool) : ∀ c < 8,
    ((List.range 8).foldl (fun b c => if ok c then b ||| (1 <<< UInt8.ofNat c) else b)
      (0 : UInt8)).toNat.testBit c = ok c := by
  have hall : ∀ b₀ b₁ b₂ b₃ b₄ b₅ b₆ b₇ : Bool, ∀ c < 8,
      ((List.range 8).foldl (fun b c =>
        if [b₀, b₁, b₂, b₃, b₄, b₅, b₆, b₇].getD c false then b ||| (1 <<< UInt8.ofNat c) else b)
        (0 : UInt8)).toNat.testBit c = [b₀, b₁, b₂, b₃, b₄, b₅, b₆, b₇].getD c false := by
    decide +kernel
  have hok : ∀ c < 8, [ok 0, ok 1, ok 2, ok 3, ok 4, ok 5, ok 6, ok 7].getD c false = ok c := by
    intro c hc
    interval_cases c <;> rfl
  intro c hc
  have hbit := hall (ok 0) (ok 1) (ok 2) (ok 3) (ok 4) (ok 5) (ok 6) (ok 7) c hc
  rw [hok c hc] at hbit
  -- over `List.range 8` the entries of the list are the values of `ok`
  exact hbit

/-- The middle of the first of the longest runs of candidates that passed. -/
def IsCenter (pass : ℕ → Bool) (rx : ℕ) : Prop :=
  ∃ start len, LongestRun.FirstLongest pass (RXDELAY_MAX + 1) start len ∧ 0 < len
    ∧ rx = center start len

/-- A centre is a candidate that passed. -/
theorem IsCenter.passes {pass : ℕ → Bool} {rx : ℕ} (h : IsCenter pass rx) :
    rx ≤ RXDELAY_MAX ∧ pass rx = true := by
  obtain ⟨start, len, hrun, hpos, rfl⟩ := h
  have hin := hrun.inside
  unfold center
  exact ⟨by omega, hrun.passes _ (by omega) (by omega)⟩

/-- What a sweep leaves: the trials and their results, and in the end either the centre of
the eye, validated once more, or the timing of before. -/
structure Swept (golden : ℕ → UInt32) (orig : Timing) (target : UInt8) (es : List BusEvent)
    (r : SweepResult) (left : Timing) (pass : ℕ → Bool) (rs : ℕ → List BusEvent)
    (tail : List BusEvent) : Prop where
  trace : es = (List.range (RXDELAY_MAX + 1)).flatMap (trial orig target rs) ++ tail
  trials : ∀ c < RXDELAY_MAX + 1, Validation golden (candidate orig target c) (pass c) (rs c)
  bits : ∀ c < RXDELAY_MAX + 1, r.pass_bitmap.toNat.testBit c = pass c
  kept : r.chosen = none → left = orig
    ∧ ((∀ c < RXDELAY_MAX + 1, pass c = false) ∧ tail = [.write_value orig, .flush]
      ∨ ∃ rx last, IsCenter pass rx ∧ Validation golden (candidate orig target rx) false last
        ∧ tail = .write_value (candidate orig target rx) :: .flush
          :: (last ++ [.write_value orig, .flush]))
  raised : ∀ rx, r.chosen = some rx → left = candidate orig target rx ∧ IsCenter pass rx
    ∧ ∃ last, Validation golden left true last ∧ tail = .write_value left :: .flush :: last

/-- **What the sweep does**, whatever the reads give. -/
theorem sweep_run (orig : Timing) (target : UInt8) (q : Qmi) :
    ∃ es r q' pass rs tail,
      sweep_rxdelay_at_target flash golden orig target q = (es, some (r, q'))
        ∧ Swept golden orig target es r q'.timing pass rs tail := by
  obtain ⟨ok, rs, q₁, htrials, hvalid⟩ := @try_all_run flash golden orig target _
    (List.nodup_range (n := RXDELAY_MAX + 1)) (fun _ => false) 0 q
  have hbits := pass_bitmap_bits ok
  have hpass : ∀ c < RXDELAY_MAX + 1, ((List.range (RXDELAY_MAX + 1)).foldl
      (fun p c => Function.update p c (ok c)) (fun _ => false)) c = ok c := by
    intro c hc
    rw [foldl_update List.nodup_range, if_pos (List.mem_range.mpr hc)]
  -- what the sweep has folded up: the flags of the trials, and the bitmap
  generalize hp : (List.range (RXDELAY_MAX + 1)).foldl
    (fun p c => Function.update p c (ok c)) (fun _ => false) = pass at htrials hpass
  generalize hb : (List.range (RXDELAY_MAX + 1)).foldl
    (fun b c => if ok c then b ||| (1 <<< UInt8.ofNat c) else b) (0 : UInt8) = bitmap at htrials
  have htried : ∀ c < RXDELAY_MAX + 1,
      Validation golden (candidate orig target c) (pass c) (rs c) := by
    intro c hc
    rw [hpass c hc]
    exact hvalid c (List.mem_range.mpr hc)
  have hmap : ∀ c < RXDELAY_MAX + 1, bitmap.toNat.testBit c = pass c := by
    intro c hc
    rw [hpass c hc, ← hb]
    exact hbits c hc
  obtain ⟨start, hlongest, hbest⟩ := LongestRun.scan_longest center pass (RXDELAY_MAX + 1) 0
  have hnone := LongestRun.scan_eq_zero_iff center pass (RXDELAY_MAX + 1) 0
  generalize hrun : LongestRun.scan center pass (RXDELAY_MAX + 1) 0 = run at hlongest hbest hnone
  -- no value passed: the old timing comes back
  by_cases hzero : run.best_len = 0
  · refine ⟨_, ⟨bitmap, none⟩, { q₁ with timing := orig }, pass, rs, [.write_value orig, .flush],
      ?_, rfl, htried, hmap, fun _ => ⟨rfl, Or.inl ⟨hnone.mp hzero, rfl⟩⟩,
      fun rx h => by cases h⟩
    rw [sweep_rxdelay_at_target, Proc.bind_some htrials]
    simp only [hrun, hzero, if_true]
    rfl
  · have hcenter : IsCenter pass run.best :=
      ⟨start, run.best_len, hlongest, Nat.pos_of_ne_zero hzero, hbest (Nat.pos_of_ne_zero hzero)⟩
    -- the centre is tried once more, by itself
    obtain ⟨reads, good, last, hvalidate, hlast⟩ :=
      @validate_run flash golden { q₁ with timing := candidate orig target run.best }
    cases good with
    | true =>
        refine ⟨_, ⟨bitmap, some run.best⟩, ⟨candidate orig target run.best, reads⟩, pass, rs,
          .write_value (candidate orig target run.best) :: .flush :: last, ?_, rfl, htried, hmap,
          fun h => (by cases h), ?_⟩
        · rw [sweep_rxdelay_at_target, Proc.bind_some htrials]
          simp only [hrun, if_neg hzero]
          rw [Proc.bind_some (apply_run _ q₁), Proc.bind_some hvalidate, if_pos rfl]
          simp only [Proc.pure_run, List.append_nil]
          rfl
        · intro rx h
          cases h
          exact ⟨rfl, hcenter, last, hlast, rfl⟩
    -- the last trial fails, and the old timing comes back after all
    | false =>
        refine ⟨_, ⟨bitmap, none⟩, ⟨orig, reads⟩, pass, rs,
          .write_value (candidate orig target run.best) :: .flush
            :: (last ++ [.write_value orig, .flush]), ?_, rfl, htried, hmap,
          fun _ => ⟨rfl, Or.inr ⟨run.best, last, hcenter, hlast, rfl⟩⟩, fun rx h => by cases h⟩
        rw [sweep_rxdelay_at_target, Proc.bind_some htrials]
        simp only [hrun, if_neg hzero]
        rw [Proc.bind_some (apply_run _ q₁), Proc.bind_some hvalidate,
          if_neg Bool.false_ne_true, Proc.bind_some (apply_run _ _)]
        rfl

/-! ## The whole -/

/-- The golden copy is what the reads before the change gave. -/
theorem copy_golden_run (is : List ℕ) (q : Qmi) :
    ∃ words reads, words.length = is.length
      ∧ copy_golden flash is q
        = ((is.zip words).map fun p => .read q.timing p.1 p.2,
          some (words, { q with reads := reads })) := by
  induction is generalizing q with
  | nil => exact ⟨[], q.reads, rfl, rfl⟩
  | cons i is ih =>
      obtain ⟨words, reads, hlen, hrun⟩ := ih { q with reads := q.reads + 1 }
      refine ⟨flash q.reads q.timing i :: words, reads, congrArg (· + 1) hlen, ?_⟩
      rw [copy_golden, Proc.bind_some (read_volatile_run i q), Proc.bind_some hrun]
      simp only [Proc.pure_run, List.append_nil]
      rfl

/-- A list, read as a function of the place. -/
theorem zip_range_getD (words : List UInt32) :
    (List.range words.length).zip words
      = (List.range words.length).map fun i => (i, words.getD i 0) := by
  refine List.ext_getElem (by simp) fun k hk hk' => ?_
  have hin : k < words.length := by
    rw [List.length_map, List.length_range] at hk'
    exact hk'
  rw [List.getElem_zip, List.getElem_map, List.getElem_range, List.getD_eq_getElem _ _ hin]

/-- **The faster clock is safe.** Whatever the flash gives under timings it is not made for:
`speed_up_flash_xip` comes to its end, and leaves the timing that it found, or the target
divisor at a sample point under which all words of the sample have just read as in the golden
copy, with all other fields as they were. The sample point is the middle of the first of the
longest runs of those that passed, and the bitmap in the log shows which ones did. A divisor
that is fast enough is left alone. -/
theorem speed_up_safe (sys : UInt32) (q : Qmi) :
    ∃ es r q', speed_up_flash_xip flash sys q = (es, some (r, q'))
      ∧ (r = none ∧ es = [] ∧ q' = q
          ∧ q.timing.clkdiv ≠ 0 ∧ q.timing.clkdiv ≤ target_clkdiv sys
        ∨ ∃ golden result swept pass rs tail, r = some result
          ∧ ¬ (q.timing.clkdiv ≠ 0 ∧ q.timing.clkdiv ≤ target_clkdiv sys)
          ∧ es = .flush :: ((List.range SAMPLE_WORDS).map fun i => .read q.timing i (golden i))
            ++ swept
          ∧ Swept golden q.timing (target_clkdiv sys) swept result q'.timing pass rs tail) := by
  -- a flash that is fast enough is left alone
  by_cases hfast : q.timing.clkdiv ≠ 0 ∧ q.timing.clkdiv ≤ target_clkdiv sys
  · refine ⟨[], none, q, ?_, Or.inl ⟨rfl, rfl, rfl, hfast⟩⟩
    rw [speed_up_flash_xip, Proc.get_bind_run, if_pos hfast]
    rfl
  · obtain ⟨words, reads, hlen, hcopy⟩ :=
      @copy_golden_run flash (List.range SAMPLE_WORDS) q
    rw [List.length_range] at hlen
    obtain ⟨es, result, q', pass, rs, tail, hsweep, hswept⟩ :=
      @sweep_run flash (fun i => words.getD i 0) q.timing (target_clkdiv sys)
        { q with reads := reads }
    refine ⟨_, some result, q', ?_, Or.inr ⟨fun i => words.getD i 0, result, es, pass, rs, tail,
      rfl, hfast, rfl, hswept⟩⟩
    -- the words that were read are the golden copy
    have hzip := zip_range_getD words
    rw [hlen] at hzip
    have hflush : flush q = ([.flush], some ((), q)) := rfl
    rw [speed_up_flash_xip, Proc.get_bind_run, if_neg hfast, Proc.bind_some hflush,
      Proc.bind_some hcopy, Proc.bind_some hsweep, hzip, List.map_map]
    simp only [Proc.pure_run, List.append_nil]
    rfl

end PicoDsp.FlashDiag
