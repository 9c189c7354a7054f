/-
The self-test of the PSRAM (`self_test` in `psram.rs`).

The address lines are a decoder: `bus` selects the cell that an address reaches. Each
word is written with a pattern of its own, so the first read that differs is the first
word whose cell a later one has taken, and no read differs when there is none.

`bus` is any map from addresses to cells, and so are all faults of the address lines:
lines that are stuck or shorted, a smaller chip that repeats, a region that is not there
at all. Over any such map the test returns `Ok` exactly when no two words of the region
share a cell (`self_test_detects`), and otherwise the offset of the first word that is
rewritten, in the first of its passes (`self_test_error`). The general part is
`Lib/Decoder.lean`; what belongs here are the loops and the pattern.

The pattern multiplies the number of the word by an odd constant and so is a permutation of
the 32-bit words (`pattern_injOn`), for which the inverse of the constant is enough. No two
words of any region that a 32-bit address can span have the same pattern, so the
result holds for every size.

`main` arms the allocator only if the test returns `Ok`, which is the point of it: from
then on the delay lines may take the region for an array (`main_psram_ends_iff`).
-/
import PicoDsp.Lib.Decoder
import PicoDsp.Lib.Proc
import PicoDsp.System.DelayMemory

set_option autoImplicit false

namespace PicoDsp.SelfTest

open Lib Decoder

/-! ## The pattern -/

/-- Address-dependent test pattern. -/
def pattern (word_index : ℕ) : UInt32 :=
  (UInt32.ofNat word_index * 0x9E37_79B1) ^^^ 0x1111_1100

/-- The odd factor is a unit modulo `2 ^ 32`. -/
theorem factor_inverse : (0x9E37_79B1 : UInt32) * 0x0E8B_2F51 = 1 := by decide

/-- Different words have different patterns: the factor can be divided out again. -/
theorem pattern_injOn : Set.InjOn pattern (Set.Iio (2 ^ 32)) := by
  intro i hi j hj heq
  have hmul : UInt32.ofNat i * 0x9E37_79B1 = UInt32.ofNat j * 0x9E37_79B1 :=
    (UInt32.xor_left_inj _).mp heq
  have hword : UInt32.ofNat i = UInt32.ofNat j :=
    calc UInt32.ofNat i = UInt32.ofNat i * 0x9E37_79B1 * 0x0E8B_2F51 := by
          rw [UInt32.mul_assoc, factor_inverse, UInt32.mul_one]
      _ = UInt32.ofNat j * 0x9E37_79B1 * 0x0E8B_2F51 := by rw [hmul]
      _ = UInt32.ofNat j := by rw [UInt32.mul_assoc, factor_inverse, UInt32.mul_one]
  have hnat := congrArg UInt32.toNat hword
  rwa [UInt32.toNat_ofNat_of_lt' hi, UInt32.toNat_ofNat_of_lt' hj] at hnat

/-! ## The test -/

/-- The messages of the test. -/
inductive Info
  /-- `PSRAM self-test FAIL pass {} @word {}: got {=u32:#x} want {=u32:#x}` -/
  | fail (pass : UInt8) (word : ℕ) (got want : UInt32)
  /-- `PSRAM self-test PASS — {} MiB verified` -/
  | pass (mib : ℕ)
  deriving DecidableEq

variable {C : Type}

/-- The cell behind `base.add(i)`. -/
def cell (bus : ℕ → C) (base i : ℕ) : C := bus (base + 4 * i)

/-- The body of the read loop, with the offset that it returns. -/
def read_word (bus : ℕ → C) (base : ℕ) (pass : UInt8) (i : ℕ) :
    Proc (C → UInt32) Info (Option ℕ) := do
  let mem ← Proc.get
  let got := load (cell bus base) mem i
  let want := pattern i
  if got ≠ want then do
    Proc.emit (.fail pass i got want)
    pure (some (i * 4 % 2 ^ 32))
  else pure none

/-- A pass of the read loop. -/
def read_pass (bus : ℕ → C) (base words : ℕ) (pass : UInt8) :
    Proc (C → UInt32) Info (Option ℕ) :=
  Proc.firstSome (read_word bus base pass) (List.range words)

variable [DecidableEq C]

def write_word (bus : ℕ → C) (base i : ℕ) : Proc (C → UInt32) Info Unit :=
  Proc.modify (store (cell bus base) i (pattern i))

/-- `self_test` on the region of `size` bytes at `base`. -/
def self_test (bus : ℕ → C) (base size : ℕ) : Proc (C → UInt32) Info (Except ℕ Unit) := do
  let words := size / 4
  Proc.each (write_word bus base) (List.range words)
  match ← Proc.firstSome (read_pass bus base words) [0, 1] with
  | some offset => pure (.error offset)
  | none => do
      Proc.emit (.pass (size / (1024 * 1024)))
      pure (.ok ())

/-! ## The loops -/

variable {bus : ℕ → C} {base size : ℕ} {mem : C → UInt32}

/-- The memory that the write loop leaves. -/
def written (bus : ℕ → C) (base size : ℕ) (mem : C → UInt32) : C → UInt32 :=
  fill (cell bus base) pattern (size / 4) mem

/-- The write loop, as a whole. -/
theorem write_words_run (bus : ℕ → C) (base size : ℕ) (mem : C → UInt32) :
    Proc.each (write_word bus base) (List.range (size / 4)) mem
      = ([], some ((), written bus base size mem)) := by
  have hbody : ∀ i ∈ List.range (size / 4), ∀ m, write_word bus base i m
      = ([], some ((), store (cell bus base) i (pattern i) m)) := fun _ _ _ => rfl
  rw [Proc.each_run_of_total hbody, List.flatMap_eq_nil_iff.mpr fun _ _ => rfl]
  rfl

omit [DecidableEq C] in
/-- A word that reads back its pattern. -/
theorem read_word_same {pass : UInt8} {i : ℕ} (h : load (cell bus base) mem i = pattern i) :
    read_word bus base pass i mem = ([], some (none, mem)) := by
  rw [read_word, Proc.get_bind_run]
  simp only [ne_eq, h, not_true_eq_false, if_false]
  rfl

omit [DecidableEq C] in
/-- A word that does not ends the pass, and is reported. -/
theorem read_word_other {pass : UInt8} {i : ℕ} (h : load (cell bus base) mem i ≠ pattern i) :
    read_word bus base pass i mem
      = ([.fail pass i (load (cell bus base) mem i) (pattern i)],
        some (some (i * 4 % 2 ^ 32), mem)) := by
  rw [read_word, Proc.get_bind_run]
  simp only [ne_eq, h, not_false_eq_true, if_true]
  rfl

/-! ## The result -/

/-- A word reads back its pattern unless its cell is written again. -/
theorem load_written_iff (hwords : size / 4 ≤ 2 ^ 30) {i : ℕ} (hi : i < size / 4) :
    load (cell bus base) (written bus base size mem) i = pattern i
      ↔ ¬ Rewritten (cell bus base) (size / 4) i := by
  have hle : size / 4 ≤ 2 ^ 32 := hwords.trans (by norm_num)
  exact load_fill_eq_iff (pattern_injOn.mono (Set.Iio_subset_Iio hle)) mem hi

/-- Without a word that is rewritten both passes are quiet. -/
theorem self_test_ok (hwords : size / 4 ≤ 2 ^ 30)
    (hnone : ∀ i, ¬ Rewritten (cell bus base) (size / 4) i) (mem : C → UInt32) :
    self_test bus base size mem
      = ([.pass (size / (1024 * 1024))], some (.ok (), written bus base size mem)) := by
  have hpass : ∀ pass, read_pass bus base (size / 4) pass (written bus base size mem)
      = ([], some (none, written bus base size mem)) := by
    intro pass
    apply Proc.firstSome_none
    intro i hi
    exact read_word_same ((load_written_iff hwords (List.mem_range.mp hi)).mpr (hnone i))
  have hpasses : Proc.firstSome (read_pass bus base (size / 4)) [0, 1] (written bus base size mem)
      = ([], some (none, written bus base size mem)) := Proc.firstSome_none fun pass _ => hpass pass
  rw [self_test, Proc.bind_quiet (write_words_run bus base size mem), Proc.bind_quiet hpasses]
  rfl

/-- The first pass reports the first word that is rewritten, with the pattern of the
last word that took its cell. -/
theorem self_test_error (hwords : size / 4 ≤ 2 ^ 30) {i : ℕ}
    (hleast : IsLeast {i | Rewritten (cell bus base) (size / 4) i} i) (mem : C → UInt32) :
    ∃ j, i < j ∧ j < size / 4 ∧ cell bus base j = cell bus base i
      ∧ (∀ l, j < l → l < size / 4 → cell bus base l ≠ cell bus base i)
      ∧ self_test bus base size mem
        = ([.fail 0 i (pattern j) (pattern i)],
          some (.error (i * 4), written bus base size mem)) := by
  obtain ⟨hmem, hbelow⟩ := hleast
  have hi : i < size / 4 := Rewritten.lt hmem
  have hdiff : load (cell bus base) (written bus base size mem) i ≠ pattern i :=
    fun hsame => (load_written_iff hwords hi).mp hsame hmem
  obtain ⟨j, hij, hj, hcell, hlast, hval⟩ := load_fill (d := cell bus base) pattern mem hi
  have hval' : load (cell bus base) (written bus base size mem) i = pattern j := hval
  have hne : i ≠ j := by
    rintro rfl
    exact hdiff hval'
  refine ⟨j, Nat.lt_of_le_of_ne hij hne, hj, hcell, hlast, ?_⟩
  -- the words before `i` read back their patterns
  have hbefore : ∀ k < i, read_word bus base 0 k (written bus base size mem)
      = ([], some (none, written bus base size mem)) := by
    intro k hk
    apply read_word_same
    rw [load_written_iff hwords (hk.trans hi)]
    exact fun hrewritten => Nat.not_le_of_lt hk (hbelow hrewritten)
  have hoffset : i * 4 % 2 ^ 32 = i * 4 := Nat.mod_eq_of_lt (by omega)
  have hstop : read_word bus base 0 i (written bus base size mem)
      = ([.fail 0 i (pattern j) (pattern i)],
        some (some (i * 4), written bus base size mem)) := by
    rw [read_word_other hdiff, hoffset, hval']
  have hpass : read_pass bus base (size / 4) 0 (written bus base size mem)
      = ([.fail 0 i (pattern j) (pattern i)],
        some (some (i * 4), written bus base size mem)) :=
    Proc.firstSome_range hi hbefore hstop
  rw [self_test, Proc.bind_quiet (write_words_run bus base size mem),
    Proc.bind_some (Proc.firstSome_cons hpass [1])]
  rfl

/-- **The self-test catches every fault of the address decoder.** It returns `Ok` exactly
when no two words of the region share a cell, and `Err` with the offset of the first word
whose cell is written again; no two patterns below `2 ^ 32` are the same. -/
theorem self_test_detects (bus : ℕ → C) (base size : ℕ) (hwords : size / 4 ≤ 2 ^ 30)
    (mem : C → UInt32) :
    (∃ es result mem', self_test bus base size mem = (es, some (result, mem'))
      ∧ (result = .ok () ↔ Set.InjOn (cell bus base) (Set.Iio (size / 4)))
      ∧ ∀ offset, result = .error offset →
          IsLeast {i | Rewritten (cell bus base) (size / 4) i} (offset / 4))
      ∧ ∀ i j, i < 2 ^ 32 → j < 2 ^ 32 → i ≠ j → pattern i ≠ pattern j := by
  refine ⟨?_, fun i j hi hj hne heq => hne (pattern_injOn hi hj heq)⟩
  by_cases hsome : ∃ i, Rewritten (cell bus base) (size / 4) i
  · obtain ⟨_, hrewritten⟩ := hsome
    obtain ⟨i, hleast⟩ := hrewritten.exists_least
    obtain ⟨j, -, -, -, -, hrun⟩ := self_test_error hwords hleast mem
    refine ⟨_, _, _, hrun, ?_, ?_⟩
    · rw [injOn_iff]
      exact iff_of_false nofun fun hnone => hnone i hleast.1
    · intro offset hoffset
      rw [Except.error.injEq] at hoffset
      rwa [← hoffset, Nat.mul_div_cancel i (by decide)]
  · rw [not_exists] at hsome
    refine ⟨_, _, _, self_test_ok hwords hsome mem, ?_, nofun⟩
    rw [injOn_iff]
    exact iff_of_true rfl hsome

/-- Address lines 2 and 3 are shorted. -/
def shorted (a : ℕ) : ℕ := if a / 4 % 4 = 0 then a else a ||| 12

/-- Words 1, 2 and 3 share a cell, and word 1 is reported. -/
theorem self_test_detects_shorted :
    ∃ es mem', self_test shorted 0x1100_0000 16 (fun _ => 0) = (es, some (.error 4, mem'))
      ∧ IsLeast {i | Rewritten (cell shorted 0x1100_0000) (16 / 4) i} 1 := by
  obtain ⟨⟨es, result, mem', hrun, -, hleast⟩, -⟩ :=
    self_test_detects shorted 0x1100_0000 16 (by norm_num) fun _ => 0
  have hresult : result = .error 4 := by
    have heval : (self_test shorted 0x1100_0000 16 fun _ => 0).2.map Prod.fst
        = some (.error 4) := by rfl
    rw [hrun] at heval
    exact Option.some.inj heval
  rw [hresult] at hrun
  exact ⟨es, mem', hrun, hleast 4 hresult⟩

/-! ## What `main` relies on -/

/-- `main` up to `init_alloc`. -/
def main_psram (bus : ℕ → C) (region : PsramRegion) : Proc (C → UInt32) Info Unit := do
  match ← self_test bus region.base region.size with
  | .error _ => Proc.panic
  | .ok () => pure ()

/-- **The allocator is only armed over a region that is an array.** -/
theorem main_psram_ends_iff (bus : ℕ → C) (region : PsramRegion) (mem : C → UInt32) :
    (Proc.final (main_psram bus region) mem).isSome = true
      ↔ Faithful UInt32 (cell bus region.base) (region.size / 4) := by
  have hfits := region.fits
  have hwords : region.size / 4 ≤ 2 ^ 30 := by omega
  have : Nontrivial UInt32 := ⟨0, 1, by decide⟩
  rw [faithful_iff, injOn_iff]
  by_cases hsome : ∃ i, Rewritten (cell bus region.base) (region.size / 4) i
  · obtain ⟨_, hrewritten⟩ := hsome
    obtain ⟨i, hleast⟩ := hrewritten.exists_least
    obtain ⟨j, -, -, -, -, hrun⟩ := self_test_error hwords hleast mem
    rw [Proc.final, main_psram, Proc.bind_some hrun]
    exact iff_of_false Bool.false_ne_true fun hnone => hnone i hleast.1
  · rw [not_exists] at hsome
    rw [Proc.final, main_psram, Proc.bind_some (self_test_ok hwords hsome mem)]
    exact iff_of_true rfl hsome

end PicoDsp.SelfTest
