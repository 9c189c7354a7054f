/-
NOR flash.

A flash is a map from addresses to cells. Erasing a range puts the erased value
in every cell of it; programming can only move a cell away from the erased
value, never back, so what a program leaves in a cell depends on what was there
(`NorCell.program`). The one law the development needs is that programming an
erased cell writes the value: an erase followed by a program of the same range
is then an assignment (`rewrite_apply`), and everything said about the pair is
said about `rewrite`.

The two halves stay apart in the definitions, because power may fail between them, and
what a reader finds then is the erased range. The map is total and has no end: which
addresses there are, that erases come in sectors and programs in pages, belongs to
the program that uses the flash.

A cell is any type with the class `NorCell`; for bytes the erased value is 0xFF and
programming is a bitwise and. Reading a range gives a list, and two flashes that agree
on a range read the same there (`read_congr`), which is how a frame is used.
-/
import Mathlib.Data.List.Basic

set_option autoImplicit false

namespace PicoDsp.Lib

/-- The cells of a NOR flash. -/
class NorCell (α : Type) where
  /-- What an erase leaves in a cell. -/
  erased : α
  /-- `program old new`: the cell after programming `new` over `old`. -/
  program : α → α → α
  program_erased : ∀ x : α, program erased x = x

namespace NorFlash

variable {α : Type} [NorCell α]

/-- The cells of `len` addresses from `addr` on. -/
def read (f : ℕ → α) (addr len : ℕ) : List α := (List.range len).map fun k => f (addr + k)

/-- Erase `len` cells from `addr` on. -/
def erase (f : ℕ → α) (addr len : ℕ) : ℕ → α :=
  fun a => if addr ≤ a ∧ a < addr + len then NorCell.erased else f a

/-- Program `data` from `addr` on. -/
def program (f : ℕ → α) (addr : ℕ) (data : List α) : ℕ → α :=
  fun a => if h : addr ≤ a ∧ a < addr + data.length then
      NorCell.program (f a) (data[a - addr])
    else f a

/-- Erase a range as long as `data`, then program `data` into it. -/
def rewrite (f : ℕ → α) (addr : ℕ) (data : List α) : ℕ → α :=
  program (erase f addr data.length) addr data

/-! ## Reading -/

omit [NorCell α] in
@[simp] theorem read_length (f : ℕ → α) (addr len : ℕ) : (read f addr len).length = len := by
  simp [read]

omit [NorCell α] in
/-- An entry of a range that was read. -/
theorem read_getElem (f : ℕ → α) (addr len k : ℕ) (hk : k < (read f addr len).length) :
    (read f addr len)[k] = f (addr + k) := by
  simp [read]

omit [NorCell α] in
/-- Two flashes that agree on a range read the same there. -/
theorem read_congr {f g : ℕ → α} {addr len : ℕ}
    (h : ∀ a, addr ≤ a → a < addr + len → f a = g a) : read f addr len = read g addr len := by
  refine List.map_congr_left fun k hk => ?_
  rw [List.mem_range] at hk
  exact h _ (Nat.le_add_right _ _) (by omega)

omit [NorCell α] in
/-- Reading a range returns exactly the list it agrees with. -/
theorem read_eq_of_agree {f : ℕ → α} {addr : ℕ} {data : List α}
    (h : ∀ k (hk : k < data.length), f (addr + k) = data[k]) :
    read f addr data.length = data := by
  refine List.ext_getElem (read_length f addr data.length) fun k h₁ h₂ => ?_
  rw [read_getElem, h k h₂]

/-! ## Erasing and programming -/

/-- An erased cell. -/
theorem erase_inside {f : ℕ → α} {addr len a : ℕ} (h : addr ≤ a ∧ a < addr + len) :
    erase f addr len a = NorCell.erased := if_pos h

/-- A cell outside of the erased range. -/
theorem erase_outside {f : ℕ → α} {addr len a : ℕ} (h : ¬ (addr ≤ a ∧ a < addr + len)) :
    erase f addr len a = f a := if_neg h

/-- A cell outside of the programmed range. -/
theorem program_outside {f : ℕ → α} {addr a : ℕ} {data : List α}
    (h : ¬ (addr ≤ a ∧ a < addr + data.length)) : program f addr data a = f a := dif_neg h

/-- **Erase, then program, is an assignment.** -/
theorem rewrite_apply (f : ℕ → α) (addr : ℕ) (data : List α) (a : ℕ) :
    rewrite f addr data a
      = if h : addr ≤ a ∧ a < addr + data.length then data[a - addr] else f a := by
  unfold rewrite program
  split
  · rename_i h
    rw [erase_inside h, NorCell.program_erased]
  · rename_i h
    exact erase_outside h

/-- A rewrite leaves everything outside of its range. -/
theorem rewrite_outside {f : ℕ → α} {addr a : ℕ} {data : List α}
    (h : ¬ (addr ≤ a ∧ a < addr + data.length)) : rewrite f addr data a = f a := by
  rw [rewrite_apply, dif_neg h]

/-- And puts the data inside. -/
theorem rewrite_inside {f : ℕ → α} {addr k : ℕ} {data : List α} (hk : k < data.length) :
    rewrite f addr data (addr + k) = data[k] := by
  rw [rewrite_apply, dif_pos ⟨by omega, by omega⟩]
  congr 1
  omega

end NorFlash

end PicoDsp.Lib
