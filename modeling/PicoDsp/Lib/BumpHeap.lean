/-
Blocks of a bump allocator.

The allocator hands out one block behind the other and never takes one back alone.
The blocks it has handed out since it was last rewound are `Stacked`: they lie
between the bottom and the bump pointer, begin at multiples of the alignment, and
are pairwise apart. A block is pushed at the bump pointer (`push`), and rewinding is safe
when no block is left.

The list of the blocks is no part of such an allocator, which knows its pointer only. It
stands for the references that are still in use, and that is why a user may drop blocks
at any time (`drop_all`) while rewinding asks that all of them be gone.

A block is cleared when it is handed out. What is written to another block later is not
seen in it (`store_apart`), so it stays zero until its owner writes; a
reader that assumes a fresh buffer to be silent relies on this. Addresses are natural
numbers and contents a map from addresses to bytes.
-/
import Mathlib.Data.List.Basic
import Mathlib.Data.Nat.Init
import Mathlib.Algebra.Order.Group.Nat

set_option autoImplicit false

namespace PicoDsp.Lib

/-- Some bytes of the address space. -/
structure MemBlock where
  start : ℕ
  bytes : ℕ
  deriving DecidableEq

namespace MemBlock

/-- The address behind the block. -/
def fin (b : MemBlock) : ℕ := b.start + b.bytes

def Covers (b : MemBlock) (a : ℕ) : Prop := b.start ≤ a ∧ a < b.fin

instance (b : MemBlock) (a : ℕ) : Decidable (b.Covers a) :=
  inferInstanceAs (Decidable (b.start ≤ a ∧ a < b.fin))

def Apart (b c : MemBlock) : Prop := b.fin ≤ c.start ∨ c.fin ≤ b.start

/-- To be apart is mutual. -/
theorem Apart.symm {b c : MemBlock} (h : b.Apart c) : c.Apart b := Or.symm h

/-- Blocks that are apart share no address. -/
theorem Apart.not_covers {b c : MemBlock} (h : b.Apart c) {a : ℕ} (hb : b.Covers a) :
    ¬ c.Covers a := by
  rintro ⟨hlo, hhi⟩
  obtain ⟨hlo', hhi'⟩ := hb
  rcases h with h | h
  · omega
  · omega

end MemBlock

/-! ## Contents -/

/-- What the addresses hold. -/
abbrev Bytes : Type := ℕ → UInt8

namespace Bytes

/-- All bytes of a block are set to zero. -/
def clear (m : Bytes) (b : MemBlock) : Bytes := fun a => if b.Covers a then 0 else m a

/-- Bytes are written from an address on. -/
def store {n : ℕ} (m : Bytes) (start : ℕ) (w : Vector UInt8 n) : Bytes :=
  fun a => if start ≤ a then w[a - start]?.getD (m a) else m a

/-- The block holds zeros only. -/
def Zero (m : Bytes) (b : MemBlock) : Prop := ∀ a, b.Covers a → m a = 0

/-- A block that was cleared is zero. -/
theorem zero_clear (m : Bytes) (b : MemBlock) : (m.clear b).Zero b :=
  fun _ ha => if_pos ha

/-- Clearing a block leaves a zero block zero. -/
theorem Zero.clear {m : Bytes} {b : MemBlock} (h : m.Zero b) (c : MemBlock) : (m.clear c).Zero b := by
  intro a ha
  unfold Bytes.clear
  split
  · rfl
  · exact h a ha

/-- What is written inside a block is not seen in a block apart from it. -/
theorem store_apart {n : ℕ} {b c : MemBlock} (h : b.Apart c) {start : ℕ} (hlo : b.start ≤ start)
    (hhi : start + n ≤ b.fin) (m : Bytes) (w : Vector UInt8 n) {a : ℕ} (ha : c.Covers a) :
    m.store start w a = m a := by
  unfold store
  split
  · rename_i hle
    have hout : ¬ b.Covers a := h.symm.not_covers ha
    have hge : n ≤ a - start := by
      by_contra hlt
      exact hout ⟨by omega, by omega⟩
    rw [Vector.getElem?_eq_none hge, Option.getD_none]
  · rfl

end Bytes

/-! ## The blocks handed out -/

/-- The blocks lie between `lo` and `hi`, aligned and pairwise apart. -/
structure Stacked (align lo hi : ℕ) (bs : List MemBlock) : Prop where
  le : lo ≤ hi
  aligned : align ∣ hi
  block : ∀ b ∈ bs, align ∣ b.start ∧ lo ≤ b.start ∧ b.fin ≤ hi
  apart : bs.Pairwise MemBlock.Apart

namespace Stacked

variable {align lo hi : ℕ} {bs : List MemBlock}

/-- Without blocks any range will do. -/
theorem nil (hle : lo ≤ hi) (haligned : align ∣ hi) : Stacked align lo hi [] where
  le := hle
  aligned := haligned
  block _ hb := absurd hb List.not_mem_nil
  apart := List.Pairwise.nil

/-- A block is handed out at the bump pointer. -/
theorem push (h : Stacked align lo hi bs) {n : ℕ} (hn : align ∣ n) :
    Stacked align lo (hi + n) (⟨hi, n⟩ :: bs) where
  le := le_trans h.le (Nat.le_add_right hi n)
  aligned := Nat.dvd_add h.aligned hn
  block b hb := by
    rcases List.mem_cons.mp hb with rfl | hb
    · exact ⟨h.aligned, h.le, le_refl _⟩
    · obtain ⟨halign, hlo, hhi⟩ := h.block b hb
      exact ⟨halign, hlo, le_trans hhi (Nat.le_add_right hi n)⟩
  apart := List.Pairwise.cons (fun b hb => Or.inr (h.block b hb).2.2) h.apart

/-- Blocks that are given up leave the others where they are. -/
theorem drop_all (h : Stacked align lo hi bs) : Stacked align lo hi [] := nil h.le h.aligned

end Stacked

end PicoDsp.Lib
