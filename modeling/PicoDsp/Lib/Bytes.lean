/-
Bytes, little-endian words and nibbles.

The wire formats and the flash records of an embedded program are lists of
bytes; this file holds the two codings used on them, and their round trips.

A record is read by a cast of its bytes in the programs this is for, so a field is the
word at a fixed offset (`u32At`). Reading is total: bytes past the end count as zero,
and the lemmas that move an offset from a list to a part of it say what has to lie
inside. Records of one size in a row are found at the multiples of it
(`getD_flatten`).

Nibbles are how eight-bit data travel where bit 7 means something else. Encoding and
decoding are recursions on the list, and `denibbleize` gives the receiver's view too:
a byte of the decoded list is made of two bytes of the received one at fixed
positions, whatever their upper halves are (`denibbleize_getD`).
-/
import Mathlib

set_option autoImplicit false

namespace PicoDsp.Lib.Bytes

/-! ## Little-endian words -/

/-- `u32::from_le_bytes`. -/
def from_le_bytes (b0 b1 b2 b3 : UInt8) : UInt32 :=
  UInt32.ofNat (b0.toNat + 256 * (b1.toNat + 256 * (b2.toNat + 256 * b3.toNat)))

/-- `u32::to_le_bytes`. -/
def to_le_bytes (w : UInt32) : List UInt8 :=
  [UInt8.ofNat w.toNat, UInt8.ofNat (w.toNat / 256), UInt8.ofNat (w.toNat / 65536),
    UInt8.ofNat (w.toNat / 16777216)]

/-- The little-endian word at byte offset `off` (zero past the end). -/
def u32At (bs : List UInt8) (off : ℕ) : UInt32 :=
  from_le_bytes (bs.getD off 0) (bs.getD (off + 1) 0) (bs.getD (off + 2) 0) (bs.getD (off + 3) 0)

@[simp] theorem to_le_bytes_length (w : UInt32) : (to_le_bytes w).length = 4 := rfl

/-- Decoding the four bytes of a word gives the word back. -/
theorem u32At_to_le_bytes (w : UInt32) : u32At (to_le_bytes w) 0 = w := by
  have hw := w.toNat_lt
  apply UInt32.toNat_inj.mp
  simp only [u32At, to_le_bytes, from_le_bytes, List.getD_cons_zero, List.getD_cons_succ,
    UInt8.toNat_ofNat', UInt32.toNat_ofNat']
  omega

/-- A word is read from the part of the list that holds it. -/
theorem u32At_append_right (as bs : List UInt8) (off : ℕ) :
    u32At (as ++ bs) (as.length + off) = u32At bs off := by
  have h : ∀ k, (as ++ bs).getD (as.length + k) 0 = bs.getD k 0 := by
    intro k
    rw [List.getD_append_right _ _ _ _ (Nat.le_add_right _ _), Nat.add_sub_cancel_left]
  simp only [u32At, Nat.add_assoc, h]

/-- A word that lies in the front part. -/
theorem u32At_append_left (as bs : List UInt8) {off : ℕ} (h : off + 4 ≤ as.length) :
    u32At (as ++ bs) off = u32At as off := by
  have h' : ∀ k, k < as.length → (as ++ bs).getD k 0 = as.getD k 0 :=
    fun k hk => List.getD_append _ _ _ _ hk
  simp only [u32At, h' off (by omega), h' (off + 1) (by omega), h' (off + 2) (by omega),
    h' (off + 3) (by omega)]

/-- Only the four bytes at the offset matter. -/
theorem u32At_congr {as bs : List UInt8} {off : ℕ}
    (h : ∀ k, off ≤ k → k < off + 4 → as.getD k 0 = bs.getD k 0) : u32At as off = u32At bs off := by
  simp only [u32At, h off (by omega) (by omega), h (off + 1) (by omega) (by omega),
    h (off + 2) (by omega) (by omega), h (off + 3) (by omega) (by omega)]

/-- Word `k` of a list of words. -/
theorem u32At_words {ws : List UInt32} {k : ℕ} (hk : k < ws.length) (rest : List UInt8) :
    u32At (ws.flatMap to_le_bytes ++ rest) (4 * k) = ws.getD k 0 := by
  induction ws generalizing k with
  | nil => exact absurd hk (Nat.not_lt_zero k)
  | cons w ws ih =>
      rw [List.flatMap_cons, List.append_assoc]
      cases k with
      | zero =>
          rw [Nat.mul_zero, u32At_append_left _ _ (Nat.le_refl 4), u32At_to_le_bytes]
          rfl
      | succ k =>
          have hk' : k < ws.length := by
            rw [List.length_cons] at hk
            omega
          have hoff : 4 * (k + 1) = (to_le_bytes w).length + 4 * k := by
            rw [to_le_bytes_length]
            omega
          rw [hoff, u32At_append_right, ih hk', List.getD_cons_succ]

/-! ## Records of one size -/

/-- Records of one size lie at the multiples of it. -/
theorem getD_flatten {rs : List (List UInt8)} {n i k : ℕ} (h : ∀ r ∈ rs, r.length = n)
    (hk : k < n) : rs.flatten.getD (i * n + k) 0 = (rs.getD i []).getD k 0 := by
  induction rs generalizing i with
  | nil => simp
  | cons r rs ih =>
      have hr := h r List.mem_cons_self
      have hrs : ∀ r ∈ rs, r.length = n := fun r hmem => h r (List.mem_cons_of_mem _ hmem)
      rw [List.flatten_cons]
      cases i with
      | zero =>
          rw [Nat.zero_mul, Nat.zero_add, List.getD_append _ _ _ _ (by omega)]
          rfl
      | succ i =>
          have hoff : (i + 1) * n + k = r.length + (i * n + k) := by
            rw [hr, Nat.succ_mul]
            omega
          rw [hoff, List.getD_append_right _ _ _ _ (Nat.le_add_right _ _),
            Nat.add_sub_cancel_left, ih hrs, List.getD_cons_succ]

/-- Records of one size in a row. -/
theorem length_flatten {rs : List (List UInt8)} {n : ℕ} (h : ∀ r ∈ rs, r.length = n) :
    rs.flatten.length = rs.length * n := by
  induction rs with
  | nil => exact (Nat.zero_mul n).symm
  | cons r rs ih =>
      have hr := h r List.mem_cons_self
      have hrs := ih fun r hmem => h r (List.mem_cons_of_mem _ hmem)
      rw [List.flatten_cons, List.length_append, hrs, hr, List.length_cons, Nat.succ_mul,
        Nat.add_comm]

/-! ## Nibbles -/

/-- The high nibble of a byte, as sent on the wire. -/
def hi_nibble (b : UInt8) : UInt8 := (b >>> 4) &&& 0x0F

/-- The low nibble of a byte, as sent on the wire. -/
def lo_nibble (b : UInt8) : UInt8 := b &&& 0x0F

/-- The byte of two received nibbles; the upper bits of each are dropped. -/
def join_nibbles (hi lo : UInt8) : UInt8 := ((hi &&& 0x0F) <<< 4) ||| (lo &&& 0x0F)

/-- Splitting and joining a byte gives it back. -/
theorem join_split (b : UInt8) : join_nibbles (hi_nibble b) (lo_nibble b) = b := by
  revert b
  decide +kernel

/-- Nibbles are 7-bit data bytes. -/
theorem nibble_lt (b : UInt8) : hi_nibble b < 0x80 ∧ lo_nibble b < 0x80 := by
  revert b
  decide +kernel

/-- Two nibbles for every byte, high first. -/
def nibbleize : List UInt8 → List UInt8
  | [] => []
  | b :: bs => hi_nibble b :: lo_nibble b :: nibbleize bs

/-- One byte for every two nibbles; a last odd one is dropped. -/
def denibbleize : List UInt8 → List UInt8
  | hi :: lo :: bs => join_nibbles hi lo :: denibbleize bs
  | _ => []

@[simp] theorem nibbleize_nil : nibbleize [] = [] := rfl

@[simp] theorem nibbleize_cons (b : UInt8) (bs : List UInt8) :
    nibbleize (b :: bs) = hi_nibble b :: lo_nibble b :: nibbleize bs := rfl

@[simp] theorem nibbleize_length (bs : List UInt8) : (nibbleize bs).length = 2 * bs.length := by
  induction bs with
  | nil => rfl
  | cons b bs ih => rw [nibbleize_cons, List.length_cons, List.length_cons, ih, List.length_cons]; omega

/-- All bytes on the wire are 7-bit. -/
theorem nibbleize_lt {bs : List UInt8} : ∀ b ∈ nibbleize bs, b < 0x80 := by
  induction bs with
  | nil => simp
  | cons b bs ih =>
      intro c hc
      rw [nibbleize_cons, List.mem_cons, List.mem_cons] at hc
      rcases hc with rfl | rfl | hc
      · exact (nibble_lt b).1
      · exact (nibble_lt b).2
      · exact ih c hc

/-- **The coding is lossless.** -/
theorem denibbleize_nibbleize (bs : List UInt8) : denibbleize (nibbleize bs) = bs := by
  induction bs with
  | nil => rfl
  | cons b bs ih => rw [nibbleize_cons, denibbleize, join_split, ih]

/-- Half as many bytes; an odd nibble is lost. -/
theorem denibbleize_length (bs : List UInt8) : (denibbleize bs).length = bs.length / 2 := by
  induction bs using denibbleize.induct with
  | case1 hi lo bs ih => rw [denibbleize, List.length_cons, ih, List.length_cons, List.length_cons]; omega
  | case2 bs h =>
      match bs, h with
      | [], _ => rfl
      | [_], _ => simp [denibbleize]
      | hi :: lo :: bs, h => exact absurd rfl (h hi lo bs)

/-- Byte `k` of the decoded list is made of nibbles `2k` and `2k + 1`. -/
theorem denibbleize_getD (bs : List UInt8) (k : ℕ) (hk : 2 * k + 1 < bs.length) :
    (denibbleize bs).getD k 0 = join_nibbles (bs.getD (2 * k) 0) (bs.getD (2 * k + 1) 0) := by
  induction bs using denibbleize.induct generalizing k with
  | case1 hi lo bs ih =>
      cases k with
      | zero => rfl
      | succ k =>
          have hk' : 2 * k + 1 < bs.length := by
            simp only [List.length_cons] at hk
            omega
          have h2 : 2 * (k + 1) = 2 * k + 1 + 1 := by omega
          rw [denibbleize, List.getD_cons_succ, ih k hk', h2]
          simp only [List.getD_cons_succ]
  | case2 bs h =>
      match bs, h with
      | [], _ => simp at hk
      | [_], _ => simp at hk
      | hi :: lo :: bs, h => exact absurd rfl (h hi lo bs)

end PicoDsp.Lib.Bytes
