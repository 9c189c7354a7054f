/-
`adv_contains_uuid` (`bt/mod.rs`): whether an advertising payload lists a 128-bit service
class.

The payload is a list of AD structures, each a length byte, a type byte and the rest. The
loop of the source takes one structure a round and stops in front of a length of zero, of
a structure that is cut off, or of a single byte (`Stops`). Every byte string is some
structures and such a tail (`exists_structures`), so what the loop finds in the
structures is all there is to know about it, and a statement about structures with a tail
is one about every payload a radio can report.

The uuid is compared with the payload of a structure in chunks of 16, so it is found at
multiples of 16 only, and a shorter last chunk is never equal to it. A structure may list
several services this way, and `Lists` says it without chunks.

The reads of the source panic outside of the payload. `none` stands for that, and does
not occur.
-/
import PicoDsp.Lib.Slice

set_option autoImplicit false

namespace PicoDsp.Advertising

open Lib

/-- 128-bit service classes, incomplete and complete. -/
def listsServices (ad_type : UInt8) : Bool := ad_type = 0x06 || ad_type = 0x07

/-- The loop over `payload.chunks(16)`. -/
def chunks_contain (payload : List UInt8) (uuid : Vector UInt8 16) : Bool :=
  (chunks 16 payload).any fun chunk => chunk.length = 16 && chunk = uuid.toList

/-- `none` is a read outside of the payload, which panics. -/
def adv_contains_uuid (data : List UInt8) (uuid : Vector UInt8 16) : Option Bool :=
  if 2 ≤ data.length then
    match data[0]?, data[1]? with
    | some len, some ad_type =>
        if len.toNat = 0 ∨ data.length < len.toNat + 1 then some false
        else
          match slice data 2 (1 + len.toNat) with
          | none => none
          | some payload =>
              if listsServices ad_type && chunks_contain payload uuid then some true
              else
                match _hrest : slice data (1 + len.toNat) data.length with
                | none => none
                | some rest => adv_contains_uuid rest uuid
    | _, _ => none
  else some false
termination_by data.length
decreasing_by
  have hlen := length_of_slice _hrest
  omega

/-! ## AD structures -/

/-- An AD structure; its length byte leaves room for 254 bytes. -/
structure AdStructure where
  ad_type : UInt8
  payload : List UInt8
  bound : payload.length ≤ 254

namespace AdStructure

def length (s : AdStructure) : UInt8 := UInt8.ofNat (1 + s.payload.length)

def encode (s : AdStructure) : List UInt8 := s.length :: s.ad_type :: s.payload

/-- The structure lists the service: the uuid fills 16 bytes of the payload at a
multiple of 16. -/
def Lists (s : AdStructure) (uuid : Vector UInt8 16) : Prop :=
  (s.ad_type = 0x06 ∨ s.ad_type = 0x07)
    ∧ ∃ off, 16 ∣ off ∧ off + 16 ≤ s.payload.length
      ∧ (s.payload.drop off).take 16 = uuid.toList

/-- The length byte holds the length. -/
theorem length_toNat (s : AdStructure) : s.length.toNat = 1 + s.payload.length := by
  have hbound := s.bound
  rw [length, UInt8.toNat_ofNat']
  omega

/-- Two bytes in front of the payload. -/
theorem encode_length (s : AdStructure) : s.encode.length = 2 + s.payload.length := by
  rw [encode, List.length_cons, List.length_cons]
  omega

end AdStructure

/-- What is behind the structures: zero bytes, or a structure that is cut off. -/
inductive Tail
  | zeros (n : ℕ)
  | truncated (s : AdStructure) (n : ℕ) (h : n < s.encode.length)

def Tail.bytes : Tail → List UInt8
  | .zeros n => List.replicate n 0
  | .truncated s n _ => s.encode.take n

/-- The loop stops here. -/
def Stops (data : List UInt8) : Prop :=
  ∀ len rest, data = len :: rest → len.toNat = 0 ∨ rest.length < len.toNat

/-- The loop stops at any tail. -/
theorem Tail.stops (t : Tail) : Stops t.bytes := by
  rintro len rest heq
  cases t with
  | zeros n =>
      cases n with
      | zero => cases heq
      | succ n =>
          rw [bytes, List.replicate_succ, List.cons.injEq] at heq
          rw [← heq.1]
          exact Or.inl rfl
  | truncated s n h =>
      cases n with
      | zero => cases heq
      | succ n =>
          -- the length byte speaks of more than is left
          rw [AdStructure.encode_length] at h
          rw [bytes, AdStructure.encode, List.take_succ_cons, List.cons.injEq] at heq
          right
          rw [← heq.1, ← heq.2, AdStructure.length_toNat, List.length_take]
          simp only [List.length_cons]
          omega

/-! ## One structure -/

/-- A chunk is equal to the uuid: it stands at a multiple of 16. -/
theorem chunks_contain_iff (payload : List UInt8) (uuid : Vector UInt8 16) :
    chunks_contain payload uuid = true
      ↔ ∃ off, 16 ∣ off ∧ off + 16 ≤ payload.length
        ∧ (payload.drop off).take 16 = uuid.toList := by
  unfold chunks_contain
  rw [List.any_eq_true]
  constructor
  · rintro ⟨chunk, hmem, htest⟩
    rw [Bool.and_eq_true, decide_eq_true_eq, decide_eq_true_eq] at htest
    obtain ⟨k, -, rfl⟩ := (mem_chunks (by decide)).mp hmem
    refine ⟨k * 16, Nat.dvd_mul_left 16 k, ?_, htest.2⟩
    have hfull := htest.1
    rw [List.length_take, List.length_drop] at hfull
    omega
  · rintro ⟨off, ⟨k, rfl⟩, hroom, heq⟩
    refine ⟨(payload.drop (k * 16)).take 16, (mem_chunks (by decide)).mpr ⟨k, by omega, rfl⟩, ?_⟩
    rw [Nat.mul_comm] at heq
    rw [Bool.and_eq_true, decide_eq_true_eq, decide_eq_true_eq]
    refine ⟨?_, heq⟩
    rw [heq, Vector.length_toList]

/-- What one round finds in its structure. -/
theorem lists_iff (s : AdStructure) (uuid : Vector UInt8 16) :
    (listsServices s.ad_type && chunks_contain s.payload uuid) = true ↔ s.Lists uuid := by
  rw [Bool.and_eq_true, chunks_contain_iff, listsServices, Bool.or_eq_true, decide_eq_true_eq,
    decide_eq_true_eq]
  rfl

/-- At the end the answer is no. -/
theorem contains_of_stops {data : List UInt8} (h : Stops data) (uuid : Vector UInt8 16) :
    adv_contains_uuid data uuid = some false := by
  rw [adv_contains_uuid]
  split
  · match data, h with
    | len :: ad_type :: rest, h =>
        have hstop := h len (ad_type :: rest) rfl
        rw [List.length_cons] at hstop
        simp only [List.getElem?_cons_zero, List.getElem?_cons_succ, List.length_cons]
        rw [if_pos (by omega)]
  · rfl

/-- One round of the loop. -/
theorem contains_encode (s : AdStructure) (rest : List UInt8) (uuid : Vector UInt8 16) :
    adv_contains_uuid (s.encode ++ rest) uuid
      = if listsServices s.ad_type && chunks_contain s.payload uuid then some true
        else adv_contains_uuid rest uuid := by
  have hlen := s.length_toNat
  have hdata : (s.encode ++ rest).length = 2 + (s.payload.length + rest.length) := by
    rw [List.length_append, s.encode_length]
    omega
  have hpayload : slice (s.encode ++ rest) 2 (1 + s.length.toNat) = some s.payload := by
    have hslice := slice_append [s.length, s.ad_type] s.payload rest
    have hend : [s.length, s.ad_type].length + s.payload.length = 1 + s.length.toNat := by
      rw [hlen]
      simp only [List.length_cons, List.length_nil]
      omega
    rw [hend] at hslice
    exact hslice
  have hrest : slice (s.encode ++ rest) (1 + s.length.toNat) (s.encode ++ rest).length
      = some rest := by
    have hslice := slice_append s.encode rest []
    have hstart : s.encode.length = 1 + s.length.toNat := by
      rw [s.encode_length, hlen]
      omega
    rw [List.append_nil, ← List.length_append, hstart] at hslice
    exact hslice
  -- the two bytes that are read, and then the slices
  have hfirst : (s.encode ++ rest)[0]? = some s.length := rfl
  have hsecond : (s.encode ++ rest)[1]? = some s.ad_type := rfl
  rw [adv_contains_uuid, if_pos (by omega)]
  simp only [hfirst, hsecond]
  rw [if_neg (by omega), hpayload]
  simp only
  congr 1
  split
  · rename_i hnone
    rw [hrest] at hnone
    cases hnone
  · rename_i rest' hsome
    rw [hrest, Option.some.injEq] at hsome
    rw [hsome]

/-! ## The whole payload -/

/-- **What the loop finds in a list of structures.** -/
theorem contains_structures (ss : List AdStructure) {tail : List UInt8} (htail : Stops tail)
    (uuid : Vector UInt8 16) :
    ∃ b, adv_contains_uuid (ss.flatMap AdStructure.encode ++ tail) uuid = some b
      ∧ (b = true ↔ ∃ s ∈ ss, s.Lists uuid) := by
  induction ss with
  | nil =>
      refine ⟨false, contains_of_stops htail uuid, ?_⟩
      simp
  | cons s ss ih =>
      obtain ⟨b, hrun, hb⟩ := ih
      rw [List.flatMap_cons, List.append_assoc, contains_encode, hrun]
      by_cases hs : s.Lists uuid
      · rw [if_pos ((lists_iff s uuid).mpr hs)]
        exact ⟨true, rfl, iff_of_true rfl ⟨s, List.mem_cons_self, hs⟩⟩
      · rw [if_neg (fun h => hs ((lists_iff s uuid).mp h))]
        refine ⟨b, rfl, hb.trans ?_⟩
        rw [List.exists_mem_cons_iff]
        exact (or_iff_right hs).symm

/-- Every byte string is a list of structures with a tail. -/
theorem exists_structures (data : List UInt8) :
    ∃ (ss : List AdStructure) (tail : List UInt8),
      data = ss.flatMap AdStructure.encode ++ tail ∧ Stops tail := by
  induction hn : data.length using Nat.strong_induction_on generalizing data with
  | _ n ih =>
      by_cases hstop : Stops data
      · exact ⟨[], data, rfl, hstop⟩
      · unfold Stops at hstop
        push Not at hstop
        -- the loop goes on, so a structure ends inside of the data
        obtain ⟨len, rest, rfl, hzero, hroom⟩ := hstop
        have hlt := len.toNat_lt
        match rest, hroom with
        | [], hroom => exact absurd hroom (by simp [hzero])
        | ad_type :: rest, hroom =>
            rw [List.length_cons] at hroom hn
            have hsize : (rest.take (len.toNat - 1)).length = len.toNat - 1 := by
              rw [List.length_take]
              omega
            have hshort : (rest.drop (len.toNat - 1)).length < n := by
              rw [List.length_drop]
              rw [List.length_cons] at hn
              omega
            obtain ⟨ss, tail, hrest, htail⟩ := ih _ hshort (rest.drop (len.toNat - 1)) rfl
            refine ⟨⟨ad_type, rest.take (len.toNat - 1), by omega⟩ :: ss, tail, ?_, htail⟩
            -- its length is the byte that was read
            have hbyte : UInt8.ofNat (1 + (len.toNat - 1)) = len := by
              rw [show 1 + (len.toNat - 1) = len.toNat by omega, UInt8.ofNat_toNat]
            rw [List.flatMap_cons, List.append_assoc, ← hrest]
            simp only [AdStructure.encode, AdStructure.length, hsize, hbyte, List.cons_append,
              List.take_append_drop]

/-- **`adv_contains_uuid` recognises exactly the advertisements that list the
service**, whatever is behind the structures, and on no byte string at all does
it read outside of it. -/
theorem adv_contains_uuid_iff (uuid : Vector UInt8 16) :
    (∀ (ss : List AdStructure) (t : Tail), ∃ b,
      adv_contains_uuid (ss.flatMap AdStructure.encode ++ t.bytes) uuid = some b
        ∧ (b = true ↔ ∃ s ∈ ss, s.Lists uuid))
    ∧ ∀ data, ∃ b, adv_contains_uuid data uuid = some b := by
  refine ⟨fun ss t => contains_structures ss t.stops uuid, fun data => ?_⟩
  obtain ⟨ss, tail, rfl, htail⟩ := exists_structures data
  obtain ⟨b, hrun, -⟩ := contains_structures ss htail uuid
  exact ⟨b, hrun⟩

end PicoDsp.Advertising
