/-
The SysEx receiver against its grammar (the byte loop of `midi_task`).

The receiver keeps seven variables and one buffer that dumps share. What they
mean is said by one list: the bytes received since the last F0, as long as the
message has not been terminated (`progress`). `Follows` relates the two, every
received byte keeps the relation (`follows_receive`), and the arguments of the
call of `handle_sysex` are a function of that list alone (`completed`). No
byte of an earlier message can matter, because the list does not contain it.

The abstract receiver is a left fold of `advance` over the stream, with three cases: F0
starts over, F7 behind the three header bytes ends the message, and everything else
belongs to it. The third case is wider than the grammar of MIDI: an F7 inside of the
header counts as a header byte, as the code has it, and so do bytes with bit 7 set.

The hard step is a nibble (`tracks_nibble`): it goes into the upper or the lower half of
a byte of the image as the length so far is even or odd, it counts up to a cap, and
past the cap it only raises the overflow flag. `Tracks` says what the buffer holds up to
the length and nothing about what lies behind it. A dump overwrites the buffer, but it is
asked for at an F7, when no message is in progress, so no message can be hurt by it.
-/
import PicoDsp.Control.Sysex

set_option autoImplicit false

namespace PicoDsp.Sysex

open Lib Storage

/-! ## The abstract receiver -/

/-- One more byte: F0 starts over, F7 behind the three header bytes ends the
message, and everything else (F7 inside the header too) belongs to it. -/
def advance (msg : Option (List UInt8)) (b : UInt8) : Option (List UInt8) :=
  if b = SYSEX_START then some []
  else
    match msg with
    | none => none
    | some m => if 3 ≤ m.length ∧ b = SYSEX_END then none else some (m ++ [b])

/-- The unterminated message at the end of a byte stream, without its F0. -/
def progress (bs : List UInt8) : Option (List UInt8) := bs.foldl advance none

/-- The payload of a message: everything behind manufacturer, model and
command. -/
def payload (m : List UInt8) : List UInt8 := m.drop 3

/-- The call of `handle_sysex` that byte `b` triggers. -/
def completed (msg : Option (List UInt8)) (b : UInt8) : Option SysexCall :=
  match msg with
  | none => none
  | some m =>
      if 3 ≤ m.length ∧ b = SYSEX_END ∧ m.getD 0 0 = SYSEX_ID ∧ m.getD 1 0 = SYSEX_MODEL then
        some ⟨m.getD 2 0, min ((payload m).length / 2) STORAGE_IMAGE_SIZE,
          decide (STORAGE_IMAGE_SIZE < (payload m).length / 2)
            || decide ((payload m).length % 2 = 1)⟩
      else none

@[simp] theorem progress_nil : progress [] = none := rfl

/-- The stream in two parts. -/
theorem progress_append (as bs : List UInt8) :
    progress (as ++ bs) = bs.foldl advance (progress as) := List.foldl_append

/-- One byte more. -/
theorem progress_snoc (bs : List UInt8) (b : UInt8) :
    progress (bs ++ [b]) = advance (progress bs) b := progress_append bs [b]

/-- F0 starts a message, whatever was in progress. -/
theorem advance_start (msg : Option (List UInt8)) : advance msg SYSEX_START = some [] := if_pos rfl

/-- Bytes that are neither F0 nor F7 extend the message. -/
theorem advance_body {bs : List UInt8} (h : ∀ b ∈ bs, b ≠ SYSEX_START ∧ b ≠ SYSEX_END)
    (m : List UInt8) : bs.foldl advance (some m) = some (m ++ bs) := by
  induction bs generalizing m with
  | nil => rw [List.foldl_nil, List.append_nil]
  | cons b bs ih =>
      obtain ⟨hstart, hend⟩ := h b List.mem_cons_self
      have hstep : advance (some m) b = some (m ++ [b]) := by
        unfold advance
        rw [if_neg hstart]
        exact if_neg fun hc => hend hc.2
      rw [List.foldl_cons, hstep, ih (fun c hc => h c (List.mem_cons_of_mem b hc)),
        List.append_assoc]
      rfl

/-- A message in progress is the stream behind its last F0, and has not seen
its F7. -/
theorem progress_eq_some_iff {bs m : List UInt8} :
    progress bs = some m ↔ ∃ pre, bs = pre ++ SYSEX_START :: m ∧ SYSEX_START ∉ m
      ∧ SYSEX_END ∉ payload m := by
  induction bs using List.reverseRecOn generalizing m with
  | nil => simp
  | append_singleton bs b ih =>
      rw [progress_snoc]
      unfold advance
      by_cases hstart : b = SYSEX_START
      · rw [if_pos hstart, Option.some.injEq]
        constructor
        · rintro rfl
          exact ⟨bs, by rw [hstart], by simp, by simp [payload]⟩
        · rintro ⟨pre, heq, hnot, -⟩
          -- the last byte is F0, so nothing comes behind the last F0
          rcases List.eq_nil_or_concat m with rfl | ⟨m', c, rfl⟩
          · rfl
          · rw [List.concat_eq_append, ← List.cons_append, ← List.append_assoc] at heq
            have hb := (List.append_inj' heq rfl).2
            rw [List.singleton_inj] at hb
            refine absurd ?_ hnot
            rw [List.concat_eq_append, ← hb, hstart]
            exact List.mem_append_right _ (List.mem_singleton_self _)
      · rw [if_neg hstart]
        constructor
        · intro h
          cases hp : progress bs with
          | none => rw [hp] at h; cases h
          | some m' =>
              rw [hp] at h
              obtain ⟨pre, rfl, hnot, hend⟩ := ih.mp hp
              simp only at h
              split at h
              · cases h
              · rename_i hopen
                cases h
                refine ⟨pre, by simp, ?_, ?_⟩
                · rw [List.mem_append, List.mem_singleton]
                  rintro (hmem | heq)
                  · exact hnot hmem
                  · exact hstart heq.symm
                · intro hmem
                  unfold payload at hmem hend
                  by_cases hlen : 3 ≤ m'.length
                  · rw [List.drop_append_of_le_length hlen, List.mem_append,
                      List.mem_singleton] at hmem
                    rcases hmem with hmem | heq
                    · exact hend hmem
                    · exact hopen ⟨hlen, heq.symm⟩
                  · rw [List.drop_eq_nil_of_le (by simp; omega)] at hmem
                    cases hmem
        · rintro ⟨pre, heq, hnot, hend⟩
          rcases List.eq_nil_or_concat m with rfl | ⟨m', c, rfl⟩
          · have hb := (List.append_inj' heq rfl).2
            rw [List.singleton_inj] at hb
            exact absurd hb hstart
          · rw [List.concat_eq_append] at heq hnot hend ⊢
            rw [← List.cons_append, ← List.append_assoc] at heq
            obtain ⟨rfl, hb⟩ := List.append_inj' heq rfl
            rw [List.singleton_inj] at hb
            subst hb
            rw [List.mem_append, not_or] at hnot
            have hend' : SYSEX_END ∉ payload m' := by
              intro hmem
              refine hend ?_
              unfold payload at hmem ⊢
              rw [List.drop_append]
              exact List.mem_append_left _ hmem
            rw [ih.mpr ⟨pre, rfl, hnot.1, hend'⟩]
            simp only
            rw [if_neg]
            rintro ⟨hlen, hb⟩
            refine hend ?_
            unfold payload
            rw [List.drop_append_of_le_length hlen, hb]
            exact List.mem_append_right _ (List.mem_singleton_self _)

/-! ## The relation -/

/-- Byte `k` of the list, zero past its end; the buffers are read this way. -/
abbrev at0 (bs : List UInt8) (k : ℕ) : UInt8 := bs.getD k 0

/-- The variables of the receiver in the middle of message `m`. -/
structure Tracks (m : List UInt8) (rx : SysexRx) : Prop where
  in_sysex : rx.in_sysex = true
  hdr_len : rx.hdr_len = min m.length 3 + 1
  hdr : ∀ k, k < 3 → k < m.length → at0 rx.hdr.toList (k + 1) = at0 m k
  raw_idx : rx.raw_idx = min ((payload m).length / 2) STORAGE_IMAGE_SIZE
  hi : rx.hi = if (payload m).length % 2 = 1 then
      some (at0 (payload m) ((payload m).length - 1) &&& 0x0F) else none
  overflow : rx.overflow = decide (STORAGE_IMAGE_SIZE < (payload m).length / 2)
  image : ∀ k, k < rx.raw_idx → at0 rx.image.toList k
    = Bytes.join_nibbles (at0 (payload m) (2 * k)) (at0 (payload m) (2 * k + 1))

/-- The receiver is where the stream is. -/
def Follows : Option (List UInt8) → SysexRx → Prop
  | none, rx => rx.in_sysex = false
  | some m, rx => Tracks m rx

/-- A fresh receiver waits for an F0. -/
theorem follows_new : Follows none SysexRx.new := rfl

private theorem getD_set {n : ℕ} (v : Vector UInt8 n) (i : ℕ) (x : UInt8) (h : i < n) (k : ℕ) :
    at0 (v.set i x h).toList k = if i = k then x else at0 v.toList k := by
  rw [at0, List.getD_eq_getElem?_getD, Vector.toList_set, List.getElem?_set]
  by_cases hik : i = k
  · subst hik
    simp [h]
  · simp [hik]

private theorem getElem_eq_at0 {n : ℕ} (v : Vector UInt8 n) (k : ℕ) (h : k < n) :
    v[k] = at0 v.toList k := by
  have hlen : k < v.toList.length := by
    rw [Vector.length_toList]
    exact h
  rw [at0, List.getD_eq_getElem _ _ hlen, Vector.getElem_toList]

/-- A byte of the first part. -/
theorem at0_append_left {as bs : List UInt8} {k : ℕ} (h : k < as.length) :
    at0 (as ++ bs) k = at0 as k := List.getD_append _ _ _ _ h

/-- The byte behind it. -/
theorem at0_snoc (as : List UInt8) (b : UInt8) : at0 (as ++ [b]) as.length = b := by
  rw [at0, List.getD_append_right _ _ _ _ (Nat.le_refl _), Nat.sub_self]
  rfl

/-- A nibble behind the header. -/
theorem tracks_nibble {m : List UInt8} {rx : SysexRx} (h : Tracks m rx) (hlen : 3 ≤ m.length)
    (b : UInt8) : Tracks (m ++ [b]) (rx.nibble b) := by
  have hpay : payload (m ++ [b]) = payload m ++ [b] := List.drop_append_of_le_length hlen
  have hplen : (payload (m ++ [b])).length = (payload m).length + 1 := by
    rw [hpay, List.length_append, List.length_singleton]
  have hhdr : ∀ k, k < 3 → k < (m ++ [b]).length →
      at0 rx.hdr.toList (k + 1) = at0 (m ++ [b]) k := by
    intro k hk _
    rw [h.hdr k hk (by omega), at0_append_left (by omega)]
  have hmin : min (m ++ [b]).length 3 = min m.length 3 := by
    rw [List.length_append, List.length_singleton]
    omega
  -- the bytes that are there came from pairs in front of `b`
  have hold : ∀ k, k < rx.raw_idx → at0 rx.image.toList k
      = Bytes.join_nibbles (at0 (payload (m ++ [b])) (2 * k))
          (at0 (payload (m ++ [b])) (2 * k + 1)) := by
    intro k hk
    have hidx := h.raw_idx
    rw [h.image k hk, hpay, at0_append_left (by omega), at0_append_left (by omega)]
  unfold SysexRx.nibble
  by_cases hodd : (payload m).length % 2 = 1
  · have hhi := h.hi
    rw [if_pos hodd] at hhi
    simp only [hhi]
    by_cases hroom : rx.raw_idx < STORAGE_IMAGE_SIZE
    · -- the second nibble of a byte that still fits
      rw [dif_pos hroom]
      have hidx : rx.raw_idx = (payload m).length / 2 := by
        have := h.raw_idx
        omega
      have hnew : rx.raw_idx + 1 = min ((payload (m ++ [b])).length / 2) STORAGE_IMAGE_SIZE := by
        omega
      refine ⟨h.in_sysex, ?_, hhdr, hnew, ?_, ?_, ?_⟩
      · rw [h.hdr_len, hmin]
      · rw [hplen, if_neg (by omega)]
      · rw [h.overflow, hplen]
        exact decide_eq_decide.mpr (by omega)
      · intro k hk
        simp only at hk ⊢
        rw [getD_set]
        -- the byte just stored is the pair of the pending nibble and `b`
        by_cases hlast : rx.raw_idx = k
        · subst hlast
          have h2k : 2 * rx.raw_idx = (payload m).length - 1 := by omega
          have h2k1 : 2 * rx.raw_idx + 1 = (payload m).length := by omega
          rw [if_pos rfl, h2k1, h2k, hpay, at0_snoc, at0_append_left (by omega)]
          rfl
        · rw [if_neg hlast]
          exact hold k (by omega)
    · -- the buffer is full
      rw [dif_neg hroom]
      have hidx := h.raw_idx
      refine ⟨h.in_sysex, ?_, hhdr, ?_, ?_, ?_, hold⟩
      · rw [h.hdr_len, hmin]
      · rw [hplen]
        simp only
        omega
      · rw [hplen, if_neg (by omega)]
      · rw [hplen]
        exact (decide_eq_true (by omega)).symm
  · -- the first nibble of a byte
    have hhi := h.hi
    rw [if_neg hodd] at hhi
    simp only [hhi]
    have hhalf : (payload (m ++ [b])).length / 2 = (payload m).length / 2 := by omega
    refine ⟨h.in_sysex, ?_, hhdr, ?_, ?_, ?_, hold⟩
    · rw [h.hdr_len, hmin]
    · rw [hhalf]
      exact h.raw_idx
    · rw [if_pos (by omega), hplen, Nat.add_sub_cancel, hpay, at0_snoc]
    · rw [hhalf]
      exact h.overflow

/-- F0 starts over, whatever the receiver was doing. -/
theorem follows_start (rx : SysexRx) : Follows (some []) (rx.receive SYSEX_START).1 := by
  unfold SysexRx.receive
  rw [if_pos rfl]
  refine ⟨rfl, rfl, ?_, rfl, rfl, rfl, ?_⟩
  · intro k _ hk
    cases hk
  · intro k hk
    cases hk

/-- **Every byte keeps the receiver where the stream is.** -/
theorem follows_receive {msg : Option (List UInt8)} {rx : SysexRx} (h : Follows msg rx)
    (b : UInt8) : Follows (advance msg b) (rx.receive b).1 := by
  by_cases hstart : b = SYSEX_START
  · rw [hstart, advance_start]
    exact follows_start rx
  unfold advance SysexRx.receive
  rw [if_neg hstart, if_neg hstart]
  cases msg with
  | none =>
      -- outside a message everything but F0 is dropped
      have hout : rx.in_sysex = false := h
      simp only [hout, Bool.not_false, if_true]
      exact hout
  | some m =>
      have ht : Tracks m rx := h
      have hlen3 := ht.hdr_len
      simp only [ht.in_sysex, Bool.not_true, Bool.false_eq_true, if_false]
      by_cases hhdr : rx.hdr_len < 4
      · -- a header byte, whatever it is
        have hshort : m.length < 3 := by omega
        rw [dif_pos hhdr, if_neg (by omega)]
        have hdrop : payload (m ++ [b]) = [] := by
          rw [payload, List.drop_eq_nil_of_le]
          rw [List.length_append, List.length_singleton]
          omega
        have hpay : payload m = [] := List.drop_eq_nil_of_le (by omega)
        have hraw := ht.raw_idx
        have hhi := ht.hi
        have hov := ht.overflow
        rw [hpay] at hraw hhi hov
        refine ⟨rfl, ?_, ?_, ?_, ?_, ?_, ?_⟩
        · simp only [List.length_append, List.length_singleton]
          omega
        · intro k hk hkm
          simp only at hkm ⊢
          rw [getD_set]
          rw [List.length_append, List.length_singleton] at hkm
          by_cases hlast : rx.hdr_len = k + 1
          · have hkm' : k = m.length := by omega
            rw [if_pos hlast, hkm', at0_snoc]
          · rw [if_neg hlast, ht.hdr k hk (by omega), at0_append_left (by omega)]
        · rw [hdrop]
          exact hraw
        · rw [hdrop]
          exact hhi
        · rw [hdrop]
          exact hov
        · intro k hk
          simp only at hk
          rw [hraw] at hk
          simp at hk
      · -- behind the header: F7 ends the message, any other byte is a nibble
        have hlong : 3 ≤ m.length := by omega
        rw [dif_neg hhdr]
        by_cases hend : b = SYSEX_END
        · rw [if_pos hend, if_pos ⟨hlong, hend⟩]
          split <;> rfl
        · rw [if_neg hend, if_neg fun hc => hend hc.2]
          exact tracks_nibble ht hlong b

/-- **The call made at a byte is a function of the message.** -/
theorem receive_call {msg : Option (List UInt8)} {rx : SysexRx} (h : Follows msg rx) (b : UInt8) :
    (rx.receive b).2 = completed msg b := by
  unfold SysexRx.receive completed
  by_cases hstart : b = SYSEX_START
  · have hend : ¬ b = SYSEX_END := by
      rw [hstart]
      decide
    rw [if_pos hstart]
    cases msg with
    | none => rfl
    | some m => simp only [hend, false_and, and_false, if_false]
  · rw [if_neg hstart]
    cases msg with
    | none =>
        have hout : rx.in_sysex = false := h
        simp only [hout, Bool.not_false, if_true]
    | some m =>
        have ht : Tracks m rx := h
        have hlen3 := ht.hdr_len
        simp only [ht.in_sysex, Bool.not_true, Bool.false_eq_true, if_false]
        by_cases hhdr : rx.hdr_len < 4
        · -- an F7 in the header is a header byte
          rw [dif_pos hhdr, if_neg (by omega)]
        · have hlong : 3 ≤ m.length := by omega
          rw [dif_neg hhdr]
          by_cases hend : b = SYSEX_END
          · have h1 : rx.hdr[1] = at0 m 0 := by
              rw [getElem_eq_at0, ht.hdr 0 (by omega) (by omega)]
            have h2 : rx.hdr[2] = at0 m 1 := by
              rw [getElem_eq_at0, ht.hdr 1 (by omega) (by omega)]
            have h3 : rx.hdr[3] = at0 m 2 := by
              rw [getElem_eq_at0, ht.hdr 2 (by omega) (by omega)]
            -- a nibble that is left over is the overflow of the call
            have hodd : rx.hi.isSome = decide ((payload m).length % 2 = 1) := by
              rw [ht.hi]
              by_cases hodd : (payload m).length % 2 = 1
              · rw [if_pos hodd, decide_eq_true hodd]
                rfl
              · rw [if_neg hodd, decide_eq_false hodd]
                rfl
            rw [if_pos hend]
            simp only [h1, h2, h3, hlong, hend, true_and, hodd, ht.raw_idx, ht.overflow]
            split <;> rfl
          · rw [if_neg hend, if_neg fun hc => hend hc.2.1]

/-- Only F7 can trigger a call. -/
theorem receive_quiet {b : UInt8} (hb : b ≠ SYSEX_END) (rx : SysexRx) : (rx.receive b).2 = none := by
  unfold SysexRx.receive
  split
  · rfl
  split
  · rfl
  split
  · rfl
  · rfl

/-- The image of a message that fits is the decoded payload, as far as it
goes. -/
theorem image_eq_decoded {m : List UInt8} {rx : SysexRx} (h : Tracks m rx)
    (hlen : (payload m).length = 2 * STORAGE_IMAGE_SIZE) :
    rx.image.toList = Bytes.denibbleize (payload m) := by
  have hdlen : (Bytes.denibbleize (payload m)).length = STORAGE_IMAGE_SIZE := by
    rw [Bytes.denibbleize_length, hlen]
    omega
  refine List.ext_getElem (by rw [Vector.length_toList, hdlen]) fun k h₁ h₂ => ?_
  rw [hdlen] at h₂
  have hraw := h.raw_idx
  have himage := h.image k (by omega)
  rw [← List.getD_eq_getElem _ 0 h₁, ← List.getD_eq_getElem _ 0 (by rw [hdlen]; exact h₂)]
  rw [Bytes.denibbleize_getD _ _ (by omega)]
  exact himage

/-- Terminating a message touches nothing but the two flags. -/
theorem receive_end_image {rx : SysexRx} {b : UInt8} {call : SysexCall}
    (h : (rx.receive b).2 = some call) : (rx.receive b).1.image = rx.image := by
  unfold SysexRx.receive at h ⊢
  by_cases hstart : b = SYSEX_START
  · rw [if_pos hstart] at h
    cases h
  rw [if_neg hstart] at h ⊢
  by_cases hin : (!rx.in_sysex) = true
  · rw [if_pos hin] at h
    cases h
  rw [if_neg hin] at h ⊢
  by_cases hhdr : rx.hdr_len < 4
  · rw [dif_pos hhdr] at h
    cases h
  rw [dif_neg hhdr] at h ⊢
  by_cases hend : b = SYSEX_END
  · rw [if_pos hend]
    dsimp only
    split <;> rfl
  · rw [if_neg hend] at h
    cases h

end PicoDsp.Sysex
