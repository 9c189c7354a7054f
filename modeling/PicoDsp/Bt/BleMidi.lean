/-
`parse_ble_midi` (`bt/mod.rs`): channel-voice messages out of the payload of one BLE-MIDI
notification.

The loop of the source is a pass over `(i, status)` and a fuel, which the length of the
packet always covers (`parse_loop_fuel`). A pass is two parts: the timestamp with its
optional status, and the message. Each of them can leave the loop, and then what is
behind is not looked at.

The source indexes the packet behind tests of its own. Here a read is `getD`, which has a
value outside of the packet too; that no such read occurs is the subject of
`BleSafety`, where the same parser runs with its reads checked.

A status of 0 stands for none seen yet. Apart from that the running status is a byte
with bit 7 (`Running`), and in front of a message the system statuses have left the loop,
so what is forwarded has the status of a channel-voice message whatever the packet holds.
The data bytes are another matter, and none of this says anything about them.
-/
import Mathlib.Data.List.Basic

set_option autoImplicit false

namespace PicoDsp.BleMidi

/-- A decoded channel-voice message `[status, data1, data2]`. -/
abbrev Message : Type := UInt8 × UInt8 × UInt8

/-- A timestamp-low byte, optionally followed by a new status. -/
def parse_timestamp (packet : List UInt8) (i : ℕ) (status : UInt8) : Option (ℕ × UInt8) :=
  if packet.getD i 0 &&& 0x80 ≠ 0 then
    if packet.length ≤ i + 1 then none
    else if packet.getD (i + 1) 0 &&& 0x80 ≠ 0 then some (i + 2, packet.getD (i + 1) 0)
    else some (i + 1, status)
  else some (i, status)

/-- The number of data bytes a status asks for. -/
def needed (status : UInt8) : ℕ :=
  let high := status &&& 0xF0
  if high = 0xC0 ∨ high = 0xD0 then 1 else 2

/-- The message at `i`. -/
def parse_data (packet : List UInt8) (i : ℕ) (status : UInt8) : Option (Message × ℕ) :=
  -- no running status yet, or a message that is not forwarded
  if status = 0 ∨ status &&& 0xF0 = 0xF0 then none
  else if packet.length < i + needed status then none
  else
    let d1 := packet.getD i 0
    let d2 := if needed status = 2 then packet.getD (i + 1) 0 else 0
    some ((status, d1, d2), i + needed status)

/-- The loop, for at most the given number of passes. -/
def parse_loop (packet : List UInt8) : ℕ → ℕ → UInt8 → List Message
  | 0, _, _ => []
  | fuel + 1, i, status =>
      if i < packet.length then
        match parse_timestamp packet i status with
        | none => []
        | some (j, status) =>
            match parse_data packet j status with
            | none => []
            | some (m, k) => m :: parse_loop packet fuel k status
      else []

/-- The messages of a notification, in the order in which they are forwarded. -/
def parse_ble_midi (packet : List UInt8) : List Message :=
  if packet.length < 3 then []
  else parse_loop packet packet.length 1 0

section

variable {packet : List UInt8}

/-- A timestamp is not read backwards. -/
theorem le_of_parse_timestamp {i j : ℕ} {status status' : UInt8}
    (h : parse_timestamp packet i status = some (j, status')) : i ≤ j := by
  unfold parse_timestamp at h
  split at h
  · split at h
    · cases h
    · split at h
      · cases h
        omega
      · cases h
        omega
  · cases h
    exact Nat.le_refl i

/-- A message has a status of its own and moves `i` past its data bytes. -/
theorem of_parse_data {i k : ℕ} {status : UInt8} {m : Message}
    (h : parse_data packet i status = some (m, k)) :
    (status ≠ 0 ∧ status &&& 0xF0 ≠ 0xF0) ∧ m.1 = status ∧ k = i + needed status := by
  unfold parse_data at h
  split at h
  · cases h
  · rename_i hstatus
    rw [not_or] at hstatus
    split at h
    · cases h
    · rw [Option.some.injEq, Prod.mk.injEq] at h
      obtain ⟨rfl, rfl⟩ := h
      exact ⟨hstatus, rfl, rfl⟩

/-- A message is at least one byte. -/
theorem lt_of_parse_data {i k : ℕ} {status : UInt8} {m : Message}
    (h : parse_data packet i status = some (m, k)) : i < k := by
  obtain ⟨-, -, rfl⟩ := of_parse_data h
  have hpos : 0 < needed status := by
    unfold needed
    simp only
    split
    · exact Nat.one_pos
    · exact Nat.two_pos
  omega

/-- The loop ends by itself: fuel beyond the bytes that are left changes nothing. -/
theorem parse_loop_fuel {fuel fuel' i : ℕ} (status : UInt8) (h : packet.length ≤ i + fuel)
    (hle : fuel ≤ fuel') : parse_loop packet fuel' i status = parse_loop packet fuel i status := by
  induction fuel generalizing fuel' i status with
  | zero =>
      have hend : ¬ i < packet.length := by omega
      cases fuel' with
      | zero => rfl
      | succ fuel' => rw [parse_loop, parse_loop, if_neg hend]
  | succ fuel ih =>
      cases fuel' with
      | zero => omega
      | succ fuel' =>
          rw [parse_loop, parse_loop]
          split
          · cases htime : parse_timestamp packet i status with
            | none => rfl
            | some r =>
                obtain ⟨j, status'⟩ := r
                -- a round moves on by one byte at least, and uses one unit of fuel
                have hij := le_of_parse_timestamp htime
                simp only
                cases hdata : parse_data packet j status' with
                | none => rfl
                | some r =>
                    obtain ⟨m, k⟩ := r
                    have hjk := lt_of_parse_data hdata
                    simp only
                    rw [ih status' (by omega) (by omega)]
          · rfl

/-- A status byte of a channel-voice message. -/
def ChannelVoice (status : UInt8) : Prop := 0x80 ≤ status ∧ status < 0xF0

/-- The running status is a byte with bit 7, or none was seen yet. -/
def Running (status : UInt8) : Prop := status = 0 ∨ status &&& 0x80 ≠ 0

/-- A new status has bit 7, or the old one stays. -/
theorem running_of_parse_timestamp {i j : ℕ} {status status' : UInt8} (hs : Running status)
    (h : parse_timestamp packet i status = some (j, status')) : Running status' := by
  unfold parse_timestamp at h
  split at h
  · split at h
    · cases h
    · split at h
      · rename_i hbit
        cases h
        exact Or.inr hbit
      · cases h
        exact hs
  · cases h
    exact hs

/-- Bit 7 set and the high half not all ones: 80 to EF. -/
theorem channelVoice_of_bits (b : UInt8) (hbit : b &&& 0x80 ≠ 0) (hhigh : b &&& 0xF0 ≠ 0xF0) :
    ChannelVoice b := by
  have hall : ∀ x : BitVec 8, UInt8.ofBitVec x &&& 0x80 ≠ 0 → UInt8.ofBitVec x &&& 0xF0 ≠ 0xF0 →
      0x80 ≤ UInt8.ofBitVec x ∧ UInt8.ofBitVec x < 0xF0 := by decide +kernel
  exact hall b.toBitVec hbit hhigh

/-- A message is of a channel-voice status. -/
theorem channelVoice_of_parse_data {i k : ℕ} {status : UInt8} {m : Message} (hs : Running status)
    (h : parse_data packet i status = some (m, k)) : ChannelVoice m.1 := by
  obtain ⟨⟨hzero, hhigh⟩, hfirst, -⟩ := of_parse_data h
  rw [hfirst]
  exact channelVoice_of_bits status (hs.resolve_left hzero) hhigh

/-- **Only channel-voice messages are forwarded.** -/
theorem parse_ble_midi_channelVoice (packet : List UInt8) :
    ∀ m ∈ parse_ble_midi packet, ChannelVoice m.1 := by
  -- along the loop the running status is zero or has bit 7
  have hloop : ∀ fuel i status, Running status →
      ∀ m ∈ parse_loop packet fuel i status, ChannelVoice m.1 := by
    intro fuel
    induction fuel with
    | zero => simp [parse_loop]
    | succ fuel ih =>
        intro i status hs m hm
        rw [parse_loop] at hm
        split at hm
        · cases htime : parse_timestamp packet i status with
          | none => simp [htime] at hm
          | some r =>
              obtain ⟨j, status'⟩ := r
              have hs' := running_of_parse_timestamp hs htime
              simp only [htime] at hm
              cases hdata : parse_data packet j status' with
              | none => simp [hdata] at hm
              | some r =>
                  obtain ⟨m', k⟩ := r
                  simp only [hdata, List.mem_cons] at hm
                  rcases hm with rfl | hm
                  · exact channelVoice_of_parse_data hs' hdata
                  · exact ih k status' hs' m hm
        · cases hm
  unfold parse_ble_midi
  split
  · simp
  · exact hloop _ _ _ (Or.inl rfl)

/-- A note with running status, after a control change of its own. -/
example : parse_ble_midi [0x80, 0x80, 0xB0, 7, 100, 0x80, 0x90, 60, 64, 0x80, 62, 64]
    = [(0xB0, 7, 100), (0x90, 60, 64), (0x90, 62, 64)] := by decide

end

end PicoDsp.BleMidi
