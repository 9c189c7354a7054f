/-
What `parse_ble_midi` does with bytes that no keyboard should send.

The parser is run a second time with its reads and its passes checked
(`checked_parse`): an index outside the packet and a loop that does not end both fail.
Neither happens, and the forwarded messages are those of `parse_ble_midi`. Each part of
the checked parser is compared with its part of the plain one, under the bounds that the
part before it leaves.

The data bytes are taken by position, though, so that a byte with bit 7 in the place of a
data byte is forwarded as one (`Intrudes`). `Intrudes` is said of the bytes, as an
encoding: well-formed messages in any form, and behind them a message of full length with
such a byte. That it is the exact condition needs both directions of the encoding: what
is encoded is forwarded (`Intrudes.forwarded`), and whatever one pass of the loop reads
is an encoded message (`encoded_of_pass`), so the bytes up to the first malformed message
can be written as the encoding asks.
-/
import PicoDsp.Bt.BlePacket

set_option autoImplicit false

namespace PicoDsp.BleMidi

/-! ## The parser with its reads checked -/

/-- `parse_timestamp`; a read outside the packet fails. -/
def checked_timestamp (packet : List UInt8) (i : ℕ) (status : UInt8) :
    Option (Option (ℕ × UInt8)) := do
  let b ← packet[i]?
  if b &&& 0x80 ≠ 0 then
    if packet.length ≤ i + 1 then some none
    else do
      let c ← packet[i + 1]?
      if c &&& 0x80 ≠ 0 then some (some (i + 2, c)) else some (some (i + 1, status))
  else some (some (i, status))

/-- `parse_data`; a read outside the packet fails. -/
def checked_data (packet : List UInt8) (i : ℕ) (status : UInt8) :
    Option (Option (Message × ℕ)) :=
  if status = 0 ∨ status &&& 0xF0 = 0xF0 then some none
  else if packet.length < i + needed status then some none
  else do
    let d1 ← packet[i]?
    let d2 ← if needed status = 2 then packet[i + 1]? else some 0
    some (some ((status, d1, d2), i + needed status))

/-- The loop; it fails with a read, or when the passes do not suffice. -/
def checked_loop (packet : List UInt8) : ℕ → ℕ → UInt8 → Option (List Message)
  | 0, i, _ => if i < packet.length then none else some []
  | fuel + 1, i, status =>
      if i < packet.length then
        match checked_timestamp packet i status with
        | none => none
        | some none => some []
        | some (some (j, status)) =>
            match checked_data packet j status with
            | none => none
            | some none => some []
            | some (some (m, k)) => (checked_loop packet fuel k status).map fun ms => m :: ms
      else some []

def checked_parse (packet : List UInt8) : Option (List Message) :=
  if packet.length < 3 then some []
  else checked_loop packet packet.length 1 0

section

variable {packet : List UInt8} {i : ℕ}

/-- A read inside of the packet succeeds. -/
theorem read_eq (hi : i < packet.length) : packet[i]? = some (packet.getD i 0) := by
  rw [List.getD_eq_getElem _ _ hi]
  exact List.getElem?_eq_getElem hi

/-- In front of the end the timestamp is read inside of the packet. -/
theorem checked_timestamp_eq (status : UInt8) (hi : i < packet.length) :
    checked_timestamp packet i status = some (parse_timestamp packet i status) := by
  unfold checked_timestamp parse_timestamp
  rw [read_eq hi]
  simp only [Option.bind_eq_bind, Option.bind_some]
  split
  · by_cases hend : packet.length ≤ i + 1
    · rw [if_pos hend, if_pos hend]
    · have hnext : i + 1 < packet.length := by omega
      rw [if_neg hend, if_neg hend, read_eq hnext]
      simp only [Option.bind_some]
      split
      · rfl
      · rfl
  · rfl

/-- The length is tested in front of every data byte. -/
theorem checked_data_eq (status : UInt8) :
    checked_data packet i status = some (parse_data packet i status) := by
  unfold checked_data parse_data
  split
  · rfl
  · by_cases hend : packet.length < i + needed status
    · rw [if_pos hend, if_pos hend]
    · have hpos := needed_cases status
      have hfirst : i < packet.length := by omega
      rw [if_neg hend, if_neg hend, read_eq hfirst]
      simp only [Option.bind_eq_bind, Option.bind_some]
      by_cases htwo : needed status = 2
      · have hsecond : i + 1 < packet.length := by omega
        rw [if_pos htwo, if_pos htwo, read_eq hsecond]
        rfl
      · rw [if_neg htwo, if_neg htwo]

/-- The passes suffice, and none of them reads outside. -/
theorem checked_loop_eq {fuel : ℕ} (status : UInt8) (h : packet.length ≤ i + fuel) :
    checked_loop packet fuel i status = some (parse_loop packet fuel i status) := by
  induction fuel generalizing i status with
  | zero =>
      have hend : ¬ i < packet.length := by omega
      rw [checked_loop, parse_loop, if_neg hend]
  | succ fuel ih =>
      rw [checked_loop, parse_loop]
      by_cases hi : i < packet.length
      · rw [if_pos hi, if_pos hi, checked_timestamp_eq status hi]
        cases htime : parse_timestamp packet i status with
        | none => rfl
        | some r =>
            obtain ⟨j, status'⟩ := r
            have hij := le_of_parse_timestamp htime
            simp only [checked_data_eq]
            cases hdata : parse_data packet j status' with
            | none => rfl
            | some q =>
                obtain ⟨m, k⟩ := q
                have hjk := lt_of_parse_data hdata
                simp only [ih status' (by omega : packet.length ≤ k + fuel), Option.map_some]
      · rw [if_neg hi, if_neg hi]

end

/-- No read fails and the loop ends. -/
theorem checked_parse_eq (packet : List UInt8) :
    checked_parse packet = some (parse_ble_midi packet) := by
  unfold checked_parse parse_ble_midi
  split
  · rfl
  · exact checked_loop_eq 0 (by omega)

/-! ## Bytes in the place of data -/

/-- A message whose data bytes are seven bits wide. -/
def Message.SevenBit (m : Message) : Prop := m.2.1 ≤ 127 ∧ m.2.2 ≤ 127

/-- Behind well-formed messages, the bytes hold a message of full length with a
byte above 127 in the place of a data byte. -/
def Intrudes (previous : UInt8) (bytes : List UInt8) : Prop :=
  ∃ es form v rest, Legal previous es ∧ form.Allowed (runningStatus previous es) v.status
    ∧ form.Readable v ∧ ¬ v.SevenBit ∧ bytes = encode es ++ (encoded (form, v) ++ rest)

/-- Forwarding neither mends nor breaks a message. -/
theorem Voice.forwarded_sevenBit_iff (v : Voice) : v.forwarded.SevenBit ↔ v.SevenBit := by
  obtain ⟨status, data, channel, hlen⟩ := v
  have hcases := needed_cases status
  simp only [Voice.forwarded, Message.SevenBit, Voice.SevenBit]
  match data, hlen with
  | [], hlen =>
      rw [← hlen] at hcases
      simp at hcases
  | [d1], _ => simp
  | [d1, d2], _ => simp
  | d1 :: d2 :: d3 :: ds, hlen =>
      rw [← hlen] at hcases
      simp at hcases

/-- What one pass reads is a message in one of its forms. -/
theorem encoded_of_pass {previous status : UInt8} {bytes : List UInt8} {j k : ℕ} {m : Message}
    (hrun : Running previous) (htime : parse_timestamp bytes 0 previous = some (j, status))
    (hdata : parse_data (bytes.drop j) 0 status = some (m, k)) :
    ∃ form v, form.Allowed previous v.status ∧ form.Readable v
      ∧ bytes = encoded (form, v) ++ (bytes.drop j).drop k := by
  obtain ⟨⟨hzero, hhigh⟩, -, hk⟩ := of_parse_data hdata
  have hle := parse_data_le hdata
  have hbit := (running_of_parse_timestamp hrun htime).resolve_left hzero
  have hlen : ((bytes.drop j).take k).length = needed status := by
    rw [List.length_take_of_le hle, hk, Nat.zero_add]
  have hpos := needed_cases status
  have hrest : bytes.drop j = (bytes.drop j).take k ++ (bytes.drop j).drop k :=
    (List.take_append_drop k _).symm
  have hfirst : ((bytes.drop j).take k).getD 0 0 = (bytes.drop j).getD 0 0 := by
    rw [List.getD_eq_getElem _ _ (by omega), List.getElem_take,
      ← List.getD_eq_getElem _ 0 (by omega)]
  unfold parse_timestamp at htime
  -- the form is read off the one or two bytes in front of the data
  by_cases hstamp : bytes.getD 0 0 &&& 0x80 ≠ 0
  · rw [if_pos hstamp] at htime
    by_cases hshort : bytes.length ≤ 0 + 1
    · rw [if_pos hshort] at htime
      cases htime
    · rw [if_neg hshort] at htime
      match bytes, hshort with
      | [], hshort => exact absurd (Nat.zero_le 1) hshort
      | [b], hshort => exact absurd (Nat.le_refl 1) hshort
      | b :: c :: tail, _ =>
          by_cases hstatus : (b :: c :: tail).getD (0 + 1) 0 &&& 0x80 ≠ 0
          · rw [if_pos hstatus] at htime
            obtain ⟨rfl, rfl⟩ := Prod.mk.inj (Option.some.inj htime)
            have channel := channelVoice_of_bits c hstatus hhigh
            refine ⟨.full ⟨b, hstamp⟩, ⟨c, _, channel, hlen⟩, trivial, trivial, ?_⟩
            change b :: c :: tail = b :: c :: (tail.take k ++ tail.drop k)
            rw [List.take_append_drop]
          · rw [if_neg hstatus] at htime
            obtain ⟨rfl, rfl⟩ := Prod.mk.inj (Option.some.inj htime)
            have channel := channelVoice_of_bits previous hbit hhigh
            refine ⟨.timed ⟨b, hstamp⟩, ⟨previous, _, channel, hlen⟩, rfl, ?_, ?_⟩
            · change ((List.drop 1 (b :: c :: tail)).take k).getD 0 0 &&& 0x80 = 0
              rw [hfirst]
              exact not_not.mp hstatus
            · change b :: c :: tail = b :: ((c :: tail).take k ++ (c :: tail).drop k)
              rw [List.take_append_drop]
  · rw [if_neg hstamp] at htime
    obtain ⟨rfl, rfl⟩ := Prod.mk.inj (Option.some.inj htime)
    have channel := channelVoice_of_bits previous hbit hhigh
    refine ⟨.bare, ⟨previous, _, channel, hlen⟩, rfl, ?_, ?_⟩
    · change ((bytes.drop 0).take k).getD 0 0 &&& 0x80 = 0
      rw [hfirst]
      exact not_not.mp hstamp
    · exact hrest

/-- The status of a message may run. -/
theorem running_of_channelVoice {status : UInt8} (h : ChannelVoice status) : Running status :=
  Or.inr (bits_of_channelVoice h).1

/-- Everything that is forwarded is well-formed, or the bytes intrude. -/
theorem sevenBit_or_intrudes {previous : UInt8} {bytes : List UInt8} (hrun : Running previous) :
    (∀ m ∈ remaining previous bytes, m.SevenBit) ∨ Intrudes previous bytes := by
  -- the induction is on the number of bytes that are left
  induction hn : bytes.length using Nat.strongRecOn generalizing previous bytes with
  | ind n ih =>
    by_cases hnil : bytes = []
    · rw [hnil]
      exact Or.inl (by simp)
    · rw [remaining_eq previous hnil]
      cases htime : parse_timestamp bytes 0 previous with
      | none => exact Or.inl (by simp)
      | some r =>
          obtain ⟨j, status⟩ := r
          cases hdata : parse_data (bytes.drop j) 0 status with
          | none => exact Or.inl (by simp [message, hdata])
          | some q =>
              obtain ⟨m, k⟩ := q
              obtain ⟨form, v, hform, hread, hbytes⟩ := encoded_of_pass hrun htime hdata
              have hpass : message status (bytes.drop j)
                  = v.forwarded :: remaining v.status ((bytes.drop j).drop k) := by
                have hfirst := remaining_encoded (e := (form, v)) ((bytes.drop j).drop k) hform hread
                rw [← hbytes, remaining_eq previous hnil, htime] at hfirst
                exact hfirst
              simp only [hpass]
              by_cases hseven : v.SevenBit
              · have hk := lt_of_parse_data hdata
                have hle := parse_data_le hdata
                have hlen : ((bytes.drop j).drop k).length < n := by
                  rw [List.length_drop, List.length_drop]
                  rw [List.length_drop] at hle
                  omega
                rcases ih _ hlen (running_of_channelVoice v.channel) rfl with hall | hintr
                · refine Or.inl ?_
                  intro m hm
                  rw [List.mem_cons] at hm
                  rcases hm with rfl | hm
                  · exact v.forwarded_sevenBit_iff.mpr hseven
                  · exact hall m hm
                · obtain ⟨es, form', v', rest, hlegal, hform', hread', hbad, hrest⟩ := hintr
                  refine Or.inr ⟨(form, v) :: es, form', v', rest, ⟨⟨hform, hseven⟩, hlegal⟩,
                    hform', hread', hbad, ?_⟩
                  rw [hbytes, hrest]
                  simp only [encode, List.flatMap_cons, List.append_assoc]
              · exact Or.inr ⟨[], form, v, _, trivial, hform, hread, hseven, hbytes⟩

/-- An intruding byte is forwarded. -/
theorem Intrudes.forwarded {previous : UInt8} {bytes : List UInt8} (h : Intrudes previous bytes) :
    ∃ m ∈ remaining previous bytes, ¬ m.SevenBit := by
  obtain ⟨es, form, v, rest, hlegal, hform, hread, hbad, rfl⟩ := h
  refine ⟨v.forwarded, ?_, fun hseven => hbad (v.forwarded_sevenBit_iff.mp hseven)⟩
  rw [remaining_encode _ hlegal, remaining_encoded (e := (form, v)) rest hform hread]
  exact List.mem_append_right _ List.mem_cons_self

/-- **A packet injects a malformed message exactly if it intrudes.** The parser
ends without a failing read, and every status is that of a channel-voice message,
for every packet. -/
theorem parse_ble_midi_well_formed_iff (packet : List UInt8) :
    (∃ ms, checked_parse packet = some ms
        ∧ ∀ m ∈ ms, ChannelVoice m.1 ∧ m.2.1 ≤ 127 ∧ m.2.2 ≤ 127)
      ↔ ¬ Intrudes 0 (packet.drop 1) := by
  have hparse : parse_ble_midi packet = remaining 0 (packet.drop 1) := by
    cases packet with
    | nil => rfl
    | cons header bytes => exact parse_ble_midi_cons header bytes
  constructor
  · rintro ⟨ms, hms, hall⟩ hintr
    obtain ⟨m, hm, hbad⟩ := hintr.forwarded
    rw [checked_parse_eq, Option.some.injEq] at hms
    rw [← hparse, hms] at hm
    exact hbad (hall m hm).2
  · intro hintr
    have hseven := (sevenBit_or_intrudes (Or.inl rfl)).resolve_right hintr
    refine ⟨parse_ble_midi packet, checked_parse_eq packet, ?_⟩
    intro m hm
    refine ⟨parse_ble_midi_channelVoice packet m hm, ?_⟩
    rw [hparse] at hm
    exact hseven m hm

/-- A note above 127 out of a packet whose length fits a message. -/
theorem parse_ble_midi_injects :
    checked_parse [0x80, 0x80, 0x90, 0xC8, 0xFF] = some [(0x90, 200, 255)]
      ∧ ¬ (200 : UInt8) ≤ 127 := by decide

end PicoDsp.BleMidi
