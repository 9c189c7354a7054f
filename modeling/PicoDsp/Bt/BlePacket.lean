/-
BLE-MIDI packets as a keyboard encodes them, and what `parse_ble_midi` makes of them.

A message is a status with its data bytes. Each message of a packet comes in one of three
forms, of which two leave the status out and are only allowed after a message of the same
status. The loop of `parse_ble_midi` is first brought into a form without positions
(`remaining`), and everything else is an induction over the messages.

The induction carries the running status: what a packet decodes to depends on the status
that the messages before left (`runningStatus`), and `Legal` follows it in the same way.
It is stated with any bytes behind the messages, so that the same lemma serves a packet
that ends there and one that goes on with something else.

The first data byte of a message without a status needs bit 7 clear, or it would be
read as a timestamp; that is the only thing about data bytes that the decoder relies on
(`Readable`), and the general lemma asks for no more. Well-formed messages satisfy it.

For real-time messages the packet is a list of items. The loop ends at the first of
them, so the transparency that a keyboard may expect holds exactly when no message is
behind it, and a release that is lost this way is shown by a packet.
-/
import Mathlib.Data.List.GetD
import PicoDsp.Bt.BleMidi
import PicoDsp.Lib.Bounded

set_option autoImplicit false

namespace PicoDsp.BleMidi

open Lib

/-! ## The loop over the bytes that are left -/

/-- A read behind the first part of a packet. -/
theorem getD_append (pre rest : List UInt8) (i : ℕ) :
    (pre ++ rest).getD (pre.length + i) 0 = rest.getD i 0 := by
  rw [List.getD_append_right _ _ _ _ (Nat.le_add_right _ _), Nat.add_sub_cancel_left]

/-- Only the bytes from the position on count. -/
theorem parse_timestamp_append (pre rest : List UInt8) (i : ℕ) (status : UInt8) :
    parse_timestamp (pre ++ rest) (pre.length + i) status
      = (parse_timestamp rest i status).map fun r => (pre.length + r.1, r.2) := by
  have hbound : (pre ++ rest).length ≤ pre.length + i + 1 ↔ rest.length ≤ i + 1 := by
    rw [List.length_append]
    omega
  unfold parse_timestamp
  simp only [Nat.add_assoc, getD_append]
  simp only [← Nat.add_assoc, hbound]
  split
  · split
    · rfl
    · split
      · simp only [Option.map_some, Nat.add_assoc]
      · simp only [Option.map_some, Nat.add_assoc]
  · rfl

/-- The same for the message. -/
theorem parse_data_append (pre rest : List UInt8) (i : ℕ) (status : UInt8) :
    parse_data (pre ++ rest) (pre.length + i) status
      = (parse_data rest i status).map fun r => (r.1, pre.length + r.2) := by
  have hbound : (pre ++ rest).length < pre.length + i + needed status
      ↔ rest.length < i + needed status := by
    rw [List.length_append]
    omega
  unfold parse_data
  simp only [hbound]
  simp only [Nat.add_assoc, getD_append]
  split
  · rfl
  · split
    · rfl
    · simp only [Option.map_some]

/-- And for the loop, so the packet up to the position may be forgotten. -/
theorem parse_loop_append (pre rest : List UInt8) (fuel i : ℕ) (status : UInt8) :
    parse_loop (pre ++ rest) fuel (pre.length + i) status = parse_loop rest fuel i status := by
  induction fuel generalizing i status with
  | zero => rfl
  | succ fuel ih =>
      have hbound : pre.length + i < (pre ++ rest).length ↔ i < rest.length := by
        rw [List.length_append]
        omega
      rw [parse_loop, parse_loop]
      simp only [hbound, parse_timestamp_append]
      by_cases hi : i < rest.length
      · rw [if_pos hi, if_pos hi]
        cases parse_timestamp rest i status with
        | none => rfl
        | some r =>
            obtain ⟨j, status'⟩ := r
            simp only [Option.map_some, parse_data_append]
            cases parse_data rest j status' with
            | none => rfl
            | some q =>
                obtain ⟨m, k⟩ := q
                simp only [Option.map_some, ih]
      · rw [if_neg hi, if_neg hi]

/-- What the loop forwards of the bytes that are left. -/
def remaining (status : UInt8) (bytes : List UInt8) : List Message :=
  parse_loop bytes bytes.length 0 status

/-- The message at the head of the bytes that are left, and what follows it. -/
def message (status : UInt8) (bytes : List UInt8) : List Message :=
  match parse_data bytes 0 status with
  | none => []
  | some (m, k) => m :: remaining status (bytes.drop k)

/-- The loop at a position is the loop over the bytes from there. -/
theorem parse_loop_eq_remaining {packet : List UInt8} {fuel i : ℕ} (status : UInt8)
    (hi : i ≤ packet.length) (hfuel : packet.length ≤ i + fuel) :
    parse_loop packet fuel i status = remaining status (packet.drop i) := by
  have hlen : (packet.take i).length = i := List.length_take_of_le hi
  have hshift : parse_loop packet fuel i status = parse_loop (packet.drop i) fuel 0 status := by
    have happ := parse_loop_append (packet.take i) (packet.drop i) fuel 0 status
    rw [List.take_append_drop, hlen, Nat.add_zero] at happ
    exact happ
  have hdrop : (packet.drop i).length = packet.length - i := List.length_drop
  rw [hshift, remaining]
  exact parse_loop_fuel status (by omega) (by omega)

/-- Of no bytes nothing is forwarded. -/
@[simp] theorem remaining_nil (status : UInt8) : remaining status [] = [] := rfl

/-- A message ends inside of the packet. -/
theorem parse_data_le {packet : List UInt8} {i k : ℕ} {status : UInt8} {m : Message}
    (h : parse_data packet i status = some (m, k)) : k ≤ packet.length := by
  obtain ⟨-, -, hk⟩ := of_parse_data h
  unfold parse_data at h
  split at h
  · cases h
  · split at h
    · cases h
    · omega

/-- So does a timestamp. -/
theorem parse_timestamp_le {packet : List UInt8} {i j : ℕ} {status status' : UInt8}
    (hi : i < packet.length)
    (h : parse_timestamp packet i status = some (j, status')) : j ≤ packet.length := by
  unfold parse_timestamp at h
  split at h
  · split at h
    · cases h
    · split at h
      · cases h
        omega
      · cases h
        omega
  · cases h
    exact Nat.le_of_lt hi

/-- One pass, without positions. -/
theorem remaining_eq {bytes : List UInt8} (status : UInt8) (hne : bytes ≠ []) :
    remaining status bytes
      = match parse_timestamp bytes 0 status with
        | none => []
        | some (j, status') => message status' (bytes.drop j) := by
  have hpos : 0 < bytes.length := List.length_pos_iff.mpr hne
  obtain ⟨n, hn⟩ : ∃ n, bytes.length = n + 1 := ⟨bytes.length - 1, by omega⟩
  rw [remaining, hn, parse_loop, if_pos hpos]
  cases htime : parse_timestamp bytes 0 status with
  | none => rfl
  | some r =>
      obtain ⟨j, status'⟩ := r
      have hj := parse_timestamp_le hpos htime
      have hlen : (bytes.take j).length = j := List.length_take_of_le hj
      -- the message at `j` is the message at the head of what follows the timestamp
      have hdata : parse_data bytes j status'
          = (parse_data (bytes.drop j) 0 status').map fun q => (q.1, j + q.2) := by
        have happ := parse_data_append (bytes.take j) (bytes.drop j) 0 status'
        rw [List.take_append_drop, hlen, Nat.add_zero] at happ
        exact happ
      simp only [hdata, message]
      cases hmsg : parse_data (bytes.drop j) 0 status' with
      | none => rfl
      | some q =>
          obtain ⟨m, k⟩ := q
          rw [hmsg] at hdata
          have hk := parse_data_le hdata
          have hpos' := lt_of_parse_data hdata
          simp only [Option.map_some, List.drop_drop]
          rw [parse_loop_eq_remaining status' hk (by simp only; omega)]

/-- The header byte is skipped, and a packet of two bytes holds no message. -/
theorem parse_ble_midi_cons (header : UInt8) (bytes : List UInt8) :
    parse_ble_midi (header :: bytes) = remaining 0 bytes := by
  rw [parse_ble_midi]
  by_cases hlen : (header :: bytes).length < 3
  · rw [if_pos hlen]
    match bytes, hlen with
    | [], _ => rfl
    | [b], _ =>
        -- either a timestamp with nothing after it, or data without a status
        rw [remaining_eq 0 (List.cons_ne_nil b [])]
        by_cases hbit : b &&& 0x80 ≠ 0
        · have htime : parse_timestamp [b] 0 0 = none := by simp [parse_timestamp, hbit]
          rw [htime]
        · have htime : parse_timestamp [b] 0 0 = some (0, 0) := by simp [parse_timestamp, hbit]
          rw [htime]
          rfl
  · rw [if_neg hlen, parse_loop_eq_remaining 0 (by simp) (by simp)]
    rfl

/-! ## Messages and their forms -/

/-- A timestamp byte: bit 7 is set. -/
def Timestamp : Type := {b : UInt8 // b &&& 0x80 ≠ 0}

/-- A channel-voice message as it stands in a packet. -/
structure Voice where
  status : UInt8
  data : List UInt8
  channel : ChannelVoice status
  length_eq : data.length = needed status

/-- The data bytes of a well-formed message are seven bits wide. -/
def Voice.SevenBit (v : Voice) : Prop := ∀ b ∈ v.data, b ≤ 127

instance (v : Voice) : Decidable v.SevenBit :=
  List.decidableBAll (fun b => b ≤ 127) v.data

/-- The message that is forwarded; a second data byte that is not there counts as 0. -/
def Voice.forwarded (v : Voice) : Message := (v.status, v.data.getD 0 0, v.data.getD 1 0)

/-- What stands before the data bytes of a message. -/
inductive Form where
  | full (t : Timestamp)
  | timed (t : Timestamp)
  | bare

namespace Form

def lead : Form → UInt8 → List UInt8
  | full t, status => [t.1, status]
  | timed t, _ => [t.1]
  | bare, _ => []

/-- Running status: the status may be left out after a message of the same status. -/
def Allowed : Form → UInt8 → UInt8 → Prop
  | full _, _, _ => True
  | timed _, previous, status => previous = status
  | bare, previous, status => previous = status

/-- Without a status in front of it, a first data byte with bit 7 is not read as data. -/
def Readable : Form → Voice → Prop
  | full _, _ => True
  | timed _, v => v.data.getD 0 0 &&& 0x80 = 0
  | bare, v => v.data.getD 0 0 &&& 0x80 = 0

end Form

/-- A message in one of its forms. -/
def encoded (e : Form × Voice) : List UInt8 := e.1.lead e.2.status ++ e.2.data

def encode (es : List (Form × Voice)) : List UInt8 := es.flatMap encoded

/-- The status that runs after the messages. -/
def runningStatus (previous : UInt8) (es : List (Form × Voice)) : UInt8 :=
  es.foldl (fun _ e => e.2.status) previous

/-- A legal choice of forms for well-formed messages, after the given status. -/
def Legal : UInt8 → List (Form × Voice) → Prop
  | _, [] => True
  | previous, e :: es =>
      (e.1.Allowed previous e.2.status ∧ e.2.SevenBit) ∧ Legal e.2.status es

/-! ## One message -/

/-- Seven bits wide means bit 7 is clear. -/
theorem bit_of_le_127 {b : UInt8} (h : b ≤ 127) : b &&& 0x80 = 0 := by
  have hall : ∀ x : BitVec 8, UInt8.ofBitVec x ≤ 127 → UInt8.ofBitVec x &&& 0x80 = 0 := by
    decide +kernel
  exact hall b.toBitVec h

/-- A channel-voice status has bit 7, is no system status and is not 0. -/
theorem bits_of_channelVoice {b : UInt8} (h : ChannelVoice b) :
    b &&& 0x80 ≠ 0 ∧ b &&& 0xF0 ≠ 0xF0 ∧ b ≠ 0 := by
  have hall : ∀ x : BitVec 8, 0x80 ≤ UInt8.ofBitVec x → UInt8.ofBitVec x < 0xF0 →
      UInt8.ofBitVec x &&& 0x80 ≠ 0 ∧ UInt8.ofBitVec x &&& 0xF0 ≠ 0xF0
        ∧ UInt8.ofBitVec x ≠ 0 := by decide +kernel
  exact hall b.toBitVec h.1 h.2

/-- One data byte or two. -/
theorem needed_cases (status : UInt8) : needed status = 1 ∨ needed status = 2 := by
  unfold needed
  simp only
  split
  · exact Or.inl rfl
  · exact Or.inr rfl

/-- The data bytes are read by position, whatever they are. -/
theorem message_data (v : Voice) (rest : List UInt8) :
    message v.status (v.data ++ rest) = v.forwarded :: remaining v.status rest := by
  obtain ⟨hbit, hhigh, hzero⟩ := bits_of_channelVoice v.channel
  have hlen : ¬ (v.data ++ rest).length < 0 + needed v.status := by
    rw [List.length_append, v.length_eq]
    omega
  have hdata : parse_data (v.data ++ rest) 0 v.status = some (v.forwarded, v.data.length) := by
    unfold parse_data
    rw [if_neg (not_or.mpr ⟨hzero, hhigh⟩), if_neg hlen]
    have hfirst : (v.data ++ rest).getD 0 0 = v.data.getD 0 0 := by
      have hpos := needed_cases v.status
      exact List.getD_append _ _ _ _ (by rw [v.length_eq]; omega)
    have hsecond : (if needed v.status = 2 then (v.data ++ rest).getD (0 + 1) 0 else 0)
        = v.data.getD 1 0 := by
      by_cases htwo : needed v.status = 2
      · rw [if_pos htwo]
        exact List.getD_append _ _ _ _ (by rw [v.length_eq]; omega)
      · rw [if_neg htwo]
        have hpos := needed_cases v.status
        exact (List.getD_eq_default _ _ (by rw [v.length_eq]; omega)).symm
    simp only [hfirst, hsecond, v.length_eq, Nat.zero_add]
    rfl
  rw [message, hdata]
  simp only [List.drop_left]

/-- A message in a form that its predecessor allows is forwarded as it stands. -/
theorem remaining_encoded {previous : UInt8} {e : Form × Voice} (rest : List UInt8)
    (hform : e.1.Allowed previous e.2.status) (hread : e.1.Readable e.2) :
    remaining previous (encoded e ++ rest) = e.2.forwarded :: remaining e.2.status rest := by
  obtain ⟨form, v⟩ := e
  obtain ⟨hbit, -, -⟩ := bits_of_channelVoice v.channel
  have hpos : 0 < v.data.length := by
    have hcases := needed_cases v.status
    rw [v.length_eq]
    omega
  have hhead : (v.data ++ rest).getD 0 0 = v.data.getD 0 0 := List.getD_append _ _ _ _ hpos
  cases form with
  -- timestamp and status byte
  | full t =>
      have htime : parse_timestamp (t.1 :: v.status :: (v.data ++ rest)) 0 previous
          = some (2, v.status) := by
        simp [parse_timestamp, t.2, hbit]
      change remaining previous (t.1 :: v.status :: (v.data ++ rest)) = _
      rw [remaining_eq previous (List.cons_ne_nil _ _), htime]
      exact message_data v rest
  -- the timestamp alone: the next byte has bit 7 clear, so the status runs on
  | timed t =>
      change previous = v.status at hform
      have hnext : (t.1 :: (v.data ++ rest)).getD (0 + 1) 0 &&& 0x80 = 0 := by
        rw [List.getD_cons_succ, hhead]
        exact hread
      have hlen : ¬ (t.1 :: (v.data ++ rest)).length ≤ 0 + 1 := by
        rw [List.length_cons, List.length_append]
        omega
      have htime : parse_timestamp (t.1 :: (v.data ++ rest)) 0 previous
          = some (1, previous) := by
        unfold parse_timestamp
        rw [if_pos (by simpa using t.2), if_neg hlen, if_neg (not_not.mpr hnext)]
      change remaining previous (t.1 :: (v.data ++ rest)) = _
      rw [remaining_eq previous (List.cons_ne_nil _ _), htime, hform]
      exact message_data v rest
  -- data bytes alone: the first of them is not taken for a timestamp
  | bare =>
      change previous = v.status at hform
      change v.data.getD 0 0 &&& 0x80 = 0 at hread
      have hne : v.data ++ rest ≠ [] := by
        intro h
        rw [List.append_eq_nil_iff] at h
        rw [h.1] at hpos
        exact Nat.lt_irrefl 0 hpos
      have htime : parse_timestamp (v.data ++ rest) 0 previous = some (0, previous) := by
        unfold parse_timestamp
        rw [hhead, if_neg (not_not.mpr hread)]
      change remaining previous (v.data ++ rest) = _
      rw [remaining_eq previous hne, htime, hform]
      exact message_data v rest

/-- The bytes of a well-formed message are told apart from timestamps. -/
theorem Voice.SevenBit.readable {v : Voice} (h : v.SevenBit) (form : Form) :
    form.Readable v := by
  have hpos : 0 < v.data.length := by
    have hcases := needed_cases v.status
    rw [v.length_eq]
    omega
  have hfirst : v.data.getD 0 0 &&& 0x80 = 0 := by
    rw [List.getD_eq_getElem _ _ hpos]
    exact bit_of_le_127 (h _ (List.getElem_mem hpos))
  cases form with
  | full t => trivial
  | timed t => exact hfirst
  | bare => exact hfirst

/-! ## A packet -/

/-- Legally encoded messages are forwarded one by one, in front of any bytes. -/
theorem remaining_encode {previous : UInt8} {es : List (Form × Voice)} (rest : List UInt8)
    (h : Legal previous es) :
    remaining previous (encode es ++ rest)
      = es.map (fun e => e.2.forwarded) ++ remaining (runningStatus previous es) rest := by
  induction es generalizing previous with
  | nil => rfl
  | cons e es ih =>
      obtain ⟨⟨hform, hseven⟩, hlegal⟩ := h
      have hsplit : encode (e :: es) ++ rest = encoded e ++ (encode es ++ rest) := by
        simp only [encode, List.flatMap_cons, List.append_assoc]
      have hread := hseven.readable e.1
      rw [hsplit, remaining_encoded (encode es ++ rest) hform hread, ih hlegal]
      rfl

/-- **Decoding a packet gives back the messages it encodes**, whichever of the allowed forms
each of them is written in, and a queue that has room for them takes all of them in
order. A message of one data byte is forwarded with a zero as its second one. -/
theorem parse_ble_midi_encode (header : UInt8) (es : List (Form × Voice)) (h : Legal 0 es) :
    parse_ble_midi (header :: encode es) = es.map (fun e => e.2.forwarded)
      ∧ ∀ queue : BoundedList Message 16, queue.items.length + es.length ≤ 16 →
          ((parse_ble_midi (header :: encode es)).foldl BoundedList.offer queue).items
            = queue.items ++ es.map (fun e => e.2.forwarded) := by
  have hparse : parse_ble_midi (header :: encode es) = es.map (fun e => e.2.forwarded) := by
    have hall := remaining_encode [] h
    rw [List.append_nil, remaining_nil, List.append_nil] at hall
    rw [parse_ble_midi_cons, hall]
  refine ⟨hparse, ?_⟩
  intro queue hroom
  rw [hparse]
  exact BoundedList.foldl_offer_items (by rw [List.length_map]; exact hroom)

/-- A key that is struck and released again. -/
def strike : Voice := ⟨0x90, [60, 64], ⟨by decide, by decide⟩, rfl⟩

def release : Voice := ⟨0x90, [60, 0], ⟨by decide, by decide⟩, rfl⟩

/-- A program change, with one data byte. -/
def select : Voice := ⟨0xC0, [3], ⟨by decide, by decide⟩, rfl⟩

def tick : Timestamp := ⟨0x81, by decide⟩

/-- Status left out, timestamp kept, and both written, in one packet. -/
theorem parse_ble_midi_encode_forms :
    parse_ble_midi (0x80 :: encode [(.full tick, strike), (.bare, release), (.timed tick, strike),
        (.full tick, select), (.bare, select)])
      = [(0x90, 60, 64), (0x90, 60, 0), (0x90, 60, 64), (0xC0, 3, 0), (0xC0, 3, 0)] :=
  (parse_ble_midi_encode 0x80
    [(.full tick, strike), (.bare, release), (.timed tick, strike), (.full tick, select),
      (.bare, select)]
    ⟨⟨trivial, by decide⟩, ⟨rfl, by decide⟩, ⟨rfl, by decide⟩, ⟨trivial, by decide⟩,
      ⟨rfl, by decide⟩, trivial⟩).1

/-! ## Real-time messages between the messages -/

/-- What stands in a packet: a message, or a real-time message with its timestamp. -/
inductive Item where
  | voice (e : Form × Voice)
  | real_time (t : Timestamp) (status : UInt8) (h : 0xF8 ≤ status)

namespace Item

def bytes : Item → List UInt8
  | voice e => encoded e
  | real_time t status _ => [t.1, status]

def voice? : Item → Option (Form × Voice)
  | voice e => some e
  | real_time _ _ _ => none

def isVoice (i : Item) : Bool := i.voice?.isSome

end Item

/-- The messages of a packet without its real-time messages. -/
def voices (items : List Item) : List (Form × Voice) := items.filterMap Item.voice?

/-- The messages behind the first real-time message. -/
def afterRealTime (items : List Item) : List (Form × Voice) :=
  voices (items.dropWhile Item.isVoice)

/-- A real-time byte is a system status. -/
theorem bits_of_realTime {b : UInt8} (h : 0xF8 ≤ b) : b &&& 0x80 ≠ 0 ∧ b &&& 0xF0 = 0xF0 := by
  have hall : ∀ x : BitVec 8, 0xF8 ≤ UInt8.ofBitVec x →
      UInt8.ofBitVec x &&& 0x80 ≠ 0 ∧ UInt8.ofBitVec x &&& 0xF0 = 0xF0 := by decide +kernel
  exact hall b.toBitVec h

/-- The loop ends at a real-time message. -/
theorem remaining_realTime (previous : UInt8) (t : Timestamp) {status : UInt8} (rest : List UInt8)
    (h : 0xF8 ≤ status) : remaining previous (t.1 :: status :: rest) = [] := by
  obtain ⟨hbit, hhigh⟩ := bits_of_realTime h
  have htime : parse_timestamp (t.1 :: status :: rest) 0 previous = some (2, status) := by
    simp [parse_timestamp, t.2, hbit]
  rw [remaining_eq previous (List.cons_ne_nil _ _), htime]
  simp only [message, parse_data]
  rw [if_pos (Or.inr hhigh)]

/-- The messages in front of the first real-time message are all that is forwarded. -/
theorem remaining_items {previous : UInt8} {items : List Item}
    (h : Legal previous (voices items)) :
    remaining previous (items.flatMap Item.bytes)
      = (voices (items.takeWhile Item.isVoice)).map (fun e => e.2.forwarded) := by
  induction items generalizing previous with
  | nil => rfl
  | cons i items ih =>
      cases i with
      | voice e =>
          obtain ⟨⟨hform, hseven⟩, hlegal⟩ := h
          have hread := hseven.readable e.1
          rw [List.flatMap_cons]
          change remaining previous (encoded e ++ _) = _
          rw [remaining_encoded _ hform hread, ih hlegal]
          rfl
      | real_time t status hstatus =>
          rw [List.flatMap_cons]
          exact remaining_realTime previous t _ hstatus

/-- The messages in front of the first real-time message and those behind it. -/
theorem voices_split (items : List Item) :
    voices items = voices (items.takeWhile Item.isVoice) ++ afterRealTime items := by
  rw [afterRealTime, voices, voices, voices, ← List.filterMap_append,
    List.takeWhile_append_dropWhile]

/-- **Real-time messages are transparent exactly behind the last message**: what
follows one of them is lost. The loop takes a real-time byte for a system message and
ends there, although the bytes behind it are as legal as those in front of it. -/
theorem real_time_transparent_iff (header : UInt8) (items : List Item)
    (h : Legal 0 (voices items)) :
    parse_ble_midi (header :: items.flatMap Item.bytes)
        = parse_ble_midi (header :: encode (voices items))
      ↔ afterRealTime items = [] := by
  have hvoices := (parse_ble_midi_encode header (voices items) h).1
  have hitems := remaining_items h
  have hsplit : (voices items).map (fun e => e.2.forwarded)
      = (voices (items.takeWhile Item.isVoice)).map (fun e => e.2.forwarded)
        ++ (afterRealTime items).map (fun e => e.2.forwarded) := by
    rw [← List.map_append, ← voices_split]
  rw [parse_ble_midi_cons, hitems, hvoices, hsplit]
  constructor
  · intro heq
    rw [List.self_eq_append_right] at heq
    exact List.map_eq_nil_iff.mp heq
  · intro hnil
    rw [hnil, List.map_nil, List.append_nil]

/-- A clock byte behind the last message costs nothing. -/
theorem real_time_transparent_iff_last :
    parse_ble_midi (0x80 :: [Item.voice (.full tick, strike),
        Item.real_time tick 0xF8 (by decide)].flatMap Item.bytes)
      = parse_ble_midi (0x80 :: encode [(.full tick, strike)]) :=
  (real_time_transparent_iff 0x80
    [Item.voice (.full tick, strike), Item.real_time tick 0xF8 (by decide)]
    ⟨⟨trivial, by decide⟩, trivial⟩).mpr rfl

/-- A clock byte in front of a release, which is fully encoded, costs the release. -/
theorem real_time_costs_release :
    Legal 0 (voices [Item.voice (.full tick, strike), Item.real_time tick 0xF8 (by decide),
        Item.voice (.full tick, release)])
      ∧ parse_ble_midi (0x80 :: [Item.voice (.full tick, strike),
          Item.real_time tick 0xF8 (by decide), Item.voice (.full tick, release)].flatMap
            Item.bytes) = [(0x90, 60, 64)]
      ∧ parse_ble_midi (0x80 :: encode (voices [Item.voice (.full tick, strike),
          Item.real_time tick 0xF8 (by decide), Item.voice (.full tick, release)]))
        = [(0x90, 60, 64), (0x90, 60, 0)] :=
  ⟨⟨⟨trivial, by decide⟩, ⟨trivial, by decide⟩, trivial⟩, by decide, by decide⟩

end PicoDsp.BleMidi
