/-
The USB copy of the audio (`tasks/core0.rs`).

`main_task` offers every block to `USB_AUDIO_CHANNEL` and never waits for it, and
`microphone_task` drains the channel. So blocks can be missing from the stream, but what
is in it is made of frames core1 has rendered, in their order; and nothing of it reaches
back: with the moves of the USB side left out, the rest of the device does the same.

The first is a conservation law with losses (`RunBy.thins_out`): the blocks that get to
`microphone_task` are a sublist of those rendered. From there on it is what
`Usb/MicrophoneTask.lean` says of a run of that task by itself, and `microphone_run` takes
that run out of the run of the device. A packet is made of 48 frames in a row of what
came in, and so of frames in order of what was rendered, with gaps only where blocks
are missing.

The second is a simulation (`run_erase`): two devices that agree in everything but the
USB side stay so under any move that is not one of the USB side, and such a move is enabled
in both or in none (`SameDac.seen`). It is stronger than to say that the DAC plays the same
words, since it holds from any state and for every variable.

The two outputs convert a sample differently. The DAC leaves the limits to the cast, which
goes down to -32768, and the USB side clamps to -1 first; where they differ is settled
exactly (`same_samples_iff`).
-/
import PicoDsp.System.AudioStream

set_option autoImplicit false

namespace PicoDsp

open Lib Transition

/-! ## Packets -/

namespace MicrophoneTask

variable {F : Type} [F32 F] [CastI16 F]

omit [F32 F] [CastI16 F] in
/-- What lay in front of the position still does. -/
theorem taken_sublist {es : List (Event F)} {e : Event F} {n : ℕ}
    (h : n ≤ (tape (es ++ [e])).pos) :
    ((received es).take n).Sublist ((received (es ++ [e])).take (tape (es ++ [e])).pos) := by
  rw [received_append]
  have hprefix : (received es).take n <+: (received es ++ received [e]).take n := by
    rw [List.take_append]
    exact List.prefix_append _ _
  exact hprefix.sublist.trans (List.take_sublist_take_left h)

/-- The packets of a run are frames that have come in, in order. -/
theorem packets_in_order {es : List (Event F)} {s : Microphone F}
    (h : run step start es = some s) :
    ∃ sent : List (F × F), sent.Sublist ((received es).take (tape es).pos)
      ∧ (packets es).flatten = sent.flatMap encode := by
  induction es using List.reverseRecOn generalizing s with
  | nil => exact ⟨[], List.Sublist.refl [], rfl⟩
  | append_singleton es e ih =>
      obtain ⟨u, v, hpre, hstep, hlast⟩ := run_split h
      obtain ⟨sent, hsub, hsent⟩ := ih hpre
      have hmono : (tape es).pos ≤ (tape (es ++ [e])).pos := pos_mono h
      -- an event that writes nothing adds nothing
      have hother : packets [e] = [] → ∃ sent : List (F × F),
          sent.Sublist ((received (es ++ [e])).take (tape (es ++ [e])).pos)
            ∧ (packets (es ++ [e])).flatten = sent.flatMap encode := by
        intro hnone
        refine ⟨sent, hsub.trans (taken_sublist hmono), ?_⟩
        rw [packets_append, hnone, List.append_nil]
        exact hsent
      cases e with
      | load streaming => exact hother rfl
      | drain block => exact hother rfl
      | round => exact hother rfl
      | receive block => exact hother rfl
      | write packet timed_out =>
          -- the next 48 frames are taken
          obtain ⟨-, hle, hpacket⟩ := written_packet h
          have hbehind : (tape es).pos + FRAMES_PER_PACKET
              ≤ (tape (es ++ [.write packet timed_out])).pos := later_behind h
          refine ⟨sent ++ ((received es).drop (tape es).pos).take FRAMES_PER_PACKET, ?_, ?_⟩
          · have htake := hsub.append_right
              (((received es).drop (tape es).pos).take FRAMES_PER_PACKET)
            rw [← List.take_add] at htake
            exact htake.trans (taken_sublist hbehind)
          · rw [packets_append, List.flatten_append, hsent, List.flatMap_append, ← hpacket]
            exact congrArg (sent.flatMap encode ++ ·) (List.append_nil packet)

/-- A packet is 48 frames of four bytes. -/
theorem packet_length {es : List (Event F)} {s : Microphone F} (h : run step start es = some s)
    {packet : List UInt8} (hmem : packet ∈ packets es) : packet.length = 192 := by
  obtain ⟨e, he, hpacket⟩ := List.mem_filterMap.mp hmem
  obtain ⟨pre, post, rfl⟩ := List.append_of_mem he
  cases e with
  | write written timed_out =>
      cases hpacket
      exact (written_packet h).1
  | load streaming => cases hpacket
  | drain block => cases hpacket
  | round => cases hpacket
  | receive block => cases hpacket

end MicrophoneTask

/-! ## The samples of both outputs

The DAC leaves the limits to the cast, which goes down to -32768; the USB side clamps to
-1 first. -/

namespace MainTask

open MicrophoneTask

/-- The two samples of an I2S word. -/
def unpack (word : UInt32) : UInt16 × UInt16 := ((word >>> 16).toUInt16, word.toUInt16)

/-- The two halves of a word. -/
theorem unpack_or (l r : UInt16) : unpack (l.toUInt32 <<< 16 ||| r.toUInt32) = (l, r) := by
  have hl := l.toNat_lt
  have hr := r.toNat_lt
  have hor : (l.toUInt32 <<< 16 ||| r.toUInt32).toNat = l.toNat <<< 16 + r.toNat := by
    rw [UInt32.toNat_or, UInt32.toNat_shiftLeft, UInt16.toNat_toUInt32, UInt16.toNat_toUInt32,
      Nat.shiftLeft_add_eq_or_of_lt hr, Nat.mod_eq_of_lt]
    · rfl
    · show l.toNat <<< 16 < 2 ^ 32
      rw [Nat.shiftLeft_eq]
      omega
  rw [Nat.shiftLeft_eq] at hor
  refine Prod.ext ?_ ?_
  · apply UInt16.toNat_inj.mp
    show ((l.toUInt32 <<< 16 ||| r.toUInt32) >>> 16).toUInt16.toNat = l.toNat
    rw [UInt32.toNat_toUInt16, UInt32.toNat_shiftRight, hor]
    show ((l.toNat * 2 ^ 16 + r.toNat) >>> 16) % 2 ^ 16 = l.toNat
    rw [Nat.shiftRight_eq_div_pow]
    omega
  · apply UInt16.toNat_inj.mp
    show (l.toUInt32 <<< 16 ||| r.toUInt32).toUInt16.toNat = r.toNat
    rw [UInt32.toNat_toUInt16, hor]
    omega

/-- The cast of a negative value: up to the next integer. -/
theorem as_i16_neg {y : ℝ} (h : y < 0) :
    CastI16.as_i16 y = Int16.ofInt (max (-32768) (min 32767 ⌈y⌉)) := by
  show Int16.ofInt (max (-32768) (min 32767 (if 0 ≤ y then ⌊y⌋ else ⌈y⌉))) = _
  rw [if_neg (not_le.mpr h)]

/-- The cast of a value that is not negative. -/
theorem as_i16_nonneg {y : ℝ} (h : 0 ≤ y) :
    CastI16.as_i16 y = Int16.ofInt (max (-32768) (min 32767 ⌊y⌋)) := by
  show Int16.ofInt (max (-32768) (min 32767 (if 0 ≤ y then ⌊y⌋ else ⌈y⌉))) = _
  rw [if_pos h]

/-- A sample is the same on both sides exactly above the last step of the USB side. -/
theorem cast_eq_convert_iff (x : ℝ) :
    CastI16.as_i16 (x * (I16_SCALE : ℝ)) = MicrophoneTask.convert x ↔ -32768 / 32767 < x := by
  have hscale : (I16_SCALE : ℝ) = 32767 := by simp [I16_SCALE]
  have hlit1 : (F32.lit (-1) : ℝ) = -1 := by simp
  have hlit2 : (F32.lit 1 : ℝ) = 1 := by simp
  unfold MicrophoneTask.convert
  rw [hscale, hlit1, hlit2]
  rcases lt_or_ge x (-1) with hlow | hlow
  · -- clamped to -1
    have hclamp : F32.clamp x (-1) 1 = -1 := by simp [F32.clamp, hlow]
    have hceil : ⌈((-1 : ℝ) * 32767)⌉ = -32767 := by norm_num
    have hle : ⌈x * 32767⌉ ≤ -32767 := by
      rw [Int.ceil_le]
      push_cast
      linarith
    rw [hclamp, as_i16_neg (by linarith), as_i16_neg (by norm_num), hceil]
    by_cases hdeep : -32768 / 32767 < x
    · refine iff_of_true ?_ hdeep
      have hlt : -32768 < ⌈x * 32767⌉ := by
        rw [Int.lt_ceil]
        push_cast
        linarith
      rw [show ⌈x * 32767⌉ = -32767 by omega]
    · refine iff_of_false ?_ hdeep
      have hge : ⌈x * 32767⌉ ≤ -32768 := by
        rw [Int.ceil_le]
        push_cast
        linarith
      rw [show max (-32768) (min 32767 ⌈x * 32767⌉) = -32768 by omega]
      decide
  · rcases lt_or_ge 1 x with hhigh | hhigh
    · -- clamped to 1, which is where the cast ends as well
      have hclamp : F32.clamp x (-1) 1 = 1 := by
        simp [F32.clamp, not_lt.mpr hlow, hhigh]
      have hfloor : ⌊(1 : ℝ) * 32767⌋ = 32767 := by norm_num
      have hge : 32767 ≤ ⌊x * 32767⌋ := by
        rw [Int.le_floor]
        push_cast
        linarith
      rw [hclamp, as_i16_nonneg (by linarith), as_i16_nonneg (by norm_num), hfloor]
      refine iff_of_true ?_ (by linarith)
      rw [show min 32767 ⌊x * 32767⌋ = 32767 by omega]
      rfl
    · rw [F32.clamp_real_of_mem hlow hhigh]
      exact iff_of_true rfl (by linarith)

/-- The samples of a frame as the USB side sends them. -/
noncomputable def sent_samples (f : ℝ × ℝ) : UInt16 × UInt16 :=
  ((MicrophoneTask.convert f.1).toUInt16, (MicrophoneTask.convert f.2).toUInt16)

/-- And so is a frame. -/
theorem pack_eq_iff (f : ℝ × ℝ) :
    unpack (pack f) = sent_samples f ↔ -32768 / 32767 < f.1 ∧ -32768 / 32767 < f.2 := by
  have hinj : ∀ a b : Int16, a.toUInt16 = b.toUInt16 ↔ a = b := fun a b =>
    ⟨fun h => congrArg Int16.ofUInt16 h, fun h => congrArg Int16.toUInt16 h⟩
  rw [pack, to_u32, to_u32, unpack_or, sent_samples, Prod.mk.injEq, hinj, hinj,
    cast_eq_convert_iff, cast_eq_convert_iff]

/-- A condition on the samples of a block, frame by frame. -/
theorem forall_frames_iff {P : ℝ → Prop} (block : AudioData ℝ) :
    (∀ f ∈ frames block, P f.1 ∧ P f.2) ↔ ∀ x ∈ block, P x := by
  constructor
  · intro h x hx
    obtain ⟨j, hj, rfl⟩ := Vector.mem_iff_getElem.mp hx
    unfold BLOCK_SIZE at hj
    have hframe := h (frame block ⟨j / 2, by unfold BUFFER_SIZE BLOCK_SIZE; omega⟩)
      (List.mem_ofFn.mpr ⟨⟨j / 2, by omega⟩, rfl⟩)
    -- the left or the right sample of its frame
    rcases Nat.mod_two_eq_zero_or_one j with heven | hodd
    · have hindex : (⟨2 * (j / 2), by unfold BLOCK_SIZE; omega⟩ : Fin BLOCK_SIZE) = ⟨j, hj⟩ :=
        Fin.ext (show 2 * (j / 2) = j by omega)
      have hleft : P (block.get ⟨2 * (j / 2), _⟩) := hframe.1
      rw [hindex] at hleft
      exact hleft
    · have hindex : (⟨2 * (j / 2) + 1, by unfold BLOCK_SIZE; omega⟩ : Fin BLOCK_SIZE) = ⟨j, hj⟩ :=
        Fin.ext (show 2 * (j / 2) + 1 = j by omega)
      have hright : P (block.get ⟨2 * (j / 2) + 1, _⟩) := hframe.2
      rw [hindex] at hright
      exact hright
  · intro h f hf
    obtain ⟨i, rfl⟩ := List.mem_ofFn.mp hf
    exact ⟨h _ (Vector.getElem_mem _), h _ (Vector.getElem_mem _)⟩

/-- **A block has the same samples on both outputs exactly when none of them is at or
below -32768 / 32767**, where the DAC goes one step lower than the USB side. -/
theorem same_samples_iff (block : AudioData ℝ) :
    (words block).map unpack = (frames block).map sent_samples
      ↔ ∀ x ∈ block, -32768 / 32767 < x := by
  rw [words, List.map_map, List.map_inj_left, ← forall_frames_iff]
  exact forall_congr' fun f => imp_congr_right fun _ => pack_eq_iff f

end MainTask

/-! ## What microphone_task is given -/

namespace AudioPath

open MicrophoneTask (frames Event)

variable {F : Type} [F32 F] [CastI16 F] [DecidableEq F]

/-- Seen from `microphone_task`, a run is a run of its own. -/
theorem microphone_run {s t : AudioPath F} {ls : List (AudioLabel F)}
    (h : run step s ls = some t) :
    run MicrophoneTask.step s.microphone (ls.flatMap AudioLabel.heard) = some t.microphone := by
  induction ls generalizing s with
  | nil =>
      cases h
      rfl
  | cons l ls ih =>
      rw [run_cons, Option.bind_eq_some_iff] at h
      obtain ⟨s', hfirst, hrest⟩ := h
      have hih := ih hrest
      cases step_moves hfirst with
      | microphone hhear hstep =>
          show run MicrophoneTask.step s.microphone (_ :: ls.flatMap AudioLabel.heard) = _
          rw [run_cons, hstep]
          exact hih
      -- nobody else touches the task or moves it
      | task hl hstep => exact hih
      | status hstatus hroom => exact hih
      | access hprocess hsend hstatus => exact hih
      | process block us hpc hstatus => exact hih
      | swap_underruns hstage => exact hih
      | swap_min hstage => exact hih
      | report hstage => exact hih
      | send hstage hroom => exact hih
      | write hpc => exact hih
      | len hpc => exact hih
      | low_water hpc => exact hih
      | underrun hpc => exact hih
      | receive hpc htake => exact hih
      | try_send hpc => exact hih
      | convert hpc => exact hih
      | swap hpc hdma => exact hih
      | dma hdma hword => exact hih
      | streaming on => exact hih
      | logger htake => exact hih
      | logger_status htake => exact hih
      | log_storage text hbusy => exact hih

omit [F32 F] [CastI16 F] [DecidableEq F] in
/-- The block that `main_task` is about to offer. -/
def offering (m : MainTask F) : List (AudioData F) :=
  match m.pc with
  | .try_send block => [block]
  | _ => []

omit [F32 F] [CastI16 F] [DecidableEq F] in
/-- The blocks that may still get to `microphone_task`, the next one first. -/
def tee (s : AudioPath F) : List (AudioData F) :=
  s.shared.usb_audio_channel.items ++ (offering s.main ++ (s.shared.audio_channel.items
    ++ s.rendering))

omit [F32 F] [CastI16 F] [DecidableEq F] in
/-- The frames of an event are those of the blocks that come in with it. -/
theorem frames_taken (e : Event F) : e.frames = (taken e).flatMap frames := by
  cases e with
  | load streaming => rfl
  | drain block => exact (List.append_nil _).symm
  | round => rfl
  | receive block => exact (List.append_nil _).symm
  | write packet timed_out => rfl

omit [F32 F] [CastI16 F] [DecidableEq F] in
/-- So are the frames of a run. -/
theorem received_taken (es : List (Event F)) :
    MicrophoneTask.received es = (es.flatMap taken).flatMap frames := by
  rw [List.flatMap_assoc]
  exact List.flatMap_congr fun e _ => frames_taken e

omit [F32 F] [CastI16 F] [DecidableEq F] in
/-- A block that is offered comes last, or not at all. -/
theorem offer_sublist {n : ℕ} (ch : BoundedList (AudioData F) n) (block : AudioData F) :
    (ch.offer block).items.Sublist (ch.items ++ [block]) := by
  by_cases hf : ch.Full
  · rw [BoundedList.offer_of_full hf]
    exact List.sublist_append_left _ _
  · rw [BoundedList.offer_items_of_not_full hf]

/-- **Every step passes blocks on in order**, or drops one. -/
theorem Inv.tees {s s' : AudioPath F} {l : AudioLabel F} (h : Inv s) (hmoves : Moves s l s') :
    (l.heard.flatMap taken ++ s'.tee).Sublist (s.tee ++ l.rendered) := by
  -- for the moves that neither take nor render
  have hsame : ∀ t : AudioPath F, t.tee = s.tee →
      (([] : List (Event F)).flatMap taken ++ t.tee).Sublist (s.tee ++ []) := by
    intro t ht
    rw [ht, List.append_nil]
    exact List.Sublist.refl _
  cases hmoves with
  | @task l firmware hl hstep =>
      apply hsame
      show _ ++ (_ ++ (_ ++ AudioPath.rendering { s with firmware := firmware })) = s.tee
      rw [rendering_task hl hstep]
      rfl
  | status hstatus hroom => exact hsame _ rfl
  | access hprocess hsend hstatus =>
      apply hsame
      show _ ++ (_ ++ (_ ++ AudioPath.rendering { s.advance with dsp := _ })) = _
      rw [rendering_access hprocess hsend]
      rfl
  | process block us hpc hstatus =>
      obtain ⟨hbefore, hafter⟩ := rendering_process hpc (s.dsp.processed (s.rendered block) us)
      show ([] ++ (_ ++ (_ ++ (_ ++ AudioPath.rendering { s.advance with dsp := _ })))).Sublist
        (s.tee ++ [block])
      rw [hafter, tee, hbefore]
      show ([] ++ (_ ++ (_ ++ (_ ++ [s.rendered block])))).Sublist _
      rw [h.rendered hpc]
      simp only [List.append_nil, List.append_assoc, List.nil_append]
      exact List.Sublist.refl _
  | swap_underruns hstage => exact hsame _ rfl
  | swap_min hstage => exact hsame _ rfl
  | report hstage => exact hsame _ rfl
  | send hstage hroom =>
      apply hsame
      obtain ⟨hbefore, hafter⟩ := rendering_sent (stage_some hstage).1
      show _ ++ (_ ++ ((s.shared.audio_channel.offer s.dsp.buffer).items ++ s.advance.rendering)) = _
      rw [hafter, tee, hbefore, BoundedList.offer_items_of_not_full hroom, List.append_nil]
      rfl
  | write hpc =>
      apply hsame
      simp only [tee, offering, hpc]
      rfl
  | len hpc =>
      apply hsame
      simp only [tee, offering, hpc]
      rfl
  | @low_water fill hpc =>
      apply hsame
      by_cases hfill : fill = 0
      · simp only [tee, offering, hpc, if_pos hfill]
        rfl
      · simp only [tee, offering, hpc, if_neg hfill]
        rfl
  | underrun hpc =>
      apply hsame
      simp only [tee, offering, hpc]
      rfl
  | receive hpc htake =>
      apply hsame
      simp only [tee, offering, hpc, BoundedList.items_of_try_receive htake]
      rfl
  | @try_send block hpc =>
      -- here a block may be dropped
      have hoffer := offer_sublist s.shared.usb_audio_channel block
      simp only [AudioLabel.heard, AudioLabel.rendered, List.flatMap_nil, List.nil_append,
        List.append_nil, tee, offering, hpc]
      have hall := hoffer.append_right (s.shared.audio_channel.items ++ s.rendering)
      rw [List.append_assoc] at hall
      exact hall
  | convert hpc =>
      apply hsame
      rename_i block i
      have hnone : offering (s.main.convert block i) = [] := by
        unfold offering
        rcases MainTask.convert_pc s.main block i with ⟨_, hpc'⟩ | ⟨-, hpc'⟩
        · rw [hpc']
        · rw [hpc']
      have hnone' : offering s.main = [] := by
        unfold offering
        rw [hpc]
      show _ ++ (offering (s.main.convert block i) ++ _) = s.tee
      rw [hnone, tee, hnone']
      rfl
  | swap hpc hdma =>
      apply hsame
      simp only [tee, offering, hpc]
      rfl
  | dma hdma hword => exact hsame _ rfl
  | microphone hhear hstep =>
      -- the head of the channel is taken
      obtain ⟨ch, rfl, hitems⟩ := hear_takes hhear
      simp only [AudioLabel.heard, AudioLabel.rendered, List.flatMap_cons, List.flatMap_nil,
        List.append_nil, tee, hitems, List.append_assoc]
      exact List.Sublist.refl _
  | streaming on => exact hsame _ rfl
  | logger htake => exact hsame _ rfl
  | logger_status htake => exact hsame _ rfl
  | log_storage text hbusy => exact hsame _ rfl

/-- **The USB stream is made of frames that core1 has rendered, in their order**, 48 to a
packet: some may be missing, none is repeated or made up. What is missing is known by the
results about `microphone_task` and the channel in front of it. -/
theorem usb_hears_in_order {p : Preset F} {s t : AudioPath F} {ls : List (AudioLabel F)}
    (hs : Boot p s) (h : run step s ls = some t) :
    ∃ sent : List (F × F),
      sent.Sublist ((ls.flatMap AudioLabel.rendered).flatMap frames)
        ∧ (MicrophoneTask.packets (ls.flatMap AudioLabel.heard)).flatten
          = sent.flatMap MicrophoneTask.encode
        ∧ ∀ packet ∈ MicrophoneTask.packets (ls.flatMap AudioLabel.heard), packet.length = 192 := by
  have hmic := microphone_run h
  rw [hs.microphone] at hmic
  obtain ⟨sent, hsub, hsent⟩ := MicrophoneTask.packets_in_order hmic
  refine ⟨sent, ?_, hsent, ?_⟩
  · -- what came in is what has passed the tee
    have hrun := RunBy.of_run (P := fun _ => True) h fun _ _ => trivial
    have hlaw := hrun.thins_out (fun l => l.heard.flatMap taken) AudioLabel.rendered tee
      (fun _ _ _ hinv _ hstep => ⟨hinv.moves (step_moves hstep), hinv.tees (step_moves hstep)⟩)
      hs.inv
    have htee : s.tee = [] := by
      have hrendering : s.rendering = [] := by
        apply rendering_nil
        rw [hs.firmware.core1]
        exact nofun
      rw [tee, hrendering, hs.audio_channel, hs.usb_audio_channel, hs.main]
      rfl
    rw [htee, List.nil_append, ← List.flatMap_assoc] at hlaw
    have htaken := (List.sublist_append_left _ _).trans hlaw
    have hframes : (MicrophoneTask.received (ls.flatMap AudioLabel.heard)).Sublist
        ((ls.flatMap AudioLabel.rendered).flatMap frames) := by
      rw [received_taken]
      exact htaken.flatMap frames
    exact hsub.trans ((List.take_sublist _ _).trans hframes)
  · intro packet hmem
    exact MicrophoneTask.packet_length hmic hmem

/-! ## No influence -/

omit [F32 F] [CastI16 F] [DecidableEq F] in
/-- Everything but the USB side is the same. -/
structure SameDac (s u : AudioPath F) : Prop where
  firmware : u.firmware = s.firmware
  dsp : u.dsp = s.dsp
  main : u.main = s.main
  audio_channel : u.shared.audio_channel = s.shared.audio_channel
  audio_underruns : u.shared.audio_underruns = s.shared.audio_underruns
  audio_queue_min : u.shared.audio_queue_min = s.shared.audio_queue_min
  log_channel : u.shared.log_channel = s.shared.log_channel
  system_status_channel : u.shared.system_status_channel = s.shared.system_status_channel

omit [F32 F] [CastI16 F] [DecidableEq F] in
/-- Changes of the USB side alone. -/
theorem SameDac.usb (s : AudioPath F) (ch : BoundedList (AudioData F) 2) (on : Bool)
    (mic : MicrophoneTask.Microphone F) :
    SameDac s { s with
      shared := { s.shared with usb_audio_channel := ch, usb_audio_streaming := on }
      microphone := mic } :=
  ⟨rfl, rfl, rfl, rfl, rfl, rfl, rfl, rfl⟩

omit [F32 F] [CastI16 F] [DecidableEq F] in
/-- The moves that are not of the USB side. -/
def AudioLabel.notUsb : AudioLabel F → Bool
  | .microphone _ | .streaming _ => false
  | _ => true

omit [F32 F] [CastI16 F] [DecidableEq F] in
/-- The same state but for the USB side. -/
theorem SameDac.cases {s u : AudioPath F} (h : SameDac s u) :
    ∃ ch on mic, u = { s with
      shared := { s.shared with usb_audio_channel := ch, usb_audio_streaming := on }
      microphone := mic } := by
  obtain ⟨fw, dsp, ⟨audio, usb, under, low, log, status, on⟩, main, mic⟩ := u
  obtain ⟨rfl, rfl, rfl, rfl, rfl, rfl, rfl, rfl⟩ := h
  exact ⟨usb, on, mic, rfl⟩

/-- The USB side moves alone. -/
theorem SameDac.unseen {s s' u : AudioPath F} {l : AudioLabel F} (h : SameDac s u)
    (hl : AudioLabel.notUsb l = false) (hstep : s.step l = some s') : SameDac s' u := by
  cases step_moves hstep with
  | microphone hhear hmic =>
      obtain ⟨ch, rfl, -⟩ := hear_takes hhear
      exact ⟨h.firmware, h.dsp, h.main, h.audio_channel, h.audio_underruns, h.audio_queue_min,
        h.log_channel, h.system_status_channel⟩
  | streaming on =>
      exact ⟨h.firmware, h.dsp, h.main, h.audio_channel, h.audio_underruns, h.audio_queue_min,
        h.log_channel, h.system_status_channel⟩
  | _ => cases hl

/-- Any other move can be made whatever the USB side is like, and does the same. -/
theorem SameDac.seen {s s' u : AudioPath F} {l : AudioLabel F} (h : SameDac s u)
    (hl : AudioLabel.notUsb l = true) (hstep : s.step l = some s') :
    ∃ u', u.step l = some u' ∧ SameDac s' u' := by
  obtain ⟨ch, on, mic, rfl⟩ := h.cases
  cases step_moves hstep with
  | task hl' hstep' => exact ⟨_, Moves.step_eq (.task hl' hstep'), .usb _ _ _ _⟩
  | status hstatus hroom => exact ⟨_, Moves.step_eq (.status hstatus hroom), .usb _ _ _ _⟩
  | access hprocess hsend hstatus =>
      exact ⟨_, Moves.step_eq (.access hprocess hsend hstatus), .usb _ _ _ _⟩
  | process block us hpc hstatus =>
      exact ⟨_, Moves.step_eq (.process block us hpc hstatus), .usb _ _ _ _⟩
  | swap_underruns hstage =>
      exact ⟨_, Moves.step_eq (.swap_underruns hstage), .usb _ _ _ _⟩
  | swap_min hstage =>
      exact ⟨_, Moves.step_eq (.swap_min hstage), .usb _ _ _ _⟩
  | report hstage =>
      exact ⟨_, Moves.step_eq (.report hstage), .usb _ _ _ _⟩
  | send hstage hroom =>
      exact ⟨_, Moves.step_eq (.send hstage hroom), .usb _ _ _ _⟩
  | write hpc => exact ⟨_, Moves.step_eq (.write hpc), .usb _ _ _ _⟩
  | len hpc => exact ⟨_, Moves.step_eq (.len hpc), .usb _ _ _ _⟩
  | low_water hpc => exact ⟨_, Moves.step_eq (.low_water hpc), .usb _ _ _ _⟩
  | underrun hpc => exact ⟨_, Moves.step_eq (.underrun hpc), .usb _ _ _ _⟩
  | receive hpc htake =>
      exact ⟨_, Moves.step_eq (.receive hpc htake), .usb _ _ _ _⟩
  -- `try_send` succeeds or not, and is done either way
  | try_send hpc => exact ⟨_, Moves.step_eq (.try_send hpc), .usb _ _ _ _⟩
  | convert hpc => exact ⟨_, Moves.step_eq (.convert hpc), .usb _ _ _ _⟩
  | swap hpc hdma => exact ⟨_, Moves.step_eq (.swap hpc hdma), .usb _ _ _ _⟩
  | dma hdma hword => exact ⟨_, Moves.step_eq (.dma hdma hword), .usb _ _ _ _⟩
  | logger htake => exact ⟨_, Moves.step_eq (.logger htake), .usb _ _ _ _⟩
  | logger_status htake => exact ⟨_, Moves.step_eq (.logger_status htake), .usb _ _ _ _⟩
  | log_storage text hbusy => exact ⟨_, Moves.step_eq (.log_storage text hbusy), .usb _ _ _ _⟩
  | microphone hhear hmic => cases hl
  | streaming on => cases hl

/-- **The USB side has no influence.** Whatever the host and `microphone_task` do in a
run, and in whatever state they begin, the other moves can be made in the same order
without them, and lead to the same state of everything but the USB side. -/
theorem usb_never_disturbs {s t u : AudioPath F} {ls : List (AudioLabel F)}
    (h : run step s ls = some t) (hu : SameDac s u) :
    ∃ v, run step u (ls.filter AudioLabel.notUsb) = some v ∧ SameDac t v :=
  run_erase h (fun _ _ _ _ hR hl hstep => hR.unseen hl hstep)
    (fun _ _ _ _ hR hl hstep => hR.seen hl hstep) hu

/-- The first packet of a block at full scale. -/
theorem usb_hears_in_order_packet : ∃ (ls : List (AudioLabel ℝ)) (t : AudioPath ℝ),
    run step (atBoot (default_preset.map F32.lit)) ls = some t
      ∧ ls.flatMap AudioLabel.rendered = [Vector.replicate MicrophoneTask.BLOCK_SIZE 1]
      ∧ MicrophoneTask.packets (ls.flatMap AudioLabel.heard)
        = [(List.replicate 48 ((1 : ℝ), (1 : ℝ))).flatMap MicrophoneTask.encode] := by
  obtain ⟨packet, t, ls, hrun, hrendered, -, -, hheard⟩ := first_packet (F := ℝ)
    (default_preset.map F32.lit) (Vector.replicate MicrophoneTask.BLOCK_SIZE 1)
  obtain ⟨sent, hsub, hsent, hlength⟩ := usb_hears_in_order (atBoot_boot _) hrun
  have hpackets : MicrophoneTask.packets (ls.flatMap AudioLabel.heard) = [packet] := by
    rw [hheard]
    rfl
  rw [hrendered, List.flatMap_singleton, MicrophoneTask.frames_replicate] at hsub
  rw [hpackets, List.flatten_singleton] at hsent
  rw [hpackets, List.forall_mem_singleton] at hlength
  -- so many frames of the block, and all of them are the same
  obtain ⟨n, -, rfl⟩ := List.sublist_replicate_iff.mp hsub
  rw [hsent, MicrophoneTask.encoded_length, List.length_replicate] at hlength
  obtain rfl : n = 48 := by omega
  exact ⟨ls, t, hrun, hrendered, by rw [hpackets, hsent]⟩

/-- The same with and without a host that opens the stream and gets a packet. -/
theorem usb_never_disturbs_packet : ∃ (ls : List (AudioLabel ℝ)) (packet : List UInt8)
    (t v : AudioPath ℝ),
    run step (atBoot (default_preset.map F32.lit)) ls = some t
      ∧ MicrophoneTask.packets (ls.flatMap AudioLabel.heard) = [packet]
      ∧ run step (atBoot (default_preset.map F32.lit)) (ls.filter AudioLabel.notUsb) = some v
      ∧ SameDac t v := by
  obtain ⟨packet, t, ls, hrun, -, -, -, hheard⟩ := first_packet (F := ℝ)
    (default_preset.map F32.lit) (Vector.replicate MicrophoneTask.BLOCK_SIZE 1)
  obtain ⟨v, hv, hsame⟩ := usb_never_disturbs hrun ⟨rfl, rfl, rfl, rfl, rfl, rfl, rfl, rfl⟩
  exact ⟨ls, packet, t, v, hrun, by rw [hheard]; rfl, hv, hsame⟩

end AudioPath

end PicoDsp
