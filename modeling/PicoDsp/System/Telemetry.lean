/-
The reports of core1 about the audio path (`tasks/core0.rs`, `tasks/core1.rs`).

`main_task` counts underruns and lowers a low-water mark on one core, and the DSP loop
swaps both out on the other. Every underrun is in exactly one report, the low-water mark
of a report is that of the rounds since the report before, and so is its peak; and there
is one report for every 375 blocks. A report can be lost only in `LOG_CHANNEL`, with all
it says.

The counter is read out by a swap and the report made two steps later, with the
other core moving in between. So the balance of underruns has four terms
(`underruns_balance`): those in reports, those in the counter, those swapped out and in the
hand of core1, and one that `main_task` has seen and counts next. It holds modulo
`2 ^ 32`, as the counter does. The peak and the low-water mark are registers with a
reset (`RunBy.register`), whose windows are different: the mark is swapped out, the
peak is cleared by the report itself, and between the two a round of `main_task` falls into
the next window of the one and into none of the other.

When a report is due is a remainder of the index of the block, which counts frames in 64
bits. It is exact as long as fewer than `2 ^ 57` blocks were sent (`report_due_iff`), and at
375 blocks a second that takes some twelve million years.

`reports_exact` says it from two sides. What occurs is right: whenever a report is made,
its figures are those of its windows. And what is right occurs: a block that is sent has its
report if and only if its number is a multiple of 375, counted between the block before it
and itself. Of the two the second is what a loop that never reports would violate.
-/
import PicoDsp.System.AudioStream
import Mathlib.Data.List.DropRight
import Mathlib.Data.UInt

set_option autoImplicit false

namespace PicoDsp

open Lib Transition

/-! ## What is counted -/

namespace AudioLabel

variable {F : Type}

/-- The fill levels at which `main_task` lowers the low-water mark. -/
def fills : AudioLabel F → List UInt32
  | .main (.low_water fill) => [fill]
  | _ => []

/-- The durations that the DSP loop measures. -/
def durations : AudioLabel F → List UInt64
  | .core1 (.process _ us) => [us]
  | _ => []

def reports : AudioLabel F → List (LogData F)
  | .core1 (.report data) => [data]
  | _ => []

/-- A step that renders nothing measures nothing. -/
theorem durations_nil {l : AudioLabel F} (h : l.rendered = []) : l.durations = [] := by
  unfold rendered at h
  split at h
  · cases h
  · rename_i hother
    unfold durations
    split
    · exact absurd rfl (hother _ _)
    · rfl

/-- The rounds that find `AUDIO_CHANNEL` empty. -/
def empties : AudioLabel F → UInt32
  | .main (.low_water fill) => if fill = 0 then 1 else 0
  | _ => 0

/-- The underruns that are reported. -/
def reported : AudioLabel F → UInt32
  | .core1 (.report data) => data.underruns
  | _ => 0

def isReport : AudioLabel F → Bool
  | .core1 (.report _) => true
  | _ => false

def isSwap : AudioLabel F → Bool
  | .core1 (.swap_min _) => true
  | _ => false

end AudioLabel

namespace AudioPath

section

variable {F : Type}

/-- The underruns that a stage has swapped out. -/
def inHand : Option DspLoop.Stage → UInt32
  | some (.swap_min underruns) | some (.log underruns _) => underruns
  | _ => 0

/-- An underrun that has been seen and is counted next. -/
def seen (m : MainTask F) : UInt32 :=
  match m.pc with
  | .fetch_add => 1
  | _ => 0

/-- The underruns that are in no report yet. -/
def unreported (s : AudioPath F) : UInt32 :=
  inHand s.stage + (s.shared.audio_underruns + seen s.main)

end

variable {F : Type} [F32 F]

variable [CastI16 F] [DecidableEq F]

/-- **No underrun is counted twice or lost between the two cores.** -/
theorem underruns_balance {s s' : AudioPath F} {l : AudioLabel F} (hmoves : Moves s l s') :
    l.reported + s'.unreported = s.unreported + l.empties := by
  have hsame : ∀ t : AudioPath F, inHand t.stage = inHand s.stage →
      t.shared.audio_underruns = s.shared.audio_underruns → seen t.main = seen s.main →
      0 + t.unreported = s.unreported + 0 := by
    intro t hstage hunder hseen
    rw [unreported, hstage, hunder, hseen, zero_add, add_zero]
    rfl
  -- the places of `main_task` where nothing is seen
  have hblind : ∀ t : AudioPath F, t.stage = s.stage →
      t.shared.audio_underruns = s.shared.audio_underruns → seen t.main = 0 → seen s.main = 0 →
      0 + t.unreported = s.unreported + 0 := fun t hstage hunder hafter hbefore =>
    hsame t (congrArg inHand hstage) hunder (hafter.trans hbefore.symm)
  cases hmoves with
  | @task l firmware hl hstep =>
      refine hsame _ ?_ rfl rfl
      rw [stage_task hl hstep]
  | status hstatus hroom => exact hsame _ rfl rfl rfl
  | access hprocess hsend hstatus =>
      refine hsame _ ?_ rfl rfl
      rw [stage_none hsend, stage_advance hprocess]
  | process block us hpc hstatus =>
      refine hsame _ ?_ rfl rfl
      rw [stage_process hpc, stage_none (s := s) (by rw [hpc]; exact nofun)]
      show inHand (some (if DspLoop.report_due s.dsp.frame_index then .swap_underruns else .ready)) = 0
      split
      · rfl
      · rfl
  | swap_underruns hstage =>
      -- from the counter into the hands of the DSP loop
      have hhand : inHand (AudioPath.stage { s with
          dsp := { s.dsp with stage := .swap_min s.shared.audio_underruns }
          shared := { s.shared with audio_underruns := 0 } }) = s.shared.audio_underruns :=
        congrArg inHand (stage_within hstage _ _)
      show 0 + (inHand (AudioPath.stage _) + (0 + seen s.main)) = s.unreported + 0
      rw [hhand, unreported, hstage]
      show 0 + (s.shared.audio_underruns + (0 + seen s.main))
        = 0 + (s.shared.audio_underruns + seen s.main) + 0
      rw [zero_add, zero_add, zero_add, add_zero]
  | @swap_min underruns hstage =>
      refine hsame _ ?_ rfl rfl
      rw [hstage, stage_within hstage]
      rfl
  | @report underruns queue_min hstage =>
      -- out of the hands of the DSP loop into the report
      have hhand : inHand (AudioPath.stage { s with
          dsp := { s.dsp with stage := .ready, peak_duration_us := 0 }
          shared := { s.shared with
            log_channel := s.shared.log_channel.offer (s.dsp.log_data underruns queue_min) } }) = 0 :=
        congrArg inHand (stage_within hstage _ _)
      show underruns + (inHand (AudioPath.stage _) + (s.shared.audio_underruns + seen s.main))
        = s.unreported + 0
      rw [hhand, unreported, hstage, zero_add, add_zero]
      rfl
  | send hstage hroom =>
      refine hsame _ ?_ rfl rfl
      have hafter := stage_sent (stage_some hstage).1
        { s.dsp with frame_index := s.dsp.frame_index + 256 / 2 }
      rw [hstage]
      exact (congrArg inHand hafter).trans rfl
  | write hpc => exact hblind _ rfl rfl rfl (by rw [seen, hpc])
  | len hpc => exact hblind _ rfl rfl rfl (by rw [seen, hpc])
  | @low_water fill hpc =>
      -- an empty channel is seen
      have hbefore : seen s.main = 0 := by rw [seen, hpc]
      show 0 + (inHand s.stage + (s.shared.audio_underruns + _)) = s.unreported + _
      rw [unreported, hbefore]
      by_cases hfill : fill = 0
      · simp only [seen, AudioLabel.empties, if_pos hfill]
        rw [zero_add, add_zero, add_assoc]
      · simp only [seen, AudioLabel.empties, if_neg hfill]
        rw [zero_add, add_zero, add_zero]
  | underrun hpc =>
      -- and counted
      have hbefore : seen s.main = 1 := by rw [seen, hpc]
      show 0 + (inHand s.stage + (s.shared.audio_underruns + 1 + 0)) = s.unreported + 0
      rw [unreported, hbefore, zero_add, add_zero, add_zero]
  | receive hpc htake => exact hblind _ rfl rfl rfl (by rw [seen, hpc])
  | try_send hpc => exact hblind _ rfl rfl rfl (by rw [seen, hpc])
  | @convert block i hpc =>
      refine hblind _ rfl rfl ?_ (by rw [seen, hpc])
      rcases MainTask.convert_pc s.main block i with ⟨_, hpc'⟩ | ⟨-, hpc'⟩
      · simp only [seen, hpc']
      · simp only [seen, hpc']
  | swap hpc hdma => exact hblind _ rfl rfl rfl (by rw [seen, hpc])
  | dma hdma hword => exact hsame _ rfl rfl rfl
  | microphone hhear hstep =>
      obtain ⟨ch, rfl, -⟩ := hear_takes hhear
      exact hsame _ rfl rfl rfl
  | streaming on => exact hsame _ rfl rfl rfl
  | logger htake => exact hsame _ rfl rfl rfl
  | logger_status htake => exact hsame _ rfl rfl rfl
  | log_storage text hbusy => exact hsame _ rfl rfl rfl

/-! ## The windows -/

/-- The peak gathers the durations, and a report clears it. -/
theorem peak_moves {s s' : AudioPath F} {l : AudioLabel F} (hmoves : Moves s l s') :
    s'.dsp.peak_duration_us
      = if l.isReport then 0 else l.durations.foldl max s.dsp.peak_duration_us := by
  cases hmoves with
  | process block us hpc hstatus =>
      show (if us > s.dsp.peak_duration_us then us else s.dsp.peak_duration_us)
        = if s.dsp.peak_duration_us ≤ us then us else s.dsp.peak_duration_us
      by_cases hlt : s.dsp.peak_duration_us < us
      · rw [if_pos hlt, if_pos (UInt64.le_of_lt hlt)]
      · rw [if_neg hlt]
        by_cases hle : s.dsp.peak_duration_us ≤ us
        · rw [if_pos hle]
          exact UInt64.le_antisymm hle (UInt64.not_lt.mp hlt)
        · rw [if_neg hle]
  | _ => rfl

/-- The low-water mark gathers the fill levels, and a swap clears it. -/
theorem low_moves {s s' : AudioPath F} {l : AudioLabel F} (hmoves : Moves s l s') :
    s'.shared.audio_queue_min
      = if l.isSwap then 0xFFFFFFFF else l.fills.foldl min s.shared.audio_queue_min := by
  cases hmoves with
  | microphone hhear hstep =>
      obtain ⟨ch, rfl, -⟩ := hear_takes hhear
      rfl
  | _ => rfl

/-- A block that is sent moves the index on by its frames. -/
theorem index_moves {s s' : AudioPath F} {l : AudioLabel F} (hmoves : Moves s l s') :
    s'.dsp.frame_index = s.dsp.frame_index + if l.isSend then 128 else 0 := by
  cases hmoves with
  | send hstage hroom => rfl
  | _ => exact (UInt64.add_zero _).symm

/-- What lies between the swap of the low-water mark and its report. -/
structure Reports (past : List (AudioLabel F)) (s : AudioPath F) : Prop where
  fill : ∀ fill, s.main.pc = .fetch_min fill → fill.toNat ≤ 4
  fills : ∀ fill ∈ past.flatMap AudioLabel.fills, fill.toNat ≤ 4
  index : s.dsp.frame_index.toNat = 128 * (past.filter AudioLabel.isSend).length % 2 ^ 64
  log : ∀ underruns queue_min, s.stage = some (.log underruns queue_min) →
    ∃ a b, past = a ++ .core1 (.swap_min queue_min) :: b ∧ ∀ l ∈ b, l.isSwap = false

/-- A fill level is at most the capacity of the channel. -/
theorem fill_moves {s s' : AudioPath F} {l : AudioLabel F} (hmoves : Moves s l s')
    (h : ∀ fill, s.main.pc = .fetch_min fill → fill.toNat ≤ 4) :
    (∀ fill, s'.main.pc = .fetch_min fill → fill.toNat ≤ 4)
      ∧ ∀ fill ∈ l.fills, fill.toNat ≤ 4 := by
  have hnone : ∀ fill ∈ ([] : List UInt32), fill.toNat ≤ 4 := fun fill hmem =>
    absurd hmem List.not_mem_nil
  cases hmoves with
  -- the channel has room for four blocks
  | len hpc =>
      refine ⟨?_, hnone⟩
      intro fill hfill
      cases hfill
      rw [UInt32.toNat_ofNat']
      exact Nat.le_trans (Nat.mod_le _ _) s.shared.audio_channel.bound
  | @low_water fill hpc =>
      refine ⟨?_, ?_⟩
      · intro fill' hfill'
        change (if fill = 0 then (.fetch_add : MainTask.Pc F) else .receive) = _ at hfill'
        split at hfill'
        · cases hfill'
        · cases hfill'
      · intro fill' hmem
        rw [List.mem_singleton.mp hmem]
        exact h fill hpc
  | @convert block i hpc =>
      refine ⟨?_, hnone⟩
      intro fill hfill
      change (s.main.convert block i).pc = _ at hfill
      rcases MainTask.convert_pc s.main block i with ⟨_, hpc'⟩ | ⟨-, hpc'⟩
      · rw [hpc'] at hfill
        cases hfill
      · rw [hpc'] at hfill
        cases hfill
  | write hpc => exact ⟨nofun, hnone⟩
  | underrun hpc => exact ⟨nofun, hnone⟩
  | receive hpc htake => exact ⟨nofun, hnone⟩
  | try_send hpc => exact ⟨nofun, hnone⟩
  | swap hpc hdma => exact ⟨nofun, hnone⟩
  | _ => exact ⟨h, hnone⟩

/-- The figures of a report that is to be made are those of the last swap. -/
theorem log_moves {s s' : AudioPath F} {l : AudioLabel F} (hmoves : Moves s l s')
    {underruns queue_min : UInt32} (h : s'.stage = some (.log underruns queue_min)) :
    l = .core1 (.swap_min queue_min)
      ∨ (l.isSwap = false ∧ s.stage = some (.log underruns queue_min)) := by
  cases hmoves with
  | @task l firmware hl hstep =>
      refine Or.inr ⟨rfl, ?_⟩
      rw [← h, stage_task hl hstep]
  | access hprocess hsend hstatus =>
      rw [stage_advance hprocess] at h
      cases h
  -- a report that begins is at its first stage
  | process block us hpc hstatus =>
      rw [stage_process hpc] at h
      have hstage := Option.some.inj h
      change (if DspLoop.report_due s.dsp.frame_index then DspLoop.Stage.swap_underruns
        else .ready) = _ at hstage
      split at hstage
      · cases hstage
      · cases hstage
  | swap_underruns hstage =>
      rw [stage_within hstage] at h
      cases h
  | swap_min hstage =>
      rw [stage_within hstage] at h
      cases h
      exact Or.inl rfl
  | report hstage =>
      rw [stage_within hstage] at h
      cases h
  | send hstage hroom =>
      have hafter := stage_sent (stage_some hstage).1
        { s.dsp with frame_index := s.dsp.frame_index + 256 / 2 }
      cases hafter.symm.trans h
  | microphone hhear hstep =>
      obtain ⟨ch, rfl, -⟩ := hear_takes hhear
      exact Or.inr ⟨rfl, h⟩
  | _ => exact Or.inr ⟨rfl, h⟩

/-- **The step lemma of the windows.** -/
theorem Reports.step {past : List (AudioLabel F)} {s s' : AudioPath F} {l : AudioLabel F}
    (h : Reports past s) (hmoves : Moves s l s') : Reports (past ++ [l]) s' where
  fill := (fill_moves hmoves h.fill).1
  fills := by
    rw [List.flatMap_append, List.flatMap_singleton]
    exact List.forall_mem_append.mpr ⟨h.fills, (fill_moves hmoves h.fill).2⟩
  index := by
    have hindex := h.index
    rw [index_moves hmoves, UInt64.toNat_add, List.filter_append, List.length_append]
    cases hl : l.isSend with
    | true =>
        rw [if_pos rfl, List.filter_cons_of_pos hl, List.filter_nil, List.length_singleton]
        show (_ + 128) % 2 ^ 64 = _
        omega
    | false =>
        rw [if_neg Bool.false_ne_true, List.filter_cons_of_neg (by rw [hl]; exact nofun),
          List.filter_nil, List.length_nil]
        show (_ + 0) % 2 ^ 64 = _
        omega
  log := by
    intro underruns queue_min hlog
    rcases log_moves hmoves hlog with rfl | ⟨hl, hstage⟩
    · exact ⟨past, [], rfl, fun l hmem => absurd hmem List.not_mem_nil⟩
    · obtain ⟨a, b, rfl, hb⟩ := h.log underruns queue_min hstage
      refine ⟨a, b ++ [l], List.append_assoc _ _ _, ?_⟩
      exact List.forall_mem_append.mpr ⟨hb, List.forall_mem_singleton.mpr hl⟩

/-! ## The schedule -/

omit [F32 F] [CastI16 F] [DecidableEq F] in
/-- The blocks that have been sent. -/
def sent (past : List (AudioLabel F)) : ℕ := (past.filter AudioLabel.isSend).length

omit [F32 F] [CastI16 F] [DecidableEq F] in
/-- The reports that have been made. -/
def made (past : List (AudioLabel F)) : ℕ := (past.filter AudioLabel.isReport).length

omit [F32 F] [CastI16 F] [DecidableEq F] in
/-- A report with every 375th block: made when the block is ready to be sent, and not
before it is rendered. -/
def OnTime (n r : ℕ) : Option DspLoop.Stage → Prop
  | none => r = (n + 374) / 375
  | some .ready => r = n / 375 + 1
  | some _ => 375 ∣ n ∧ r = n / 375

omit [F32 F] [CastI16 F] [DecidableEq F] in
/-- One step more. -/
theorem sent_snoc (past : List (AudioLabel F)) (l : AudioLabel F) :
    sent (past ++ [l]) = sent past + if l.isSend then 1 else 0 := by
  unfold sent
  rw [List.filter_append, List.length_append]
  cases hl : l.isSend with
  | true => simp [hl]
  | false => simp [hl]

omit [F32 F] [CastI16 F] [DecidableEq F] in
/-- One step more. -/
theorem made_snoc (past : List (AudioLabel F)) (l : AudioLabel F) :
    made (past ++ [l]) = made past + if l.isReport then 1 else 0 := by
  unfold made
  rw [List.filter_append, List.length_append]
  cases hl : l.isReport with
  | true => simp [hl]
  | false => simp [hl]

omit [F32 F] [CastI16 F] [DecidableEq F] in
/-- Up to the 2 ^ 57th block, where the index wraps. -/
theorem report_due_iff {index : UInt64} {n : ℕ} (h : index.toNat = 128 * n % 2 ^ 64)
    (hn : n < 2 ^ 57) : DspLoop.report_due index = true ↔ 375 ∣ n := by
  unfold DspLoop.report_due
  rw [decide_eq_true_iff, UInt64.lt_iff_toNat_lt, UInt64.toNat_mod, h]
  have hwrap : 128 * n % 2 ^ 64 = 128 * n := Nat.mod_eq_of_lt (by omega)
  have hround : 128 * n % 48000 = 128 * (n % 375) := Nat.mul_mod_mul_left 128 n 375
  show 128 * n % 2 ^ 64 % 48000 < 128 ↔ 375 ∣ n
  rw [hwrap, hround]
  omega

/-- **The step lemma of the schedule**: a report is made on the way from `process` to `send`,
and only if the block is due. -/
theorem OnTime.step {past : List (AudioLabel F)} {s s' : AudioPath F} {l : AudioLabel F}
    (h : OnTime (sent past) (made past) s.stage) (hreports : Reports past s)
    (hn : sent past < 2 ^ 57) (hmoves : Moves s l s') :
    OnTime (sent (past ++ [l])) (made (past ++ [l])) s'.stage := by
  -- for the moves that neither send nor report, and stay in their stage
  have hsame : l.isSend = false → l.isReport = false → s'.stage = s.stage →
      OnTime (sent (past ++ [l])) (made (past ++ [l])) s'.stage := by
    intro hsend hreport hstage
    rw [sent_snoc, made_snoc, hsend, hreport, hstage]
    exact h
  cases hmoves with
  | task hl hstep => exact hsame rfl rfl (stage_task hl hstep)
  | access hprocess hsend hstatus =>
      refine hsame rfl rfl ?_
      rw [stage_none hsend, stage_advance hprocess]
  | process block us hpc hstatus =>
      rw [stage_none (s := s) (by rw [hpc]; exact nofun)] at h
      have hdue := report_due_iff hreports.index hn
      rw [sent_snoc, made_snoc, stage_process hpc]
      change made past = (sent past + 374) / 375 at h
      show OnTime (sent past) (made past) (some (if DspLoop.report_due s.dsp.frame_index then
        DspLoop.Stage.swap_underruns else .ready))
      by_cases hyes : DspLoop.report_due s.dsp.frame_index = true
      · rw [if_pos hyes]
        have hdvd : 375 ∣ sent past := hdue.mp hyes
        exact ⟨hdvd, by omega⟩
      · rw [if_neg hyes]
        have hdvd : ¬ 375 ∣ sent past := fun hd => hyes (hdue.mpr hd)
        show made past = sent past / 375 + 1
        omega
  | swap_underruns hstage =>
      rw [hstage] at h
      rw [sent_snoc, made_snoc, stage_within hstage]
      exact h
  | swap_min hstage =>
      rw [hstage] at h
      rw [sent_snoc, made_snoc, stage_within hstage]
      exact h
  | report hstage =>
      rw [hstage] at h
      rw [sent_snoc, made_snoc, stage_within hstage]
      have hready : made past + 1 = sent past / 375 + 1 := congrArg (· + 1) h.2
      exact hready
  | send hstage hroom =>
      have hafter := stage_sent (stage_some hstage).1
        { s.dsp with frame_index := s.dsp.frame_index + 256 / 2 }
      rw [hstage] at h
      rw [sent_snoc, made_snoc]
      change made past = sent past / 375 + 1 at h
      have hnext : made past + 0 = (sent past + 1 + 374) / 375 := by omega
      exact hafter ▸ hnext
  | microphone hhear hstep =>
      obtain ⟨ch, rfl, -⟩ := hear_takes hhear
      exact hsame rfl rfl rfl
  | _ => exact hsame rfl rfl rfl

/-! ## Every run -/

section Run

variable {p : Preset F} {s t : AudioPath F}

omit [CastI16 F] [DecidableEq F] in
/-- At boot no block is under way. -/
theorem Boot.stage_none {s : AudioPath F} (h : Boot p s) : s.stage = none := by
  apply AudioPath.stage_none
  rw [h.firmware.core1]
  exact nofun

/-- Both invariants, over every run. -/
theorem reports_run {ls : List (AudioLabel F)} (hs : Boot p s) (h : run step s ls = some t) :
    Reports ls t ∧ (sent ls < 2 ^ 57 → OnTime (sent ls) (made ls) t.stage) := by
  have hrun := RunBy.of_run (P := fun _ => True) h fun _ _ => trivial
  refine @RunBy.invariant_trace _ _ _ _ (fun past s => Reports past s
    ∧ (sent past < 2 ^ 57 → OnTime (sent past) (made past) s.stage)) _ _ _ hrun ?_ ?_
  · rintro past u l v ⟨hreports, htime⟩ - hstep
    have hmoves := step_moves hstep
    refine ⟨hreports.step hmoves, fun hn => ?_⟩
    have hbefore : sent past < 2 ^ 57 := by
      rw [sent_snoc] at hn
      omega
    exact (htime hbefore).step hreports hbefore hmoves
  · refine ⟨⟨?_, ?_, ?_, ?_⟩, ?_⟩
    · rw [hs.main]
      exact nofun
    · exact fun fill hmem => absurd hmem List.not_mem_nil
    · rw [hs.dsp]
      rfl
    · rw [hs.stage_none]
      exact nofun
    · rw [hs.stage_none]
      intro _
      show 0 = (0 + 374) / 375
      rfl

/-- The low-water mark is the least fill level since the last swap. -/
theorem low_run {ls : List (AudioLabel F)} (hs : Boot p s) (h : run step s ls = some t) :
    t.shared.audio_queue_min
      = ((ls.rtakeWhile fun l => !l.isSwap).flatMap AudioLabel.fills).foldl min 0xFFFFFFFF :=
  (RunBy.of_run (P := fun _ => True) h fun _ _ => trivial).register
    (fun s => s.shared.audio_queue_min) (fun _ _ _ _ hstep => low_moves (step_moves hstep))
    hs.audio_queue_min

/-- The peak is the longest duration since the last report. -/
theorem peak_run {ls : List (AudioLabel F)} (hs : Boot p s) (h : run step s ls = some t) :
    t.dsp.peak_duration_us
      = ((ls.rtakeWhile fun l => !l.isReport).flatMap AudioLabel.durations).foldl max 0 := by
  refine (RunBy.of_run (P := fun _ => True) h fun _ _ => trivial).register
    (fun s => s.dsp.peak_duration_us) (fun _ _ _ _ hstep => peak_moves (step_moves hstep)) ?_
  rw [hs.dsp]
  rfl

omit [F32 F] [CastI16 F] [DecidableEq F] in
/-- The lowest of some fill levels. -/
theorem foldl_min_le {fill : UInt32} {fills : List UInt32} (hfill : fill.toNat ≤ 4)
    (h : ∀ x ∈ fills, x.toNat ≤ 4) : (fills.foldl min fill).toNat ≤ 4 := by
  induction fills generalizing fill with
  | nil => exact hfill
  | cons x fills ih =>
      rw [List.forall_mem_cons] at h
      refine ih ?_ h.2
      show (if fill ≤ x then fill else x).toNat ≤ 4
      split
      · exact hfill
      · exact h.1

omit [F32 F] [CastI16 F] [DecidableEq F] in
/-- A low-water mark is written as 0 where no fill level was seen. -/
theorem low_water_written {fills : List UInt32} (h : ∀ fill ∈ fills, fill.toNat ≤ 4) :
    (if fills.foldl min 0xFFFFFFFF = 0xFFFFFFFF then 0 else fills.foldl min 0xFFFFFFFF)
      = (fills.min?).getD 0 := by
  cases fills with
  | nil => rfl
  | cons fill fills =>
      rw [List.forall_mem_cons] at h
      have hfirst : min 0xFFFFFFFF fill = fill := by
        refine if_neg fun hle => ?_
        have hle' := UInt32.le_iff_toNat_le.mp hle
        have hbig : (0xFFFFFFFF : UInt32).toNat = 4294967295 := rfl
        omega
      have hsmall := foldl_min_le h.1 h.2
      rw [List.foldl_cons, hfirst, List.min?_cons', Option.getD_some, if_neg]
      intro heq
      rw [heq] at hsmall
      exact absurd hsmall (by decide)

/-- When a block has just been sent, every report so far has been made with one of the
blocks sent; until the next one is sent that stays so. -/
theorem round_begins {pre : List (AudioLabel F)} (hs : Boot p s) (h : run step s pre = some t)
    (hn : sent pre < 2 ^ 57) :
    made (pre.rdropWhile fun l => !l.isSend) = (sent pre + 374) / 375 := by
  induction pre using List.reverseRecOn generalizing t with
  | nil =>
      rw [List.rdropWhile_nil]
      show 0 = (0 + 374) / 375
      rfl
  | append_singleton past l ih =>
      have htime := (reports_run hs h).2 hn
      obtain ⟨u, v, hpast, hstep, hlast⟩ := run_split h
      cases hlast
      rw [List.rdropWhile_concat]
      cases hl : l.isSend with
      | false =>
          rw [sent_snoc, hl] at hn ⊢
          exact ih hpast hn
      | true =>
          -- between two blocks there is no stage
          have hnone : t.stage = none := by
            cases step_moves hstep with
            | send hstage hroom => exact stage_sent (stage_some hstage).1 _
            | _ => cases hl
          rw [hnone] at htime
          exact htime

/-- When a block is ready to be sent, it has its report if it is a 375th one, and there is
no other since the block before it. -/
theorem round_reports {pre : List (AudioLabel F)} (hs : Boot p s) (h : run step s pre = some t)
    (hn : sent pre < 2 ^ 57) (hready : t.stage = some .ready) :
    made (pre.rtakeWhile fun l => !l.isSend) = if 375 ∣ sent pre then 1 else 0 := by
  have hbegin := round_begins hs h hn
  have htime := (reports_run hs h).2 hn
  rw [hready] at htime
  change made pre = sent pre / 375 + 1 at htime
  have hsplit : made pre = made (pre.rdropWhile fun l => !l.isSend)
      + made (pre.rtakeWhile fun l => !l.isSend) := by
    unfold made
    rw [← List.length_append, ← List.filter_append, List.rdropWhile_append_rtakeWhile]
  split
  · omega
  · omega

/-- What a report says of the rounds before it. -/
theorem report_content {pre post : List (AudioLabel F)} {data : LogData F} (hs : Boot p s)
    (h : run step s (pre ++ .core1 (.report data) :: post) = some t) :
    data.duration_us
        = ((pre.rtakeWhile fun l => !l.isReport).flatMap AudioLabel.durations).foldl max 0
      ∧ (∃ a b m, pre = a ++ .core1 (.swap_min m) :: b ∧ (∀ l ∈ b, l.isSwap = false)
        ∧ data.queue_min
          = (((a.rtakeWhile fun l => !l.isSwap).flatMap AudioLabel.fills).min?).getD 0)
      ∧ (sent pre < 2 ^ 57 → sent pre = 375 * made pre) := by
  obtain ⟨u, v, hpre, hreport, -⟩ := run_split h
  obtain ⟨hreports, htime⟩ := reports_run hs hpre
  cases step_moves hreport with
  | @report underruns queue_min hstage =>
      refine ⟨peak_run hs hpre, ?_, ?_⟩
      · obtain ⟨a, b, rfl, hb⟩ := hreports.log underruns queue_min hstage
        refine ⟨a, b, queue_min, rfl, hb, ?_⟩
        -- what was swapped out is what the rounds before had left
        obtain ⟨w, x, ha, hswap, -⟩ := run_split hpre
        have hlow : queue_min = w.shared.audio_queue_min := by
          cases step_moves hswap with
          | swap_min hstage => rfl
        have hfills : ∀ fill ∈ (a.rtakeWhile fun l => !l.isSwap).flatMap AudioLabel.fills,
            fill.toNat ≤ 4 := by
          intro fill hmem
          obtain ⟨l, hl, hfill⟩ := List.mem_flatMap.mp hmem
          refine (reports_run hs ha).1.fills fill (List.mem_flatMap.mpr ⟨l, ?_, hfill⟩)
          exact (List.rtakeWhile_suffix _ _).subset hl
        rw [← low_water_written hfills, ← low_run hs ha, ← hlow]
        rfl
      · intro hn
        have hdue := htime hn
        rw [hstage] at hdue
        obtain ⟨hdvd, hmade⟩ := hdue
        omega

/-- **The reports are exact.** A report carries the longest duration since the report
before, and the lowest fill level of the rounds between the last two swaps of the
low-water mark (0 where there was none). It comes with every 375th block and with no
other: between a block that is sent and the one before it there is one report if the
number of the block is a multiple of 375, and none if it is not. That is so until the
index wraps at the 2 ^ 57th block. -/
theorem reports_exact {ls : List (AudioLabel F)} (hs : Boot p s) (h : run step s ls = some t) :
    (∀ pre data post, ls = pre ++ .core1 (.report data) :: post →
      data.duration_us
          = ((pre.rtakeWhile fun l => !l.isReport).flatMap AudioLabel.durations).foldl max 0
        ∧ (∃ a b m, pre = a ++ .core1 (.swap_min m) :: b ∧ (∀ l ∈ b, l.isSwap = false)
          ∧ data.queue_min
            = (((a.rtakeWhile fun l => !l.isSwap).flatMap AudioLabel.fills).min?).getD 0)
        ∧ (sent pre < 2 ^ 57 → sent pre = 375 * made pre))
      ∧ ∀ pre block post, ls = pre ++ .core1 (.send block) :: post → sent pre < 2 ^ 57 →
        made (pre.rtakeWhile fun l => !l.isSend) = if 375 ∣ sent pre then 1 else 0 := by
  constructor
  · rintro pre data post rfl
    exact report_content hs h
  · rintro pre block post rfl hn
    obtain ⟨u, v, hpre, hsend, -⟩ := run_split h
    cases step_moves hsend with
    | send hstage hroom => exact round_reports hs hpre hn hstage

/-- **Every underrun is in exactly one report**, or still on its way there: counted and not
swapped yet, in the hand of core1 between the swap and the report, or seen by
`main_task` and not counted yet. The equation is one of the counter, so it holds modulo
`2 ^ 32`. -/
theorem underruns_reported {ls : List (AudioLabel F)} (hs : Boot p s)
    (h : run step s ls = some t) :
    (ls.map AudioLabel.reported).sum + t.unreported = (ls.map AudioLabel.empties).sum := by
  have hrun := RunBy.of_run (P := fun _ => True) h fun _ _ => trivial
  have hlaw := hrun.balances AudioLabel.reported AudioLabel.empties unreported
    fun _ _ _ _ hstep => underruns_balance (step_moves hstep)
  have hstart : s.unreported = 0 := by
    rw [unreported, hs.stage_none, hs.audio_underruns, hs.main]
    rfl
  rw [hstart, zero_add] at hlaw
  exact hlaw

end Run

/-! ## The first report -/

/-- A device comes up, and its first block, which takes 700 µs, has its report. -/
theorem reports_exact_first : ∃ (ks : List (AudioLabel ℝ)) (u m : UInt32) (data : LogData ℝ)
    (t : AudioPath ℝ),
    run step (atBoot (default_preset.map F32.lit))
        (ks ++ ([.core1 (.process (Vector.replicate _ 1) 700), .core1 (.swap_underruns u),
          .core1 (.swap_min m), .core1 (.report data), .core1 (.send (Vector.replicate _ 1))]
          : List (AudioLabel ℝ)))
      = some t
      ∧ data.duration_us = 700
      ∧ made (List.rtakeWhile (fun l => !l.isSend) (ks ++
          ([.core1 (.process (Vector.replicate _ 1) 700), .core1 (.swap_underruns u),
            .core1 (.swap_min m), .core1 (.report data)] : List (AudioLabel ℝ)))) = 1 := by
  set p : Preset ℝ := default_preset.map F32.lit with hp
  set block : AudioData ℝ := Vector.replicate MicrophoneTask.BLOCK_SIZE 1
  obtain ⟨s, u, m, data, t, ⟨ks, hks, hrendered, hsent, -⟩, hlast, -⟩ := sends_block p block 700
  set w : List (AudioLabel ℝ) :=
    [.core1 (.process block 700), .core1 (.swap_underruns u), .core1 (.swap_min m)] with hw
  have hrun : run step (atBoot p) (ks ++ (w ++ [.core1 (.report data), .core1 (.send block)]))
      = some t := run_trans hks hlast
  obtain ⟨hreport, hsend⟩ := reports_exact (atBoot_boot p) hrun
  refine ⟨ks, u, m, data, t, hrun, ?_, ?_⟩
  · -- before this one, no block has been rendered
    rw [(hreport (ks ++ w) data [.core1 (.send block)] (List.append_assoc _ _ _).symm).1]
    have hnone : ((ks.rtakeWhile fun l => !l.isReport).flatMap AudioLabel.durations) = [] := by
      refine List.flatMap_eq_nil_iff.mpr fun l hl => ?_
      have hquiet := List.flatMap_eq_nil_iff.mp hrendered l
        ((List.rtakeWhile_suffix _ _).subset hl)
      exact AudioLabel.durations_nil hquiet
    have hsplit : ((ks ++ w).rtakeWhile fun l => !l.isReport)
        = (ks.rtakeWhile fun l => !l.isReport) ++ w := by
      rw [hw, List.append_cons, List.append_cons _ (AudioLabel.core1 (.swap_underruns u)),
        List.rtakeWhile_concat_pos _ _ _ rfl, List.rtakeWhile_concat_pos _ _ _ rfl,
        List.rtakeWhile_concat_pos _ _ _ rfl, List.append_assoc, List.append_assoc]
      rfl
    rw [hsplit, List.flatMap_append, hnone]
    rfl
  · -- nor has one been sent
    have hfirst : sent (ks ++ (w ++ [.core1 (.report data)])) = 0 := by
      unfold sent
      rw [List.filter_append, List.length_append, hsent]
      rfl
    have hone := hsend (ks ++ (w ++ [.core1 (.report data)])) block [] (by simp [hw])
      (by rw [hfirst]; exact Nat.two_pow_pos 57)
    rw [hfirst] at hone
    exact hone

/-- The first round of `main_task` finds the channel empty. -/
theorem underruns_reported_first : ∃ t : AudioPath ℝ,
    run step (atBoot (default_preset.map F32.lit))
        [.main .turn, .main .turn, .main (.low_water 0), .main .underrun] = some t
      ∧ t.unreported = 1 := by
  set s : AudioPath ℝ := atBoot (default_preset.map F32.lit) with hs
  have hrun : ∃ t, run step s [.main .turn, .main .turn, .main (.low_water 0), .main .underrun]
      = some t := by
    rw [run_cons, Moves.step_eq (Moves.write (s := s) rfl), Option.bind_some, run_cons,
      Moves.step_eq (Moves.len rfl), Option.bind_some, run_cons, Moves.step_eq (Moves.low_water rfl),
      Option.bind_some, run_cons, Moves.step_eq (Moves.underrun rfl)]
    exact ⟨_, rfl⟩
  obtain ⟨t, ht⟩ := hrun
  have hsum := underruns_reported (atBoot_boot _) ht
  refine ⟨t, ht, ?_⟩
  change 0 + (0 + (0 + (0 + 0))) + t.unreported = 0 + (0 + (1 + (0 + 0))) at hsum
  rw [show (0 : UInt32) + (0 + (0 + (0 + 0))) = 0 from rfl, zero_add] at hsum
  exact hsum

end AudioPath

end PicoDsp
