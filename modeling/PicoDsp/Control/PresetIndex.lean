/-
Whether `current_preset_index` names the preset that was loaded last (`control/midi.rs`).

The index has two readers: the soft pedal selects its successor, and an accepted bank has
it loaded again. The task keeps no note of which preset it loaded, so the statement has
to take it from elsewhere: which record a load returned can be read off the flash
accesses (`lastLoaded`), and the boot loads preset 4.

What a message selects is `selected`. A soft-pedal gesture only ever selects an
index below the count. A Program Change stores its data byte before the load, so
an index without a preset stays behind when the load returns nothing.

A request has one of three outcomes (`Outcome`): nothing is selected, the selected
record is loaded, or the index has no preset. `request_outcome` gives the outcome of
each request, `requests_run` the run by induction, and the result is an equivalence over
whole runs (`index_names_loaded_iff`): at every prefix the index names the preset loaded
last, with all that hangs on it, exactly if no Program Change asks for an index without
a preset. For the direction from left to right it is enough to look at the first
such Program Change (`missed_of_program`): the index is wrong right behind it.

The bank is one whose records all lie inside of the flash, and it stays in place. A
record past its end halts the task, which is the subject of `Control/BankSafety.lean`.
-/
import PicoDsp.Control.BankSafety
import PicoDsp.Control.SysexReceiver

set_option autoImplicit false

namespace PicoDsp.MidiTask

open Lib Sysex Storage

variable {F : Type}

/-! ## Requests -/

/-- A channel-voice message, or a SysEx message that asks for a dump. -/
inductive Request
  | voice (status d1 d2 : UInt8)
  | dump

def Request.works : Request → List Work
  | .voice status d1 d2 => [.voice status d1 d2]
  | .dump => [SYSEX_START, SYSEX_ID, SYSEX_MODEL, CMD_DUMP_REQ, SYSEX_END].map Work.sysex_byte

/-- The index a request makes the task load. -/
def Request.selected (r : Request) (t : MidiTask F) : Option ℕ :=
  match r with
  | .voice status d1 d2 => MidiTask.selected (voiceKind status d1 d2) t
  | .dump => none

/-- The index a Program Change asks for. -/
def Request.program (r : Request) : Option ℕ :=
  match r with
  | .voice status d1 d2 =>
      match voiceKind status d1 d2 with
      | .program index => some index.toNat
      | _ => none
  | .dump => none

/-- The task working through a list of requests. -/
def handle_requests [F32 F] (rs : List Request) : Proc (MidiTask F) (Effect F) Unit :=
  Proc.each handle_work (rs.flatMap Request.works)

/-! ## The record that was read last -/

/-- The record at an address. -/
def recordIndex (addr : ℕ) : ℕ := (addr - recordAddr 0) / PRESET_SIZE

/-- The address of a record gives its index back. -/
theorem recordIndex_recordAddr (i : ℕ) : recordIndex (recordAddr i) = i := by
  simp only [recordIndex, recordAddr, addr_offset, PRESET_SIZE]
  omega

/-- The record a flash access reads. -/
def recordRead : Effect F → Option ℕ
  | .flash (.read addr len) => if len = PRESET_SIZE then some (recordIndex addr) else none
  | _ => none

/-- The preset that was loaded last; the task enters its loop with preset 4. -/
def lastLoaded (es : List (Effect F)) : ℕ := (es.filterMap recordRead).getLast?.getD 4

/-- Effects without a record among their reads. -/
theorem lastLoaded_append_none {es es' : List (Effect F)} (h : es'.filterMap recordRead = []) :
    lastLoaded (es ++ es') = lastLoaded es := by
  rw [lastLoaded, List.filterMap_append, h, List.append_nil]
  rfl

/-- Effects with one record among their reads. -/
theorem lastLoaded_append_one {es es' : List (Effect F)} {i : ℕ}
    (h : es'.filterMap recordRead = [i]) : lastLoaded (es ++ es') = i := by
  rw [lastLoaded, List.filterMap_append, h, List.getLast?_append]
  rfl

/-- Stores read no record. -/
theorem filterMap_controls (ops : List (ControlOp F)) :
    (ops.map Effect.control).filterMap recordRead = [] := by
  rw [List.filterMap_map]
  exact List.filterMap_eq_nil_iff.mpr fun _ _ => rfl

/-- Replies read no record. -/
theorem filterMap_packets (ps : List Packet) :
    (ps.map (Effect.write_packet (F := F))).filterMap recordRead = [] := by
  rw [List.filterMap_map]
  exact List.filterMap_eq_nil_iff.mpr fun _ _ => rfl

/-- The stores of a load read no record; its flash accesses do. -/
theorem filterMap_seed (p : Preset F) [F32 F] : (seedEffects p).filterMap recordRead = [] := by
  rw [seedEffects, List.filterMap_map]
  exact List.filterMap_eq_nil_iff.mpr fun _ _ => rfl

/-- The gate and the LED read no record. -/
theorem filterMap_follow [F32 F] (s : NoteStack) :
    (followEffects (F := F) s).filterMap recordRead = [] := by
  unfold followEffects
  cases s.active_note with
  | some k => exact filterMap_controls _
  | none =>
      rw [List.filterMap_append, filterMap_controls]
      rfl

/-- A read of the header is none of a record. -/
theorem recordRead_header : recordRead (Effect.flash (F := F) (.read ADDR_OFFSET 16)) = none := by
  rw [recordRead, if_neg (by decide)]

/-- A read at a record's address is one of that record. -/
theorem recordRead_record (i : ℕ) :
    recordRead (Effect.flash (F := F) (.read (recordAddr i) PRESET_SIZE)) = some i := by
  rw [recordRead, if_pos rfl, recordIndex_recordAddr]

/-- A load that succeeds reads exactly the record it returns. -/
theorem filterMap_hit (i : ℕ) :
    ((hitOps i).map (Effect.flash (F := F))).filterMap recordRead = [i] := by
  rw [hitOps, List.map_cons, List.map_cons, List.map_nil,
    List.filterMap_cons_none recordRead_header, List.filterMap_cons_some (recordRead_record i)]
  rfl

/-! ## One request -/

section Step

variable [F32 F]

/-- What a request does to the index and to what can be heard: nothing is
selected, the selected record is loaded, or the index has no preset. -/
inductive Outcome (r : Request) (t : MidiTask F) (es : List (Effect F)) (t' : MidiTask F) : Prop
  | quiet (hsel : r.selected t = none) (hread : es.filterMap recordRead = [])
      (hindex : t'.current_preset_index = t.current_preset_index)
  | hit (i : ℕ) (hsel : r.selected t = some i) (hlt : i < presetCount t.flash)
      (hread : es.filterMap recordRead = [i]) (hindex : t'.current_preset_index = i)
  | missed (i : ℕ) (hprogram : r.program = some i) (hge : presetCount t.flash ≤ i)
      (hread : es.filterMap recordRead = []) (hindex : t'.current_preset_index = i)

/-- The load of an index below the count. -/
theorem load_hit {t : MidiTask F} {i : ℕ} (hlt : i < presetCount t.flash) (hi : i ≤ LAST_RECORD) :
    ∃ es p, load_and_apply_preset i t = (es, some ((), { t with working_preset := p }))
      ∧ es.filterMap recordRead = [i] := by
  refine ⟨_, _, load_found hlt hi, ?_⟩
  rw [List.filterMap_append, filterMap_hit, List.filterMap_append, filterMap_seed]
  rfl

/-- The load of an index without a preset. -/
theorem load_miss {t : MidiTask F} {i : ℕ} (hge : presetCount t.flash ≤ i)
    (hpos : 0 < presetCount t.flash) :
    load_and_apply_preset i t = ([.flash (.read ADDR_OFFSET 16)], some ((), t)) := by
  rw [load_missing hge, missOps, if_neg (Nat.pos_iff_ne_zero.mp hpos)]
  rfl

/-- **A channel-voice message.** Only two kinds select anything, the soft pedal at the end
of a gesture and the Program Change, and only the second may miss. -/
theorem voice_outcome (status d1 d2 : UInt8) {t : MidiTask F} (hpos : 0 < presetCount t.flash)
    (hmax : presetCount t.flash ≤ LAST_RECORD) :
    ∃ es t', handle_work (.voice status d1 d2) t = (es, some ((), t'))
      ∧ Outcome (.voice status d1 d2) t es t' := by
  rw [handle_work, handle_voice_message_eq]
  -- a kind that selects nothing
  have hquiet : ∀ {es : List (Effect F)} {t' : MidiTask F},
      handleKind (voiceKind status d1 d2) t = (es, some ((), t')) →
      MidiTask.selected (voiceKind status d1 d2) t = none → es.filterMap recordRead = [] →
      t'.current_preset_index = t.current_preset_index →
      ∃ es t', handleKind (voiceKind status d1 d2) t = (es, some ((), t'))
        ∧ Outcome (.voice status d1 d2) t es t' :=
    fun hrun hsel hread hindex => ⟨_, _, hrun, .quiet hsel hread hindex⟩
  cases hkind : voiceKind status d1 d2 with
  | note_on key velocity =>
      rw [hkind] at hquiet
      obtain ⟨v, freq, hrun⟩ := note_on_run (F := F) key velocity t
      exact hquiet hrun rfl rfl rfl
  | note_off key =>
      rw [hkind] at hquiet
      exact hquiet (note_off_run key t) rfl (filterMap_follow _) rfl
  | mod_wheel value =>
      rw [hkind] at hquiet
      exact hquiet (controls_run _ t) rfl (filterMap_controls _) rfl
  | sustain value =>
      rw [hkind] at hquiet
      refine hquiet (sustain_run value t) rfl ?_ rfl
      split
      · rfl
      · exact filterMap_follow _
  | soft_pedal value =>
      rw [hkind] at hquiet
      by_cases htap : (t.notes.soft_pedal (64 ≤ value)).1 = true
      · have hsel : MidiTask.selected (.soft_pedal value) t = some (nextIndex t) := by
          rw [MidiTask.selected, if_pos ⟨htap, hpos⟩]
        have hlt : nextIndex t < presetCount t.flash := Nat.mod_lt _ hpos
        obtain ⟨es, p, hload, hread⟩ := load_hit (t := tapped value t) hlt (by omega)
        have hrun := soft_pedal_next htap hpos
        rw [hload] at hrun
        refine ⟨_, _, hrun, .hit (nextIndex t) ?_ hlt ?_ rfl⟩
        · rw [Request.selected, hkind]
          exact hsel
        · rw [List.filterMap_cons_none recordRead_header]
          exact hread
      · have hfalse : (t.notes.soft_pedal (64 ≤ value)).1 = false := Bool.eq_false_iff.mpr htap
        have hsel : MidiTask.selected (.soft_pedal value) t = none := by
          rw [MidiTask.selected, if_neg fun h => htap h.1]
        exact hquiet (soft_pedal_idle hfalse) hsel rfl rfl
  | all_off =>
      rw [hkind] at hquiet
      refine hquiet (all_off_run t) rfl ?_ rfl
      rw [List.filterMap_append, filterMap_controls]
      rfl
  | parameter cc value =>
      rw [hkind] at hquiet
      cases hcc : CcMap.apply_cc cc value t.working_preset with
      | continuous p a v => exact hquiet (parameter_continuous hcc) rfl rfl rfl
      | structural p => exact hquiet (parameter_structural hcc) rfl rfl rfl
      | unmapped => exact hquiet (parameter_unmapped hcc) rfl rfl rfl
  | program index =>
      have hprogram : (Request.voice status d1 d2).program = some index.toNat := by
        rw [Request.program, hkind]
      by_cases hlt : index.toNat < presetCount t.flash
      · obtain ⟨es, p, hload, hread⟩ := load_hit
          (t := { t with current_preset_index := index.toNat }) hlt (by omega)
        refine ⟨es, _, (program_run index t).trans hload, .hit index.toNat ?_ hlt hread rfl⟩
        rw [Request.selected, hkind]
        rfl
      · -- the index is stored although nothing is loaded
        have hge := Nat.not_lt.mp hlt
        have hload := load_miss (t := { t with current_preset_index := index.toNat }) hge hpos
        refine ⟨_, _, (program_run index t).trans hload, .missed index.toNat hprogram hge ?_ rfl⟩
        exact List.filterMap_cons_none recordRead_header
  | pitch_bend b1 b2 =>
      rw [hkind] at hquiet
      exact hquiet (controls_run _ t) rfl (filterMap_controls _) rfl
  | ignored =>
      rw [hkind] at hquiet
      exact hquiet (rfl : handleKind .ignored t = ([], some ((), t))) rfl rfl rfl

/-- The header of a dump request, whatever came before it. -/
theorem dump_call (rx : SysexRx) :
    (([SYSEX_START, SYSEX_ID, SYSEX_MODEL, CMD_DUMP_REQ].foldl (fun rx b => (rx.receive b).1)
      rx).receive SYSEX_END).2 = some ⟨CMD_DUMP_REQ, 0, false⟩ := by
  have hfollow := follows_receive (follows_receive (follows_receive (follows_start rx) SYSEX_ID)
    SYSEX_MODEL) CMD_DUMP_REQ
  simp only [List.foldl_cons, List.foldl_nil]
  rw [receive_call hfollow]
  rfl

/-- What is sent for a dump request. -/
def dumpEffects (f : Flash) : List (Effect F) :=
  .handle_sysex ⟨CMD_DUMP_REQ, 0, false⟩ :: .flash (.read ADDR_OFFSET STORAGE_IMAGE_SIZE)
    :: (send_sysex_dump (bank f)).map Effect.write_packet

/-- A dump request reads the bank and changes the receiver only. -/
theorem dump_outcome (t : MidiTask F) :
    ∃ rx, Proc.each handle_work Request.dump.works t
      = (dumpEffects t.flash, some ((), { t with rx := rx })) := by
  have hno : SYSEX_END ∉ [SYSEX_START, SYSEX_ID, SYSEX_MODEL, CMD_DUMP_REQ] := by decide
  have hbytes := bytes_run hno t
  have hcall := dump_call t.rx
  generalize [SYSEX_START, SYSEX_ID, SYSEX_MODEL, CMD_DUMP_REQ].foldl
    (fun rx b => (rx.receive b).1) t.rx = rx at hbytes hcall
  have hlast : handle_work (.sysex_byte SYSEX_END) { t with rx := rx }
      = handle_sysex ⟨CMD_DUMP_REQ, 0, false⟩ { t with rx := (rx.receive SYSEX_END).1 } :=
    sysex_byte_call (t := { t with rx := rx }) (b := SYSEX_END) hcall
  rw [handle_sysex_dump rfl, dump_req_run] at hlast
  have hsplit : Request.dump.works
      = [SYSEX_START, SYSEX_ID, SYSEX_MODEL, CMD_DUMP_REQ].map Work.sysex_byte
        ++ [.sysex_byte SYSEX_END] := rfl
  refine ⟨{ (rx.receive SYSEX_END).1 with image := imageOf (bank t.flash) }, ?_⟩
  rw [hsplit, Proc.each_append_some hbytes, Proc.each_singleton_run, hlast]
  rfl

omit [F32 F] in
/-- A dump reads the image as a whole, and no record. -/
theorem filterMap_dump (f : Flash) : (dumpEffects (F := F) f).filterMap recordRead = [] := by
  have hread : recordRead (Effect.flash (F := F) (.read ADDR_OFFSET STORAGE_IMAGE_SIZE))
      = none := by
    rw [recordRead, if_neg (by decide)]
  rw [dumpEffects, List.filterMap_cons_none rfl, List.filterMap_cons_none hread,
    filterMap_packets]

/-- **One request**, on a bank whose records all lie inside the flash. -/
theorem request_outcome (r : Request) {t : MidiTask F} (hpos : 0 < presetCount t.flash)
    (hmax : presetCount t.flash ≤ LAST_RECORD) :
    ∃ es t', handle_requests [r] t = (es, some ((), t')) ∧ t'.flash = t.flash
      ∧ Outcome r t es t' := by
  cases r with
  | voice status d1 d2 =>
      obtain ⟨es, t', hrun, hout⟩ := voice_outcome status d1 d2 hpos hmax
      refine ⟨es, t', ?_, (voice_frame hrun).1, hout⟩
      exact (Proc.each_singleton_run handle_work (.voice status d1 d2) t).trans hrun
  | dump =>
      obtain ⟨rx, hrun⟩ := dump_outcome t
      refine ⟨_, { t with rx := rx }, ?_, rfl, .quiet rfl (filterMap_dump t.flash) rfl⟩
      rw [handle_requests, List.flatMap_singleton]
      exact hrun

/-! ## A run of requests -/

/-- An effect that the live controls or core1 take notice of. -/
def Heard : Effect F → Prop
  | .control _ => True
  | .preset_send _ => True
  | _ => False

/-- Along a run: the index is that of the last load, the next gesture selects its
successor, and a selection that finds no preset leaves the index, the mirror, the
live controls and the channel alone. -/
def IndexNamesLoaded (t : MidiTask F) (rs : List Request) : Prop :=
  ∀ pre post, rs = pre ++ post → ∃ es u, handle_requests pre t = (es, some ((), u))
    ∧ u.current_preset_index = lastLoaded es
    ∧ (∀ value, (u.notes.soft_pedal (64 ≤ value)).1 = true →
        selected (.soft_pedal value) u = some ((lastLoaded es + 1) % presetCount u.flash))
    ∧ ∀ r post', post = r :: post' → ∀ i, r.selected u = some i →
        (load_preset i u.flash).2 = some (none, u.flash) →
        ∃ fs v, handle_requests [r] u = (fs, some ((), v))
          ∧ v.current_preset_index = u.current_preset_index
          ∧ v.working_preset = u.working_preset ∧ ∀ e ∈ fs, ¬ Heard e

/-- One request more, at the end of a run. -/
theorem requests_snoc {rs : List Request} {r : Request} {t u v : MidiTask F}
    {es fs : List (Effect F)} (h : handle_requests rs t = (es, some ((), u)))
    (hr : handle_requests [r] u = (fs, some ((), v))) :
    handle_requests (rs ++ [r]) t = (es ++ fs, some ((), v)) := by
  rw [handle_requests, List.flatMap_append, Proc.each_append_some h]
  rw [handle_requests] at hr
  rw [hr]

/-- A run of requests ends and has loaded presets of the bank only; the index is
that of the last one if every Program Change stays below the count. -/
theorem requests_run {f : Flash} (rs : List Request) (hmin : 4 < presetCount f)
    (hmax : presetCount f ≤ LAST_RECORD) :
    ∃ es u, handle_requests rs (entered F f) = (es, some ((), u)) ∧ u.flash = f
      ∧ lastLoaded es < presetCount f
      ∧ ((∀ r ∈ rs, ∀ i, r.program = some i → i < presetCount f) →
          u.current_preset_index = lastLoaded es) := by
  induction rs using List.reverseRecOn with
  | nil => exact ⟨[], entered F f, rfl, rfl, hmin, fun _ => rfl⟩
  | append_singleton rs r ih =>
      obtain ⟨es, u, hrun, hflash, hlt, hindex⟩ := ih
      obtain ⟨fs, v, hstep, hflash', hout⟩ := request_outcome (F := F) r
        (t := u) (by rw [hflash]; omega) (by rw [hflash]; exact hmax)
      refine ⟨es ++ fs, v, requests_snoc hrun hstep, hflash'.trans hflash, ?_⟩
      cases hout with
      -- no load: record and index stay
      | quiet hsel hread hkeep =>
          rw [lastLoaded_append_none hread, hkeep]
          exact ⟨hlt, fun hrs => hindex fun r hr => hrs r (List.mem_append_left _ hr)⟩
      | hit i hsel hi hread hkeep =>
          rw [lastLoaded_append_one hread, hkeep]
          rw [hflash] at hi
          exact ⟨hi, fun _ => rfl⟩
      -- the index moves although nothing is loaded, which the bound rules out
      | missed i hprogram hge hread hkeep =>
          rw [lastLoaded_append_none hread]
          refine ⟨hlt, fun hrs => ?_⟩
          have hi := hrs r (List.mem_append_right _ (List.mem_singleton_self r)) i hprogram
          rw [hflash] at hge
          omega

/-- A bank with as many presets as the bound allows. -/
theorem max_presets_le_last {n : ℕ} (h : n ≤ MAX_PRESETS) : n ≤ LAST_RECORD := by
  simp only [MAX_PRESETS, LAST_RECORD] at h ⊢
  omega

/-- A Program Change without a preset leaves its own index behind. -/
theorem missed_of_program {f : Flash} {r : Request} {t : MidiTask F} {i : ℕ}
    (hflash : t.flash = f) (hmin : 4 < presetCount f) (hmax : presetCount f ≤ LAST_RECORD)
    (hprogram : r.program = some i) (hge : presetCount f ≤ i) :
    ∃ es u, handle_requests [r] t = (es, some ((), u)) ∧ es.filterMap recordRead = []
      ∧ u.current_preset_index = i := by
  have hsel : r.selected t = some i := by
    cases r with
    | dump => cases hprogram
    | voice status d1 d2 =>
        rw [Request.program] at hprogram
        rw [Request.selected]
        cases hkind : voiceKind status d1 d2 with
        | program index =>
            rw [hkind] at hprogram
            exact hprogram
        | _ =>
            rw [hkind] at hprogram
            cases hprogram
  obtain ⟨es, u, hrun, -, hout⟩ := request_outcome (F := F) r (t := t)
    (by rw [hflash]; omega) (by rw [hflash]; exact hmax)
  refine ⟨es, u, hrun, ?_⟩
  -- of the three outcomes only a miss fits an index past the count
  cases hout with
  | quiet hnone hread hkeep =>
      rw [hsel] at hnone
      cases hnone
  | hit j hsel' hlt hread hkeep =>
      rw [hsel, Option.some.injEq] at hsel'
      rw [hflash] at hlt
      omega
  | missed j hprogram' hge' hread hkeep =>
      rw [hprogram, Option.some.injEq] at hprogram'
      exact ⟨hread, hkeep.trans hprogram'.symm⟩

/-- One Program Change without a preset ends it. -/
theorem programs_below {f : Flash} {rs : List Request} (hmin : 4 < presetCount f)
    (hmax : presetCount f ≤ LAST_RECORD) (hnames : IndexNamesLoaded (entered F f) rs) :
    ∀ r ∈ rs, ∀ i, r.program = some i → i < presetCount f := by
  intro r hr i hprogram
  obtain ⟨pre, post, rfl⟩ := List.append_of_mem hr
  by_contra hlt
  -- the last load before the request names a preset, the index after it does not
  obtain ⟨es, u, hrun, hflash, hloaded, -⟩ := requests_run (F := F) pre hmin hmax
  obtain ⟨fs, v, hstep, hread, hindex⟩ := missed_of_program hflash hmin hmax hprogram
    (Nat.not_lt.mp hlt)
  obtain ⟨es', v', hrun', hindex', -⟩ := hnames (pre ++ [r]) post (by
    rw [List.append_assoc, List.singleton_append])
  rw [requests_snoc hrun hstep, Prod.mk.injEq, Option.some.injEq, Prod.mk.injEq] at hrun'
  obtain ⟨rfl, -, rfl⟩ := hrun'
  rw [lastLoaded_append_none hread, hindex] at hindex'
  omega

/-- **The index names the preset that was loaded last exactly if no Program Change
asks for an index without a preset.** The soft pedal never does, on a bank of five
presets or more. A Program Change that does sets the index although nothing is loaded,
and the next tap of the pedal goes on from there. -/
theorem index_names_loaded_iff {f : Flash} (hmin : 5 ≤ presetCount f)
    (hmax : presetCount f ≤ MAX_PRESETS) (rs : List Request) :
    IndexNamesLoaded (entered F f) rs ↔ ∀ r ∈ rs, ∀ i, r.program = some i → i < presetCount f := by
  have hlast := max_presets_le_last hmax
  constructor
  · exact programs_below hmin hlast
  · intro hrs pre post hsplit
    have hpre : ∀ r ∈ pre, ∀ i, r.program = some i → i < presetCount f := by
      intro r hr
      rw [hsplit] at hrs
      exact hrs r (List.mem_append_left _ hr)
    obtain ⟨es, u, hrun, hflash, hlt, hindex⟩ := requests_run (F := F) pre hmin hlast
    refine ⟨es, u, hrun, hindex hpre, ?_, ?_⟩
    · intro value htap
      rw [selected, if_pos ⟨htap, by rw [hflash]; omega⟩, nextIndex, hindex hpre]
    · intro r post' hpost i hsel hnone
      -- every selection finds a preset
      exfalso
      obtain ⟨fs, v, hstep, -, hout⟩ := request_outcome (F := F) r
        (t := u) (by rw [hflash]; omega) (by rw [hflash]; exact hlast)
      cases hout with
      | quiet hsel' hread hkeep =>
          rw [hsel] at hsel'
          cases hsel'
      | hit j hsel' hj hread hkeep =>
          rw [hsel, Option.some.injEq] at hsel'
          rw [hsel', load_preset_found hj (by rw [hflash] at hj; omega)] at hnone
          cases hnone
      | missed j hprogram hge hread hkeep =>
          have hmem : r ∈ rs := by
            rw [hsplit, hpost]
            exact List.mem_append_right _ List.mem_cons_self
          have hj := hrs r hmem j hprogram
          rw [hflash] at hge
          omega

end Step

theorem presetCount_blankFlash (n : UInt32) : presetCount (blankFlash n) = n.toNat := by
  rw [presetCount, header_blankFlash]

/-- A tap and a Program Change to the last of five presets. -/
theorem index_names_loaded_iff_five :
    IndexNamesLoaded (entered ℝ (blankFlash 5))
      [.voice 0xB0 67 127, .voice 0xB0 67 0, .voice 0xC0 4 0] := by
  have hcount : presetCount (blankFlash 5) = 5 := presetCount_blankFlash 5
  refine (index_names_loaded_iff (Nat.le_of_eq hcount.symm) (by rw [hcount]; decide) _).mpr ?_
  intro r hr i hprogram
  rw [hcount]
  simp only [List.mem_cons, List.not_mem_nil, or_false] at hr
  rcases hr with rfl | rfl | rfl
  · cases hprogram
  · cases hprogram
  · cases hprogram
    decide

/-- A Program Change to 9 on a bank of five presets. -/
theorem index_names_nothing :
    ¬ IndexNamesLoaded (entered ℝ (blankFlash 5)) [.voice 0xC0 9 0] := by
  have hcount : presetCount (blankFlash 5) = 5 := presetCount_blankFlash 5
  intro hnames
  have hlt := programs_below (by rw [hcount]; decide) (by rw [hcount]; decide) hnames
    (.voice 0xC0 9 0) (List.mem_singleton_self _) 9 rfl
  rw [hcount] at hlt
  exact absurd hlt (by decide)

end PicoDsp.MidiTask
