/-
`midictl` and the device, over a cable that keeps the order of the bytes.

The two programs move on their own: the main thread of `midictl` sends and waits, the
callback gets what the driver has, in any pieces, and `midi_task` takes the bytes one at
a time, with channel-voice messages from anywhere between them. A `dump` is one exchange
of a request and a reply, and a `writeback` is two, the second with the reply of the
first as its request. What `midi_task` is asked it answers whatever state its receiver
was in (`serves_dump`, `serves_write`), so where a session is can be said by the exchange
alone (`Progress`).

The receiver of the device may be in the middle of another message when a session
begins, and a player may halt the device by what he plays. So the statements do
not ask for a fresh device, and have one clause for a device that is still there and
none for what it would have answered. A session in which a waiting loop gives up is
another thing than one that is cut off by the end of a run: `late` keeps them apart,
and the ends of the first kind are `GaveUp`.

That a session ends needs more than that it does no harm. `rank` counts the moves that
are left, every move of the protocol takes from it and no move of a keyboard adds to it
(`rank_step`), and until the end one of the two programs can move (`Progress.enabled`).
Together they give `finishes`: left to itself, a session reaches the answer to its
command.
-/
import PicoDsp.Lib.Exchange
import PicoDsp.Lib.Flow
import PicoDsp.Tools.Midictl

set_option autoImplicit false

namespace PicoDsp

open Lib Sysex MidiTask Storage

/-- The two programs, and the SysEx bytes on their way. -/
structure Session (F : Type) where
  host : Midictl
  device : MidiTask F
  /-- `midi_task` panicked. -/
  halted : Bool
  to_device : List UInt8
  to_host : List UInt8
  /-- What the device did so far. -/
  effects : List (Effect F)

/-- Who moves. -/
inductive SessionLabel
  /-- The main thread of `midictl`. -/
  | main
  /-- A waiting loop of `midictl` ends without the flag. -/
  | timeout
  /-- The driver hands `n` bytes to the callback. -/
  | callback (n : ℕ)
  /-- `midi_task` takes the next byte. -/
  | byte
  /-- A message from this or another keyboard. -/
  | voice (status d1 d2 : UInt8)
  deriving DecidableEq

/-- The moves of the protocol, without what a clock or a player does. -/
def SessionLabel.own : SessionLabel → Bool
  | .main | .callback _ | .byte => true
  | .timeout | .voice _ _ _ => false

namespace Session

variable {F : Type} [F32 F]

/-- `midictl` with its command, and a device with nothing under way. -/
def start (c : Command) (t : MidiTask F) : Session F := ⟨Midictl.new c, t, false, [], [], []⟩

/-- `midi_task` does a piece of work. -/
def work (w : Work) (s : Session F) : Session F :=
  { s with
    device := (Proc.final (handle_work w) s.device).getD s.device
    halted := (handle_work w s.device).2.isNone
    to_host := s.to_host ++ (replies (handle_work w s.device).1).flatMap Packet.data
    effects := s.effects ++ (handle_work w s.device).1 }

def step (s : Session F) : SessionLabel → Option (Session F)
  | .main => s.host.main.map fun r => { s with host := r.2, to_device := s.to_device ++ r.1 }
  | .timeout => s.host.timeout.map fun host => { s with host := host }
  | .callback n =>
      if 0 < n ∧ n ≤ s.to_host.length ∧ s.host.phase.ended = false then
        some { s with
          host := { s.host with col := s.host.col.callback (s.to_host.take n) }
          to_host := s.to_host.drop n }
      else none
  | .byte =>
      if s.halted then none
      else
        match s.to_device with
        | [] => none
        | b :: rest => some (work (.sysex_byte b) { s with to_device := rest })
  | .voice status d1 d2 => if s.halted then none else some (work (.voice status d1 d2) s)

/-! ## What the device answers -/

/-- The device is in order, and has the flash `f`. -/
structure Serving (f : Flash) (t : MidiTask F) : Prop where
  sound : Sound t
  flash : t.flash = f

/-- Whoever sends the last byte of `req` gets `rep`; the device does what it must, and the
flash is as it was. -/
def Serves (f : Flash) (req rep : List UInt8) (must : List (Effect F)) : Prop :=
  ∀ (t : MidiTask F) (taken : List UInt8) (x : UInt8) (msg : Option (List UInt8)),
    Serving f t → taken ++ [x] = req → Follows (taken.foldl advance msg) t.rx →
    ∃ es t', handle_work (.sysex_byte x) t = (es, some ((), t')) ∧ t'.flash = f ∧ must ⊆ es
      ∧ (replies es).flatMap Packet.data = rep

/-- A message without its F7, as the receiver sees it. -/
theorem advance_message {body taken : List UInt8} {x : UInt8}
    (hbody : ∀ b ∈ body, b ≠ 0xF0 ∧ b ≠ 0xF7) (h : taken ++ [x] = 0xF0 :: (body ++ [0xF7]))
    (msg : Option (List UInt8)) : x = SYSEX_END ∧ taken.foldl advance msg = some body := by
  rw [← List.cons_append] at h
  obtain ⟨rfl, hx⟩ := List.append_inj' h rfl
  refine ⟨List.singleton_inj.mp hx, ?_⟩
  rw [List.foldl_cons, show advance msg 0xF0 = some [] from advance_start msg,
    advance_body hbody, List.nil_append]

/-- The bytes of a dump between its ends are neither F0 nor F7. -/
theorem dump_body_ne {image : List UInt8} {b : UInt8} (h : b ∈ dumpBody image) :
    b ≠ 0xF0 ∧ b ≠ 0xF7 := by
  have hlt := dumpBody_lt image b h
  constructor
  · rintro rfl
    exact absurd hlt (by decide)
  · rintro rfl
    exact absurd hlt (by decide)

/-- A DUMP_REQ is answered with the bank. -/
theorem serves_dump (f : Flash) :
    Serves (F := F) f Midictl.DUMP_REQ (Midictl.dumpMessage (bank f)) [] := by
  intro t taken x msg ht hreq hmsg
  obtain ⟨rfl, hbody⟩ := @advance_message [0x7D, 0x01, 0x01] _ _ (by simp) hreq msg
  rw [hbody] at hmsg
  have hcall : (t.rx.receive SYSEX_END).2 = some ⟨CMD_DUMP_REQ, 0, false⟩ := by
    rw [receive_call hmsg]
    decide
  obtain ⟨es, t', hrun, hreplies, hflash⟩ := dump_run hcall rfl
  obtain ⟨-, -, -, -, -, hdata⟩ := dump_packets (bank t.flash)
  refine ⟨es, t', hrun, hflash.trans ht.flash, List.nil_subset es, ?_⟩
  rw [hreplies, hdata, ht.flash]
  rfl

/-- The bank, sent back, is accepted and changes nothing. -/
theorem serves_write (f : Flash) :
    Serves (F := F) f (Midictl.dumpMessage (bank f)) Midictl.SUCCESS
      [.flash (.write_raw (bank f))] := by
  intro t taken x msg ht hreq hmsg
  obtain ⟨rfl, hbody⟩ := advance_message (fun b hb => dump_body_ne hb) hreq msg
  rw [hbody, dumpBody_eq] at hmsg
  have hlen : (Bytes.nibbleize (bank f)).length = 2 * STORAGE_IMAGE_SIZE := by
    rw [Bytes.nibbleize_length, MidiTask.bank_length]
  obtain ⟨image, himage, hbyte⟩ := full_byte hmsg hlen
  rw [Bytes.denibbleize_nibbleize] at himage
  generalize (t.rx.receive SYSEX_END).1 = rx at hbyte
  have hvalid : (StorageHeader.from_bytes image.toList).Valid := by
    rw [himage, bank, header_read_image, ← ht.flash]
    exact ht.sound.header
  obtain ⟨es, t', haccept, -, hwrite, hreply, hflash⟩ := accept_facts
    (t := { t with rx := rx }) ht.sound.index hvalid
  rw [himage] at hwrite hflash
  refine ⟨es, t', ?_, ?_, List.cons_subset.mpr ⟨hwrite, List.nil_subset es⟩, ?_⟩
  · rw [handle_work, hbyte, haccept]
  · rw [hflash, ← ht.flash]
    exact written_self t.flash
  · rw [hreply]
    decide

/-- A byte of a message that is not its last one is only taken in. -/
theorem byte_inside {t : MidiTask F} {x : UInt8} (hx : x ≠ 0xF7) :
    handle_work (.sysex_byte x) t = ([], some ((), { t with rx := (t.rx.receive x).1 })) :=
  sysex_byte_quiet (receive_quiet hx t.rx)

/-- A channel-voice message is not answered. -/
theorem voice_quiet (status d1 d2 : UInt8) (t : MidiTask F) :
    replies (handle_work (.voice status d1 d2) t).1 = [] := by
  have hall : AllVoice [.voice status d1 d2] := by
    intro w hw
    exact ⟨status, d1, d2, List.mem_singleton.mp hw⟩
  have hquiet := voices_quiet hall t
  rw [Proc.each_singleton_run] at hquiet
  exact replies_quiet hquiet

/-- What a piece of work that comes back leaves. -/
theorem work_some {w : Work} {s : Session F} {es : List (Effect F)} {t' : MidiTask F}
    (h : handle_work w s.device = (es, some ((), t'))) :
    work w s = { s with
      device := t'
      halted := false
      to_host := s.to_host ++ (replies es).flatMap Packet.data
      effects := s.effects ++ es } := by
  unfold work Proc.final
  rw [h]
  rfl

/-! ## One exchange -/

/-- The device is in order, and the exchange is at `unsent` and `got` on the side of
`midictl`. -/
structure Wired (f : Flash) (req rep : List UInt8) (must : List (Effect F))
    (unsent got : List UInt8) (s : Session F) : Prop where
  serving : Serving f s.device
  exchange : ∃ taken msg, Exchange req rep taken unsent s.to_device s.to_host got
    ∧ Follows (taken.foldl advance msg) s.device.rx ∧ (taken = req → must ⊆ s.effects)

section Wired

variable {f : Flash} {req rep unsent got : List UInt8} {must : List (Effect F)} {s : Session F}

/-- `midi_task` takes a byte of the request. -/
theorem Wired.byte {x : UInt8} {rest : List UInt8} (hreq : Message req)
    (hserves : Serves f req rep must) (h : Wired f req rep must unsent got s)
    (hout : s.to_device = x :: rest) :
    Wired f req rep must unsent got (work (.sysex_byte x) { s with to_device := rest })
      ∧ (work (.sysex_byte x) { s with to_device := rest }).halted = false
      ∧ Exchange.left rep unsent rest
          (work (.sysex_byte x) { s with to_device := rest }).to_host + 1
        = Exchange.left rep unsent s.to_device s.to_host := by
  obtain ⟨taken, msg, hex, hmsg, hmust⟩ := h.exchange
  have hsound := h.serving.sound
  rw [hout] at hex ⊢
  by_cases hleft : rest ++ unsent = []
  · -- the last one, and the answer to it
    obtain ⟨hlast, hnext⟩ := hex.answer hleft
    obtain ⟨es, t', hrun, hflash, hdid, hdata⟩ := hserves _ _ _ _ h.serving hlast hmsg
    have hone : Proc.each handle_work [.sysex_byte x] s.device = (es, some ((), t')) := by
      rw [Proc.each_singleton_run, hrun]
    have hfollow := work_follows hsound hmsg hrun
    rw [← List.foldl_append] at hfollow
    rw [work_some (s := { s with to_device := rest }) hrun, hdata]
    exact ⟨⟨⟨hsound.run hone, hflash⟩, _, msg, hnext, hfollow, fun _ =>
      List.subset_append_of_subset_right _ hdid⟩, rfl, (hex.left_answer hleft).symm⟩
  · -- an F7 would end the request, and there is more of it to come
    have hx : x ≠ 0xF7 := by
      rintro rfl
      have hrequest := hex.request
      have hpart : taken ++ [0xF7] <+: req := by
        refine ⟨rest ++ unsent, ?_⟩
        rw [List.append_assoc]
        exact hrequest
      have hall := eq_of_last hreq hpart (by rw [List.getLast?_append]; rfl)
      have hlen := congrArg List.length (hall.trans hrequest.symm)
      refine hleft (List.eq_nil_of_length_eq_zero ?_)
      simp only [List.length_append, List.length_cons, List.length_nil] at hlen ⊢
      omega
    have hrun := byte_inside (t := s.device) hx
    have hone : Proc.each handle_work [.sysex_byte x] s.device
        = ([], some ((), { s.device with rx := (s.device.rx.receive x).1 })) := by
      rw [Proc.each_singleton_run, hrun]
    have hnext := hex.take hleft
    have hfollow := work_follows hsound hmsg hrun
    rw [← List.foldl_append] at hfollow
    -- so the device is not asked yet, and owes nothing
    have hopen : taken ++ sysexBytes [.sysex_byte x] ≠ req := by
      intro heq
      have hrequest := hnext.request
      rw [← heq] at hrequest
      exact hleft (List.append_right_eq_self.mp hrequest)
    rw [work_some (s := { s with to_device := rest }) hrun]
    have hnone : s.to_host ++ (replies ([] : List (Effect F))).flatMap Packet.data = s.to_host :=
      List.append_nil s.to_host
    rw [hnone]
    exact ⟨⟨⟨hsound.run hone, h.serving.flash⟩, _, msg, hnext, hfollow,
      fun heq => absurd heq hopen⟩, rfl, (Exchange.left_take hleft).symm⟩

/-- A channel-voice message, whether `midi_task` survives it or not. -/
theorem Wired.voice (status d1 d2 : UInt8) (h : Wired f req rep must unsent got s) :
    Wired f req rep must unsent got (work (.voice status d1 d2) s)
      ∧ (work (.voice status d1 d2) s).to_host = s.to_host := by
  obtain ⟨taken, msg, hex, hmsg, hmust⟩ := h.exchange
  have hhost : (work (.voice status d1 d2) s).to_host = s.to_host := by
    show s.to_host ++ _ = _
    rw [voice_quiet]
    exact List.append_nil _
  have hkeep : Serving f (work (.voice status d1 d2) s).device
      ∧ (work (.voice status d1 d2) s).device.rx = s.device.rx := by
    rcases hrun : handle_work (.voice status d1 d2) s.device with ⟨es, _ | ⟨_, t'⟩⟩
    · have hsame : (work (.voice status d1 d2) s).device = s.device := by
        unfold work Proc.final
        rw [hrun]
        rfl
      rw [hsame]
      exact ⟨h.serving, rfl⟩
    · obtain ⟨hflash, hrx, -⟩ := voice_frame hrun
      have hone : Proc.each handle_work [.voice status d1 d2] s.device = (es, some ((), t')) := by
        rw [Proc.each_singleton_run, hrun]
      rw [work_some hrun]
      exact ⟨⟨h.serving.sound.run hone, hflash.trans h.serving.flash⟩, hrx⟩
  refine ⟨⟨hkeep.1, taken, msg, ?_, ?_, ?_⟩, hhost⟩
  · rw [hhost]
    exact hex
  · rw [hkeep.2]
    exact hmsg
  · exact fun heq => List.subset_append_of_subset_left _ (hmust heq)

omit [F32 F] in
/-- `midictl` sends a piece of the request. -/
theorem Wired.send {piece : List UInt8} {host : Midictl}
    (h : Wired f req rep must (piece ++ unsent) got s) :
    Wired f req rep must unsent got
      { s with host := host, to_device := s.to_device ++ piece } := by
  obtain ⟨taken, msg, hex, hmsg, hmust⟩ := h.exchange
  exact ⟨h.serving, taken, msg, hex.send, hmsg, hmust⟩

omit [F32 F] in
/-- The callback gets a piece of the reply. -/
theorem Wired.deliver (n : ℕ) (host : Midictl) (h : Wired f req rep must unsent got s) :
    Wired f req rep must unsent (got ++ s.to_host.take n)
      { s with host := host, to_host := s.to_host.drop n } := by
  obtain ⟨taken, msg, hex, hmsg, hmust⟩ := h.exchange
  rw [← List.take_append_drop n s.to_host] at hex
  exact ⟨h.serving, taken, msg, hex.deliver, hmsg, hmust⟩

omit [F32 F] in
/-- Only `midictl` moves. -/
theorem Wired.with_host {host : Midictl} (h : Wired f req rep must unsent got s) :
    Wired f req rep must unsent got { s with host := host } := ⟨h.serving, h.exchange⟩

omit [F32 F] in
/-- What was delivered is a part of the reply. -/
theorem Wired.got_prefix (h : Wired f req rep must unsent got s) : got <+: rep := by
  obtain ⟨taken, msg, hex, -⟩ := h.exchange
  exact hex.got_prefix

omit [F32 F] in
/-- When the reply is there, nothing is under way, and the device did what it must. -/
theorem Wired.whole (h : Wired f req rep must unsent rep s) (hrep : rep ≠ []) :
    s.to_device = [] ∧ s.to_host = [] ∧ must ⊆ s.effects := by
  obtain ⟨taken, msg, hex, -, hmust⟩ := h.exchange
  obtain ⟨htaken, hout, -⟩ := hex.all_taken hrep
  exact ⟨hout, hex.back_nil, hmust htaken⟩

end Wired

/-! ## The session -/

/-- The effect of a write of the bank. -/
def rewrites (f : Flash) : Effect F := .flash (.write_raw (bank f))

/-- The end that a command comes to. -/
def answer (c : Command) (f : Flash) : Outcome :=
  match c with
  | .dump => .report (2 * STORAGE_IMAGE_SIZE) (header f).magic (header f).version
      (header f).num_presets
  | .writeback => .write_success

/-- The ends of a waiting loop that gave up. -/
def GaveUp (o : Outcome) : Prop := o = .bad_framing ∨ o = .dump_failed ∨ o = .unexpected_reply

/-- The first exchange, at `unsent` and `got`. -/
def Dumping (f : Flash) (unsent got : List UInt8) (s : Session F) : Prop :=
  Wired f Midictl.DUMP_REQ (Midictl.dumpMessage (bank f)) [] unsent got s

/-- The second exchange. -/
def Writing (f : Flash) (unsent got : List UInt8) (s : Session F) : Prop :=
  Wired f (Midictl.dumpMessage (bank f)) Midictl.SUCCESS [rewrites f] unsent got s

/-- Where a session is; `late` says that a waiting loop gave up. -/
inductive Progress (c : Command) (f : Flash) (late : Prop) (s : Session F) : Prop
  | asking (hphase : s.host.phase = .asking) (hcol : s.host.col = Collector.new)
      (h : Dumping f Midictl.DUMP_REQ [] s)
  | awaiting_dump (got : List UInt8) (hphase : s.host.phase = .awaiting_dump)
      (hcol : s.host.col = Collector.new.callback got) (h : Dumping f [] got s)
  | clearing (hc : c = .writeback)
      (hphase : s.host.phase = .clearing (Midictl.dumpMessage (bank f)))
      (hdone : s.host.col.done = false) (h : Dumping f [] (Midictl.dumpMessage (bank f)) s)
  | sending (cs : List (List UInt8)) (got : List UInt8) (hc : c = .writeback)
      (hphase : s.host.phase = .sending cs) (hcol : s.host.col = Collector.new.callback got)
      (h : Writing f cs.flatten got s)
  | awaiting_reply (got : List UInt8) (hc : c = .writeback)
      (hphase : s.host.phase = .awaiting_reply) (hcol : s.host.col = Collector.new.callback got)
      (h : Writing f [] got s)
  | ended (o : Outcome) (hphase : s.host.phase = .finished o)
      (hquiet : late ∨ s.to_device = [])
      (ho : o = answer c f ∧ (c = .writeback → rewrites f ∈ s.effects) ∨ late ∧ GaveUp o)
      (h : (∃ unsent got, Dumping f unsent got s) ∨ ∃ unsent got, Writing f unsent got s)

section Progress

variable {c : Command} {f : Flash} {late : Prop} {s s' : Session F}

omit [F32 F] in
/-- A session is in one of its exchanges. -/
theorem Progress.wired (h : Progress c f late s) :
    (∃ unsent got, Dumping f unsent got s) ∨ ∃ unsent got, Writing f unsent got s := by
  cases h with
  | asking _ _ h => exact Or.inl ⟨_, _, h⟩
  | awaiting_dump _ _ _ h => exact Or.inl ⟨_, _, h⟩
  | clearing _ _ _ h => exact Or.inl ⟨_, _, h⟩
  | sending _ _ _ _ _ h => exact Or.inr ⟨_, _, h⟩
  | awaiting_reply _ _ _ _ h => exact Or.inr ⟨_, _, h⟩
  | ended _ _ _ _ h => exact h

omit [F32 F] in
/-- The flash is the one of the start. -/
theorem Progress.serving (h : Progress c f late s) : Serving f s.device := by
  rcases h.wired with ⟨_, _, h⟩ | ⟨_, _, h⟩
  · exact h.serving
  · exact h.serving

omit [F32 F] in
/-- How it ended. -/
theorem Progress.outcome {o : Outcome} (h : Progress c f late s) (ho : s.host.phase = .finished o) :
    o = answer c f ∧ (c = .writeback → rewrites f ∈ s.effects) ∨ late ∧ GaveUp o := by
  cases h with
  | asking hphase _ _ => cases hphase.symm.trans ho
  | awaiting_dump _ hphase _ _ => cases hphase.symm.trans ho
  | clearing _ hphase _ _ => cases hphase.symm.trans ho
  | sending _ _ _ hphase _ _ => cases hphase.symm.trans ho
  | awaiting_reply _ _ hphase _ _ => cases hphase.symm.trans ho
  | ended o' hphase _ hend _ =>
      cases hphase.symm.trans ho
      exact hend

omit [F32 F] in
/-- A session that may have given up is one that may. -/
theorem Progress.mono {late' : Prop} (h : Progress c f late s) (hlate : late → late') :
    Progress c f late' s := by
  cases h with
  | asking hphase hcol h => exact .asking hphase hcol h
  | awaiting_dump got hphase hcol h => exact .awaiting_dump got hphase hcol h
  | clearing hc hphase hdone h => exact .clearing hc hphase hdone h
  | sending cs got hc hphase hcol h => exact .sending cs got hc hphase hcol h
  | awaiting_reply got hc hphase hcol h => exact .awaiting_reply got hc hphase hcol h
  | ended o hphase hquiet ho h =>
      exact .ended o hphase (hquiet.imp_left hlate) (ho.imp_right fun h => ⟨hlate h.1, h.2⟩) h

omit [F32 F] in
/-- The device moves: what it keeps of both exchanges it keeps of the session. -/
theorem Progress.device (h : Progress c f late s) (hhost : s'.host = s.host)
    (heffects : s.effects ⊆ s'.effects) (hquiet : s.to_device = [] → s'.to_device = [])
    (hdumping : ∀ unsent got, Dumping f unsent got s → Dumping f unsent got s')
    (hwriting : ∀ unsent got, Writing f unsent got s → Writing f unsent got s') :
    Progress c f late s' := by
  cases h with
  | asking hphase hcol h =>
      rw [← hhost] at hphase hcol
      exact .asking hphase hcol (hdumping _ _ h)
  | awaiting_dump got hphase hcol h =>
      rw [← hhost] at hphase hcol
      exact .awaiting_dump got hphase hcol (hdumping _ _ h)
  | clearing hc hphase hdone h =>
      rw [← hhost] at hphase hdone
      exact .clearing hc hphase hdone (hdumping _ _ h)
  | sending cs got hc hphase hcol h =>
      rw [← hhost] at hphase hcol
      exact .sending cs got hc hphase hcol (hwriting _ _ h)
  | awaiting_reply got hc hphase hcol h =>
      rw [← hhost] at hphase hcol
      exact .awaiting_reply got hc hphase hcol (hwriting _ _ h)
  | ended o hphase hq ho h =>
      rw [← hhost] at hphase
      refine .ended o hphase (hq.imp_right hquiet) ?_ ?_
      · exact ho.imp_left fun h => ⟨h.1, fun hc => heffects (h.2 hc)⟩
      · exact h.imp (fun ⟨u, g, h⟩ => ⟨u, g, hdumping u g h⟩)
          fun ⟨u, g, h⟩ => ⟨u, g, hwriting u g h⟩

/-- A player changes the settings, not the session. -/
theorem Progress.voice (status d1 d2 : UInt8) (h : Progress c f late s) :
    Progress c f late (work (.voice status d1 d2) s) :=
  h.device rfl (List.subset_append_left _ _) id (fun _ _ h => (h.voice status d1 d2).1)
    fun _ _ h => (h.voice status d1 d2).1

/-- A byte of a request, in either exchange. -/
theorem Progress.byte {x : UInt8} {rest : List UInt8} (h : Progress c f late s)
    (hout : s.to_device = x :: rest) :
    Progress c f late (work (.sysex_byte x) { s with to_device := rest }) := by
  refine h.device rfl (List.subset_append_left _ _) ?_ ?_ ?_
  · intro hnil
    rw [hnil] at hout
    cases hout
  · intro unsent got h
    exact (Wired.byte Midictl.message_dump_req (serves_dump f) h hout).1
  · intro unsent got h
    exact (Wired.byte (Midictl.message_dump _) (serves_write f) h hout).1

omit [F32 F] in
/-- The callback gets a piece. -/
theorem Progress.callback (n : ℕ) (h : Progress c f late s) (hopen : s.host.phase.ended = false) :
    Progress c f late { s with
      host := { s.host with col := s.host.col.callback (s.to_host.take n) }
      to_host := s.to_host.drop n } := by
  have hsnoc : ∀ got : List UInt8, (Collector.new.callback got).callback (s.to_host.take n)
      = Collector.new.callback (got ++ s.to_host.take n) := fun got => List.foldl_append.symm
  cases h with
  | asking hphase hcol h =>
      -- nothing comes before the request
      obtain ⟨taken, msg, hex, -⟩ := h.exchange
      cases hex with
      | asking hreq hleft hback hgot =>
          have hnext := h.deliver n { s.host with
            col := s.host.col.callback (s.to_host.take n) }
          rw [hback, List.take_nil] at hnext ⊢
          exact .asking hphase hcol hnext
      | answered _ _ hunsent _ => cases hunsent
  | awaiting_dump got hphase hcol h =>
      refine .awaiting_dump _ hphase ?_ (h.deliver n _)
      rw [← hsnoc, ← hcol]
  | clearing hc hphase hdone h =>
      obtain ⟨-, hback, -⟩ := h.whole (Midictl.message_dump _).ne_nil
      have hnext := h.deliver n { s.host with
        col := s.host.col.callback (s.to_host.take n) }
      rw [hback, List.take_nil, List.append_nil] at hnext
      rw [hback, List.take_nil]
      exact .clearing hc hphase hdone hnext
  | sending cs got hc hphase hcol h =>
      refine .sending cs _ hc hphase ?_ (h.deliver n _)
      rw [← hsnoc, ← hcol]
  | awaiting_reply got hc hphase hcol h =>
      refine .awaiting_reply _ hc hphase ?_ (h.deliver n _)
      rw [← hsnoc, ← hcol]
  | ended o hphase _ _ _ =>
      rw [hphase] at hopen
      cases hopen

omit [F32 F] in
/-- What the callback has of a reply. -/
theorem Wired.collected {req rep unsent got : List UInt8} {must : List (Effect F)}
    (h : Wired f req rep must unsent got s) (hrep : Message rep)
    (hcol : s.host.col = Collector.new.callback got) :
    s.host.col.buf = got ∧ (s.host.col.done = true ↔ got = rep) := by
  rw [hcol, callback_prefix hrep h.got_prefix]
  exact ⟨rfl, decide_eq_true_iff⟩

/-- What `dump` makes of the bank is the answer to it. -/
theorem answer_dump (f : Flash) :
    Midictl.check_dump (Midictl.dumpMessage (bank f)) = answer .dump f := by
  have hheader : StorageHeader.from_bytes (bank f) = header f := header_read_image f
  have hlen : (bank f).length = STORAGE_IMAGE_SIZE := MidiTask.bank_length f
  rw [Midictl.check_dump_whole (by rw [hlen]; decide), hlen, answer, ← hheader]
  rfl

omit [F32 F] in
/-- `midictl` leaves the first waiting loop, with the dump or too early. -/
theorem Progress.after_dump {got : List UInt8} (hc : s.host.command = c)
    (hcol : s.host.col = Collector.new.callback got) (h : Dumping f [] got s)
    (hlate : got ≠ Midictl.dumpMessage (bank f) → late) :
    Progress c f late { s with host := s.host.after_dump } := by
  have hmessage := Midictl.message_dump (bank f)
  have hbuf := (h.collected hmessage hcol).1
  -- a loop that left too early was late
  have hquiet : late ∨ s.to_device = [] := by
    by_cases hgot : got = Midictl.dumpMessage (bank f)
    · subst hgot
      exact Or.inr (h.whole hmessage.ne_nil).1
    · exact Or.inl (hlate hgot)
  cases c with
  | dump =>
      have hafter : s.host.after_dump
          = { s.host with phase := .finished (Midictl.check_dump got) } := by
        rw [Midictl.after_dump_dump hc, hbuf]
      refine .ended (Midictl.check_dump got) (by rw [hafter]) hquiet ?_
        (Or.inl ⟨_, _, h.with_host⟩)
      by_cases hgot : got = Midictl.dumpMessage (bank f)
      · rw [hgot, answer_dump]
        exact Or.inl ⟨rfl, fun h => by cases h⟩
      · exact Or.inr ⟨hlate hgot, Or.inl (Midictl.check_dump_part h.got_prefix hgot)⟩
  | writeback =>
      by_cases hdumped : Midictl.Dumped got
      · -- only the whole dump passes the assertion
        have hgot := Midictl.eq_of_dumped h.got_prefix hdumped
        have hafter : s.host.after_dump = { s.host with
            phase := .clearing got
            col := { s.host.col with done := false } } := by
          rw [← hbuf] at hdumped ⊢
          exact Midictl.after_dump_writeback hc hdumped
        rw [hgot] at h hafter
        exact .clearing rfl (by rw [hafter]) (by rw [hafter]) h.with_host
      · have hafter : s.host.after_dump = { s.host with phase := .finished .dump_failed } := by
          rw [← hbuf] at hdumped
          exact Midictl.after_dump_failed hc hdumped
        have hgot : got ≠ Midictl.dumpMessage (bank f) := by
          rintro rfl
          refine hdumped (Midictl.dumped_whole ?_)
          rw [MidiTask.bank_length]
          decide
        exact .ended .dump_failed (by rw [hafter]) hquiet
          (Or.inr ⟨hlate hgot, Or.inr (Or.inl rfl)⟩) (Or.inl ⟨_, _, h.with_host⟩)

omit [F32 F] in
/-- `midictl` leaves the second waiting loop. -/
theorem Progress.after_reply {got : List UInt8} (hc : c = .writeback)
    (hcol : s.host.col = Collector.new.callback got) (h : Writing f [] got s)
    (hlate : got ≠ Midictl.SUCCESS → late) :
    Progress c f late { s with host := s.host.after_reply } := by
  have hmessage := Midictl.message_success
  have hafter : s.host.after_reply
      = { s.host with phase := .finished (Midictl.check_reply got) } := by
    rw [Midictl.after_reply, (h.collected hmessage hcol).1]
  by_cases hgot : got = Midictl.SUCCESS
  · rw [hgot] at h hafter
    obtain ⟨hout, -, hdid⟩ := h.whole hmessage.ne_nil
    refine .ended _ (by rw [hafter]) (Or.inr hout) (Or.inl ⟨?_, ?_⟩) (Or.inr ⟨_, _, h.with_host⟩)
    · rw [Midictl.check_reply_success, hc]
      rfl
    · exact fun _ => hdid List.mem_cons_self
  · rw [Midictl.check_reply_part h.got_prefix hgot] at hafter
    exact .ended _ (by rw [hafter]) (Or.inl (hlate hgot))
      (Or.inr ⟨hlate hgot, Or.inr (Or.inr rfl)⟩) (Or.inr ⟨_, _, h.with_host⟩)

omit [F32 F] in
/-- A waiting loop gives up. -/
theorem Progress.timeout {host : Midictl} (hc : s.host.command = c) (h : Progress c f late s)
    (hstep : s.host.timeout = some host) : Progress c f True { s with host := host } := by
  unfold Midictl.timeout at hstep
  cases h with
  | asking hphase _ _ =>
      rw [hphase] at hstep
      cases hstep
  | awaiting_dump got hphase hcol h =>
      rw [hphase] at hstep
      cases hstep
      exact .after_dump hc hcol h fun _ => trivial
  | clearing _ hphase _ _ =>
      rw [hphase] at hstep
      cases hstep
  | sending _ _ _ hphase _ _ =>
      rw [hphase] at hstep
      cases hstep
  | awaiting_reply got hwrite hphase hcol h =>
      rw [hphase] at hstep
      cases hstep
      exact .after_reply hwrite hcol h fun _ => trivial
  | ended _ hphase _ _ _ =>
      rw [hphase] at hstep
      cases hstep

omit [F32 F] in
/-- The main thread moves. -/
theorem Progress.main {sent : List UInt8} {host : Midictl} (hc : s.host.command = c)
    (h : Progress c f late s) (hstep : s.host.main = some (sent, host)) :
    Progress c f late { s with host := host, to_device := s.to_device ++ sent } := by
  unfold Midictl.main at hstep
  cases h with
  | asking hphase hcol h =>
      rw [hphase] at hstep
      cases hstep
      have hsent : Wired f Midictl.DUMP_REQ (Midictl.dumpMessage (bank f)) []
          (Midictl.DUMP_REQ ++ []) [] s := h
      exact .awaiting_dump [] rfl hcol hsent.send
  | awaiting_dump got hphase hcol h =>
      rw [hphase] at hstep
      obtain ⟨hdone, hnext⟩ := Option.ite_none_right_eq_some.mp hstep
      cases hnext
      -- the flag is up, so nothing was cut off
      have hgot := (h.collected (Midictl.message_dump _) hcol).2.mp hdone
      rw [List.append_nil]
      exact .after_dump hc hcol h fun hne => absurd hgot hne
  | clearing hwrite hphase hdone h =>
      rw [hphase] at hstep
      cases hstep
      -- the dump is the next request, and the first exchange is over
      obtain ⟨taken, msg, hex, hmsg, -⟩ := h.exchange
      obtain ⟨hout, hback, -⟩ := h.whole (Midictl.message_dump _).ne_nil
      have hnew : s.host.col = { s.host.col with done := false } := by rw [← hdone]
      refine .sending _ [] hwrite rfl ?_ ⟨h.serving, [], taken.foldl advance msg, ?_, hmsg, ?_⟩
      · show ({ s.host.col with buf := [] } : Collector) = _
        rw [hnew]
        rfl
      · rw [flatten_chunks (by decide), hout, hback]
        exact .start (Midictl.message_dump _).ne_nil _
      · exact fun hnil => absurd hnil.symm (Midictl.message_dump _).ne_nil
  | sending cs got hwrite hphase hcol h =>
      rw [hphase] at hstep
      cases cs with
      | nil =>
          cases hstep
          rw [List.append_nil]
          exact .awaiting_reply got hwrite rfl hcol h.with_host
      | cons piece cs =>
          cases hstep
          exact .sending cs got hwrite rfl hcol h.send
  | awaiting_reply got hwrite hphase hcol h =>
      rw [hphase] at hstep
      obtain ⟨hdone, hnext⟩ := Option.ite_none_right_eq_some.mp hstep
      cases hnext
      have hgot := (h.collected Midictl.message_success hcol).2.mp hdone
      rw [List.append_nil]
      exact .after_reply hwrite hcol h fun hne => absurd hgot hne
  | ended _ hphase _ _ _ =>
      rw [hphase] at hstep
      cases hstep

/-! ## Runs -/

/-- A byte of the cable is there for a device that runs. -/
theorem byte_cases (h : step s .byte = some s') :
    ∃ x rest, s.halted = false ∧ s.to_device = x :: rest
      ∧ s' = work (.sysex_byte x) { s with to_device := rest } := by
  rw [step] at h
  split at h
  · cases h
  · rename_i hhalted
    split at h
    · cases h
    · rename_i x rest hout
      cases h
      exact ⟨x, rest, Bool.not_eq_true _ ▸ hhalted, hout, rfl⟩

/-- The callback gets some of the bytes on their way, while the process is there. -/
theorem callback_cases {n : ℕ} (h : step s (.callback n) = some s') :
    0 < n ∧ n ≤ s.to_host.length ∧ s.host.phase.ended = false
      ∧ s' = { s with
          host := { s.host with col := s.host.col.callback (s.to_host.take n) }
          to_host := s.to_host.drop n } := by
  rw [step] at h
  obtain ⟨⟨hpos, hlen, hopen⟩, hs⟩ := Option.ite_none_right_eq_some.mp h
  exact ⟨hpos, hlen, hopen, (Option.some.inj hs).symm⟩

/-- A message of a keyboard is always possible. -/
theorem voice_cases {status d1 d2 : UInt8} (h : step s (.voice status d1 d2) = some s') :
    s' = work (.voice status d1 d2) s := by
  rw [step] at h
  split at h
  · cases h
  · cases h
    rfl

/-- Every step keeps the session where it is. -/
theorem step_progress {l : SessionLabel} (hc : s.host.command = c) (h : Progress c f late s)
    (hstep : step s l = some s') :
    s'.host.command = c ∧ Progress c f (late ∨ l = .timeout) s' := by
  cases l with
  | main =>
      obtain ⟨r, hmain, rfl⟩ := Option.map_eq_some_iff.mp hstep
      exact ⟨(Midictl.main_command hmain).trans hc, (h.main hc hmain).mono Or.inl⟩
  | timeout =>
      obtain ⟨host, htimeout, rfl⟩ := Option.map_eq_some_iff.mp hstep
      exact ⟨(Midictl.timeout_command htimeout).trans hc,
        (h.timeout hc htimeout).mono fun _ => Or.inr rfl⟩
  | callback n =>
      obtain ⟨-, -, hopen, rfl⟩ := callback_cases hstep
      exact ⟨hc, (h.callback n hopen).mono Or.inl⟩
  | byte =>
      obtain ⟨x, rest, -, hout, rfl⟩ := byte_cases hstep
      exact ⟨hc, (h.byte hout).mono Or.inl⟩
  | voice status d1 d2 =>
      rw [voice_cases hstep]
      exact ⟨hc, (h.voice status d1 d2).mono Or.inl⟩

omit [F32 F] in
/-- A session begins with the whole request unsent. -/
theorem start_progress {t : MidiTask F} (ht : Sound t) {msg : Option (List UInt8)}
    (hmsg : Follows msg t.rx) : Progress c t.flash False (start c t) := by
  refine .asking rfl rfl ⟨⟨ht, rfl⟩, [], msg, ?_, hmsg, fun h => ?_⟩
  · exact .start Midictl.message_dump_req.ne_nil _
  · cases h

/-- A session that was begun is somewhere. -/
theorem run_progress {t : MidiTask F} (ht : Reachable t) {ls : List SessionLabel}
    (h : Transition.run step (start c t) ls = some s) :
    s.host.command = c ∧ Progress c t.flash (.timeout ∈ ls) s := by
  obtain ⟨msg, hmsg⟩ := ht.follows
  have hrun := Transition.RunBy.of_run (P := fun _ => True) h fun _ _ => trivial
  refine @Transition.RunBy.invariant_trace _ _ _ _
    (fun past s => s.host.command = c ∧ Progress c t.flash (.timeout ∈ past) s) _ _ _ hrun ?_
    ⟨rfl, (start_progress ht.sound hmsg).mono False.elim⟩
  intro past s l s' hpast _ hstep
  obtain ⟨hc, hnext⟩ := step_progress hpast.1 hpast.2 hstep
  refine ⟨hc, hnext.mono ?_⟩
  rintro (hlate | rfl)
  · exact List.mem_append_left _ hlate
  · exact List.mem_append_right _ (List.mem_singleton_self _)

end Progress

/-- **`midictl` never disturbs the bank, and what it says is so.** However its moves and
those of the device come, cut and interleaved with messages of keyboards: the flash stays
what it was; a `dump` that ends reports the header of the bank, and a `writeback` that ends
with success has made the device write the bank that is there. Any other end comes from a
waiting loop that gave up, and it is one of the failures that `midictl` reports. -/
theorem bank_undisturbed {t : MidiTask F} (ht : Reachable t) (c : Command)
    {ls : List SessionLabel} {s : Session F} (h : Transition.run step (start c t) ls = some s) :
    s.device.flash = t.flash
      ∧ ∀ o, s.host.phase = .finished o →
          o = answer c t.flash ∧ (c = .writeback → rewrites t.flash ∈ s.effects)
            ∨ .timeout ∈ ls ∧ GaveUp o := by
  have hprogress := (run_progress ht h).2
  exact ⟨hprogress.serving.flash, fun o ho => hprogress.outcome ho⟩

/-! ## Coming to an end -/

/-- The moves of a `writeback` behind its dump. -/
def second (c : Command) (f : Flash) : ℕ :=
  match c with
  | .dump => 0
  | .writeback => (Midictl.dumpMessage (bank f)).length + Midictl.SUCCESS.length
      + (chunks Midictl.CHUNK (Midictl.dumpMessage (bank f))).length + 3

/-- The moves that are left, at most. -/
def rank (c : Command) (f : Flash) (s : Session F) : ℕ :=
  match s.host.phase with
  | .asking => Exchange.left (Midictl.dumpMessage (bank f)) Midictl.DUMP_REQ s.to_device s.to_host
      + second c f + 2
  | .awaiting_dump => Exchange.left (Midictl.dumpMessage (bank f)) [] s.to_device s.to_host
      + second c f + 1
  | .clearing _ => second c f
  | .sending cs => Exchange.left Midictl.SUCCESS cs.flatten s.to_device s.to_host + cs.length + 2
  | .awaiting_reply => Exchange.left Midictl.SUCCESS [] s.to_device s.to_host + 1
  | .finished _ => 0

section Rank

variable {c : Command} {f : Flash} {late : Prop} {s s' : Session F}

omit [F32 F] in
/-- What takes `d` from both exchanges takes it from the rank. -/
theorem rank_device {d : ℕ} (h : Progress c f False s) (hphase : s'.host.phase = s.host.phase)
    (hdumping : ∀ unsent got, Dumping f unsent got s →
      Exchange.left (Midictl.dumpMessage (bank f)) unsent s'.to_device s'.to_host + d
        = Exchange.left (Midictl.dumpMessage (bank f)) unsent s.to_device s.to_host)
    (hwriting : ∀ unsent got, Writing f unsent got s →
      Exchange.left Midictl.SUCCESS unsent s'.to_device s'.to_host + d
        = Exchange.left Midictl.SUCCESS unsent s.to_device s.to_host)
    (hidle : s.to_device = [] → s.to_host = [] ∨ s.host.phase.ended = true → d = 0) :
    rank c f s' + d ≤ rank c f s := by
  unfold rank
  rw [hphase]
  cases h with
  | asking hasking _ h =>
      have hleft := hdumping _ _ h
      rw [hasking]
      simp only
      omega
  | awaiting_dump got hawaiting _ h =>
      have hleft := hdumping _ _ h
      rw [hawaiting]
      simp only
      omega
  -- between the exchanges nothing is on its way
  | clearing _ hclearing _ h =>
      obtain ⟨hout, hback, -⟩ := h.whole (Midictl.message_dump _).ne_nil
      rw [hclearing, hidle hout (Or.inl hback)]
      exact Nat.le_refl _
  | sending cs got _ hsending _ h =>
      have hleft := hwriting _ _ h
      rw [hsending]
      simp only
      omega
  | awaiting_reply got _ hawaiting _ h =>
      have hleft := hwriting _ _ h
      rw [hawaiting]
      simp only
      omega
  | ended o hended hquiet _ _ =>
      have hout := hquiet.resolve_left id
      rw [hidle hout (Or.inr (by rw [hended]; rfl)), hended]

omit [F32 F] in
/-- The way from the first waiting loop. -/
theorem rank_after_dump (hc : s.host.command = c) :
    rank c f { s with host := s.host.after_dump } ≤ second c f := by
  cases c with
  | dump =>
      rw [Midictl.after_dump_dump hc]
      exact Nat.zero_le _
  | writeback =>
      by_cases hdumped : Midictl.Dumped s.host.col.buf
      · rw [Midictl.after_dump_writeback hc hdumped]
        exact Nat.le_refl _
      · rw [Midictl.after_dump_failed hc hdumped]
        exact Nat.zero_le _

omit [F32 F] in
/-- The main thread comes closer to the end. -/
theorem rank_main {sent : List UInt8} {host : Midictl} (hc : s.host.command = c)
    (h : Progress c f late s) (hstep : s.host.main = some (sent, host)) :
    rank c f { s with host := host, to_device := s.to_device ++ sent } + 1 ≤ rank c f s := by
  have hs : rank c f s = rank c f s := rfl
  conv_rhs at hs => unfold rank
  unfold Midictl.main at hstep
  cases h with
  | asking hphase _ _ =>
      rw [hphase] at hstep hs
      cases hstep
      rw [hs]
      simp only [rank, Exchange.left_send, List.append_nil]
      exact Nat.le_refl _
  -- the reply is there, and `rank` counts what comes behind the waiting loop
  | awaiting_dump got hphase hcol h =>
      rw [hphase] at hstep hs
      obtain ⟨hdone, hnext⟩ := Option.ite_none_right_eq_some.mp hstep
      cases hnext
      have hafter := rank_after_dump (f := f) hc
      rw [hs, List.append_nil]
      simp only
      omega
  -- the second exchange begins, and its moves were counted in `second`
  | clearing hwrite hphase _ h =>
      obtain ⟨hout, hback, -⟩ := h.whole (Midictl.message_dump _).ne_nil
      rw [hphase] at hstep hs
      cases hstep
      rw [hs]
      have hflat := flatten_chunks (show 0 < Midictl.CHUNK by decide)
        (Midictl.dumpMessage (bank f))
      have hall := Exchange.left_start _ Midictl.SUCCESS (Midictl.message_dump (bank f)).ne_nil
      simp only [rank, hout, hback, List.append_nil, hflat, hall, hwrite, second]
      omega
  | sending cs got _ hphase _ _ =>
      rw [hphase] at hstep hs
      cases cs with
      | nil =>
          cases hstep
          rw [hs]
          simp only [rank, List.append_nil, List.flatten_nil, List.length_nil]
          omega
      | cons piece cs =>
          cases hstep
          rw [hs]
          simp only [rank, Exchange.left_send, List.flatten_cons, List.length_cons]
          omega
  | awaiting_reply _ _ hphase _ _ =>
      rw [hphase] at hstep hs
      obtain ⟨-, hnext⟩ := Option.ite_none_right_eq_some.mp hstep
      cases hnext
      rw [hs]
      exact Nat.succ_le_succ (Nat.zero_le _)
  | ended _ hphase _ _ _ =>
      rw [hphase] at hstep
      cases hstep

/-- Every move of the protocol comes closer to the end, and a message of a keyboard does
not lead away from it. -/
theorem rank_step {l : SessionLabel} (hc : s.host.command = c) (h : Progress c f False s)
    (hl : l ≠ .timeout) (hstep : step s l = some s') :
    rank c f s' + (if l.own then 1 else 0) ≤ rank c f s := by
  cases l with
  | main =>
      obtain ⟨r, hmain, rfl⟩ := Option.map_eq_some_iff.mp hstep
      exact rank_main hc h hmain
  | timeout => exact absurd rfl hl
  -- each byte that the callback gets is a move, and there is one at least
  | callback n =>
      obtain ⟨hpos, hlen, hopen, rfl⟩ := callback_cases hstep
      have hrank : rank c f { s with
          host := { s.host with col := s.host.col.callback (s.to_host.take n) }
          to_host := s.to_host.drop n } + n ≤ rank c f s := by
        refine rank_device h rfl ?_ ?_ ?_
        · intro unsent got hd
          obtain ⟨taken, msg, hex, -⟩ := hd.exchange
          exact hex.left_deliver hlen
        · intro unsent got hw
          obtain ⟨taken, msg, hex, -⟩ := hw.exchange
          exact hex.left_deliver hlen
        · rintro - (hnil | hended)
          · rw [hnil] at hlen
            exact Nat.le_zero.mp hlen
          · rw [hended] at hopen
            cases hopen
      exact (Nat.add_le_add_left hpos _).trans hrank
  | byte =>
      obtain ⟨x, rest, -, hout, rfl⟩ := byte_cases hstep
      refine rank_device h rfl ?_ ?_ ?_
      · intro unsent got hd
        exact (Wired.byte Midictl.message_dump_req (serves_dump f) hd hout).2.2
      · intro unsent got hw
        exact (Wired.byte (Midictl.message_dump _) (serves_write f) hw hout).2.2
      · intro hnil
        rw [hnil] at hout
        cases hout
  -- a keyboard changes nothing that is counted
  | voice status d1 d2 =>
      rw [voice_cases hstep]
      refine rank_device h rfl ?_ ?_ fun _ _ => rfl
      · intro unsent got hd
        rw [(hd.voice status d1 d2).2]
        rfl
      · intro unsent got hw
        rw [(hw.voice status d1 d2).2]
        rfl

/-- An exchange whose reply is not there yet can go on. -/
theorem Wired.enabled {req rep got : List UInt8} {must : List (Effect F)}
    (h : Wired f req rep must [] got s) (hgot : got ≠ rep) (hhalted : s.halted = false)
    (hopen : s.host.phase.ended = false) : ∃ l, l.own = true ∧ (step s l).isSome = true := by
  obtain ⟨taken, msg, hex, -⟩ := h.exchange
  rcases hex.not_whole hgot with hout | hback
  · rw [List.append_nil] at hout
    obtain ⟨x, rest, hcons⟩ := List.exists_cons_of_ne_nil hout
    refine ⟨.byte, rfl, ?_⟩
    rw [step, hhalted, hcons]
    rfl
  · refine ⟨.callback s.to_host.length, rfl, ?_⟩
    rw [step, if_pos ⟨List.length_pos_iff.mpr hback, Nat.le_refl _, hopen⟩]
    rfl

/-- As long as the session is not over, and the device there, the protocol can go on. -/
theorem Progress.enabled (h : Progress c f late s) (hhalted : s.halted = false)
    (hopen : ∀ o, s.host.phase ≠ .finished o) : ∃ l, l.own = true ∧ (step s l).isSome = true := by
  have hmain : s.host.main.isSome = true → ∃ l, l.own = true ∧ (step s l).isSome = true := by
    intro hsome
    refine ⟨.main, rfl, ?_⟩
    rw [step, Option.isSome_map]
    exact hsome
  cases h with
  | asking hphase _ _ =>
      refine hmain ?_
      rw [Midictl.main, hphase]
      rfl
  | awaiting_dump got hphase hcol h =>
      obtain ⟨-, hdone⟩ := h.collected (Midictl.message_dump _) hcol
      -- with the whole reply `midictl` goes on, and without it the exchange does
      by_cases hgot : got = Midictl.dumpMessage (bank f)
      · refine hmain ?_
        rw [Midictl.main, hphase]
        simp only [hdone.mpr hgot, if_true, Option.isSome_some]
      · exact h.enabled hgot hhalted (by rw [hphase]; rfl)
  | clearing _ hphase _ _ =>
      refine hmain ?_
      rw [Midictl.main, hphase]
      rfl
  | sending cs _ _ hphase _ _ =>
      refine hmain ?_
      rw [Midictl.main, hphase]
      cases cs with
      | nil => rfl
      | cons piece cs => rfl
  | awaiting_reply got _ hphase hcol h =>
      obtain ⟨-, hdone⟩ := h.collected Midictl.message_success hcol
      by_cases hgot : got = Midictl.SUCCESS
      · refine hmain ?_
        rw [Midictl.main, hphase]
        simp only [hdone.mpr hgot, if_true, Option.isSome_some]
      · exact h.enabled hgot hhalted (by rw [hphase]; rfl)
  | ended o hphase _ _ _ => exact absurd hphase (hopen o)

omit [F32 F] in
/-- The moves of a whole `writeback`, the longer one of the two. -/
theorem rank_start (c : Command) (t : MidiTask F) : rank c t.flash (start c t) ≤ 114952 := by
  have hlen : (Midictl.dumpMessage (bank t.flash)).length = 57349 := by
    rw [Midictl.dumpMessage_length, MidiTask.bank_length]
    decide
  have hchunks : (chunks Midictl.CHUNK (Midictl.dumpMessage (bank t.flash))).length = 239 := by
    rw [chunks, List.length_map, List.length_range, hlen]
    decide
  have hfirst : rank c t.flash (start c t) = 5 + 57349 + second c t.flash + 2 := by
    show Exchange.left _ Midictl.DUMP_REQ [] [] + _ + _ = _
    rw [Exchange.left_start _ _ Midictl.message_dump_req.ne_nil, hlen]
    rfl
  rw [hfirst]
  cases c with
  | dump =>
      rw [second]
      omega
  | writeback =>
      rw [second, hlen, hchunks]
      exact Nat.le_refl _

end Rank

/-- **A session comes to its end.** Whatever keyboards send meanwhile: the two programs
make at most 114952 moves in a session in which no waiting loop gives up, and as long as the
device is there one of them can move until the session is over. -/
theorem session_ends {t : MidiTask F} (ht : Reachable t) (c : Command) {ls : List SessionLabel}
    {s : Session F} (h : Transition.run step (start c t) ls = some s) (hls : .timeout ∉ ls) :
    (ls.filter SessionLabel.own).length ≤ 114952
      ∧ (s.halted = true ∨ s.host.phase = .finished (answer c t.flash)
        ∨ ∃ l, l.own = true ∧ (step s l).isSome = true) := by
  obtain ⟨msg, hmsg⟩ := ht.follows
  have hrun := Transition.RunBy.of_run (P := fun l => l ≠ SessionLabel.timeout) h
    fun l hl heq => hls (heq ▸ hl)
  have hturns := @Transition.RunBy.turns_le _ _ step _
    (fun s => s.host.command = c ∧ Progress c t.flash False s) _ _ _ hrun SessionLabel.own
    (rank c t.flash) ?_ ⟨rfl, start_progress ht.sound hmsg⟩
  · refine ⟨(Nat.le_add_right _ _).trans (hturns.trans (rank_start c t)), ?_⟩
    cases hhalted : s.halted with
    | true => exact Or.inl rfl
    | false =>
        right
        by_cases hopen : ∀ o, s.host.phase ≠ .finished o
        · exact Or.inr ((run_progress ht h).2.enabled hhalted hopen)
        · left
          obtain ⟨o, ho⟩ := not_forall_not.mp hopen
          rcases (run_progress ht h).2.outcome ho with ⟨rfl, -⟩ | ⟨hlate, -⟩
          · exact ho
          · exact absurd hlate hls
  · rintro s l s' ⟨hc, hprogress⟩ hl hstep
    obtain ⟨hc', hnext⟩ := step_progress hc hprogress hstep
    refine ⟨⟨hc', hnext.mono ?_⟩, rank_step hc hprogress hl hstep⟩
    rintro (hfalse | heq)
    · exact hfalse
    · exact hl heq

/-! ## Sessions that end -/

/-- The protocol does not halt the device. -/
theorem Progress.halted {c : Command} {f : Flash} {late : Prop} {s s' : Session F}
    {l : SessionLabel} (h : Progress c f late s) (hhalted : s.halted = false) (hl : l.own = true)
    (hstep : step s l = some s') : s'.halted = false := by
  cases l with
  | main =>
      obtain ⟨r, -, rfl⟩ := Option.map_eq_some_iff.mp hstep
      exact hhalted
  | timeout => cases hl
  | callback n =>
      obtain ⟨-, -, -, rfl⟩ := callback_cases hstep
      exact hhalted
  | byte =>
      obtain ⟨x, rest, -, hout, rfl⟩ := byte_cases hstep
      rcases h.wired with ⟨_, _, h⟩ | ⟨_, _, h⟩
      · exact (Wired.byte Midictl.message_dump_req (serves_dump f) h hout).2.1
      · exact (Wired.byte (Midictl.message_dump _) (serves_write f) h hout).2.1
  | voice status d1 d2 => cases hl

/-- Left to itself, a session ends with the answer to its command. -/
theorem finishes {c : Command} {t : MidiTask F} (ht : Reachable t) {ls : List SessionLabel}
    {s : Session F} (h : Transition.run step (start c t) ls = some s) (hls : .timeout ∉ ls)
    (hhalted : s.halted = false) :
    ∃ ks u, .timeout ∉ ls ++ ks ∧ Transition.run step (start c t) (ls ++ ks) = some u
      ∧ u.host.phase = .finished (answer c t.flash) := by
  obtain ⟨hc, hprogress⟩ := run_progress ht h
  -- until the end a move of the protocol is there, and comes closer to it
  have hnext : ∀ s : Session F,
      (s.host.command = c ∧ Progress c t.flash False s ∧ s.halted = false) →
      (¬ ∃ o, s.host.phase = .finished o) → ∃ l s', l.own = true ∧ step s l = some s'
        ∧ (s'.host.command = c ∧ Progress c t.flash False s' ∧ s'.halted = false)
        ∧ rank c t.flash s' < rank c t.flash s := by
    rintro s ⟨hc, hprogress, hhalted⟩ hgoal
    obtain ⟨l, hl, hsome⟩ := hprogress.enabled hhalted (not_exists.mp hgoal)
    obtain ⟨s', hstep⟩ := Option.isSome_iff_exists.mp hsome
    have htime : l ≠ .timeout := by
      rintro rfl
      cases hl
    obtain ⟨hc', hprogress'⟩ := step_progress hc hprogress hstep
    have hless := rank_step hc hprogress htime hstep
    rw [hl, if_pos rfl] at hless
    exact ⟨l, s', hl, hstep, ⟨hc', hprogress'.mono (Or.rec id htime),
      hprogress.halted hhalted hl hstep⟩, hless⟩
  obtain ⟨ks, u, hks, hrun, ⟨-, hend, -⟩, o, ho⟩ := Transition.run_to_goal (rank c t.flash) hnext
    ⟨hc, hprogress.mono hls, hhalted⟩
  refine ⟨ks, u, ?_, Transition.run_trans h hrun, ?_⟩
  · intro hmem
    rcases List.mem_append.mp hmem with hpast | hlast
    · exact hls hpast
    · cases hks _ hlast
  · rcases hend.outcome ho with ⟨rfl, -⟩ | ⟨hlate, -⟩
    · exact ho
    · exact hlate.elim

/-- On an empty flash: a `writeback` that a keyboard plays into, and that ends with success,
and a `dump` that gives up behind its first byte. -/
theorem bank_undisturbed_writeback : ∃ (ls : List SessionLabel) (s u : Session ℝ),
    Transition.run step (start .writeback (entered ℝ (bootFlash fun _ => 0xFF)))
        ([.main, .voice 0x90 60 100] ++ ls) = some s
      ∧ s.host.phase = .finished .write_success
      ∧ rewrites (entered ℝ (bootFlash fun _ => 0xFF)).flash ∈ s.effects
      ∧ s.device.flash = (entered ℝ (bootFlash fun _ => 0xFF)).flash
      ∧ Transition.run step (start .dump (entered ℝ (bootFlash fun _ => 0xFF)))
        [.main, .byte, .timeout] = some u
      ∧ u.host.phase = .finished .bad_framing ∧ GaveUp .bad_framing
      ∧ u.device.flash = (entered ℝ (bootFlash fun _ => 0xFF)).flash := by
  have hreach := entered_reachable ℝ fun _ => 0xFF
  obtain ⟨ks, s, hks, hrun, hend⟩ := @finishes _ _ .writeback _ hreach [.main, .voice 0x90 60 100]
    _ rfl (by decide) rfl
  obtain ⟨hflash, hanswer⟩ := bank_undisturbed hreach .writeback hrun
  obtain ⟨hlate, hgaveup⟩ := @bank_undisturbed _ _ _ hreach .dump [.main, .byte, .timeout] _ rfl
  refine ⟨ks, s, _, hrun, hend, ?_, hflash, rfl, rfl, ?_, hlate⟩
  · rcases hanswer _ hend with ⟨-, hdid⟩ | ⟨hmem, -⟩
    · exact hdid rfl
    · exact absurd hmem hks
  · rcases hgaveup _ rfl with ⟨heq, -⟩ | ⟨-, hgave⟩
    · cases heq
    · exact hgave

/-- A `writeback` on an empty flash that a keyboard plays into: it can go on, and it comes
to its end. -/
theorem session_ends_writeback : ∃ (ls : List SessionLabel) (s u : Session ℝ),
    Transition.run step (start .writeback (entered ℝ (bootFlash fun _ => 0xFF)))
        [.main, .voice 0x90 60 100] = some s
      ∧ (∃ l, l.own = true ∧ (step s l).isSome = true)
      ∧ Transition.run step (start .writeback (entered ℝ (bootFlash fun _ => 0xFF)))
        ([.main, .voice 0x90 60 100] ++ ls) = some u
      ∧ u.host.phase = .finished .write_success
      ∧ (List.filter SessionLabel.own ([.main, .voice 0x90 60 100] ++ ls)).length ≤ 114952 := by
  have hreach := entered_reachable ℝ fun _ => 0xFF
  obtain ⟨ks, u, hks, hrun, hend⟩ := @finishes _ _ .writeback _ hreach [.main, .voice 0x90 60 100]
    _ rfl (by decide) rfl
  obtain ⟨-, hbegun⟩ := @session_ends _ _ _ hreach .writeback [.main, .voice 0x90 60 100] _ rfl
    (by decide)
  refine ⟨ks, _, u, rfl, ?_, hrun, hend, (session_ends hreach .writeback hrun hks).1⟩
  rcases hbegun with hhalted | hended | hnext
  · cases hhalted
  · cases hended
  · exact hnext

end Session

end PicoDsp
