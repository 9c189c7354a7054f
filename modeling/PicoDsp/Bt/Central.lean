/-
`central_loop` (`bt/mod.rs`), with `MidiScanHandler`, `pair` and `run_gatt`.

The loop runs from one answer of the BLE stack to the next; `Central.step` is one such
stretch, with what it puts into `BLE_MIDI_CHANNEL`. What the stack answers, when it
reports advertisements and when links end is anybody's guess, so a run is any list of
`StackEvent`. The parameters of scans and connections are left out.

The loop has eleven places to wait, and each answer is good or bad there. `Moves` sorts
the steps by what they mean for the target: a scan ends with one, an answer keeps it or
goes back to the top, and reports change only the signal. `step_moves` is the one place
where the definition of a step is unfolded, and every invariant is a case analysis of
`Moves`.

Reports also come while the loop connects or plays, and leave an address behind. The
reset in front of each scan makes sure that it is not the next target
(`connects_to_last_advertiser`). What has been advertised is not part of the state, so
the invariant speaks of the events so far (`Fresh`, `Sourced`), and the one event that
matters besides a report is the wake-up that ends a scan.
-/
import PicoDsp.Bt.Advertising
import PicoDsp.Bt.BleMidi
import PicoDsp.Lib.Transition

set_option autoImplicit false

namespace PicoDsp

open Lib Advertising

/-- `Address` of the stack: its kind and six bytes. -/
structure Address where
  kind : UInt8
  addr : Vector UInt8 6
  deriving DecidableEq

/-- An advertising report. -/
structure Report where
  address : Address
  data : List UInt8

def MIDI_SERVICE_UUID : Vector UInt8 16 :=
  #v[0x00, 0xC7, 0xC4, 0x4E, 0xE3, 0x6C, 0x51, 0xA7, 0x33, 0x4B, 0xE8, 0xED, 0x5A, 0x0E, 0xB8, 0x03]

/-- The message pushed after a session. -/
def CC_123 : BleMidi.Message := (0xB0, 123, 0)

/-- `ConnectionEvent`, as far as the code tells events apart. -/
inductive ConnectionEvent
  | PairingComplete
  | PairingFailed
  | Disconnected
  | RequestConnectionParams
  | ConnectionParamsUpdated
  | other
  deriving DecidableEq

/-- The future `work` of `run_gatt`. -/
inductive GattWork
  /-- `services_by_uuid` -/
  | discovering
  /-- `characteristic_by_uuid` -/
  | looking_up
  /-- `subscribe` -/
  | subscribing
  /-- The loop over `listener.next`. -/
  | listening
  deriving DecidableEq

/-- Where the loop waits. -/
inductive CentralPc
  /-- `scanner.scan` -/
  | scan_start
  /-- The second behind a scan that did not start. -/
  | scan_failed
  /-- `handler.wait` -/
  | waiting
  /-- `central.connect` -/
  | connecting (target : Address)
  /-- `conn.next` in `pair`. -/
  | pairing (target : Address)
  /-- `req.accept` in `pair`. -/
  | pairing_accept (target : Address)
  /-- `GattClient::new` -/
  | gatt_new (target : Address)
  /-- The `select` of `run_gatt`; `accepting` is the `req.accept` of `conn_events`. -/
  | gatt (target : Address) (work : GattWork) (accepting : Bool)
  deriving DecidableEq

namespace CentralPc

/-- The loop looks for a keyboard. -/
def Scanning : CentralPc → Prop
  | .scan_start | .scan_failed | .waiting => True
  | _ => False

/-- The keyboard that was chosen. -/
def target : CentralPc → Option Address
  | .scan_start | .scan_failed | .waiting => none
  | .connecting a | .pairing a | .pairing_accept a | .gatt_new a | .gatt a _ _ => some a

/-- The loop is in `run_gatt`. -/
def InGatt : CentralPc → Prop
  | .gatt_new _ | .gatt _ _ _ => True
  | _ => False

/-- While the loop scans no keyboard is chosen. -/
theorem target_of_scanning {pc : CentralPc} (h : pc.Scanning) : pc.target = none := by
  cases pc with
  | scan_start => rfl
  | scan_failed => rfl
  | waiting => rfl
  | connecting a => exact h.elim
  | pairing a => exact h.elim
  | pairing_accept a => exact h.elim
  | gatt_new a => exact h.elim
  | gatt a work accepting => exact h.elim

end CentralPc

/-- What the stack does. -/
inductive StackEvent
  /-- `on_adv_reports`; a report that is malformed is `none`. -/
  | adv_reports (it : List (Option Report))
  | scan (ok : Bool)
  | timer
  /-- The loop finds the signal set. -/
  | wake
  /-- `connect` fails. -/
  | connect_failed
  /-- `connect` returns, and `set_bondable` and `request_security` of the connection. -/
  | connected (set_bondable request_security : Bool)
  | event (e : ConnectionEvent)
  | accepted (ok : Bool)
  | client (ok : Bool)
  /-- The number of services found, or an error. -/
  | services (found : Option ℕ)
  | characteristic (ok : Bool)
  | subscribed (ok : Bool)
  | notification (packet : List UInt8)
  /-- `client.task` ends. -/
  | task_ended

structure Central where
  pc : CentralPc
  /-- The signal of the `MidiScanHandler`. -/
  found : Option Address
  BT_CONNECTED : Bool

namespace Central

/-- The loop of `on_adv_reports`; it ends at a malformed report. -/
def on_adv_reports (found : Option Address) : List (Option Report) → Option Address
  | some report :: it =>
      on_adv_reports
        (if adv_contains_uuid report.data MIDI_SERVICE_UUID = some true then some report.address
          else found) it
  | _ => found

/-- The top of the loop. -/
def scan (self : Central) : Central := { self with found := none, pc := .scan_start }

/-- Behind `run_gatt`, and back to the top. -/
def after_gatt (self : Central) : Central × List BleMidi.Message :=
  ({ self with BT_CONNECTED := false }.scan, [CC_123])

/-- `pair` goes on with an event. -/
def pair (self : Central) (target : Address) : ConnectionEvent → Central
  | .PairingComplete => { self with BT_CONNECTED := true, pc := .gatt_new target }
  | .PairingFailed | .Disconnected => self.scan
  | .RequestConnectionParams => { self with pc := .pairing_accept target }
  | .ConnectionParamsUpdated | .other => { self with pc := .pairing target }

/-- `conn_events` goes on with an event. -/
def conn_events (self : Central) (target : Address) (work : GattWork) :
    ConnectionEvent → Central × List BleMidi.Message
  | .Disconnected => self.after_gatt
  | .RequestConnectionParams => ({ self with pc := .gatt target work true }, [])
  | _ => ({ self with pc := .gatt target work false }, [])

/-- `work` goes on when an answer is good, and ends otherwise. -/
def go_on (self : Central) (ok : Bool) (pc : CentralPc) : Central × List BleMidi.Message :=
  if ok then ({ self with pc := pc }, []) else self.after_gatt

def step (self : Central) (e : StackEvent) : Option (Central × List BleMidi.Message) :=
  match self.pc, e with
  | _, .adv_reports it => some ({ self with found := on_adv_reports self.found it }, [])
  | .scan_start, .scan ok =>
      some ({ self with pc := if ok then .waiting else .scan_failed }, [])
  | .scan_failed, .timer => some ({ self with pc := .scan_start }, [])
  | .waiting, .wake =>
      self.found.map fun addr => ({ self with found := none, pc := .connecting addr }, [])
  | .connecting _, .connect_failed => some (self.scan, [])
  | .connecting target, .connected set_bondable request_security =>
      some (if set_bondable && request_security then { self with pc := .pairing target }
        else self.scan, [])
  | .pairing target, .event e => some (self.pair target e, [])
  | .pairing_accept target, .accepted _ => some ({ self with pc := .pairing target }, [])
  | .gatt_new target, .client ok => some (self.go_on ok (.gatt target .discovering false))
  | .gatt _ _ _, .task_ended => some self.after_gatt
  | .gatt target .discovering accepting, .services found =>
      some (self.go_on (0 < found.getD 0) (.gatt target .looking_up accepting))
  | .gatt target .looking_up accepting, .characteristic ok =>
      some (self.go_on ok (.gatt target .subscribing accepting))
  | .gatt target .subscribing accepting, .subscribed ok =>
      some (self.go_on ok (.gatt target .listening accepting))
  | .gatt _ .listening _, .notification packet => some (self, BleMidi.parse_ble_midi packet)
  | .gatt target work false, .event e => some (self.conn_events target work e)
  | .gatt target work true, .accepted _ =>
      some ({ self with pc := .gatt target work false }, [])
  | _, _ => none

/-- The loop, for the first time at its scan. -/
def start : Central := ⟨.scan_start, none, false⟩

/-- The next state alone. -/
def next (self : Central) (e : StackEvent) : Option Central := (self.step e).map Prod.fst

/-! ## Advertisements -/

/-- The reports in front of a malformed one. -/
def readable : List (Option Report) → List Report
  | some report :: it => report :: readable it
  | _ => []

/-- The keyboard that the reports leave in the signal: the last one that lists the MIDI
service. -/
def LastAdvertiser (it : List (Option Report)) (a : Address) : Prop :=
  ∃ pre report post, readable it = pre ++ report :: post ∧ report.address = a
    ∧ adv_contains_uuid report.data MIDI_SERVICE_UUID = some true
    ∧ ∀ later ∈ post, adv_contains_uuid later.data MIDI_SERVICE_UUID = some false

/-- On no report does the handler read past its data. -/
theorem contains_or_not (data : List UInt8) :
    adv_contains_uuid data MIDI_SERVICE_UUID = some true
      ∨ adv_contains_uuid data MIDI_SERVICE_UUID = some false := by
  obtain ⟨ss, tail, rfl, htail⟩ := exists_structures data
  obtain ⟨b, hrun, -⟩ := contains_structures ss htail MIDI_SERVICE_UUID
  cases b with
  | true => exact Or.inl hrun
  | false => exact Or.inr hrun

/-- What reports leave behind: the last advertiser, or what was there. -/
theorem on_adv_reports_cases (it : List (Option Report)) (found : Option Address) :
    (∃ a, LastAdvertiser it a ∧ on_adv_reports none it = some a
        ∧ on_adv_reports found it = some a)
      ∨ on_adv_reports none it = none ∧ on_adv_reports found it = found
        ∧ ∀ report ∈ readable it, adv_contains_uuid report.data MIDI_SERVICE_UUID = some false := by
  induction it generalizing found with
  | nil => exact Or.inr ⟨rfl, rfl, fun report h => by cases h⟩
  | cons report it ih =>
      cases report with
      | none => exact Or.inr ⟨rfl, rfl, fun report h => by cases h⟩
      | some report =>
          rw [on_adv_reports, on_adv_reports]
          rcases contains_or_not report.data with hmidi | hother
          · rw [if_pos hmidi, if_pos hmidi]
            left
            rcases ih (some report.address) with ⟨a, ⟨pre, r, post, heq, hr⟩, -, hlast⟩ | ⟨-, hfirst, hnone⟩
            · exact ⟨a, ⟨report :: pre, r, post, congrArg (report :: ·) heq, hr⟩, hlast, hlast⟩
            · exact ⟨report.address, ⟨[], report, _, rfl, rfl, hmidi, hnone⟩, hfirst, hfirst⟩
          · have hnot : ¬ adv_contains_uuid report.data MIDI_SERVICE_UUID = some true := by
              rw [hother]
              decide
            rw [if_neg hnot, if_neg hnot]
            rcases ih found with ⟨a, ⟨pre, r, post, heq, hr⟩, hlast⟩ | ⟨hnone, hsame, hall⟩
            · exact Or.inl ⟨a, ⟨report :: pre, r, post, congrArg (report :: ·) heq, hr⟩, hlast⟩
            · exact Or.inr ⟨hnone, hsame, List.forall_mem_cons.mpr ⟨hother, hall⟩⟩

/-! ## What a step can do -/

/-- The reports of the event set the signal. -/
def Advertises (e : StackEvent) : Prop := ∃ it a, e = .adv_reports it ∧ LastAdvertiser it a

/-- An answer of the stack, that is neither a report nor the signal. -/
def IsAnswer (e : StackEvent) : Prop := e ≠ .wake ∧ ∀ it, e ≠ .adv_reports it

/-- The moves of the loop. -/
inductive Moves (s : Central) : StackEvent → Central → List BleMidi.Message → Prop
  | reports (it : List (Option Report)) :
      Moves s (.adv_reports it) { s with found := on_adv_reports s.found it } []
  | search {e : StackEvent} (he : IsAnswer e) (pc : CentralPc) (hpc : s.pc.Scanning)
      (hscan : pc.Scanning) : Moves s e { s with pc := pc } []
  | choose (addr : Address) (hpc : s.pc = .waiting) (hfound : s.found = some addr) :
      Moves s .wake { s with found := none, pc := .connecting addr } []
  | go_on {e : StackEvent} (he : IsAnswer e) (pc : CentralPc) (target : Address)
      (hpc : s.pc.target = some target) (hnext : pc.target = some target)
      (hgatt : pc.InGatt ↔ s.pc.InGatt) : Moves s e { s with pc := pc } []
  | complete (target : Address) (hpc : s.pc = .pairing target) :
      Moves s (.event .PairingComplete)
        { s with BT_CONNECTED := true, pc := .gatt_new target } []
  | plays (packet : List UInt8) (target : Address) (accepting : Bool)
      (hpc : s.pc = .gatt target .listening accepting) :
      Moves s (.notification packet) s (BleMidi.parse_ble_midi packet)
  | gives_up {e : StackEvent} (he : IsAnswer e) (hpc : ¬ s.pc.Scanning) (hgatt : ¬ s.pc.InGatt) :
      Moves s e s.scan []
  | ends {e : StackEvent} (he : IsAnswer e) (hgatt : s.pc.InGatt) :
      Moves s e s.after_gatt.1 [CC_123]

/-- An event of the connection is an answer. -/
theorem isAnswer_event (e : ConnectionEvent) : IsAnswer (.event e) := by
  constructor
  · intro h
    cases h
  · intro it h
    cases h

/-- `go_on` goes on or ends the session. -/
theorem moves_go_on {s s' : Central} {ms : List BleMidi.Message} {e : StackEvent}
    (he : IsAnswer e) {ok : Bool} {pc : CentralPc} {target : Address}
    (hpc : s.pc.target = some target) (hin : s.pc.InGatt) (hnext : pc.target = some target)
    (hgatt : pc.InGatt) (h : s.go_on ok pc = (s', ms)) : Moves s e s' ms := by
  unfold go_on at h
  split at h
  · cases h
    exact .go_on he pc target hpc hnext (iff_of_true hgatt hin)
  · cases h
    exact .ends he hin

/-- **Every step is one of the moves.** -/
theorem step_moves {s s' : Central} {e : StackEvent} {ms : List BleMidi.Message}
    (h : s.step e = some (s', ms)) : Moves s e s' ms := by
  unfold step at h
  split at h
  -- a report
  · cases h
    exact .reports _
  -- the scan
  · rename_i ok hpc
    cases h
    refine .search (by simp [IsAnswer]) _ (by rw [hpc]; trivial) ?_
    cases ok with
    | true => trivial
    | false => trivial
  · rename_i hpc
    cases h
    exact .search (by simp [IsAnswer]) _ (by rw [hpc]; trivial) trivial
  · rename_i hpc
    obtain ⟨addr, hfound, heq⟩ := Option.map_eq_some_iff.mp h
    cases heq
    exact .choose addr hpc hfound
  -- the connection
  · rename_i target hpc
    cases h
    refine .gives_up (by simp [IsAnswer]) ?_ ?_
    · rw [hpc]
      exact id
    · rw [hpc]
      exact id
  · rename_i target bondable security hpc
    cases hboth : bondable && security with
    | true =>
        rw [hboth] at h
        cases h
        exact .go_on (by simp [IsAnswer]) _ target (by rw [hpc]; rfl) rfl
          (by rw [hpc]; exact Iff.rfl)
    | false =>
        rw [hboth] at h
        cases h
        refine .gives_up (by simp [IsAnswer]) ?_ ?_
        · rw [hpc]
          exact id
        · rw [hpc]
          exact id
  · rename_i target e hpc
    have hgives : Moves s (.event e) s.scan [] := by
      refine .gives_up (isAnswer_event e) ?_ ?_
      · rw [hpc]
        exact id
      · rw [hpc]
        exact id
    have hgoes : ∀ pc : CentralPc, pc.target = some target → ¬ pc.InGatt →
        Moves s (.event e) { s with pc := pc } [] := by
      intro pc hnext hgatt
      refine .go_on (isAnswer_event e) pc target (by rw [hpc]; rfl) hnext (iff_of_false hgatt ?_)
      rw [hpc]
      exact id
    cases e with
    | PairingComplete =>
        cases h
        exact .complete target hpc
    | PairingFailed =>
        cases h
        exact hgives
    | Disconnected =>
        cases h
        exact hgives
    | RequestConnectionParams =>
        cases h
        exact hgoes _ rfl id
    | ConnectionParamsUpdated =>
        cases h
        exact hgoes _ rfl id
    | other =>
        cases h
        exact hgoes _ rfl id
  · rename_i target ok hpc
    cases h
    exact .go_on (by simp [IsAnswer]) _ target (by rw [hpc]; rfl) rfl (by rw [hpc]; exact Iff.rfl)
  -- the session
  · rename_i target ok hpc
    refine moves_go_on (by simp [IsAnswer]) (by rw [hpc]; rfl) (by rw [hpc]; trivial) ?_ ?_
      (Option.some.inj h)
    · rfl
    · trivial
  · rename_i target work accepting hpc
    cases h
    exact .ends (by simp [IsAnswer]) (by rw [hpc]; trivial)
  · rename_i target accepting found hpc
    refine moves_go_on (by simp [IsAnswer]) (by rw [hpc]; rfl) (by rw [hpc]; trivial) ?_ ?_
      (Option.some.inj h)
    · rfl
    · trivial
  · rename_i target accepting ok hpc
    refine moves_go_on (by simp [IsAnswer]) (by rw [hpc]; rfl) (by rw [hpc]; trivial) ?_ ?_
      (Option.some.inj h)
    · rfl
    · trivial
  · rename_i target accepting ok hpc
    refine moves_go_on (by simp [IsAnswer]) (by rw [hpc]; rfl) (by rw [hpc]; trivial) ?_ ?_
      (Option.some.inj h)
    · rfl
    · trivial
  · rename_i target accepting packet hpc
    cases h
    exact .plays packet target accepting hpc
  · rename_i target work e hpc
    have hgoes : ∀ accepting, Moves s (.event e) { s with pc := .gatt target work accepting } [] := by
      intro accepting
      refine .go_on (isAnswer_event e) _ target (by rw [hpc]; rfl) rfl ?_
      rw [hpc]
      exact Iff.rfl
    cases e with
    | Disconnected =>
        cases h
        exact .ends (isAnswer_event _) (by rw [hpc]; trivial)
    | RequestConnectionParams =>
        cases h
        exact hgoes true
    | PairingComplete =>
        cases h
        exact hgoes false
    | PairingFailed =>
        cases h
        exact hgoes false
    | ConnectionParamsUpdated =>
        cases h
        exact hgoes false
    | other =>
        cases h
        exact hgoes false
  · rename_i target work ok hpc
    cases h
    exact .go_on (by simp [IsAnswer]) _ target (by rw [hpc]; rfl) rfl (by rw [hpc]; exact Iff.rfl)
  · cases h

/-- The flag is up exactly in `run_gatt`. -/
theorem Moves.connected_iff {s s' : Central} {e : StackEvent} {ms : List BleMidi.Message}
    (h : Moves s e s' ms) (hs : s.BT_CONNECTED = true ↔ s.pc.InGatt) :
    s'.BT_CONNECTED = true ↔ s'.pc.InGatt := by
  cases h with
  | reports it => exact hs
  | search _ pc hpc hscan =>
      have hout : ∀ {pc : CentralPc}, pc.Scanning → ¬ pc.InGatt := by
        intro pc hscan hgatt
        cases pc with
        | gatt_new a => exact hscan
        | gatt a work accepting => exact hscan
        | _ => exact hgatt
      exact hs.trans (iff_of_false (hout hpc) (hout hscan))
  | choose addr hpc _ =>
      refine hs.trans (iff_of_false ?_ id)
      rw [hpc]
      exact id
  | go_on _ pc target _ _ hgatt => exact hs.trans hgatt.symm
  | complete target _ => exact iff_of_true rfl trivial
  | plays packet target accepting _ => exact hs
  | gives_up _ _ hgatt => exact hs.trans (iff_of_false hgatt id)
  | ends _ _ => exact iff_of_false Bool.false_ne_true id

/-! ## The target -/

/-- The keyboard `a` advertised in this scan, and no other one after it. -/
def Fresh (past : List StackEvent) (a : Address) : Prop :=
  ∃ before it between u, past = before ++ .adv_reports it :: between
    ∧ Transition.run next start before = some u ∧ u.pc.Scanning ∧ LastAdvertiser it a
    ∧ ∀ e ∈ between, e ≠ .wake ∧ ¬ Advertises e

/-- An advertisement stays the last one until there is another, or a scan ends. -/
theorem Fresh.snoc {past : List StackEvent} {a : Address} {e : StackEvent} (h : Fresh past a)
    (hwake : e ≠ .wake) (he : ¬ Advertises e) : Fresh (past ++ [e]) a := by
  obtain ⟨before, it, between, u, rfl, hrun, hscan, hit, hbetween⟩ := h
  refine ⟨before, it, between ++ [e], u, ?_, hrun, hscan, hit, ?_⟩
  · rw [List.append_assoc, List.cons_append]
  · intro x hx
    rcases List.mem_append.mp hx with hx | hx
    · exact hbetween x hx
    · rw [List.mem_singleton.mp hx]
      exact ⟨hwake, he⟩

/-- Where the addresses come from. -/
structure Sourced (past : List StackEvent) (s : Central) : Prop where
  run : Transition.run next start past = some s
  found : s.pc.Scanning → ∀ a, s.found = some a → Fresh past a
  target : ∀ a, s.pc.target = some a →
    ∃ scan since, past = scan ++ .wake :: since ∧ Fresh scan a ∧ .wake ∉ since

/-- What is not a report advertises nothing. -/
theorem IsAnswer.advertises {e : StackEvent} (h : IsAnswer e) : ¬ Advertises e := by
  rintro ⟨it, a, rfl, -⟩
  exact h.2 it rfl

/-- One more event that does not wake the loop. -/
theorem target_snoc {past : List StackEvent} {e : StackEvent} {a : Address} (he : e ≠ .wake)
    (h : ∃ scan since, past = scan ++ .wake :: since ∧ Fresh scan a ∧ .wake ∉ since) :
    ∃ scan since, past ++ [e] = scan ++ .wake :: since ∧ Fresh scan a ∧ .wake ∉ since := by
  obtain ⟨scan, since, rfl, hfresh, hsince⟩ := h
  refine ⟨scan, since ++ [e], ?_, hfresh, ?_⟩
  · rw [List.append_assoc, List.cons_append]
  · rw [List.mem_append, List.mem_singleton]
    rintro (hin | heq)
    · exact hsince hin
    · exact he heq.symm

/-- At the top of the loop there is no address. -/
theorem Sourced.of_none {past : List StackEvent} {s : Central}
    (h : Transition.run next start past = some s) (hfound : s.found = none)
    (htarget : s.pc.target = none) : Sourced past s := by
  refine ⟨h, fun _ a ha => ?_, fun a ha => ?_⟩
  · cases hfound.symm.trans ha
  · cases htarget.symm.trans ha

/-- **Every step** leaves the addresses with a source: a report in this scan, or the scan
that chose the keyboard. -/
theorem Sourced.step {past : List StackEvent} {s s' : Central} {e : StackEvent}
    {ms : List BleMidi.Message} (h : Sourced past s) (hstep : s.step e = some (s', ms)) :
    Sourced (past ++ [e]) s' := by
  have hrun : Transition.run next start (past ++ [e]) = some s' := by
    rw [Transition.run_append, h.run]
    show ((s.next e).bind fun s' => some s') = _
    rw [next, hstep]
    rfl
  have hmoves := step_moves hstep
  cases hmoves with
  | reports it =>
      refine ⟨hrun, ?_, fun a ha => target_snoc (by simp) (h.target a ha)⟩
      intro hscan a ha
      rcases on_adv_reports_cases it s.found with ⟨b, hb, -, hset⟩ | ⟨hnone, hsame, hother⟩
      · cases hset.symm.trans ha
        exact ⟨past, it, [], s, rfl, h.run, hscan, hb, fun e he => by cases he⟩
      · refine (h.found hscan a (hsame.symm.trans ha)).snoc (by simp) ?_
        -- none of these reports lists the service
        rintro ⟨it', b, heq, pre, report, post, hread, -, hmidi, -⟩
        cases heq
        have hin : report ∈ readable it := by
          rw [hread]
          exact List.mem_append_right _ List.mem_cons_self
        cases (hother report hin).symm.trans hmidi
  | search he pc hpc hscan =>
      refine ⟨hrun, fun _ a ha => (h.found hpc a ha).snoc he.1 he.advertises, ?_⟩
      intro a ha
      cases (CentralPc.target_of_scanning hscan).symm.trans ha
  | choose addr hpc hfound =>
      refine ⟨hrun, fun hscan => hscan.elim, ?_⟩
      intro a ha
      cases ha
      exact ⟨past, [], rfl, h.found (by rw [hpc]; trivial) addr hfound, List.not_mem_nil⟩
  | go_on he pc target hpc hnext _ =>
      refine ⟨hrun, ?_, ?_⟩
      · intro hscan
        cases (CentralPc.target_of_scanning hscan).symm.trans hnext
      · intro a ha
        exact target_snoc he.1 (h.target a (hpc.trans (hnext.symm.trans ha)))
  | complete target hpc =>
      refine ⟨hrun, fun hscan => hscan.elim, ?_⟩
      intro a ha
      refine target_snoc (by simp) (h.target a ?_)
      rw [hpc]
      exact ha
  | plays packet target accepting hpc =>
      refine ⟨hrun, ?_, fun a ha => target_snoc (by simp) (h.target a ha)⟩
      intro hscan
      rw [hpc] at hscan
      exact hscan.elim
  | gives_up he _ _ => exact .of_none hrun rfl rfl
  | ends he _ => exact .of_none hrun rfl rfl

/-- **The loop connects to the last advertiser of the scan.** In every run, whatever the
stack answers and whenever it reports: the keyboard that the loop connects to, pairs with or
plays is the last one whose advertisement lists the MIDI service among those that came since
this scan began. A report that came while it was connected is never the next target. -/
theorem connects_to_last_advertiser {es : List StackEvent} {s : Central} {a : Address}
    (h : Transition.run next start es = some s) (ha : s.pc.target = some a) :
    ∃ scan since, es = scan ++ .wake :: since ∧ .wake ∉ since ∧ Fresh scan a := by
  have hrun := Transition.RunBy.of_run (P := fun _ => True) h fun _ _ => trivial
  have hsourced : Sourced es s := by
    refine hrun.invariant_trace ?_ (.of_none rfl rfl rfl)
    intro past s e s' hpast _ hstep
    obtain ⟨⟨u, ms⟩, hone, rfl⟩ := Option.map_eq_some_iff.mp hstep
    exact hpast.step hone
  obtain ⟨scan, since, heq, hfresh, hsince⟩ := hsourced.target a ha
  exact ⟨scan, since, heq, hsince, hfresh⟩

/-- An advertisement of the MIDI service. -/
def midiAd : AdStructure := ⟨0x07, MIDI_SERVICE_UUID.toList, by decide⟩

/-- The advertisement lists the service. -/
theorem midiAd_contains :
    adv_contains_uuid midiAd.encode MIDI_SERVICE_UUID = some true := by
  have h := contains_encode midiAd [] MIDI_SERVICE_UUID
  rw [List.append_nil, if_pos (by decide)] at h
  exact h

/-- So its sender is found. -/
theorem midiAd_found (a : Address) : on_adv_reports none [some ⟨a, midiAd.encode⟩] = some a :=
  if_pos midiAd_contains

/-- A keyboard, found at once. -/
theorem connects_to_last_advertiser_one :
    ∃ s scan since, Transition.run next start
        [.scan true, .adv_reports [some ⟨⟨0, Vector.replicate 6 1⟩, midiAd.encode⟩], .wake] = some s
      ∧ s.pc = .connecting ⟨0, Vector.replicate 6 1⟩
      ∧ [.scan true, .adv_reports [some ⟨⟨0, Vector.replicate 6 1⟩, midiAd.encode⟩], .wake]
        = scan ++ .wake :: since
      ∧ .wake ∉ since ∧ Fresh scan ⟨0, Vector.replicate 6 1⟩ := by
  have hscan : next start (.scan true) = some ⟨.waiting, none, false⟩ := rfl
  have hreport : next ⟨.waiting, none, false⟩
      (.adv_reports [some ⟨⟨0, Vector.replicate 6 1⟩, midiAd.encode⟩])
      = some ⟨.waiting, some ⟨0, Vector.replicate 6 1⟩, false⟩ := by
    show some (⟨.waiting, on_adv_reports none _, false⟩ : Central) = _
    rw [midiAd_found]
  have hrun : Transition.run next start
      [.scan true, .adv_reports [some ⟨⟨0, Vector.replicate 6 1⟩, midiAd.encode⟩], .wake]
      = some ⟨.connecting ⟨0, Vector.replicate 6 1⟩, none, false⟩ :=
    Transition.run_step hscan (Transition.run_step hreport rfl)
  obtain ⟨scan, since, heq, hsince, hfresh⟩ := connects_to_last_advertiser hrun rfl
  exact ⟨_, scan, since, hrun, rfl, heq, hsince, hfresh⟩

end Central

end PicoDsp
