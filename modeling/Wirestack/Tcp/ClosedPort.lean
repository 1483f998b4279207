import Wirestack.Tcp.Replies

set_option autoImplicit false

/-! # The reset that a closed port sends back

A host with nothing behind a port answers a segment with `makeClosedPortReset`, which is built from
the segment alone. The connection that sent the segment recognises the reset by a number that
depends on its state: SYN-SENT compares the acknowledgment number with `sndNxt`, SYN-RECEIVED the
sequence number with `remoteIsn + 1`, and every other state the sequence number with `rcvNxt`.
`Connection.AcceptsReset` states the three rules, `Connection.Provokes` says of a segment that the
reset it provokes meets the rule of the connection's state. Every segment of a call but the fast
retransmission does so for the connection the call leaves, and goes on to do so until the connection
is given a segment again. The last section is about resets of any kind: the code tests the flag at a
different point in each state, and at each of them a reset is answered by nothing. -/

namespace Wirestack

open List TcpConnectionTable

variable {memory : ℕ → Byte} {segment : TcpSegment} {now : TimePoint} {result : TcpReceiveResult}
  {e : Event} {c : Connection} {key : TcpConnectionKey}

/-! ## Ports -/

/-- The segment goes from the local port of the key to the remote one. -/
structure TcpSegment.SentUnder (segment : TcpSegment) (key : TcpConnectionKey) : Prop where
  sourcePort : segment.sourcePort = key.localPort
  destinationPort : segment.destinationPort = key.remotePort

section Ports

variable {key : TcpConnectionKey} {c c' : Connection} {sent : TcpSegment}

theorem ScheduledBy.sentUnder (h : ScheduledBy key c sent) : sent.SentUnder key := by
  cases h <;> exact ⟨rfl, rfl⟩

theorem ResentFrom.sentUnder (h : ResentFrom key c sent) : sent.SentUnder key := by
  obtain ⟨c₁, e, -, -, rfl⟩ := h
  exact ⟨rfl, rfl⟩

theorem HandleKept.sentUnder (h : HandleKept memory key c segment now c' result)
    (hmem : sent ∈ result.handedBack) : sent.SentUnder key := by
  cases h with
  | ignored reply hreply =>
    rw [hreply sent (by simpa [TcpReceiveResult.handedBack] using hmem)]
    exact ⟨rfl, rfl⟩
  | established options _ _ _ _ _ | resent _ _ _ _ =>
    rw [show sent = _ by simpa [TcpReceiveResult.handedBack] using hmem]
    exact ⟨rfl, rfl⟩
  | completed => cases hmem
  | restarted =>
    rw [show sent = _ by simpa [TcpReceiveResult.handedBack] using hmem]
    exact ⟨rfl, rfl⟩
  | processed options outcome _ _ _ hout =>
    rcases hout.mem_emitted hmem with ⟨mostRecent, rfl⟩ | hfast | hscheduled
    · exact ⟨rfl, rfl⟩
    · exact (processAck_resent hfast).sentUnder
    · exact (scheduleIfSendable_scheduled hscheduled).sentUnder

theorem CallKept.sentUnder (h : CallKept key c e c') (hmem : sent ∈ e.emitted) :
    sent.SentUnder key := by
  cases h with
  | idle _ hemitted =>
    simp [hemitted] at hmem
  | handle memory segment now _ result hkept =>
    exact hkept.sentUnder (by simpa [TcpReceiveResult.handedBack] using hmem)
  | sent payload now =>
    have hmem : sent ∈ (scheduleQueuedData key { c with unsent := c.unsent ++ payload } now).2 := by
      simpa using hmem
    exact (scheduleQueuedData_scheduled hmem).sentUnder
  | closed now =>
    have hmem : sent ∈ (maybeSequenceFin key { c with closeRequested := true } now []).2 := by
      refine mem_of_mem_head? ?_
      simpa using hmem
    rcases mem_maybeSequenceFin hmem with hnil | rfl
    · cases hnil
    · exact ⟨rfl, rfl⟩
  | disarmed => cases hmem
  | probed _ _ _ _ _ | resent oldest rest now _ _ _ _ =>
    rw [show sent = _ by simpa using hmem]
    exact ⟨rfl, rfl⟩

end Ports

/-! ## The resets that a connection accepts -/

/-- What each state compares an incoming reset with. -/
inductive Connection.AcceptsReset (c : Connection) (reset : TcpSegment) : Prop where
  | synSent : c.state = .synSent → reset.flags.ack = true →
      reset.acknowledgmentNumber = c.sndNxt → c.AcceptsReset reset
  | synReceived : c.state = .synReceived → reset.sequenceNumber = c.remoteIsn + 1 →
      c.AcceptsReset reset
  | synchronized : c.state.synchronized = true → reset.sequenceNumber = c.rcvNxt →
      c.AcceptsReset reset

theorem Connection.AcceptsReset.removes {reset : TcpSegment} (h : c.AcceptsReset reset)
    (hrst : reset.flags.rst = true) (hsyn : reset.flags.syn = false) (hoptions : reset.options = [])
    (memory : ℕ → Byte) (key : TcpConnectionKey) (now : TimePoint) :
    (handleExisting memory key c reset now).1 = none ∧
      (handleExisting memory key c reset now).2.handedBack = [] := by
  have hparse : parseTcpOptions reset.options = .ok {} := by
    rw [hoptions]
    rfl
  cases h with
  | synSent hstate hack hnum =>
    have hhandle : handleSynSent key c reset now =
        ({ c with pendingRemoval := true }, { connectionReset := true }) := by
      simp [handleSynSent, hparse, hrst, hack, hnum]
    have hexisting : handleExisting memory key c reset now =
        (none, { connectionReset := true }) := by
      simp only [handleExisting, hstate, hhandle]
      rfl
    rw [hexisting]
    exact ⟨rfl, rfl⟩
  | synReceived hstate hseq =>
    have hhandle : handleSynReceived key c reset now = (none, {}) := by
      simp [handleSynReceived, hrst, hseq]
    have hexisting : handleExisting memory key c reset now = (none, {}) := by
      simp only [handleExisting, hstate, hhandle]
    rw [hexisting]
    exact ⟨rfl, rfl⟩
  | synchronized hsync hseq =>
    by_cases hwait : c.state = .timeWait
    · have hhandle : handleTimeWait key c reset now = ({ c with pendingRemoval := true }, {}) := by
        simp [handleTimeWait, hrst, hseq]
      rw [handleExisting_of_timeWait memory key reset now hwait, hhandle]
      exact ⟨rfl, rfl⟩
    · have hhandle : handleSynchronized memory key c reset now =
          ({ c with pendingRemoval := true }, { connectionReset := true }) := by
        simp [handleSynchronized, hsyn, hparse, hrst, hseq]
      rw [handleExisting_of_synchronized memory key reset now hsync hwait, hhandle]
      exact ⟨rfl, rfl⟩

/-! ## The segments that provoke such a reset -/

theorem makeClosedPortReset_flags (incoming : TcpSegment) :
    (makeClosedPortReset incoming).flags = { rst := true, ack := !incoming.flags.ack } := by
  unfold makeClosedPortReset
  by_cases hack : incoming.flags.ack = true
  · rw [if_pos hack, hack]
    rfl
  · rw [if_neg hack, Bool.eq_false_iff.2 hack]
    rfl

theorem makeClosedPortReset_options (incoming : TcpSegment) :
    (makeClosedPortReset incoming).options = [] := by
  unfold makeClosedPortReset
  split_ifs <;> rfl

theorem makeClosedPortReset_ports (incoming : TcpSegment) :
    (makeClosedPortReset incoming).sourcePort = incoming.destinationPort ∧
      (makeClosedPortReset incoming).destinationPort = incoming.sourcePort := by
  unfold makeClosedPortReset
  split_ifs <;> exact ⟨rfl, rfl⟩

/-- The connection accepts the reset with which a closed port answers the segment. -/
def Connection.Provokes (c : Connection) (segment : TcpSegment) : Prop :=
  c.AcceptsReset (makeClosedPortReset segment)

section Provokes

variable {key : TcpConnectionKey} {c c' : Connection} {sent : TcpSegment}

theorem Connection.Provokes.of_ack (hsync : c.state.synchronized = true)
    (hack : sent.flags.ack = true) (hnum : sent.acknowledgmentNumber = c.rcvNxt) :
    c.Provokes sent := by
  refine .synchronized hsync ?_
  rwa [makeClosedPortReset, if_pos hack]

theorem OpensWith.provokes (hopen : HalfOpen c) (h : OpensWith c sent) : c.Provokes sent := by
  rcases hopen with hsent | hreceived
  · have hstate : c.state = .synSent := congrArg ControlView.state hsent.control
    have hnxt : c.sndNxt = c.localIsn + 1 := congrArg SendView.sndNxt hsent.send
    have hflags : sent.flags = { syn := true } := by
      rw [h.flags, hstate]
      rfl
    refine .synSent hstate ?_ ?_
    · simp [makeClosedPortReset, hflags]
    · simp [makeClosedPortReset, hflags, h.payload, h.sequenceNumber, hnxt]
  · have hstate : c.state = .synReceived := congrArg ControlView.state hreceived.control
    refine .synReceived hstate ?_
    have hack : sent.flags.ack = true := by
      rw [h.flags, hstate]
      rfl
    rw [makeClosedPortReset, if_pos hack]
    exact h.acknowledges hstate

theorem Connection.Provokes.congr (h : c.Provokes sent)
    (hsync : c.state.synchronized = true → c'.state.synchronized = true)
    (hreceive : c'.view.receive = c.view.receive)
    (hopen : c.state.synchronized = false → c'.view = c.view) : c'.Provokes sent := by
  have hview : ∀ {s : TcpState}, c.state = s → s.synchronized = false → c'.view = c.view := by
    intro s hstate hs
    refine hopen ?_
    rwa [hstate]
  cases h with
  | synSent hstate hack hnum =>
    have hview := hview hstate rfl
    refine .synSent ?_ hack ?_
    · rw [← hstate]
      exact congrArg (·.control.state) hview
    · rw [hnum]
      exact (congrArg (·.send.sndNxt) hview).symm
  | synReceived hstate hseq =>
    have hview := hview hstate rfl
    refine .synReceived ?_ ?_
    · rw [← hstate]
      exact congrArg (·.control.state) hview
    · rw [hseq]
      exact congrArg (fun r : ReceiveView => r.remoteIsn + 1) hreceive.symm
  | synchronized hs hseq =>
    refine .synchronized (hsync hs) ?_
    rw [hseq]
    exact congrArg ReceiveView.rcvNxt hreceive.symm

end Provokes

/-! ## One call -/

/-- The segments handed to the caller for transmission, the fast retransmission apart. -/
def Event.emittedButFast : Event → List TcpSegment
  | .handle _ result => result.reply.toList ++ result.scheduled
  | e => e.emitted

section Call

variable {key : TcpConnectionKey} {c c' : Connection} {h : History} {e : Event} {sent : TcpSegment}

theorem Event.emitted_of_emittedButFast (hmem : sent ∈ e.emittedButFast) : sent ∈ e.emitted := by
  cases e with
  | handle segment result =>
    refine mem_append_left _ ?_
    rcases mem_append.1 hmem with hreply | hscheduled
    · exact mem_append_left _ (mem_append_left _ hreply)
    · exact mem_append_right _ hscheduled
  | beginConnect _ | makeOutgoingData _ _ | beginClose _ | pollPersistProbes _
  | pollRetransmissions _ => exact hmem

theorem ScheduledBy.ack (h : ScheduledBy key c sent) : sent.flags.ack = true := by
  cases h <;> rfl

theorem HalfOpenStep.view_eq (hstep : HalfOpenStep c e (some c')) (hreceived : e.received = []) :
    c'.view = c.view := by
  rcases hstep.continues c' rfl with hview | ⟨segment, result, rfl, -⟩
  · exact hview
  · cases hreceived

theorem CallKept.receive_eq (hkept : CallKept key c e c') (hreceived : e.received = []) :
    c'.view.receive = c.view.receive := by
  rw [hkept.unreceived_shape hreceived]
  rfl

theorem Connection.Provokes.call (hprovokes : c.Provokes sent) (hstep : ConnStep h c e c')
    (hkept : CallKept key c e c') (hreceived : e.received = []) : c'.Provokes sent := by
  refine hprovokes.congr hstep.synchronized_after (hkept.receive_eq hreceived) fun hopen => ?_
  cases hstep with
  | halfOpen _ hstep => exact hstep.view_eq hreceived
  | synced u hsynced =>
    simp [hsynced.synchronized] at hopen

theorem CallKept.provokes_of_unreceived (hkept : CallKept key c e c') (hstep : ConnStep h c e c')
    (hreceived : e.received = []) (hmem : sent ∈ e.emittedInSequence) : c'.Provokes sent := by
  cases hstep with
  | halfOpen hopen hopenStep =>
    have hview := hopenStep.view_eq hreceived
    rcases hopenStep.emitted sent hmem with hopens | ⟨_, hafter, hfresh, -⟩
    · have hstep : ConnStep h c e c' := .halfOpen hopen hopenStep
      exact (hopens.provokes hopen).call hstep hkept hreceived
    · -- The handshake is not completed by such a call.
      cases hafter
      have hsync := (hopen.of_view hview).not_synchronized
      rw [hfresh.established] at hsync
      cases hsync
  | synced u hsynced hsyncedStep =>
    have hstep : ConnStep h c e c' := .synced u hsynced hsyncedStep
    refine .of_ack (hstep.synchronized_after hsynced.synchronized)
      (hsyncedStep.emitted sent hmem).ack ?_
    rcases hsyncedStep.acks sent hmem with hnum | hnum
    · exact hnum.trans (congrArg ReceiveView.rcvNxt (hkept.receive_eq hreceived)).symm
    · exact hnum c' rfl

theorem HandleKept.provokes (hkept : HandleKept memory key c segment now c' result)
    (hstep : ConnStep h c (.handle segment result) c')
    (hmem : sent ∈ result.reply.toList ++ result.scheduled) : c'.Provokes sent := by
  cases hkept with
  | ignored reply hreply =>
    have hsent : reply = some sent := by simpa using hmem
    obtain rfl := hreply sent hsent
    cases hstep with
    | halfOpen hopen hopenStep =>
      -- A half-open connection answers with its SYN-ACK only.
      rcases hopenStep.emitted (makePureAck key c)
        (by simp [Event.emittedInSequence, hsent]) with hopens | ⟨_, hafter, hfresh, -⟩
      · have hsyn := congrArg TcpFlags.syn hopens.flags
        cases hsyn
      · cases hafter
        have hsync := hopen.not_synchronized
        rw [hfresh.established] at hsync
        cases hsync
    | synced u hsynced => exact .of_ack hsynced.synchronized rfl rfl
  | established options =>
    obtain rfl : sent = _ := by simpa using hmem
    refine .of_ack ?_ rfl rfl
    rw [establishedWith_shape]
    rfl
  | resent hstate =>
    obtain rfl : sent = _ := by simpa using hmem
    exact .synReceived hstate rfl
  | completed => cases hmem
  | restarted hstate =>
    obtain rfl : sent = _ := by simpa using hmem
    refine .of_ack ?_ rfl rfl
    rw [hstate]
    rfl
  | processed options outcome hsync _ _ hout =>
    have hsync' := hstep.synchronized_after hsync
    rcases mem_append.1 hmem with hreply | hscheduled
    · obtain rfl := hout.reply sent (by simpa using hreply)
      exact .of_ack hsync' rfl rfl
    · rw [hout.scheduled] at hscheduled
      have hsched := scheduleIfSendable_scheduled hscheduled
      exact .of_ack hsync' hsched.ack (hsched.stamped.congr hout.receive_eq).acknowledgmentNumber

theorem CallKept.provokes (hkept : CallKept key c e c') (hstep : ConnStep h c e c')
    (hmem : sent ∈ e.emittedButFast) : c'.Provokes sent := by
  cases hkept with
  | idle _ hemitted =>
    have hmem := Event.emitted_of_emittedButFast hmem
    simp [hemitted] at hmem
  | handle memory segment now _ result hkept => exact hkept.provokes hstep hmem
  | sent payload now hsendable hopen hroom =>
    refine (CallKept.sent payload now hsendable hopen hroom).provokes_of_unreceived hstep rfl ?_
    simpa [Event.emittedButFast, Event.emittedInSequence] using hmem
  | closed now hsendable =>
    refine (CallKept.closed now hsendable).provokes_of_unreceived hstep rfl ?_
    simpa [Event.emittedButFast, Event.emittedInSequence] using hmem
  | disarmed => cases hmem
  | probed deadline now _ _ heligible =>
    obtain rfl : sent = _ := by simpa [Event.emittedButFast] using hmem
    refine .of_ack ?_ rfl rfl
    change c.state.synchronized = true
    cases hstep with
    | halfOpen hopen =>
      simp [hopen.not_persistEligible] at heligible
    | synced u hsynced => exact hsynced.synchronized
  | resent oldest rest now hwait hpending hdue hcount =>
    refine (CallKept.resent oldest rest now hwait hpending hdue hcount).provokes_of_unreceived
      hstep rfl ?_
    simpa [Event.emittedButFast, Event.emittedInSequence] using hmem

end Call

/-! ## Every run -/

/-- The connection accepts the reset to every segment handed out since it was last given a segment,
    the call that was given it included. -/
def Provoking (key : TcpConnectionKey) (h : History) (c : Connection) : Prop :=
  ∀ h₀ e later, h = h₀ ++ e :: later → (∀ e' ∈ later, e'.received = []) →
    ∀ sent ∈ e.emittedButFast, sent.SentUnder key ∧ c.Provokes sent

theorem Provoking.first {listenPort : UInt16} (hstep : KeyStep listenPort key none e (some c)) :
    Provoking key [e] c := by
  intro h₀ e₁ later hhist _ sent hmem
  obtain ⟨rfl, rfl, rfl⟩ : h₀ = [] ∧ e₁ = e ∧ later = [] := by
    cases h₀ with
    | nil =>
      cases hhist
      exact ⟨rfl, rfl, rfl⟩
    | cons => simp at hhist
  cases hstep with
  | connect isn now =>
    obtain rfl : sent = _ := by simpa [Event.emittedButFast] using hmem
    have hok := connectedWith_ok isn now
    have hstate : (connectedWith isn now).state ≠ .synReceived := by
      rw [show (connectedWith isn now).state = .synSent from rfl]
      decide
    have hopens : OpensWith (connectedWith isn now) (makeActiveSyn key (activeConnection isn)) :=
      ⟨rfl, rfl, rfl, fun h => absurd h hstate⟩
    exact ⟨⟨rfl, rfl⟩, hopens.provokes (.inl hok)⟩
  | accept segment options isn now _ _ _ hoptions =>
    obtain rfl : sent = _ := by simpa [Event.emittedButFast] using hmem
    have hok := acceptedWith_ok segment isn now hoptions
    refine ⟨⟨rfl, rfl⟩, .synReceived (congrArg ControlView.state hok.control) ?_⟩
    rfl

theorem Provoking.call {h : History} {c' : Connection} (hprovoking : Provoking key h c)
    (hstep : ConnStep h c e c') (hkept : CallKept key c e c') : Provoking key (h ++ [e]) c' := by
  intro h₀ e₁ later hhist hlater sent hmem
  rcases eq_nil_or_concat later with rfl | ⟨between, last, rfl⟩
  · obtain ⟨rfl, hlast⟩ := append_inj' hhist rfl
    cases hlast
    exact ⟨hkept.sentUnder (Event.emitted_of_emittedButFast hmem), hkept.provokes hstep hmem⟩
  · rw [concat_eq_append, ← cons_append, ← append_assoc] at hhist
    obtain ⟨rfl, hlast⟩ := append_inj' hhist rfl
    cases hlast
    have hbetween : ∀ e' ∈ between, e'.received = [] := by
      intro e' he'
      exact hlater e' (by simp [he'])
    obtain ⟨hports, hprovokes⟩ := hprovoking h₀ e₁ between rfl hbetween sent hmem
    exact ⟨hports, hprovokes.call hstep hkept (hlater e (by simp))⟩

theorem Run.provoking {s : Traced} (hs : Reachable s) (key : TcpConnectionKey) :
    ∀ c, s.table.find? key = some c → Provoking key (s.history key) c := by
  refine Run.key_invariant key (fun h after => ∀ c, after = some c → Provoking key h c)
    (by simp) ?_ hs
  rintro s op e after hrun _ _ hstep ih c' rfl
  obtain ⟨isn, hconn, -⟩ := (Run.keyInv hrun key).conn
  generalize s.table.find? key = before at hstep ih hconn ⊢
  cases before with
  | none =>
    rw [extendHistory_new]
    exact Provoking.first hstep
  | some c =>
    rw [extendHistory_some]
    exact (ih c rfl).call ((hconn c rfl).ok.step hstep) hstep.kept

/-- **A closed port ends the connection.** Take any segment but a fast retransmission that a call
    handed out for a connection, where no call since then was given a segment for it.
    The reset with which a closed port answers the segment carries the ports of the connection, and
    when it is delivered the connection is gone and nothing is sent back. -/
theorem closedPortReset_removes {s : Traced} (hs : Reachable s) {key : TcpConnectionKey}
    {c : Connection} (hc : s.table.find? key = some c) {h later : History} {e : Event}
    (hhistory : s.history key = h ++ e :: later) (hlater : ∀ e' ∈ later, e'.received = [])
    {sent : TcpSegment} (hsent : sent ∈ e.emittedButFast) (memory : ℕ → Byte) (now : TimePoint) :
    (makeClosedPortReset sent).sourcePort = key.remotePort ∧
      (makeClosedPortReset sent).destinationPort = key.localPort ∧
      (s.table.handle memory key (makeClosedPortReset sent) now).1.find? key = none ∧
      (s.table.handle memory key (makeClosedPortReset sent) now).2.handedBack = [] := by
  obtain ⟨hports, hprovokes⟩ := Run.provoking hs key c hc h e later hhistory hlater sent hsent
  obtain ⟨hsource, hdestination⟩ := makeClosedPortReset_ports sent
  have hflags := makeClosedPortReset_flags sent
  obtain ⟨hremoved, hsilent⟩ := hprovokes.removes (congrArg TcpFlags.rst hflags)
    (congrArg TcpFlags.syn hflags) (makeClosedPortReset_options sent) memory key now
  refine ⟨hsource.trans hports.destinationPort, hdestination.trans hports.sourcePort, ?_⟩
  rw [handle_of_some hc, find?_put, if_pos rfl]
  exact ⟨hremoved, hsilent⟩

/-- Two bytes that are in flight when the retransmission timer is polled too early: the reset to the
    data segment ends the connection. -/
theorem closedPortReset_removes_example :
    ∃ s c h e later sent, Reachable s ∧ s.table.find? exampleKey = some c ∧
      s.history exampleKey = h ++ e :: later ∧ (∀ e' ∈ later, e'.received = []) ∧
      sent ∈ e.emittedButFast ∧ sent.payload = [1, 2] ∧
      (s.table.handle noMemory exampleKey (makeClosedPortReset sent) 0).1.find? exampleKey =
        none := by
  obtain ⟨c, hc, hval⟩ := exampleRun_at []
    [.makeOutgoingData exampleKey [1, 2] 0, .pollRetransmissions 0]
    (fun h _ => ((h.drop 2).map fun e => (e.emittedButFast.map (·.payload), e.received.length)) =
      [([[1, 2]], 0), ([], 0)]) (by decide +kernel)
  obtain ⟨e, later, hdrop, he, hlater⟩ := map_eq_cons_iff.1 hval
  obtain ⟨sent, hsent, hpayload⟩ : ∃ sent ∈ e.emittedButFast, sent.payload = [1, 2] := by
    obtain ⟨sent, rest, hlist, hpayload, -⟩ := map_eq_cons_iff.1 (Prod.mk.inj he).1
    exact ⟨sent, hlist ▸ mem_cons_self .., hpayload⟩
  have hhistory := (take_append_drop 2 _).symm.trans (congrArg _ hdrop)
  have hquiet : ∀ e' ∈ later, e'.received = [] := by
    intro e' he'
    have hmem := mem_map_of_mem (f := fun e : Event =>
      (e.emittedButFast.map (·.payload), e.received.length)) he'
    rw [hlater, mem_singleton] at hmem
    exact length_eq_zero_iff.1 (Prod.mk.inj hmem).2
  have hs := exampleRun_reachable [] [.makeOutgoingData exampleKey [1, 2] 0, .pollRetransmissions 0]
  exact ⟨_, c, _, e, later, sent, hs, hc, hhistory, hquiet, hsent, hpayload,
    (closedPortReset_removes hs hc hhistory hquiet hsent noMemory 0).2.2.1⟩

/-! ## Every reset -/

section Reset

variable {c : Connection} {segment : TcpSegment} (hrst : segment.flags.rst = true)
  (memory : ℕ → Byte) (key : TcpConnectionKey) (now : TimePoint)

/-- The handler left the connection alone or marked it for removal, and reported at most a reset. -/
def ResetOutcome (c : Connection) (outcome : Connection × TcpReceiveResult) : Prop :=
  (outcome.1 = c ∨ outcome.1 = { c with pendingRemoval := true }) ∧
    ∃ reset, outcome.2 = { connectionReset := reset }

include hrst

theorem handleSynSent_of_rst : ResetOutcome c (handleSynSent key c segment now) := by
  unfold handleSynSent
  split
  · exact ⟨.inl rfl, false, rfl⟩
  · rw [if_pos hrst]
    split_ifs
    · exact ⟨.inr rfl, true, rfl⟩
    · exact ⟨.inl rfl, false, rfl⟩

theorem handleTimeWait_of_rst : ResetOutcome c (handleTimeWait key c segment now) := by
  rw [handleTimeWait, if_pos hrst]
  split_ifs
  · exact ⟨.inr rfl, false, rfl⟩
  · exact ⟨.inl rfl, false, rfl⟩

theorem handleSynchronized_of_rst :
    ResetOutcome c (handleSynchronized memory key c segment now) := by
  have hduplicate : c.isDuplicateHandshakeSynAck segment = false := by
    simp [Connection.isDuplicateHandshakeSynAck, hrst]
  unfold handleSynchronized
  by_cases hsyn : segment.flags.syn = true
  · rw [if_pos hsyn, hduplicate, if_neg Bool.false_ne_true]
    exact ⟨.inl rfl, false, rfl⟩
  · rw [if_neg hsyn]
    cases parseTcpOptions segment.options with
    | error => exact ⟨.inl rfl, false, rfl⟩
    | ok options =>
      dsimp only
      rw [if_pos hrst]
      split_ifs
      · exact ⟨.inr rfl, true, rfl⟩
      · exact ⟨.inl rfl, false, rfl⟩

omit hrst in
theorem ResetOutcome.erased {outcome : Connection × TcpReceiveResult} (h : ResetOutcome c outcome) :
    ((eraseIfRemoved outcome).1 = some c ∨ (eraseIfRemoved outcome).1 = none) ∧
      ∃ reset, (eraseIfRemoved outcome).2 = { connectionReset := reset } := by
  refine ⟨?_, h.2⟩
  unfold eraseIfRemoved
  rcases h.1 with hsame | hmarked
  · rw [hsame]
    split_ifs
    · exact .inr rfl
    · exact .inl rfl
  · rw [hmarked]
    exact .inr rfl

theorem handleExisting_of_rst : ((handleExisting memory key c segment now).1 = some c ∨
      (handleExisting memory key c segment now).1 = none) ∧
      ∃ reset, (handleExisting memory key c segment now).2 = { connectionReset := reset } := by
  unfold handleExisting
  split
  · exact (handleTimeWait_of_rst hrst key now).erased
  · exact (handleSynSent_of_rst hrst key now).erased
  · rw [handleSynReceived, if_pos hrst]
    split_ifs
    · exact ⟨.inr rfl, false, rfl⟩
    · exact ⟨.inl rfl, false, rfl⟩
  · exact (handleSynchronized_of_rst hrst memory key now).erased

/-- **A reset is never answered and creates nothing.** Whatever else the segment carries and whatever
    its key stands for in the table, nothing is sent and nothing delivered, the generator of initial
    sequence numbers is left alone, and the table changes at most by losing the connection of the
    key. -/
theorem reset_unanswered (t : TcpConnectionTable) :
    (t.handle memory key segment now).2.reply = none ∧
      (t.handle memory key segment now).2.fastRetransmit = none ∧
      (t.handle memory key segment now).2.scheduled = [] ∧
      (t.handle memory key segment now).2.acceptedPayload = [] ∧
      (t.handle memory key segment now).1.isnDraws = t.isnDraws ∧
      (t.handle memory key segment now).1.lastIsn = t.lastIsn ∧
      ∀ k, (t.handle memory key segment now).1.find? k = t.find? k ∨
        k = key ∧ (t.handle memory key segment now).1.find? k = none := by
  cases hc : t.find? key with
  | none =>
      have hhandle : t.handle memory key segment now = (t, {}) := by
        unfold handle handleUnknown
        rw [hc]
        exact if_pos hrst
      rw [hhandle]
      exact ⟨rfl, rfl, rfl, rfl, rfl, rfl, fun k => .inl rfl⟩
  | some c =>
      obtain ⟨hafter, reset, hresult⟩ := handleExisting_of_rst (c := c) hrst memory key now
      rw [handle_of_some hc, hresult]
      refine ⟨rfl, rfl, rfl, rfl, rfl, rfl, fun k => ?_⟩
      rcases hafter with hkept | hremoved
      · rw [(put_eq_self_iff hc _).2 hkept]
        exact .inl rfl
      · rw [hremoved, find?_put]
        by_cases hk : key = k
        · exact .inr ⟨hk.symm, if_pos hk⟩
        · exact .inl (if_neg hk)

end Reset

/-- A segment with every flag set, with payload, and with an option that announces more than there
    is, sent to a connection that is established. -/
theorem reset_unanswered_example :
    ∃ c, (exampleRun [] []).table.find? exampleKey = some c ∧ c.state = .established ∧
      ((exampleRun [] []).table.handle noMemory exampleKey { exampleSegment c.rcvNxt [1] with
          flags := { fin := true, syn := true, rst := true, psh := true, ack := true }
          options := [2] } 0).2.reply = none := by
  obtain ⟨c, hc, hstate⟩ := exampleRun_at [] []
    (fun _ c => c.state = .established) (by decide +kernel)
  exact ⟨c, hc, hstate, (reset_unanswered rfl noMemory exampleKey 0 _).1⟩

end Wirestack
