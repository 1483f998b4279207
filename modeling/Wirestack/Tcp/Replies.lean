import Wirestack.Tcp.NetworkReplay
import Wirestack.Tcp.Transitions

set_option autoImplicit false

/-! # What the segments handed back acknowledge

`handleSynchronized` builds segments at three places: the fast retransmission while it processes the
acknowledgment, scheduled data and the FIN after the receive side has moved, and the reply at the very
end. `Connection.Stamps` says that a segment carries the acknowledgment number and the window of a
given connection; the scheduled segments and the reply are stamped by the connection the call leaves
behind, the fast retransmission by the connection it started from. The second half is about the reply
to a segment that carries nothing but an acknowledgment. -/

namespace Wirestack

open TcpConnectionTable Connection

variable {c₂ : Connection} {fast : Option TcpSegment} {part : Received}

variable {c c' : Connection} {segment resent : TcpSegment} {key : TcpConnectionKey}
  {now : TimePoint}

/-- The segment carries the acknowledgment number and the window that the connection advertises. -/
structure Connection.Stamps (c : Connection) (segment : TcpSegment) : Prop where
  acknowledgmentNumber : segment.acknowledgmentNumber = c.rcvNxt
  windowSize : segment.windowSize = c.advertisedWindowFor c.windowScalingEnabled

theorem advertisedWindowFor_congr (h : c'.view.receive = c.view.receive) (applyScale : Bool) :
    c'.advertisedWindowFor applyScale = c.advertisedWindowFor applyScale := by
  have hooo : c'.outOfOrder = c.outOfOrder := congrArg ReceiveView.outOfOrder h
  have hfin : c'.pendingFinSeq = c.pendingFinSeq := congrArg ReceiveView.pendingFinSeq h
  have hscale : c'.localWindowScale = c.localWindowScale := congrArg ReceiveView.localWindowScale h
  have hon : c'.windowScalingEnabled = c.windowScalingEnabled :=
    congrArg ReceiveView.windowScalingEnabled h
  unfold advertisedWindowFor bufferedReceiveBytes
  rw [hooo, hfin, hscale, hon]

theorem Connection.Stamps.congr (h : c.Stamps segment) (hview : c'.view.receive = c.view.receive) :
    c'.Stamps segment where
  acknowledgmentNumber := h.acknowledgmentNumber.trans (congrArg ReceiveView.rcvNxt hview).symm
  windowSize := by
    have hon : c'.windowScalingEnabled = c.windowScalingEnabled :=
      congrArg ReceiveView.windowScalingEnabled hview
    rw [h.windowSize, advertisedWindowFor_congr hview, hon]

theorem makePureAck_stamped (key : TcpConnectionKey) (c : Connection) (mostRecent : Option SeqNum) :
    c.Stamps (makePureAck key c mostRecent) := ⟨rfl, rfl⟩

/-! ## Scheduled segments -/

/-- What a scheduling pass sends: a data segment of the connection, or a FIN stamped by a connection
    with the same receive side. -/
inductive ScheduledBy (key : TcpConnectionKey) (c : Connection) : TcpSegment → Prop where
  | data (start : SeqNum) (psh : Bool) (chunk : List Byte) :
      ScheduledBy key c (dataSegment key c start psh chunk)
  | fin (c₁ : Connection) : c.view.receive = c₁.view.receive → ScheduledBy key c (makeFin key c₁)

theorem sendQueued_scheduled (hmem : segment ∈ (sendQueued key c now).2) :
    ScheduledBy key c segment := by
  unfold sendQueued at hmem
  dsimp only at hmem
  split at hmem
  · obtain ⟨start, psh, chunk, rfl⟩ := mem_cutSegments hmem
    exact .data start psh chunk
  · cases hmem

theorem mem_maybeSequenceFin {segments : List TcpSegment}
    (hmem : segment ∈ (maybeSequenceFin key c now segments).2) :
    segment ∈ segments ∨ segment = makeFin key c := by
  unfold maybeSequenceFin at hmem
  split_ifs at hmem
  · exact .inl hmem
  · exact .inl hmem
  · exact .inl hmem
  · exact .inl hmem
  · simpa using hmem
  · simpa using hmem

theorem scheduleQueuedData_scheduled (hmem : segment ∈ (scheduleQueuedData key c now).2) :
    ScheduledBy key c segment := by
  have hview : c.view.receive = (sendQueued key c now).1.view.receive := by
    rw [sendQueued_shape]
    rfl
  unfold scheduleQueuedData at hmem
  dsimp only at hmem
  split at hmem
  · rcases mem_maybeSequenceFin hmem with hmem | rfl
    · exact sendQueued_scheduled hmem
    · exact .fin _ hview
  · exact sendQueued_scheduled hmem

theorem scheduleIfSendable_scheduled (hmem : segment ∈ (scheduleIfSendable key c now).2) :
    ScheduledBy key c segment := by
  unfold scheduleIfSendable at hmem
  split at hmem
  · exact scheduleQueuedData_scheduled hmem
  · cases hmem

theorem ScheduledBy.stamped (h : ScheduledBy key c segment) : c.Stamps segment := by
  cases h with
  | data => exact ⟨rfl, rfl⟩
  | fin c₁ hview => exact Stamps.congr ⟨rfl, rfl⟩ hview

theorem ScheduledBy.options (h : ScheduledBy key c segment) : segment.options = [] := by
  cases h <;> rfl

/-! ## The fast retransmission -/

/-- A connection that differs from `c` in no field that `Connection.view` shows, and one of its
    pending entries, make the segment. -/
def ResentFrom (key : TcpConnectionKey) (c : Connection) (segment : TcpSegment) : Prop :=
  ∃ c₁ e, c₁.view = c.view ∧ e ∈ c₁.pending ∧ segment = recoverySegment key c₁ e

theorem ResentFrom.stamped (h : ResentFrom key c segment) : c.Stamps segment := by
  obtain ⟨c₁, e, hview, -, rfl⟩ := h
  exact Stamps.congr ⟨rfl, rfl⟩ (congrArg View.receive hview).symm

theorem ResentFrom.of_view (h : ResentFrom key c' segment) (hview : c'.view = c.view) :
    ResentFrom key c segment := by
  obtain ⟨c₁, e, hc₁, he, hsegment⟩ := h
  exact ⟨c₁, e, hc₁.trans hview, he, hsegment⟩

theorem retransmitForRecovery_resent (h : (retransmitForRecovery key c now).2 = some segment) :
    ResentFrom key c segment := by
  unfold retransmitForRecovery at h
  split at h
  · cases h
  · next index entry hselect =>
    cases h
    have hmem := List.mem_of_getElem? (selectRecoveryRetransmission_spec hselect).index
    exact ⟨c, entry, rfl, hmem, rfl⟩

theorem beginFastRecovery_resent (h : (beginFastRecovery key c now).2 = some segment) :
    ResentFrom key c segment :=
  (retransmitForRecovery_resent h).of_view
    (view_of_pending (map_outstanding_clearRecoveryMarks c.pending))

theorem onAdvancingAck_resent {ack : SeqNum} {retired : TcpAckRetirementResult}
    (h : (onAdvancingAck key c ack retired now).2 = some segment) : ResentFrom key c segment := by
  unfold onAdvancingAck at h
  dsimp only at h
  by_cases hrecovery : c.inFastRecovery = true
  · rw [if_pos hrecovery] at h
    split at h
    · cases h
    · exact (retransmitForRecovery_resent h).of_view rfl
  · simp [if_neg hrecovery] at h

theorem onStandingAck_resent {windowChanged : Bool}
    (h : (onStandingAck key c segment windowChanged now).2 = some resent) :
    ResentFrom key c resent := by
  unfold onStandingAck at h
  dsimp only at h
  split at h
  · by_cases hrecovery : c.inFastRecovery = true
    · rw [if_pos hrecovery] at h
      split at h
      · exact (retransmitForRecovery_resent h).of_view rfl
      · cases h
    · rw [if_neg hrecovery] at h
      split at h
      · exact (beginFastRecovery_resent h).of_view rfl
      · cases h
  · split at h
    · cases h
    · cases h

theorem processAck_resent {options : TcpParsedOptions}
    (h : (processAck key c segment options now).2 = some resent) :
    ResentFrom key ((afterRetire c segment options now).updateSendWindow segment) resent := by
  rw [processAck_eq] at h
  split at h
  · exact onAdvancingAck_resent h
  · exact onStandingAck_resent h

theorem processAck_stamped {options : TcpParsedOptions}
    (h : (processAck key c segment options now).2 = some resent) : c.Stamps resent := by
  have hview : c.view.receive =
      ((afterRetire c segment options now).updateSendWindow segment).view.receive := by
    rw [updateSendWindow_view, afterRetire_shape]
    rfl
  exact (processAck_resent h).stamped.congr hview

/-! ## One call -/

/-- Every segment that a call of `handle` hands back for transmission. -/
def TcpReceiveResult.handedBack (result : TcpReceiveResult) : List TcpSegment :=
  result.reply.toList ++ result.fastRetransmit.toList ++ result.scheduled

section Outcome

variable {memory : ℕ → Byte} {key : TcpConnectionKey} {c : Connection} {segment : TcpSegment}
  {options : TcpParsedOptions} {now : TimePoint} {outcome : Connection × TcpReceiveResult}

theorem ReceiveOutcome.receive_eq (hout : ReceiveOutcome key c₂ segment fast part now outcome) :
    outcome.1.view.receive = part.connection.view.receive := by
  rw [hout.connection, scheduleIfSendable_shape]
  rfl

theorem ReceiveOutcome.receive_window (hout : ReceiveOutcome key c₂ segment fast part now outcome) :
    outcome.1.advertisedWindowFor outcome.1.windowScalingEnabled =
      part.connection.advertisedWindowFor part.connection.windowScalingEnabled := by
  rw [advertisedWindowFor_congr hout.receive_eq,
    show outcome.1.windowScalingEnabled = part.connection.windowScalingEnabled from
      congrArg ReceiveView.windowScalingEnabled hout.receive_eq]

theorem ReceiveOutcome.stamped (hout : ReceiveOutcome key c₂ segment fast part now outcome)
    {sent : TcpSegment} (hmem : sent ∈ outcome.2.handedBack) :
    outcome.1.Stamps sent ∨ fast = some sent := by
  rcases hout.mem_emitted hmem with rfl | hfast | hscheduled
  · exact .inl (makePureAck_stamped key outcome.1 part.mostRecent)
  · exact .inr hfast
  · exact .inl ((scheduleIfSendable_scheduled hscheduled).stamped.congr hout.receive_eq)

theorem ReceiveOutcome.stamped_iff
    (hout : ReceiveOutcome key c₂ segment (processAck key c segment options now).2 part now outcome) :
    (∀ sent ∈ outcome.2.handedBack, sent.acknowledgmentNumber = outcome.1.rcvNxt ∧
        sent.windowSize = outcome.1.advertisedWindowFor outcome.1.windowScalingEnabled) ↔
      (processAck key c segment options now).2 = none ∨ outcome.1.rcvNxt = c.rcvNxt ∧
        outcome.1.advertisedWindowFor outcome.1.windowScalingEnabled =
          c.advertisedWindowFor c.windowScalingEnabled := by
  constructor
  · intro hall
    cases hfast : (processAck key c segment options now).2 with
    | none => exact .inl rfl
    | some fast =>
      -- The fast retransmission is stamped by both connections.
      have hold := processAck_stamped hfast
      obtain ⟨hack, hwindow⟩ := hall fast (by
        simp [TcpReceiveResult.handedBack, hout.fastRetransmit, hfast])
      exact .inr ⟨hack.symm.trans hold.acknowledgmentNumber, hwindow.symm.trans hold.windowSize⟩
  · intro hcond sent hmem
    rcases hout.stamped hmem with hnew | hfast
    · exact ⟨hnew.acknowledgmentNumber, hnew.windowSize⟩
    · rcases hcond with hnone | ⟨hrcv, hwindow⟩
      · simp [hnone] at hfast
      · have hold := processAck_stamped hfast
        exact ⟨hold.acknowledgmentNumber.trans hrcv.symm, hold.windowSize.trans hwindow.symm⟩

end Outcome

/-! ## Acknowledgments that answer acknowledgments -/

/-- A segment that carries nothing but its acknowledgment. -/
structure TcpSegment.AckOnly (segment : TcpSegment) : Prop where
  ack : segment.flags.ack = true
  payload : segment.payload = []
  syn : segment.flags.syn = false
  fin : segment.flags.fin = false
  rst : segment.flags.rst = false

theorem makePureAck_ackOnly (key : TcpConnectionKey) (c : Connection) (mostRecent : Option SeqNum) :
    (makePureAck key c mostRecent).AckOnly := ⟨rfl, rfl, rfl, rfl, rfl⟩

/-- The connection takes the acknowledgment of the segment into account. -/
def Connection.TakesAck (c : Connection) (segment : TcpSegment) : Prop :=
  c.state.synchronized = true ∧ c.state ≠ .timeWait ∧ ∃ options, Processes c segment options

section AckOnly

variable {memory : ℕ → Byte} {key : TcpConnectionKey} {c : Connection} {segment : TcpSegment}
  {now : TimePoint}

theorem hasSackToReport_processed (options : TcpParsedOptions) :
    (scheduleIfSendable key (afterAck key c segment options now) now).1.hasSackToReport =
      c.hasSackToReport := by
  rw [scheduleIfSendable_shape, afterAck, advanceClose_shape, processAck_shape]
  rfl

theorem handleSynchronized_ackOnly (hack : segment.AckOnly) {options : TcpParsedOptions}
    (hproc : Processes c segment options) :
    (handleSynchronized memory key c segment now).2.reply = if c.hasSackToReport then
        some (makePureAck key (scheduleIfSendable key (afterAck key c segment options now) now).1)
      else none := by
  rw [handleSynchronized, hproc.options, hproc.syn, hproc.rst, hproc.ack, hproc.inSent]
  simp only [Bool.false_eq_true, if_false, Bool.not_true]
  rw [receiveSegment, hack.payload, hack.fin, if_pos (by rfl), ← hasSackToReport_processed]
  rfl

theorem handleSynchronized_ackOnly_dropped (hack : segment.AckOnly)
    (hproc : ∀ options, ¬ Processes c segment options) :
    (handleSynchronized memory key c segment now).2.reply = none := by
  have hcases := handleSynchronized_cases memory key c segment now
  generalize handleSynchronized memory key c segment now = outcome at hcases ⊢
  cases hcases with
  | dropped reply hreply =>
    cases reply with
    | none => rfl
    | some r =>
      have hsyn := (hreply r rfl).1
      simp [hack.syn] at hsyn
  | reset => rfl
  | processed options _ hyes => exact absurd hyes (hproc options)

theorem handleExisting_ackOnly_ignored (hack : segment.AckOnly) (hnot : ¬ c.TakesAck segment) :
    (handleExisting memory key c segment now).2.reply = none := by
  by_cases hwait : c.state = .timeWait
  · rw [handleExisting_of_timeWait memory key segment now hwait, eraseIfRemoved_result]
    unfold handleTimeWait
    simp [hack.rst, hack.syn, hack.fin, hack.payload]
  by_cases hsent : c.state = .synSent
  · rw [handleExisting_of_synSent memory key segment now hsent, eraseIfRemoved_result]
    unfold handleSynSent
    cases parseTcpOptions segment.options with
    | error e => rfl
    | ok options => simp [hack.rst, hack.syn]
  by_cases hreceived : c.state = .synReceived
  · rw [handleExisting_of_synReceived memory key segment now hreceived]
    unfold handleSynReceived
    simp only [hack.rst, hack.syn, hack.ack, Bool.false_eq_true, if_false, Bool.false_and,
      Bool.not_false, Bool.and_self, if_true]
    split_ifs <;> rfl
  have hsync : c.state.synchronized = true := by
    revert hsent hreceived
    cases c.state <;> simp [TcpState.synchronized]
  rw [handleExisting_of_synchronized memory key segment now hsync hwait, eraseIfRemoved_result]
  exact handleSynchronized_ackOnly_dropped hack fun options hproc =>
    hnot ⟨hsync, hwait, options, hproc⟩

theorem handleExisting_ackOnly (hack : segment.AckOnly) :
    ((handleExisting memory key c segment now).2.reply = none ↔
      c.hasSackToReport = false ∨ ¬ c.TakesAck segment) ∧
    ∀ q, (handleExisting memory key c segment now).2.reply = some q → q.AckOnly := by
  by_cases htakes : c.TakesAck segment
  · obtain ⟨hsync, hwait, options, hproc⟩ := id htakes
    rw [handleExisting_of_synchronized memory key segment now hsync hwait, eraseIfRemoved_result,
      handleSynchronized_ackOnly hack hproc]
    split_ifs with hreport
    · refine ⟨iff_of_false (by simp) ?_, fun q hq => ?_⟩
      · rintro (hnone | hnot)
        · rw [hreport] at hnone
          cases hnone
        · exact hnot htakes
      · cases hq
        exact makePureAck_ackOnly ..
    · exact ⟨iff_of_true rfl (.inl (by simpa using hreport)), fun q hq => nomatch hq⟩
  · rw [handleExisting_ackOnly_ignored hack htakes]
    exact ⟨iff_of_true rfl (.inr htakes), fun q hq => nomatch hq⟩

end AckOnly

/-- **When acknowledgments answer acknowledgments.** Whatever the states of the two ends: if an
    acknowledgment `p` is answered by `q`, then the end that `q` goes back to leaves it unanswered,
    unless it takes the acknowledgment into account and has out-of-order data to report itself. -/
theorem ackOnly_pingpong_iff {t t' : TcpConnectionTable} {key : TcpConnectionKey}
    {c c' : Connection} (hc : t.find? key = some c) (hc' : t'.find? key.peer = some c')
    {p q : TcpSegment} (hp : p.AckOnly) (memory memory' : ℕ → Byte) (now now' : TimePoint)
    (hq : (t'.handle memory' key.peer p now').2.reply = some q) :
    (t.handle memory key q now).2.reply = none ↔ c.hasSackToReport = false ∨ ¬ c.TakesAck q := by
  rw [handle_of_some hc'] at hq
  rw [handle_of_some hc]
  exact (handleExisting_ackOnly ((handleExisting_ackOnly hp).2 q hq)).1

/-- After the handshake two bytes are sent to the passive end, and only the second arrives. -/
def exampleGap : List Move :=
  [.toActive 0, .toPassive 1,
    .active (.makeOutgoingData exampleKey [1] 0), .active (.makeOutgoingData exampleKey [2] 0),
    .toPassive 3]

/-- The same happens in the other direction. -/
def exampleGaps : List Move :=
  exampleGap ++
    [.passive (.makeOutgoingData exampleKey.peer [3] 0),
      .passive (.makeOutgoingData exampleKey.peer [4] 0), .toActive 3]

/-- The acknowledgment that completed the handshake. -/
def exampleFirstAck : TcpSegment :=
  { sourcePort := 40000
    destinationPort := 80
    sequenceNumber := 1001
    acknowledgmentNumber := 5001
    flags := { ack := true }
    windowSize := 65535 }

/-- The acknowledgment that reports the gap at the active end. -/
def exampleGapAck : TcpSegment :=
  { exampleFirstAck with
    sequenceNumber := 1003
    windowSize := 65534
    options := [5, 10, 0, 0, 19, 138, 0, 0, 19, 139, 0, 0] }

/-- With a gap at one end only, a duplicate of the first acknowledgment is answered once. -/
theorem ackOnly_pingpong_example :
    ∃ d q, Duo.Run exampleKey d ∧ exampleFirstAck ∈ (d.active.history exampleKey).emitted ∧
      (d.passive.table.handle noMemory exampleKey.peer exampleFirstAck 0).2.reply = some q ∧
      (d.active.table.handle noMemory exampleKey q 0).2.reply = none := by
  have hrun : ((performDuo exampleKey exampleGap exampleConnected exampleAccepted).map fun pair =>
      (decide (exampleFirstAck ∈ pair.1.1.emitted), pair.1.2.hasSackToReport,
        (handleExisting noMemory exampleKey.peer pair.2.2 exampleFirstAck 0).2.reply.isSome)) =
      some (true, false, true) := by
    decide +kernel
  obtain ⟨d, ca, cb, hd, -, hca, hcb, hval⟩ := exampleDuo_at hrun
  simp only [Prod.mk.injEq, decide_eq_true_eq] at hval
  obtain ⟨hemitted, hnothing, hanswered⟩ := hval
  obtain ⟨q, hq⟩ := Option.isSome_iff_exists.1 hanswered
  have hreply : (d.passive.table.handle noMemory exampleKey.peer exampleFirstAck 0).2.reply =
      some q := by
    rwa [handle_of_some hcb]
  exact ⟨d, q, hd, hemitted, hreply,
    (ackOnly_pingpong_iff hca hcb ⟨rfl, rfl, rfl, rfl, rfl⟩ noMemory noMemory 0 0 hreply).2
      (.inl hnothing)⟩

/-- With a gap at both ends each acknowledgment draws another one. -/
theorem ackOnly_answered_again :
    ∃ d q q', Duo.Run exampleKey d ∧ d.ended = false ∧ exampleGapAck.AckOnly ∧
      exampleGapAck ∈ (d.active.history exampleKey).emitted ∧
      (d.passive.table.handle noMemory exampleKey.peer exampleGapAck 0).2.reply = some q ∧
      q.AckOnly ∧ (d.active.table.handle noMemory exampleKey q 0).2.reply = some q' ∧
      q'.AckOnly := by
  have hrun : ((performDuo exampleKey exampleGaps exampleConnected exampleAccepted).map fun pair =>
      (decide (exampleGapAck ∈ pair.1.1.emitted),
        ((handleExisting noMemory exampleKey.peer pair.2.2 exampleGapAck 0).2.reply.bind fun q =>
          (handleExisting noMemory exampleKey pair.1.2 q 0).2.reply).isSome)) =
      some (true, true) := by
    decide +kernel
  obtain ⟨d, ca, cb, hd, hlive, hca, hcb, hval⟩ := exampleDuo_at hrun
  simp only [Prod.mk.injEq, decide_eq_true_eq] at hval
  obtain ⟨hemitted, hanswered⟩ := hval
  obtain ⟨q', hq'⟩ := Option.isSome_iff_exists.1 hanswered
  obtain ⟨q, hq, hq'⟩ := Option.bind_eq_some_iff.1 hq'
  have hack : exampleGapAck.AckOnly := ⟨rfl, rfl, rfl, rfl, rfl⟩
  have hpure := (handleExisting_ackOnly hack).2 q hq
  have hpure' := (handleExisting_ackOnly hpure).2 q' hq'
  refine ⟨d, q, q', hd, hlive, hack, hemitted, ?_, hpure, ?_, hpure'⟩
  · rwa [handle_of_some hcb]
  · rwa [handle_of_some hca]

end Wirestack
