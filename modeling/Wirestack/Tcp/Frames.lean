import Wirestack.Tcp.NetworkReplay
import Wirestack.Tcp.SendWindow

set_option autoImplicit false

/-! # Segments that must not change anything

Two kinds of segment are meant to have no effect: one whose option bytes do not parse, and one whose
acknowledgment number lies before `sndUna`, which must leave the send side alone. For each, the
theorem below says exactly when the code keeps to that: SYN-RECEIVED and TIME-WAIT act on a segment
without ever looking at its options, and the window update compares a stale acknowledgment with
`sndWl1` and `sndWl2` only. -/

namespace Wirestack

open TcpConnectionTable Connection Option PendingTransmission

variable {a b : SeqNum} {c' c : Connection} {segment : TcpSegment}

/-! ## Malformed options -/

/-- What SYN-RECEIVED and TIME-WAIT do for a segment whose options they never parse. -/
inductive Connection.ActsUnparsed (c : Connection) (segment : TcpSegment) (now : TimePoint) :
    Prop where
  | handshakeReset : c.state = .synReceived → segment.flags.rst = true →
      segment.sequenceNumber = c.remoteIsn + 1 → c.ActsUnparsed segment now
  | duplicateSyn (oldest : PendingTransmission) : c.state = .synReceived →
      segment.flags.rst = false → segment.flags.syn = true → segment.flags.ack = false →
      segment.sequenceNumber = c.remoteIsn → c.pending.head? = some oldest →
      oldest.lastSentAt ≠ now → c.ActsUnparsed segment now
  | handshakeAck : c.state = .synReceived → segment.flags.rst = false → segment.flags.syn = false →
      segment.flags.ack = true → segment.acknowledgmentNumber = c.localIsn + 1 →
      segment.sequenceNumber = c.remoteIsn + 1 → c.ActsUnparsed segment now
  | timeWaitReset : c.state = .timeWait → segment.flags.rst = true →
      segment.sequenceNumber = c.rcvNxt → c.ActsUnparsed segment now
  | retransmittedFin : c.state = .timeWait → segment.flags.rst = false → segment.flags.syn = false →
      segment.payload = [] → segment.flags.fin = true → segment.sequenceNumber + 1 = c.rcvNxt →
      c.timeWaitDeadline ≠ some (now + kTimeWaitDuration) → c.ActsUnparsed segment now

section Unparsed

variable {c : Connection} {segment : TcpSegment} {error : TcpOptionParseError}

theorem handleSynchronized_unparsed (memory : ℕ → Byte) (key : TcpConnectionKey)
    (hoptions : parseTcpOptions segment.options = .error error) (now : TimePoint) :
    (handleSynchronized memory key c segment now).1 = c := by
  rw [handleSynchronized, hoptions]
  split_ifs <;> rfl

theorem handleSynSent_unparsed (key : TcpConnectionKey)
    (hoptions : parseTcpOptions segment.options = .error error) (now : TimePoint) :
    (handleSynSent key c segment now).1 = c := by
  rw [handleSynSent, hoptions]

theorem rearmed_eq_self_iff {oldest : PendingTransmission} {rest : List PendingTransmission}
    (hqueue : c.pending = oldest :: rest) (now : TimePoint) :
    ({ c with pending := c.pending.modifyHead fun e => { e with lastSentAt := now } } : Connection) =
      c ↔ oldest.lastSentAt = now := by
  constructor
  · intro hsame
    have hpending := congrArg (fun c : Connection => c.pending.head?) hsame
    simp only [hqueue, List.modifyHead_cons, List.head?_cons, some.injEq] at hpending
    exact (congrArg lastSentAt hpending).symm
  · rintro rfl
    have hsame : c.pending.modifyHead (fun e => { e with lastSentAt := oldest.lastSentAt }) =
        c.pending := by
      rw [hqueue]
      rfl
    rw [hsame]

theorem handleSynReceived_kept_iff (key : TcpConnectionKey) (hstate : c.state = .synReceived)
    (hpending : c.pending ≠ []) (now : TimePoint) :
    (handleSynReceived key c segment now).1 = some c ↔ ¬ c.ActsUnparsed segment now := by
  unfold handleSynReceived
  split_ifs with hrst hreset hsyn hisn hack hboth
  · exact iff_of_false (by simp) fun hnot => hnot (.handshakeReset hstate hrst hreset)
  · refine iff_of_true rfl fun hacts => ?_
    cases hacts <;> simp_all
  · obtain ⟨oldest, rest, hqueue⟩ := List.exists_cons_of_ne_nil hpending
    rw [Bool.and_eq_true] at hsyn
    rw [some.injEq, rearmed_eq_self_iff hqueue now]
    constructor
    · intro hnow hacts
      cases hacts <;> simp_all
    · intro hnot
      by_contra hne
      exact hnot (.duplicateSyn oldest hstate (by simpa using hrst) hsyn.1 (by simpa using hsyn.2)
        hisn (by rw [hqueue]; rfl) hne)
  · refine iff_of_true rfl fun hacts => ?_
    cases hacts <;> simp_all
  · rw [Bool.and_eq_true] at hack
    refine iff_of_false (fun hsame => ?_) fun hnot => hnot (.handshakeAck hstate
      (by simpa using hrst) (by simpa using hack.2) hack.1 hboth.1 hboth.2)
    -- The handshake completes, so the state is another one.
    have hchanged := congrArg state (some.inj hsame)
    rw [completeHandshake_shape, hstate] at hchanged
    cases hchanged
  · refine iff_of_true rfl fun hacts => ?_
    cases hacts <;> simp_all
  · refine iff_of_true rfl fun hacts => ?_
    cases hacts <;> simp_all

theorem handleTimeWait_kept_iff (key : TcpConnectionKey) (hstate : c.state = .timeWait)
    (hremoval : c.pendingRemoval = false) (now : TimePoint) :
    (eraseIfRemoved (handleTimeWait key c segment now)).1 = some c ↔
      ¬ c.ActsUnparsed segment now := by
  unfold handleTimeWait
  split_ifs with hrst hreset hother hfin
  · rw [eraseIfRemoved_of_removed rfl]
    exact iff_of_false (by simp) fun hnot => hnot (.timeWaitReset hstate hrst hreset)
  · rw [eraseIfRemoved_of_kept hremoval]
    refine iff_of_true rfl fun hacts => ?_
    cases hacts <;> simp_all
  · rw [eraseIfRemoved_of_kept hremoval]
    refine iff_of_true rfl fun hacts => ?_
    cases hacts <;> simp_all
  · rw [eraseIfRemoved_of_kept hremoval, some.injEq]
    have hsame : ({ c with timeWaitDeadline := some (now + kTimeWaitDuration) } : Connection) = c ↔
        c.timeWaitDeadline = some (now + kTimeWaitDuration) := by
      constructor
      · exact fun h => (congrArg timeWaitDeadline h).symm
      · intro h
        rw [← h]
    rw [hsame]
    simp only [Bool.and_eq_true, beq_iff_eq] at hfin
    simp only [Bool.or_eq_true, Bool.not_eq_true', not_or, Bool.not_eq_true, Bool.not_eq_false,
      List.isEmpty_iff] at hother
    constructor
    · intro hdeadline hacts
      cases hacts <;> simp_all
    · intro hnot
      by_contra hne
      exact hnot (.retransmittedFin hstate (by simpa using hrst) hother.1 hother.2 hfin.1 hfin.2 hne)
  · rw [eraseIfRemoved_of_kept hremoval]
    refine iff_of_true rfl fun hacts => ?_
    cases hacts <;> simp_all

end Unparsed

/-- **When malformed options change nothing.** A segment whose options do not parse leaves the whole
    table as it is, unless it is one of those that SYN-RECEIVED and TIME-WAIT act on unparsed. -/
theorem malformedOptions_unchanged_iff {s : Traced} (hs : Reachable s) {key : TcpConnectionKey}
    {c : Connection} (hc : s.table.find? key = some c) (memory : ℕ → Byte) {segment : TcpSegment}
    {error : TcpOptionParseError} (hoptions : parseTcpOptions segment.options = .error error)
    (now : TimePoint) :
    (s.table.handle memory key segment now).1 = s.table ↔ ¬ c.ActsUnparsed segment now := by
  rw [handle_of_some hc, put_eq_self_iff hc]
  cases (Run.connInv hs hc).ok with
  | halfOpen hopen =>
      rcases hopen with hsent | hreceived
      · have hstate : c.state = .synSent := congrArg ControlView.state hsent.control
        rw [handleExisting_of_synSent memory key segment now hstate]
        have hsame := handleSynSent_unparsed (c := c) key hoptions now
        refine iff_of_true ?_ fun hacts => by cases hacts <;> simp_all
        have hremoval : c.pendingRemoval = false :=
          congrArg ControlView.pendingRemoval hsent.control
        rw [eraseIfRemoved_of_kept (by rw [hsame]; exact hremoval), hsame]
      · have hstate : c.state = .synReceived := congrArg ControlView.state hreceived.control
        rw [handleExisting_of_synReceived memory key segment now hstate]
        refine handleSynReceived_kept_iff key hstate ?_ now
        obtain ⟨e, hpending, -⟩ := HalfOpen.pending_eq (.inr hreceived)
        rw [hpending]
        exact List.cons_ne_nil _ _
  | synced u hsynced =>
      by_cases hwait : c.state = .timeWait
      · rw [handleExisting_of_timeWait memory key segment now hwait]
        exact handleTimeWait_kept_iff key hwait hsynced.removal now
      · rw [handleExisting_of_synchronized memory key segment now hsynced.synchronized hwait]
        have hsame := handleSynchronized_unparsed (c := c) memory key hoptions now
        have hsync := hsynced.synchronized
        refine iff_of_true ?_ fun hacts => by cases hacts <;> simp_all [TcpState.synchronized]
        rw [eraseIfRemoved_of_kept (by rw [hsame]; exact hsynced.removal), hsame]

/-- A reset whose only option byte announces an MSS option that is not there. -/
def exampleMalformedReset (sequenceNumber : SeqNum) : TcpSegment :=
  { exampleSegment sequenceNumber [] with flags := { rst := true }, options := [2] }

/-- An established connection ignores the reset although its sequence number is `rcvNxt`. -/
theorem malformedOptions_unchanged_example :
    ∃ c, (exampleRun [] []).table.find? exampleKey = some c ∧ c.state = .established ∧
      (exampleMalformedReset 5001).sequenceNumber = c.rcvNxt ∧
      ((exampleRun [] []).table.handle noMemory exampleKey (exampleMalformedReset 5001) 0).1 =
        (exampleRun [] []).table := by
  obtain ⟨c, hc, hval⟩ := exampleRun_at [] []
    (fun _ c => c.state = .established ∧ c.rcvNxt = 5001) (by decide +kernel)
  refine ⟨c, hc, hval.1, hval.2.symm, ?_⟩
  have hmalformed : parseTcpOptions (exampleMalformedReset 5001).options = .error .missingLength := by
    decide
  refine (malformedOptions_unchanged_iff (exampleRun_reachable _ _) hc noMemory hmalformed 0).2
    fun hacts => ?_
  cases hacts <;> simp_all

/-- The listener after the example's SYN. -/
def exampleHalfOpen : Traced :=
  Traced.step ⟨exampleListener, fun _ => []⟩ (.handle noMemory exampleKey.peer exampleSyn 0)

/-- In SYN-RECEIVED the same reset removes the connection. -/
theorem malformedOptions_removes : Reachable exampleHalfOpen ∧
    parseTcpOptions (exampleMalformedReset 1001).options = .error .missingLength ∧
    exampleHalfOpen.table.find? exampleKey.peer = some exampleAccepted.2 ∧
    (exampleHalfOpen.table.handle noMemory exampleKey.peer (exampleMalformedReset 1001) 0).1.find?
      exampleKey.peer = none := by
  have hfind : exampleHalfOpen.table.find? exampleKey.peer = some exampleAccepted.2 :=
    (Prod.mk.inj exampleListener_accept).2
  refine ⟨.step _ _ (.start exampleListener rfl) trivial, by decide, hfind, ?_⟩
  rw [handle_of_some hfind, find?_put, if_pos rfl]
  decide +kernel

/-! ## Stale acknowledgments -/

open SerialNumber in
theorem sequenceGreater_asymm (h : sequenceGreater a b = true) : sequenceGreater b a = false := by
  obtain ⟨hpos, hlt⟩ := (sequenceGreater_iff a b).1 h
  by_contra hother
  obtain ⟨-, hlt'⟩ := (sequenceGreater_iff b a).1 (by simpa using hother)
  rw [ahead_swap hpos] at hlt'
  omega

theorem ne_of_sequenceGreater (h : sequenceGreater a b = true) : b ≠ a := by
  rintro rfl
  simp [sequenceGreater_self] at h

/-- The window field of the segment is at least as new as the one in use. -/
def Connection.newerWindow (c : Connection) (segment : TcpSegment) : Bool :=
  sequenceGreater segment.sequenceNumber c.sndWl1 ||
    (segment.sequenceNumber == c.sndWl1 &&
      sequenceLessOrEqual c.sndWl2 segment.acknowledgmentNumber)

/-- What a stale acknowledgment is meant to leave alone. -/
structure StaleIgnored (c c' : Connection) (result : TcpReceiveResult) : Prop where
  sndUna : c'.sndUna = c.sndUna
  pending : c'.pending.map outstanding =
    c.pending.map outstanding
  unsent : c'.unsent = c.unsent
  sndWnd : c'.sndWnd = c.sndWnd
  sndWl1 : c'.sndWl1 = c.sndWl1
  sndWl2 : c'.sndWl2 = c.sndWl2
  cwnd : c'.cwnd = c.cwnd
  ssthresh : c'.ssthresh = c.ssthresh
  duplicateAckCount : c'.duplicateAckCount = c.duplicateAckCount
  scheduled : result.scheduled = []
  fastRetransmit : result.fastRetransmit = none

section Stale

variable {S : List Byte} {u : ℕ} {c : Connection} {segment : TcpSegment}

section

variable (key : TcpConnectionKey) (options : TcpParsedOptions) (now : TimePoint)
  (segments : List TcpSegment)

theorem processAck_stale (hstale : sequenceGreater c.sndUna segment.acknowledgmentNumber = true) :
    (processAck key c segment options now).2 = none ∧
    ∃ pending, pending.map outstanding = c.pending.map outstanding ∧
      (processAck key c segment options now).1 = { c.updateSendWindow segment with
          pending := pending
          duplicateAckCount := if (c.updateSendWindow segment).sndWnd = c.sndWnd
            then c.duplicateAckCount else 0 } := by
  have hretire : retireAcknowledged c segment.acknowledgmentNumber now = (c, {}) := by
    rw [retireAcknowledged, sequenceGreater_asymm hstale]
    rfl
  -- SACK marks are all that can change before the window update.
  obtain ⟨pending, hpending, hafter⟩ : ∃ pending, pending.map outstanding =
        c.pending.map outstanding ∧
      afterRetire c segment options now = { c with pending := pending } := by
    rw [afterRetire, hretire]
    split_ifs
    · obtain ⟨pending, hshape⟩ :=
        applySackBlocks_shape c segment.acknowledgmentNumber options.sackBlocks
      have hview := applySackBlocks_view c segment.acknowledgmentNumber options.sackBlocks
      rw [hshape] at hview
      exact ⟨pending, congrArg (·.send.queue) hview, hshape⟩
    · exact ⟨c.pending, rfl, rfl⟩
  have hwindow : ({ c with pending := pending } : Connection).updateSendWindow segment =
      { c.updateSendWindow segment with pending := pending } := by
    unfold updateSendWindow decodePeerWindow
    split_ifs <;> rfl
  have huna : (c.updateSendWindow segment).sndUna = c.sndUna := by rw [updateSendWindow_shape]
  have hdup : (c.updateSendWindow segment).duplicateAckCount = c.duplicateAckCount := by
    rw [updateSendWindow_shape]
  have hne : (segment.acknowledgmentNumber == (c.updateSendWindow segment).sndUna) = false := by
    rw [huna]
    simpa using ne_of_sequenceGreater hstale
  rw [processAck_eq, hretire, hafter, hwindow, if_neg (by simp)]
  unfold onStandingAck
  rw [hne]
  simp only [Bool.false_and, Bool.false_eq_true, if_false, bne_iff_ne, ne_eq, ite_not]
  split_ifs with hsame
  · exact ⟨rfl, pending, hpending, by rw [← hdup]⟩
  · exact ⟨rfl, pending, hpending, rfl⟩

theorem Synced.advanceClose_eq (h : Synced S u c) (now : TimePoint) : c.advanceClose now = c := by
  have hnot : c.state.finAcked = false → c.localFinAcked = false := by
    intro hacked
    by_contra hfin
    obtain ⟨hseq, hu⟩ := h.toJoined.localFinAcked_iff.1 (by simpa using hfin)
    have := h.unacked hseq hacked
    omega
  unfold advanceClose
  split_ifs with h₁ h₂ h₃
  · rw [hnot (by rw [h₁.1]; rfl)] at h₁
    cases h₁.2
  · rw [hnot (by rw [h₂.1]; rfl)] at h₂
    cases h₂.2
  · rw [hnot (by rw [h₃.1]; rfl)] at h₃
    cases h₃.2
  · rfl

theorem receivePart_send (h : Synced S u c) (memory : ℕ → Byte) (segment : TcpSegment)
    (now : TimePoint) :
    (receivePart memory c segment now).connection.view.send = c.view.send := by
  have hcases := receivePart_cases memory c segment now
  have hsend := receivedWith_send memory c segment
  have hstate := receivedWith_state memory c segment
  generalize receivePart memory c segment now = part at hcases ⊢
  generalize receivedWith memory c segment = r at hcases hsend hstate
  cases hcases with
  | ignored => rfl
  | stored => exact hsend
  | consumed =>
    unfold peerFinTransition
    split
    · exact hsend
    · exact hsend
    · next hwait =>
      have hwait' : c.state = .finWait2 := hstate.symm.trans hwait
      have hqueue : r.view.send.queue = [] := by
        rw [hsend]
        refine (h.send.all_acked ?_ (h.acked (by rw [hwait']; rfl))).1
        exact h.sequenced.trans (by rw [hwait']; rfl)
      have hview := view_startTimeWait
        { r with rcvNxt := r.rcvNxt + 1, pendingFinSeq := none } now hqueue
      exact (congrArg View.send hview).trans hsend
    · exact hsend

theorem receivePart_isSendable (h : Synced S u c) (memory : ℕ → Byte) (segment : TcpSegment)
    (now : TimePoint) :
    (receivePart memory c segment now).connection.isSendable = c.isSendable := by
  have hmove := receivePart_move memory segment now h.retained
  unfold isSendable
  generalize (receivePart memory c segment now).connection.state = state at hmove
  generalize (receivePart memory c segment now).peerClosed = closed at hmove
  generalize c.state = before at hmove
  cases hmove <;> rfl

theorem maybeSequenceFin_idle (h : c.closeRequested = true → c.localFinSeq = none → c.unsent ≠ [] ∨
      c.availableSendWindow = 0) :
    maybeSequenceFin key c now segments = (c, segments) := by
  unfold maybeSequenceFin
  split
  · rfl
  split
  · rfl
  split
  · rfl
  split
  · rfl
  · next hclose hfin hunsent hwindow =>
    rcases h (by simpa using hclose) (by simpa using hfin) with hne | hzero
    · simp [hne] at hunsent
    · omega

theorem scheduleQueuedData_idle (hallow : c.sendAllowance = 0) (hfin : c.closeRequested = true →
      c.localFinSeq = none → c.unsent ≠ [] ∨ c.availableSendWindow = 0) :
    scheduleQueuedData key c now = (c.updatePersistState now, []) := by
  rw [scheduleQueuedData_eq, sendQueued_of_zero key now hallow, maybeSequenceFin_idle key now [] hfin]

theorem sendAllowance_of_scheduled (h : (scheduleQueuedData key c now).2 = []) :
    c.sendAllowance = 0 := by
  by_contra hallow
  have hdata := sendQueued_segments_ne_nil key now hallow
  rw [scheduleQueuedData_eq] at h
  rcases maybeSequenceFin_sequenced key (sendQueued key c now).1 now (sendQueued key c now).2 with
    hsame | ⟨-, -, -, hsegments⟩
  · rw [hsame] at h
    exact hdata h
  · rw [hsegments] at h
    exact hdata (List.append_eq_nil_iff.1 h).1

end

theorem availableSendWindow_congr (hsend : c'.view.send = c.view.send) (hwnd : c'.sndWnd = c.sndWnd) :
    c'.availableSendWindow = c.availableSendWindow := by
  have hnxt : c'.sndNxt = c.sndNxt := congrArg SendView.sndNxt hsend
  have huna : c'.sndUna = c.sndUna := congrArg SendView.sndUna hsend
  unfold availableSendWindow flight
  rw [hnxt, huna, hwnd]

theorem sendAllowance_congr (hsend : c'.view.send = c.view.send) (hwnd : c'.sndWnd = c.sndWnd)
    (hcwnd : c'.cwnd = c.cwnd) : c'.sendAllowance = c.sendAllowance := by
  have hnxt : c'.sndNxt = c.sndNxt := congrArg SendView.sndNxt hsend
  have huna : c'.sndUna = c.sndUna := congrArg SendView.sndUna hsend
  have hunsent : c'.unsent = c.unsent := congrArg SendView.unsent hsend
  have hmss : c'.effectiveSendMss = c.effectiveSendMss := congrArg SendView.effectiveSendMss hsend
  unfold sendAllowance availableCongestionWindow flight
  rw [availableSendWindow_congr hsend hwnd, hnxt, huna, hunsent, hmss, hcwnd]

/-- What the scheduler starts from after a stale acknowledgment. -/
structure StalePart (c : Connection) (segment : TcpSegment) (part : Connection) : Prop where
  send : part.view.send = c.view.send
  sendable : part.isSendable = c.isSendable
  removal : part.pendingRemoval = false
  sndWnd : part.sndWnd = (c.updateSendWindow segment).sndWnd
  sndWl1 : part.sndWl1 = (c.updateSendWindow segment).sndWl1
  sndWl2 : part.sndWl2 = (c.updateSendWindow segment).sndWl2
  cwnd : part.cwnd = c.cwnd
  ssthresh : part.ssthresh = c.ssthresh
  duplicateAckCount : part.duplicateAckCount =
    if (c.updateSendWindow segment).sndWnd = c.sndWnd then c.duplicateAckCount else 0

theorem StalePart.of_processed (h : Synced S u c) (memory : ℕ → Byte) (key : TcpConnectionKey)
    (options : TcpParsedOptions) (now : TimePoint)
    (hstale : sequenceGreater c.sndUna segment.acknowledgmentNumber = true) :
    StalePart c segment
      (receivePart memory (afterAck key c segment options now) segment now).connection := by
  obtain ⟨-, pending, hpending, hack⟩ := processAck_stale key options now hstale
  have hview : (processAck key c segment options now).1.view = c.view := by
    rw [hack, updateSendWindow_shape]
    exact view_of_pending hpending
  have hsynced := h.of_view hview
  have hafter : afterAck key c segment options now = (processAck key c segment options now).1 :=
    hsynced.advanceClose_eq now
  rw [hafter]
  have hsend := receivePart_send hsynced memory segment now
  have hsendable := receivePart_isSendable hsynced memory segment now
  have hremoval := (hsynced.receivePart memory segment now).removal
  have hstate : (processAck key c segment options now).1.isSendable = c.isSendable :=
    congrArg (fun v : View => v.control.state == .established || v.control.state == .closeWait) hview
  refine ⟨hsend.trans (congrArg View.send hview), hsendable.trans hstate, hremoval, ?_, ?_, ?_, ?_,
    ?_, ?_⟩ <;> rw [receivePart_shape, hack]
  · rw [updateSendWindow_shape]
  · rw [updateSendWindow_shape]

end Stale

theorem updateSendWindow_eq_self (hwnd : (c.updateSendWindow segment).sndWnd = c.sndWnd)
    (hwl1 : (c.updateSendWindow segment).sndWl1 = c.sndWl1)
    (hwl2 : (c.updateSendWindow segment).sndWl2 = c.sndWl2) : c.updateSendWindow segment = c := by
  rw [updateSendWindow_shape, windowAs, hwnd, hwl1, hwl2]

theorem updateSendWindow_eq_self_iff : c.updateSendWindow segment = c ↔
      ¬ (sequenceGreater segment.sequenceNumber c.sndWl1 = true ∨
          segment.sequenceNumber = c.sndWl1 ∧
            sequenceLessOrEqual c.sndWl2 segment.acknowledgmentNumber = true) ∨
        c.decodePeerWindow segment.windowSize = c.sndWnd ∧ segment.sequenceNumber = c.sndWl1 ∧
          segment.acknowledgmentNumber = c.sndWl2 := by
  unfold updateSendWindow
  split_ifs with hnewer
  · simp only [Bool.or_eq_true, Bool.and_eq_true, beq_iff_eq] at hnewer
    rw [iff_false_intro (not_not.2 hnewer), false_or]
    constructor
    · intro hsame
      exact ⟨congrArg sndWnd hsame, congrArg sndWl1 hsame, congrArg sndWl2 hsame⟩
    · rintro ⟨hwnd, hwl1, hwl2⟩
      rw [hwnd, hwl1, hwl2]
  · simp only [Bool.or_eq_true, Bool.and_eq_true, beq_iff_eq] at hnewer
    exact iff_of_true rfl (.inl hnewer)

theorem StalePart.ignored_iff {part : Connection} (h : StalePart c segment part)
    (hstall : NoStall c) (key : TcpConnectionKey) (now : TimePoint) {result : TcpReceiveResult}
    (hfast : result.fastRetransmit = none)
    (hscheduled : result.scheduled = (scheduleIfSendable key part now).2) :
    StaleIgnored c (scheduleIfSendable key part now).1 result ↔
      c.updateSendWindow segment = c ∧ (c.isSendable = true → c.sendAllowance = 0) := by
  have hschedule : c.isSendable = true →
      scheduleIfSendable key part now = scheduleQueuedData key part now := by
    intro hsendable
    rw [← h.sendable] at hsendable
    rw [scheduleIfSendable, h.removal, if_pos (by simpa [isSendable] using hsendable)]
  have hidle : c.isSendable = false →
      scheduleIfSendable key part now = (part.updatePersistState now, []) := by
    intro hsendable
    rw [← h.sendable] at hsendable
    rw [scheduleIfSendable, h.removal, if_neg (by simpa [isSendable] using hsendable)]
  constructor
  · intro hignored
    have hwnd := hignored.sndWnd
    have hwl1 := hignored.sndWl1
    have hwl2 := hignored.sndWl2
    rw [scheduleIfSendable_shape] at hwnd hwl1 hwl2
    have hsame := updateSendWindow_eq_self (h.sndWnd.symm.trans hwnd) (h.sndWl1.symm.trans hwl1)
      (h.sndWl2.symm.trans hwl2)
    refine ⟨hsame, fun hsendable => ?_⟩
    have hnone := hignored.scheduled
    rw [hscheduled, hschedule hsendable] at hnone
    rw [← sendAllowance_congr h.send (h.sndWnd.trans (by rw [hsame])) h.cwnd]
    exact sendAllowance_of_scheduled key now hnone
  · rintro ⟨hsame, hallow⟩
    have hwnd : part.sndWnd = c.sndWnd := h.sndWnd.trans (by rw [hsame])
    -- Nothing is sent and no FIN is sequenced, so only the persist timer can still change.
    have hquiet : scheduleIfSendable key part now = (part.updatePersistState now, []) := by
      by_cases hsendable : c.isSendable = true
      · rw [hschedule hsendable]
        refine scheduleQueuedData_idle key now ?_ fun hclose hfin => ?_
        · rw [sendAllowance_congr h.send hwnd h.cwnd]
          exact hallow hsendable
        · have hclose' : c.closeRequested = true :=
            (congrArg SendView.closeRequested h.send).symm.trans hclose
          have hfin' : c.localFinSeq = none :=
            (congrArg SendView.localFinSeq h.send).symm.trans hfin
          have hunsent : part.unsent = c.unsent := congrArg SendView.unsent h.send
          rw [hunsent, availableSendWindow_congr h.send hwnd]
          exact hstall.fin hclose' hfin' hsendable
      · exact hidle (by simpa using hsendable)
    rw [hquiet] at hscheduled ⊢
    rw [updatePersistState_shape]
    exact
      { sndUna := congrArg SendView.sndUna h.send
        pending := congrArg SendView.queue h.send
        unsent := congrArg SendView.unsent h.send
        sndWnd := hwnd
        sndWl1 := h.sndWl1.trans (by rw [hsame])
        sndWl2 := h.sndWl2.trans (by rw [hsame])
        cwnd := h.cwnd
        ssthresh := h.ssthresh
        duplicateAckCount := h.duplicateAckCount.trans (if_pos (by rw [hsame]))
        scheduled := hscheduled
        fastRetransmit := hfast }

/-- **When a stale acknowledgment has no effect on the send side.** The connection stays, and the send
    side with it, if the window field is not newer than the recorded one, or repeats it, and no queued
    byte could be sent. -/
theorem staleAck_ignored_iff {s : Traced} (hs : Reachable s) {key : TcpConnectionKey}
    {c : Connection} (hc : s.table.find? key = some c) (hsync : c.state.synchronized = true)
    (hwait : c.state ≠ .timeWait) (memory : ℕ → Byte) {segment : TcpSegment}
    {options : TcpParsedOptions} (hproc : Processes c segment options)
    (hstale : sequenceGreater c.sndUna segment.acknowledgmentNumber = true) (now : TimePoint) :
    ∃ c', (s.table.handle memory key segment now).1.find? key = some c' ∧
      (StaleIgnored c c' (s.table.handle memory key segment now).2 ↔
        (¬ (sequenceGreater segment.sequenceNumber c.sndWl1 = true ∨
              segment.sequenceNumber = c.sndWl1 ∧
                sequenceLessOrEqual c.sndWl2 segment.acknowledgmentNumber = true) ∨
            c.decodePeerWindow segment.windowSize = c.sndWnd ∧
              segment.sequenceNumber = c.sndWl1 ∧ segment.acknowledgmentNumber = c.sndWl2) ∧
          (c.isSendable = true → c.sendAllowance = 0)) := by
  rw [← updateSendWindow_eq_self_iff]
  obtain ⟨u, hsynced⟩ := Run.synced hs hc hsync
  have hstall := hs.noStall hc
  have hpart := StalePart.of_processed hsynced memory key options now hstale
  have hfast := (processAck_stale key options now hstale).1
  have hout := handleSynchronized_processed memory key hproc now
  rw [handle_of_some hc, find?_put, if_pos rfl,
    handleExisting_of_synchronized memory key segment now hsync hwait]
  generalize handleSynchronized memory key c segment now = outcome at hout ⊢
  generalize (receivePart memory (afterAck key c segment options now) segment now) = part
    at hout hpart
  have hkept : outcome.1.pendingRemoval = false := by
    rw [hout.connection, scheduleIfSendable_shape]
    exact hpart.removal
  refine ⟨outcome.1, eraseIfRemoved_of_kept hkept, ?_⟩
  rw [hout.connection]
  exact hpart.ignored_iff hstall key now (hout.fastRetransmit.trans hfast) hout.scheduled

/-- Three bytes are sent and the first is acknowledged. -/
def exampleFirstAcked : List Op :=
  [.makeOutgoingData exampleKey [1, 2, 3] 0,
    .handle noMemory exampleKey { exampleSegment 5001 [] with acknowledgmentNumber := 1002 } 0]

/-- A replay of the acknowledgment that came before it is ignored. -/
theorem staleAck_ignored_example :
    ∃ c c', (exampleRun [] exampleFirstAcked).table.find? exampleKey = some c ∧
      c.sndUna = 1002 ∧ (exampleSegment 5001 []).acknowledgmentNumber = 1001 ∧
      ((exampleRun [] exampleFirstAcked).table.handle noMemory exampleKey
        (exampleSegment 5001 []) 0).1.find? exampleKey = some c' ∧
      StaleIgnored c c' ((exampleRun [] exampleFirstAcked).table.handle noMemory exampleKey
        (exampleSegment 5001 []) 0).2 := by
  obtain ⟨c, hc, hstate, huna, hnxt, hwl1, hwl2, hallow⟩ := exampleRun_at [] exampleFirstAcked
    (fun _ c => c.state = .established ∧ c.sndUna = 1002 ∧ c.sndNxt = 1004 ∧ c.sndWl1 = 5001 ∧
      c.sndWl2 = 1002 ∧ c.sendAllowance = 0) (by decide +kernel)
  have hproc : Processes c (exampleSegment 5001 []) {} := ⟨rfl, rfl, rfl, rfl, by rw [hnxt]; decide⟩
  obtain ⟨c', hc', hiff⟩ := staleAck_ignored_iff (exampleRun_reachable _ _) hc
    (by rw [hstate]; rfl) (by rw [hstate]; decide) noMemory hproc (by rw [huna]; decide) 0
  have hold : ¬ (sequenceGreater (exampleSegment 5001 []).sequenceNumber c.sndWl1 = true ∨
      (exampleSegment 5001 []).sequenceNumber = c.sndWl1 ∧
        sequenceLessOrEqual c.sndWl2 (exampleSegment 5001 []).acknowledgmentNumber = true) := by
    rw [hwl1, hwl2]
    decide
  exact ⟨c, c', hc, huna, rfl, hc', hiff.2 ⟨.inl hold, fun _ => hallow⟩⟩

/-- An acknowledgment of byte 1000, which was acknowledged with the SYN, on a segment from far ahead
    that closes the window. -/
def exampleStaleWindow : TcpSegment :=
  { exampleSegment 6000 [] with acknowledgmentNumber := 1000, windowSize := 0 }

/-- It takes the window from 65535 to 0, and `sndWl1` to a value that later segments must pass. -/
theorem staleAck_closes_window : Reachable (exampleRun [] []) ∧
    ∃ c c', (exampleRun [] []).table.find? exampleKey = some c ∧ c.state = .established ∧
      Processes c exampleStaleWindow {} ∧
      sequenceGreater c.sndUna exampleStaleWindow.acknowledgmentNumber = true ∧
      ((exampleRun [] []).table.handle noMemory exampleKey exampleStaleWindow 0).1.find? exampleKey =
        some c' ∧
      (c.sndWnd, c.sndWl1) = (65535, 5000) ∧ (c'.sndWnd, c'.sndWl1) = (0, 6000) := by
  obtain ⟨c, hc, hstate, huna, hnxt, hbefore, hafter⟩ := exampleRun_at [] []
    (fun _ c => c.state = .established ∧ c.sndUna = 1001 ∧ c.sndNxt = 1001 ∧
      (c.sndWnd, c.sndWl1) = (65535, 5000) ∧
      ((handleExisting noMemory exampleKey c exampleStaleWindow 0).1.map fun c =>
        (c.sndWnd, c.sndWl1)) = some (0, 6000)) (by decide +kernel)
  obtain ⟨c', hkept, hafter⟩ := map_eq_some_iff.1 hafter
  rw [handle_of_some hc, find?_put, if_pos rfl]
  refine ⟨exampleRun_reachable _ _, c, c', hc, hstate, ?_, ?_, hkept, hbefore, hafter⟩
  · exact ⟨rfl, rfl, rfl, rfl, by rw [hnxt]; decide⟩
  · rw [huna]
    decide

end Wirestack
