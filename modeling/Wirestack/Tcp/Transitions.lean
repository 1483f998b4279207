import Wirestack.Tcp.RunInvariant

set_option autoImplicit false

/-! # The calls that keep a connection

`CallKept key c e c'` lists everything a call can do to a connection that it leaves in the table, as
equations on the connection: `c'` is `c` itself, or `c` with the fields that the one branch of the
code writes. The properties that depend on the bookkeeping which `Connection.view` leaves out
(windows, timers, marks on the queue) are proved from these cases. The `_shape` lemmas say which
fields a stage writes at all: its result is what it was given with these fields, and no other, taken
from the result, so that every other field is the same by definition. -/

namespace Wirestack

open Connection

variable {memory : ℕ → Byte} {segment : TcpSegment} {options : TcpParsedOptions}
  {fast : Option TcpSegment} {listenPort : UInt16}

variable {key : TcpConnectionKey} {c c' : Connection} {now : TimePoint}
  {outcome : Connection × TcpReceiveResult} {e : Event} {h : History}

/-! ## Which fields a stage writes -/

/-- `c` with the acknowledged position, the queue and the RTT estimator of `d`. -/
abbrev Connection.retiredAs (c d : Connection) : Connection :=
  { c with
    sndUna := d.sndUna
    pending := d.pending
    hasRttSample := d.hasRttSample
    srtt := d.srtt
    rttvar := d.rttvar
    currentRto := d.currentRto }

/-- `c` with the send window of `d`. -/
abbrev Connection.windowAs (c d : Connection) : Connection :=
  { c with sndWnd := d.sndWnd, sndWl1 := d.sndWl1, sndWl2 := d.sndWl2 }

/-- `c` with the state, the TIME-WAIT timer, the removal flag and the queue of `d`. -/
abbrev Connection.closingAs (c d : Connection) : Connection :=
  { c with
    state := d.state
    timeWaitDeadline := d.timeWaitDeadline
    pendingRemoval := d.pendingRemoval
    pending := d.pending }

/-- `c` with the persist timer of `d`. -/
abbrev Connection.persistAs (c d : Connection) : Connection :=
  { c with persistDeadline := d.persistDeadline, persistInterval := d.persistInterval }

/-- `c` with what sequencing a FIN writes taken from `d`. -/
abbrev Connection.finAs (c d : Connection) : Connection :=
  { c with
    pending := d.pending
    localFinSeq := d.localFinSeq
    sndNxt := d.sndNxt
    state := d.state }

/-- `c` with what a scheduling pass writes taken from `d`: the queue, the position of the sender, the
    FIN and the persist timer. -/
abbrev Connection.scheduledAs (c d : Connection) : Connection :=
  { (c.finAs d).persistAs d with unsent := d.unsent }

theorem retireAcknowledged_shape (c : Connection) (ack : SeqNum) (now : TimePoint) :
    (retireAcknowledged c ack now).1 = c.retiredAs (retireAcknowledged c ack now).1 := by
  unfold retireAcknowledged
  split_ifs
  · rfl
  · dsimp only
    split
    · split_ifs
      · unfold recordRttSample
        split_ifs <;> rfl
      · unfold recordRttSample
        split_ifs <;> rfl
      · rfl
    · rfl

theorem applySackBlocks_shape (c : Connection) (ack : SeqNum) (blocks : List TcpSackBlock) :
    ∃ pending, applySackBlocks c ack blocks = { c with pending := pending } := by
  unfold applySackBlocks
  dsimp only
  split_ifs
  · exact ⟨_, rfl⟩
  · exact ⟨_, rfl⟩

theorem updateSendWindow_shape (c : Connection) (segment : TcpSegment) :
    c.updateSendWindow segment = c.windowAs (c.updateSendWindow segment) := by
  unfold updateSendWindow
  split_ifs <;> rfl

theorem retransmitForRecovery_shape (key : TcpConnectionKey) (c : Connection) (now : TimePoint) :
    (retransmitForRecovery key c now).1 =
      { c with pending := (retransmitForRecovery key c now).1.pending } := by
  unfold retransmitForRecovery
  split <;> rfl

/-- The fields that congestion control writes. -/
structure CongestionView where
  cwnd : ℕ
  ssthresh : ℕ
  duplicateAckCount : ℕ
  inFastRecovery : Bool
  recoveryPoint : SeqNum
  congestionAvoidanceAckedBytes : ℕ

def Connection.congestion (c : Connection) : CongestionView :=
  { cwnd := c.cwnd
    ssthresh := c.ssthresh
    duplicateAckCount := c.duplicateAckCount
    inFastRecovery := c.inFastRecovery
    recoveryPoint := c.recoveryPoint
    congestionAvoidanceAckedBytes := c.congestionAvoidanceAckedBytes }

/-- The connection with another congestion state and another queue. -/
def Connection.withCongestion (c : Connection) (v : CongestionView)
    (pending : List PendingTransmission) : Connection :=
  { c with
    cwnd := v.cwnd
    ssthresh := v.ssthresh
    duplicateAckCount := v.duplicateAckCount
    inFastRecovery := v.inFastRecovery
    recoveryPoint := v.recoveryPoint
    congestionAvoidanceAckedBytes := v.congestionAvoidanceAckedBytes
    pending := pending }

/-- `c` with the congestion state and the queue of `d`. -/
abbrev Connection.congestionAs (c d : Connection) : Connection :=
  c.withCongestion d.congestion d.pending

section

variable (key : TcpConnectionKey) (c : Connection) (segment : TcpSegment)
  (options : TcpParsedOptions) (windowChanged : Bool) (ack : SeqNum)
  (retired : TcpAckRetirementResult) (now : TimePoint) (segments : List TcpSegment)

theorem onAdvancingAck_shape : (onAdvancingAck key c ack retired now).1 =
    c.congestionAs (onAdvancingAck key c ack retired now).1 := by
  unfold onAdvancingAck
  dsimp only
  split
  · split
    · rfl
    · rw [retransmitForRecovery_shape]
      rfl
  · unfold applyCongestionGrowth
    split_ifs <;> rfl

theorem onStandingAck_shape : (onStandingAck key c segment windowChanged now).1 =
    c.congestionAs (onStandingAck key c segment windowChanged now).1 := by
  unfold onStandingAck beginFastRecovery
  dsimp only
  split_ifs <;> first | rfl | rw [retransmitForRecovery_shape]; rfl

/-- The connection after cumulative retirement and SACK marking. -/
def afterRetire (c : Connection) (segment : TcpSegment) (options : TcpParsedOptions)
    (now : TimePoint) : Connection :=
  let c := (retireAcknowledged c segment.acknowledgmentNumber now).1
  if c.sackPermitted then applySackBlocks c segment.acknowledgmentNumber options.sackBlocks else c

theorem processAck_eq : processAck key c segment options now =
      if (retireAcknowledged c segment.acknowledgmentNumber now).2.ackAdvanced then
        onAdvancingAck key ((afterRetire c segment options now).updateSendWindow segment)
          segment.acknowledgmentNumber
          (retireAcknowledged c segment.acknowledgmentNumber now).2 now
      else
        onStandingAck key ((afterRetire c segment options now).updateSendWindow segment) segment
          (((afterRetire c segment options now).updateSendWindow segment).sndWnd !=
            (afterRetire c segment options now).sndWnd) now := rfl

theorem afterRetire_retired : ∃ pending, afterRetire c segment options now =
      { (retireAcknowledged c segment.acknowledgmentNumber now).1 with pending := pending } := by
  unfold afterRetire
  dsimp only
  split_ifs
  · exact applySackBlocks_shape ..
  · exact ⟨_, rfl⟩

theorem afterRetire_shape :
    afterRetire c segment options now = c.retiredAs (afterRetire c segment options now) := by
  obtain ⟨pending, hsack⟩ := afterRetire_retired c segment options now
  rw [hsack, retireAcknowledged_shape]

theorem processAck_retired : (processAck key c segment options now).1 =
    ((retireAcknowledged c segment.acknowledgmentNumber now).1.windowAs
      (processAck key c segment options now).1).congestionAs
        (processAck key c segment options now).1 := by
  obtain ⟨_, hsack⟩ := afterRetire_retired c segment options now
  have hcongestion : ∃ d : Connection, (processAck key c segment options now).1 =
      ((afterRetire c segment options now).updateSendWindow segment).congestionAs d := by
    rw [processAck_eq]
    split_ifs
    · exact ⟨_, onAdvancingAck_shape ..⟩
    · exact ⟨_, onStandingAck_shape ..⟩
  obtain ⟨d, hprocess⟩ := hcongestion
  rw [hprocess, updateSendWindow_shape, hsack]
  rfl

theorem processAck_shape : (processAck key c segment options now).1 =
    ((c.retiredAs (processAck key c segment options now).1).windowAs
      (processAck key c segment options now).1).congestionAs
        (processAck key c segment options now).1 := by
  rw [processAck_retired, retireAcknowledged_shape]
  rfl

theorem advanceClose_shape : c.advanceClose now = c.closingAs (c.advanceClose now) := by
  unfold advanceClose startTimeWait
  split_ifs <;> rfl

theorem updatePersistState_shape :
    c.updatePersistState now = c.persistAs (c.updatePersistState now) := by
  unfold updatePersistState
  split_ifs <;> rfl

theorem maybeSequenceFin_shape :
    (maybeSequenceFin key c now segments).1 = c.finAs (maybeSequenceFin key c now segments).1 := by
  unfold maybeSequenceFin
  split_ifs <;> rfl

theorem closed_shape :
    ∃ d, (maybeSequenceFin key { c with closeRequested := true } now []).1.updatePersistState now =
      { (c.finAs d).persistAs d with closeRequested := true } := by
  rw [updatePersistState_shape, maybeSequenceFin_shape]
  exact ⟨persistAs _ _, rfl⟩

theorem sendQueued_shape : (sendQueued key c now).1 = { c with
      pending := (sendQueued key c now).1.pending
      unsent := (sendQueued key c now).1.unsent
      sndNxt := (sendQueued key c now).1.sndNxt } := by
  unfold sendQueued
  dsimp only
  split_ifs <;> rfl

theorem scheduleQueuedData_shape :
    (scheduleQueuedData key c now).1 = c.scheduledAs (scheduleQueuedData key c now).1 := by
  unfold scheduleQueuedData
  dsimp only
  rw [updatePersistState_shape]
  split
  · rw [maybeSequenceFin_shape, sendQueued_shape]
  · rw [sendQueued_shape]

theorem scheduleIfSendable_shape :
    (scheduleIfSendable key c now).1 = c.scheduledAs (scheduleIfSendable key c now).1 := by
  unfold scheduleIfSendable
  split_ifs
  · exact scheduleQueuedData_shape ..
  · dsimp only
    rw [updatePersistState_shape]

end

theorem ReceiveOutcome.shape
    (hout : ProcessedOutcome memory key c segment options fast now outcome) :
    outcome.1 = (((processAck key c segment options now).1.closingAs outcome.1).receivedAs
      outcome.1).scheduledAs outcome.1 := by
  rw [hout.connection, scheduleIfSendable_shape, receivePart_shape, afterAck, advanceClose_shape]

theorem establishedWith_shape (c : Connection) (segment : TcpSegment) (options : TcpParsedOptions)
    (now : TimePoint) :
    establishedWith c segment options now =
      { (c.negotiate options).retiredAs (establishedWith c segment options now) with
        state := .established
        remoteIsn := segment.sequenceNumber
        remoteIsnKnown := true
        rcvNxt := segment.sequenceNumber + 1
        sndWnd := segment.windowSize.toNat
        sndWl1 := segment.sequenceNumber
        sndWl2 := segment.acknowledgmentNumber } := by
  unfold establishedWith
  dsimp only
  rw [retireAcknowledged_shape]
  unfold negotiate
  cases options.windowScale <;> rfl

theorem completeHandshake_shape (c : Connection) (segment : TcpSegment) (now : TimePoint) :
    completeHandshake c segment now = { c.retiredAs (completeHandshake c segment now) with
        state := .established
        rcvNxt := c.remoteIsn + 1
        sndNxt := c.localIsn + 1
        sndWnd := c.decodePeerWindow segment.windowSize
        sndWl1 := segment.sequenceNumber
        sndWl2 := segment.acknowledgmentNumber } := by
  unfold completeHandshake
  dsimp only
  rw [retireAcknowledged_shape]
  rfl

/-! ## Segment arrival -/

/-- The acknowledgment that completes an active open. -/
def completingAck (key : TcpConnectionKey) (c : Connection) : TcpSegment :=
  { sourcePort := key.localPort
    destinationPort := key.remotePort
    sequenceNumber := c.sndNxt
    acknowledgmentNumber := c.rcvNxt
    flags := { ack := true }
    windowSize := c.advertisedWindowFor c.windowScalingEnabled }

/-- What `handle` can do to a connection that it leaves in the table. -/
inductive HandleKept (memory : ℕ → Byte) (key : TcpConnectionKey) (c : Connection)
    (segment : TcpSegment) (now : TimePoint) : Connection → TcpReceiveResult → Prop where
  | ignored (reply : Option TcpSegment) : (∀ r, reply = some r → r = makePureAck key c) →
      HandleKept memory key c segment now c { reply := reply }
  | established (options : TcpParsedOptions) : c.state = .synSent →
      parseTcpOptions segment.options = .ok options → segment.flags.syn = true →
      segment.flags.ack = true → segment.acknowledgmentNumber = c.sndNxt →
      HandleKept memory key c segment now (establishedWith c segment options now)
        { reply := some (completingAck key (establishedWith c segment options now))
          connectionEstablished := true }
  | resent : c.state = .synReceived → segment.flags.syn = true → segment.flags.ack = false →
      segment.sequenceNumber = c.remoteIsn →
      HandleKept memory key c segment now
        { c with pending := c.pending.modifyHead fun e => { e with lastSentAt := now } }
        { reply := some (makeSynAck key c) }
  | completed : c.state = .synReceived → segment.flags.syn = false → segment.flags.ack = true →
      segment.acknowledgmentNumber = c.localIsn + 1 → segment.sequenceNumber = c.remoteIsn + 1 →
      HandleKept memory key c segment now (completeHandshake c segment now) {}
  | restarted : c.state = .timeWait → segment.flags.fin = true →
      HandleKept memory key c segment now
        { c with timeWaitDeadline := some (now + kTimeWaitDuration) }
        { reply := some (makePureAck key c) }
  | processed (options : TcpParsedOptions) (outcome : Connection × TcpReceiveResult) :
      c.state.synchronized = true → c.state ≠ .timeWait → Processes c segment options →
      ReceiveOutcome key (afterAck key c segment options now) segment
        (processAck key c segment options now).2
        (receivePart memory (afterAck key c segment options now) segment now) now outcome →
      outcome.1.pendingRemoval = false →
      HandleKept memory key c segment now outcome.1 outcome.2

theorem eraseIfRemoved_eq_some (h : (eraseIfRemoved outcome).1 = some c') :
    outcome.1.pendingRemoval = false ∧ c' = outcome.1 := by
  unfold eraseIfRemoved at h
  split_ifs at h with hremoval
  · exact ⟨by simpa using hremoval, by simpa using h.symm⟩

section HandleKept

variable {memory : ℕ → Byte} {key : TcpConnectionKey} {c c' : Connection} {segment : TcpSegment}
  {now : TimePoint}

theorem HandleKept.of_synchronized (hsync : c.state.synchronized = true)
    (hwait : c.state ≠ .timeWait)
    (h : (eraseIfRemoved (handleSynchronized memory key c segment now)).1 = some c') :
    HandleKept memory key c segment now c' (handleSynchronized memory key c segment now).2 := by
  obtain ⟨hremoval, rfl⟩ := eraseIfRemoved_eq_some h
  have hcases := handleSynchronized_cases memory key c segment now
  generalize handleSynchronized memory key c segment now = outcome at hcases hremoval ⊢
  cases hcases with
  | dropped reply hreply => exact .ignored reply fun r hr => (hreply r hr).2
  | reset options => cases hremoval
  | processed options _ hproc hout =>
    exact .processed options outcome hsync hwait hproc hout hremoval

theorem HandleKept.of_synSent (hstate : c.state = .synSent)
    (h : (eraseIfRemoved (handleSynSent key c segment now)).1 = some c') :
    HandleKept memory key c segment now c' (handleSynSent key c segment now).2 := by
  obtain ⟨hremoval, rfl⟩ := eraseIfRemoved_eq_some h
  clear h
  have hignored : HandleKept memory key c segment now c {} := .ignored none (by simp)
  revert hremoval
  unfold handleSynSent
  split
  · exact fun _ => hignored
  · next options hoptions =>
    split_ifs with hrst hreset hsyn hack hdata hacked
    · exact nofun
    · exact fun _ => hignored
    · exact fun _ => hignored
    · exact fun _ => hignored
    · exact fun _ => hignored
    · exact fun _ => hignored
    · intro _
      exact .established options hstate hoptions (by simpa using hsyn) (by simpa using hack)
        (by simpa using hacked)

theorem HandleKept.of_timeWait (hstate : c.state = .timeWait)
    (h : (eraseIfRemoved (handleTimeWait key c segment now)).1 = some c') :
    HandleKept memory key c segment now c' (handleTimeWait key c segment now).2 := by
  obtain ⟨hremoval, rfl⟩ := eraseIfRemoved_eq_some h
  clear h
  have hignored : HandleKept memory key c segment now c {} := .ignored none (by simp)
  revert hremoval
  unfold handleTimeWait
  split_ifs with hrst hseq hother hfin
  · exact nofun
  · exact fun _ => hignored
  · exact fun _ => hignored
  · intro _
    rw [Bool.and_eq_true] at hfin
    exact .restarted hstate hfin.1
  · exact fun _ => hignored

theorem HandleKept.of_synReceived (hstate : c.state = .synReceived)
    (h : (handleSynReceived key c segment now).1 = some c') :
    HandleKept memory key c segment now c' (handleSynReceived key c segment now).2 := by
  have hignored : HandleKept memory key c segment now c {} := .ignored none (by simp)
  unfold handleSynReceived at h ⊢
  split_ifs at h ⊢ with hrst hseq hsyn hisn hack hboth
  · cases h
    exact hignored
  · cases h
    rw [Bool.and_eq_true] at hsyn
    exact .resent hstate hsyn.1 (by simpa using hsyn.2) hisn
  · cases h
    exact hignored
  · cases h
    rw [Bool.and_eq_true] at hack
    exact .completed hstate (by simpa using hack.2) hack.1 hboth.1 hboth.2
  · cases h
    exact hignored
  · cases h
    exact hignored

theorem handleExisting_kept (h : (handleExisting memory key c segment now).1 = some c') :
    HandleKept memory key c segment now c' (handleExisting memory key c segment now).2 := by
  by_cases hsent : c.state = .synSent
  · rw [handleExisting_of_synSent memory key segment now hsent] at h ⊢
    exact .of_synSent hsent h
  by_cases hreceived : c.state = .synReceived
  · rw [handleExisting_of_synReceived memory key segment now hreceived] at h ⊢
    exact .of_synReceived hreceived h
  by_cases hwait : c.state = .timeWait
  · rw [handleExisting_of_timeWait memory key segment now hwait] at h ⊢
    exact .of_timeWait hwait h
  have hsync : c.state.synchronized = true := by
    revert hsent hreceived
    cases c.state <;> simp [TcpState.synchronized]
  rw [handleExisting_of_synchronized memory key segment now hsync hwait] at h ⊢
  exact .of_synchronized hsync hwait h

end HandleKept

theorem synced_of_processed {S : List Byte} {u : ℕ} (h : Synced S u c)
    (hproc : Processes c segment options)
    (hout : ProcessedOutcome memory key c segment options fast now outcome)
    (hkept : outcome.1.pendingRemoval = false) : ∃ u', Synced S u'
      (receivePart memory (afterAck key c segment options now) segment now).connection := by
  obtain ⟨u', -, hjoined⟩ := h.toJoined.processAck key options now hproc.inSent
  rcases hjoined.advanceClose now with ⟨-, -, hremoved⟩ | hsynced
  · -- The removal flag that `advanceClose` sets survives the rest of the call.
    rw [hout.connection, scheduleIfSendable_shape] at hkept
    have hpart := (receivePart_pendingRemoval ..).symm.trans hkept
    simp [afterAck, hremoved] at hpart
  · exact ⟨u', hsynced.receivePart memory segment now⟩

/-! ## Every call -/

/-- The connection a timeout works on: a data segment's timeout collapses the congestion window. -/
def Connection.timedOutWith (c : Connection) (oldest : PendingTransmission) : Connection :=
  if !oldest.isSyn && !oldest.isFin then c.applyTimeoutCongestionCollapse else c

/-- The one-byte probe of a zero window. -/
def persistProbe (key : TcpConnectionKey) (c : Connection) : TcpSegment :=
  { sourcePort := key.localPort
    destinationPort := key.remotePort
    sequenceNumber := c.sndNxt - 1
    acknowledgmentNumber := c.rcvNxt
    flags := { ack := true }
    windowSize := c.advertisedWindowFor c.windowScalingEnabled
    payload := c.unsent.take 1 }

/-- What a call can do to a connection that it leaves in the table, with the event it returns. -/
inductive CallKept (key : TcpConnectionKey) (c : Connection) : Event → Connection → Prop where
  | idle (e : Event) : e.emitted = [] → e.accepted = [] → e.received = [] → CallKept key c e c
  | handle (memory : ℕ → Byte) (segment : TcpSegment) (now : TimePoint) (c' : Connection)
      (result : TcpReceiveResult) : HandleKept memory key c segment now c' result →
      CallKept key c (.handle segment result) c'
  | sent (payload : List Byte) (now : TimePoint) : c.isSendable = true →
      c.closeRequested = false → payload.length ≤ kTcpSendBufferCapacity - c.appOwnedBytes →
      CallKept key c
        (.makeOutgoingData payload
          { segments := (scheduleQueuedData key { c with unsent := c.unsent ++ payload } now).2
            bytesAccepted := payload.length })
        (scheduleQueuedData key { c with unsent := c.unsent ++ payload } now).1
  | closed (now : TimePoint) : c.isSendable = true →
      CallKept key c
        (.beginClose
          { accepted := true
            fin := (maybeSequenceFin key { c with closeRequested := true } now []).2.head? })
        ((maybeSequenceFin key { c with closeRequested := true } now []).1.updatePersistState now)
  | disarmed : c.persistEligible = false →
      CallKept key c (.pollPersistProbes none) { c with persistDeadline := none }
  | probed (deadline now : TimePoint) : c.persistDeadline = some deadline → deadline ≤ now →
      c.persistEligible = true →
      CallKept key c (.pollPersistProbes (some (persistProbe key c)))
        { c with
          persistInterval := min (c.persistInterval * 2) kMaxPersistInterval
          persistDeadline := some (now + min (c.persistInterval * 2) kMaxPersistInterval) }
  | resent (oldest : PendingTransmission) (rest : List PendingTransmission) (now : TimePoint) :
      c.state ≠ .timeWait → c.pending = oldest :: rest →
      oldest.lastSentAt + oldest.timeoutInterval ≤ now →
      oldest.timeoutRetransmitCount < kMaxRetransmits →
      CallKept key c
        (.pollRetransmissions (some (timeoutSegment key (c.timedOutWith oldest) oldest)))
        { c.timedOutWith oldest with
          pending := (c.timedOutWith oldest).pending.modifyHead (·.backOff now)
          currentRto :=
            max (c.timedOutWith oldest).currentRto (oldest.backOff now).timeoutInterval }

section

variable (key : TcpConnectionKey) (c : Connection) (payload : List Byte) (now : TimePoint)

theorem CallKept.closeConnection :
    CallKept key c (.beginClose (closeConnection key c now).2) (closeConnection key c now).1 := by
  unfold Wirestack.closeConnection
  split_ifs with hsendable
  · exact .idle _ rfl rfl rfl
  · exact .closed now (by simpa using hsendable)

theorem CallKept.enqueueData :
    CallKept key c (.makeOutgoingData payload (enqueueData key c payload now).2)
      (enqueueData key c payload now).1 := by
  rcases enqueueData_cases key c payload now with ⟨error, heq⟩ | ⟨hsendable, hopen, hroom, heq⟩
  · rw [heq]
    exact .idle _ rfl rfl rfl
  · rw [heq]
    exact .sent payload now hsendable hopen hroom

theorem CallKept.pollPersistProbe :
    CallKept key c (.pollPersistProbes (pollPersistProbe key c now).2)
      (pollPersistProbe key c now).1 := by
  unfold Wirestack.pollPersistProbe
  split
  · exact .idle _ rfl rfl rfl
  · next deadline hdeadline =>
    split_ifs with hearly heligible
    · exact .idle _ rfl rfl rfl
    · exact .disarmed (by simpa using heligible)
    · exact .probed deadline now hdeadline (not_lt.mp hearly) (by simpa using heligible)

end

theorem CallKept.pollConnection (h : (pollConnection key c now).kept c = some c') :
    CallKept key c (.pollRetransmissions (pollConnection key c now).segment?) c' := by
  unfold Wirestack.pollConnection at h ⊢
  split_ifs at h ⊢ with hwait
  · split at h
    · split_ifs at h ⊢
      · cases h
      · cases h
        exact .idle _ rfl rfl rfl
    · cases h
      exact .idle _ rfl rfl rfl
  · split at h
    · cases h
      exact .idle _ rfl rfl rfl
    · next oldest rest hpending =>
      by_cases hearly : now < oldest.lastSentAt + oldest.timeoutInterval
      · rw [if_pos hearly] at h ⊢
        cases h
        exact .idle _ rfl rfl rfl
      by_cases hgiveUp : oldest.timeoutRetransmitCount ≥ kMaxRetransmits
      · rw [if_neg hearly, if_pos hgiveUp] at h
        cases h
      rw [if_neg hearly, if_neg hgiveUp] at h ⊢
      cases h
      exact .resent oldest rest now hwait hpending (not_lt.mp hearly) (not_le.mp hgiveUp)

theorem KeyStep.kept (h : KeyStep listenPort key (some c) e (some c')) : CallKept key c e c' := by
  generalize hafter : some c' = after at h
  cases h with
  | reconnect c error =>
    cases hafter
    exact .idle _ rfl rfl rfl
  | handle memory c segment now =>
    exact .handle memory segment now c' _ (handleExisting_kept hafter.symm)
  | rejectData c payload error =>
    cases hafter
    exact .idle _ rfl rfl rfl
  | sendData c payload now =>
    cases hafter
    exact .enqueueData key c payload now
  | close c now =>
    cases hafter
    exact .closeConnection key c now
  | probe c now =>
    cases hafter
    exact .pollPersistProbe key c now
  | timeout c now => exact .pollConnection hafter.symm

theorem CallKept.unreceived_shape (h : CallKept key c e c') (hreceived : e.received = []) : c' =
      { (c.scheduledAs c').withCongestion { c'.congestion with recoveryPoint := c.recoveryPoint }
          c'.pending with
        closeRequested := c'.closeRequested
        currentRto := c'.currentRto } := by
  cases h with
  | idle | disarmed | probed => rfl
  | handle memory segment now _ result => cases hreceived
  | sent payload now => rw [scheduleQueuedData_shape]; rfl
  | closed now =>
    obtain ⟨d, hclosed⟩ := closed_shape key c now
    rw [hclosed]
    rfl
  | resent oldest rest now =>
    unfold timedOutWith
    split <;> rfl

/-- What the invariants of the stream and of the handshake say about a call that keeps the
    connection. -/
inductive ConnStep (h : History) (c : Connection) (e : Event) (c' : Connection) : Prop where
  | halfOpen : HalfOpen c → HalfOpenStep c e (some c') → ConnStep h c e c'
  | synced (u : ℕ) : Synced h.accepted u c → SyncedStep h.accepted u c e (some c') →
      ConnStep h c e c'

theorem ConnOk.step (hok : ConnOk h c) (hstep : KeyStep listenPort key (some c) e (some c')) :
    ConnStep h c e c' := by
  cases hok with
  | halfOpen hopen => exact .halfOpen hopen (hopen.step hstep)
  | synced u hsynced => exact .synced u hsynced (hsynced.step hstep)

theorem ConnStep.synchronized (hstep : ConnStep h c e c') (hsync : c.state.synchronized = true) :
    ∃ u u', Synced h.accepted u c ∧ Synced (h.accepted ++ e.accepted) u' c' := by
  cases hstep with
  | halfOpen hopen =>
    simp [hopen.not_synchronized] at hsync
  | synced u hsynced hstep =>
    obtain ⟨u', -, hsynced'⟩ := (hstep.continues c' rfl).synced
    exact ⟨u, u', hsynced, hsynced'⟩

theorem ConnStep.synchronized_after (hstep : ConnStep h c e c')
    (hsync : c.state.synchronized = true) : c'.state.synchronized = true := by
  obtain ⟨_, _, -, hsynced⟩ := hstep.synchronized hsync
  exact hsynced.synchronized

theorem ConnStep.synSentOk (hstep : ConnStep h c e c') (hstate : c.state = .synSent) :
    SynSentOk c := by
  cases hstep with
  | halfOpen hopen => exact hopen.synSentOk hstate
  | synced u hsynced =>
    have := hsynced.synchronized
    rw [hstate] at this
    cases this

theorem ConnStep.synReceivedOk (hstep : ConnStep h c e c') (hstate : c.state = .synReceived) :
    SynReceivedOk c := by
  cases hstep with
  | halfOpen hopen => exact hopen.synReceivedOk hstate
  | synced u hsynced =>
    have := hsynced.synchronized
    rw [hstate] at this
    cases this

theorem ConnStep.halfOpen_state (hstep : ConnStep h c e c') (hsync : c'.state.synchronized = false) :
    HalfOpen c ∧ c'.view = c.view := by
  cases hstep with
  | halfOpen hopen hstep =>
    refine ⟨hopen, (hstep.continues c' rfl).resolve_right ?_⟩
    rintro ⟨segment, result, -, hby⟩
    rw [hby.fresh.established] at hsync
    cases hsync
  | synced u hsynced hstep =>
    obtain ⟨u', -, hsynced'⟩ := (hstep.continues c' rfl).synced
    simp [hsynced'.synchronized] at hsync

theorem Run.connection_invariant {ok : Traced → Op → Prop} (P : Connection → Prop)
    (hconnect : ∀ isn now, P (connectedWith isn now))
    (haccept : ∀ segment options isn now, parseTcpOptions segment.options = .ok options →
      P (acceptedWith segment options isn now))
    (hstep : ∀ s c e c', Run ok s → s.table.find? key = some c → ConnStep (s.history key) c e c' →
      CallKept key c e c' → P c → P c')
    {s : Traced} (hs : Run ok s) (hc : s.table.find? key = some c) : P c := by
  refine Run.key_invariant key (fun _ after => ∀ c, after = some c → P c) (by simp) ?_ hs c hc
  intro s op e after hrun _ _ hkey ih c' hafter
  subst hafter
  generalize hbefore : s.table.find? key = before at hkey ih
  cases before with
  | none =>
    cases hkey with
    | connect isn now => exact hconnect isn now
    | accept segment options isn now _ _ _ hoptions =>
      exact haccept segment options isn now hoptions
  | some c =>
    obtain ⟨isn, hconn, -⟩ := (hrun.reachable.keyInv key).conn
    exact hstep s c e c' hrun hbefore ((hconn c hbefore).ok.step hkey) hkey.kept (ih c rfl)

end Wirestack
