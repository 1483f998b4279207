import Wirestack.Tcp.Output

set_option autoImplicit false

/-! # Acknowledgment processing

Cumulative retirement with its RTT sample, the SACK scoreboard, loss recovery, and the
congestion-control half of `handleSynchronized`, which runs before the receive side of a segment is
looked at. -/

namespace Wirestack

/-! ## RTT estimation and cumulative retirement -/

/-- `std::chrono` division truncates toward zero. -/
def Connection.recordRttSample (c : Connection) (r : Duration) : Connection :=
  let c :=
    if !c.hasRttSample then { c with srtt := r, rttvar := r.tdiv 2, hasRttSample := true }
    else
      { c with
        rttvar := (c.rttvar * 3 + |c.srtt - r|).tdiv 4
        srtt := (c.srtt * 7 + r).tdiv 8 }
  { c with currentRto := max kMinRto (min (c.srtt + max kRtoGranularity (c.rttvar * 4)) kMaxRto) }

/-- What an acknowledgment has covered. -/
structure TcpAckRetirementResult where
  newlyAckedSequenceSpace : ℕ := 0
  newlyAckedDataBytes : ℕ := 0
  ackAdvanced : Bool := false
  rttSampleTaken : Bool := false
  deriving DecidableEq, Repr

/-- What the retirement loop leaves behind. `survivorSampled` says that the RTT sample comes from
    the trimmed entry that is now at the front of the queue. -/
structure RetirementLoop where
  pending : List PendingTransmission
  dataBytes : ℕ
  sampleFirstSent : Option TimePoint
  survivorSampled : Bool
  deriving DecidableEq, Repr

/-- Karn's rule, and one sample for each entry. -/
def PendingTransmission.rttEligible (e : PendingTransmission) : Bool :=
  !e.wasRetransmitted && !e.rttSampleTaken

/-- The entry left when an acknowledgment lands inside it. -/
def PendingTransmission.trimTo (e : PendingTransmission) (ack : SeqNum) : PendingTransmission :=
  { e with
    payload := e.payload.drop (ack - e.sequenceStart).toNat
    sequenceStart := ack
    retransmittedInRecovery := false }

/-- The retirement loop over the queue. -/
def retireEntries (ack : SeqNum) : List PendingTransmission → ℕ → Option TimePoint → RetirementLoop
  | [], dataBytes, sample => ⟨[], dataBytes, sample, false⟩
  | e :: rest, dataBytes, sample =>
    let sample' := if e.rttEligible then some e.firstSentAt else sample
    if sequenceLessOrEqual e.sequenceEnd ack then
      -- A later eligible entry takes the place of an earlier one as the sample.
      retireEntries ack rest ((dataBytes + e.payload.length) % 2 ^ 32) sample'
    else if sequenceGreater ack e.sequenceStart then
      -- The acknowledgment lands inside the entry, whose tail stays at the front.
      ⟨e.trimTo ack :: rest, (dataBytes + (ack - e.sequenceStart).toNat) % 2 ^ 32, sample',
        e.rttEligible⟩
    else ⟨e :: rest, dataBytes, sample, false⟩

/-- The trimmed entry at the front has given its sample. -/
def markSampled : List PendingTransmission → List PendingTransmission
  | [] => []
  | e :: rest => { e with rttSampleTaken := true } :: rest

/-- Cumulative retirement: `snd_una` advances, covered entries go, and the last eligible one gives
    the RTT sample. -/
def retireAcknowledged (c : Connection) (ack : SeqNum) (now : TimePoint) :
    Connection × TcpAckRetirementResult :=
  if !sequenceGreater ack c.sndUna then (c, {})
  else
    let loop := retireEntries ack c.pending 0 none
    let retired := { c with sndUna := ack, pending := loop.pending }
    let result : TcpAckRetirementResult :=
      { newlyAckedSequenceSpace := (ack - c.sndUna).toNat
        newlyAckedDataBytes := loop.dataBytes
        ackAdvanced := true }
    match loop.sampleFirstSent with
    | some firstSent =>
      if firstSent ≤ now then
        let sampled := retired.recordRttSample (now - firstSent)
        ({ sampled with
            pending := if loop.survivorSampled then markSampled loop.pending else loop.pending },
          { result with rttSampleTaken := true })
      else (retired, result)
    | none => (retired, result)

/-! ## The SACK scoreboard -/

/-- The blocks that lie strictly after the cumulative acknowledgment and inside what was sent. -/
def usableSackBlocks (cumulativeAck sndNxt : SeqNum) (blocks : List TcpSackBlock) :
    List TcpSackBlock :=
  blocks.filter fun b =>
    sequenceGreater b.leftEdge cumulativeAck && sequenceGreater b.rightEdge b.leftEdge &&
      !sequenceGreater b.rightEdge sndNxt

/-- The merge loop; `back` is the last merged block. -/
def mergeSackBlocksInto (back : TcpSackBlock) : List TcpSackBlock → List TcpSackBlock
  | [] => [back]
  | b :: rest =>
    if !sequenceGreater b.leftEdge back.rightEdge then
      mergeSackBlocksInto { back with rightEdge := sequenceMax back.rightEdge b.rightEdge } rest
    else back :: mergeSackBlocksInto b rest

/-- Sorted blocks, with those that overlap or touch merged. -/
def mergeSackBlocks : List TcpSackBlock → List TcpSackBlock
  | [] => []
  | b :: rest => mergeSackBlocksInto b rest

/-- One block covers the whole entry. -/
def sackCovers (merged : List TcpSackBlock) (e : PendingTransmission) : Bool :=
  merged.any fun b =>
    sequenceLessOrEqual b.leftEdge e.sequenceStart && sequenceLessOrEqual e.sequenceEnd b.rightEdge

/-- Marks the data entries that the usable blocks cover. No mark is ever taken back here. -/
def applySackBlocks (c : Connection) (cumulativeAck : SeqNum) (blocks : List TcpSackBlock) :
    Connection :=
  let valid := usableSackBlocks cumulativeAck c.sndNxt blocks
  if valid.isEmpty then c
  else
    let sorted := valid.insertionSort fun a b => ¬ sequenceGreater a.leftEdge b.leftEdge
    let merged := mergeSackBlocks sorted
    { c with
      pending := c.pending.map fun e =>
        if e.isSyn || e.isFin || e.sacked then e
        else if sackCovers merged e then { e with sacked := true } else e }

/-! ## Loss recovery -/

/-- The oldest data entry below the recovery point that is neither sacked nor already resent in
    this episode, with its index in the queue. -/
def selectRecoveryRetransmission (recoveryPoint : SeqNum) :
    List PendingTransmission → Option (ℕ × PendingTransmission)
  | [] => none
  | e :: rest =>
    let later := (selectRecoveryRetransmission recoveryPoint rest).map fun p => (p.1 + 1, p.2)
    if e.isSyn || e.isFin then later
    -- `break` in the source: everything behind was sent after recovery was entered.
    else if !sequenceGreater recoveryPoint e.sequenceStart then none
    else if e.sacked || e.retransmittedInRecovery then later
    else some (0, e)

/-- The segment of a recovery retransmission, stamped with the receive side as it is now. -/
def recoverySegment (key : TcpConnectionKey) (c : Connection) (e : PendingTransmission) :
    TcpSegment :=
  { sourcePort := key.localPort
    destinationPort := key.remotePort
    sequenceNumber := e.sequenceStart
    acknowledgmentNumber := c.rcvNxt
    flags := e.flags
    windowSize := c.advertisedWindowFor c.windowScalingEnabled
    payload := e.payload }

/-- Sends the entry again and marks it. -/
def buildRecoveryRetransmission (key : TcpConnectionKey) (c : Connection) (index : ℕ)
    (entry : PendingTransmission) (now : TimePoint) : Connection × TcpSegment :=
  ({ c with
      pending := c.pending.modify index fun e =>
        { e with wasRetransmitted := true, retransmittedInRecovery := true, lastSentAt := now } },
    recoverySegment key c entry)

/-- `if (entry = selectRecoveryRetransmission(...)) buildRecoveryRetransmission(...)`. -/
def retransmitForRecovery (key : TcpConnectionKey) (c : Connection) (now : TimePoint) :
    Connection × Option TcpSegment :=
  match selectRecoveryRetransmission c.recoveryPoint c.pending with
  | none => (c, none)
  | some (index, entry) =>
    let (c, segment) := buildRecoveryRetransmission key c index entry now
    (c, some segment)

/-- Every entry may be resent once more. -/
def clearRecoveryMarks (pending : List PendingTransmission) : List PendingTransmission :=
  pending.map fun e => { e with retransmittedInRecovery := false }

/-- The third duplicate: halve, inflate, and resend the first hole. -/
def beginFastRecovery (key : TcpConnectionKey) (c : Connection) (now : TimePoint) :
    Connection × Option TcpSegment :=
  let smss := c.effectiveSendMss.toNat
  let ssthresh := clampCwnd (max (c.flight / 2) (2 * smss))
  retransmitForRecovery key
    { c with
      ssthresh := ssthresh
      recoveryPoint := c.sndNxt
      cwnd := clampCwnd (ssthresh + 3 * smss)
      inFastRecovery := true
      congestionAvoidanceAckedBytes := 0
      pending := clearRecoveryMarks c.pending } now

/-! ## The congestion-control half of `handleSynchronized` -/

/-- An advancing acknowledgment: leave recovery, deflate for a partial one, or grow. -/
def onAdvancingAck (key : TcpConnectionKey) (c : Connection) (ack : SeqNum)
    (retired : TcpAckRetirementResult) (now : TimePoint) : Connection × Option TcpSegment :=
  let c := { c with duplicateAckCount := 0 }
  if c.inFastRecovery then
    if sequenceLessOrEqual c.recoveryPoint ack then
      -- All that was outstanding when recovery began is acknowledged.
      ({ c with
          cwnd := c.ssthresh
          inFastRecovery := false
          congestionAvoidanceAckedBytes := 0
          pending := clearRecoveryMarks c.pending }, none)
    else
      -- A partial acknowledgment: deflate by what left the network and fill the next hole.
      let smss := c.effectiveSendMss.toNat
      let deflateBy := retired.newlyAckedSequenceSpace
      let deflated := max (if c.cwnd > deflateBy then c.cwnd - deflateBy else 0) smss
      let deflated := if deflateBy ≥ smss then deflated + smss else deflated
      retransmitForRecovery key { c with cwnd := clampCwnd deflated } now
  else (c.applyCongestionGrowth retired.newlyAckedDataBytes, none)

/-- An acknowledgment that does not advance: count duplicates, enter or continue recovery. -/
def onStandingAck (key : TcpConnectionKey) (c : Connection) (segment : TcpSegment)
    (windowChanged : Bool) (now : TimePoint) : Connection × Option TcpSegment :=
  let hasOutstandingData := c.pending.any fun p => !p.isSyn && !p.isFin
  let isDuplicateAck := segment.acknowledgmentNumber == c.sndUna && segment.payload.isEmpty &&
    !segment.flags.syn && !segment.flags.fin && !windowChanged && hasOutstandingData
  if isDuplicateAck then
    let c := { c with duplicateAckCount := c.duplicateAckCount + 1 }
    if c.inFastRecovery then
      -- Every further duplicate stands for a segment that left the network.
      let c := { c with cwnd := clampCwnd (c.cwnd + c.effectiveSendMss.toNat) }
      if c.sackPermitted then retransmitForRecovery key c now else (c, none)
    else if c.duplicateAckCount = 3 then beginFastRecovery key c now
    else (c, none)
  else if windowChanged then ({ c with duplicateAckCount := 0 }, none)
  else (c, none)

/-- Everything `handleSynchronized` does for an acceptable acknowledgment number: retirement, SACK
    marks, window update, congestion control. The segment is the fast retransmission, if any. -/
def processAck (key : TcpConnectionKey) (c : Connection) (segment : TcpSegment)
    (options : TcpParsedOptions) (now : TimePoint) : Connection × Option TcpSegment :=
  let (c, retired) := retireAcknowledged c segment.acknowledgmentNumber now
  let c := if c.sackPermitted then
    applySackBlocks c segment.acknowledgmentNumber options.sackBlocks else c
  let sndWndBefore := c.sndWnd
  let c := c.updateSendWindow segment
  let windowChanged := c.sndWnd != sndWndBefore
  if retired.ackAdvanced then onAdvancingAck key c segment.acknowledgmentNumber retired now
  else onStandingAck key c segment windowChanged now

end Wirestack
