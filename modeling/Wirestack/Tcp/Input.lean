import Wirestack.Tcp.Ack
import Wirestack.Tcp.Reassembly

set_option autoImplicit false

/-! # Segment arrival on an existing connection

`handleSynchronized`, `handleSynSent`, `handleTimeWait` and the SYN-RECEIVED part of `handle`. The
long handler is cut at the places where its comments change the subject: acknowledgment
(`processAck`), close transitions (`advanceClose`), the window acceptance test, the receive side, and
the scheduling that comes last.

The handler copies the in-window part of a payload with a pair of iterators computed from the window
test. Nothing in it compares them with the end of the payload, so a model that truncated the copy
would hide what happens when they lie beyond it: `readRange` takes the bytes past the end from
`memory`, an arbitrary function, and what is proved for every `memory` holds whatever is read there. -/

namespace Wirestack

/-- `std::vector(v.begin() + start, v.begin() + start + len)`. -/
def readRange (memory : ℕ → Byte) (v : List Byte) (start len : ℕ) : List Byte :=
  (List.range len).map fun i => v.getD (start + i) (memory (start + i))

/-! ## Close transitions and scheduling -/

/-- TIME-WAIT starts over, with nothing left to retransmit. -/
def Connection.startTimeWait (c : Connection) (now : TimePoint) : Connection :=
  { c with
    state := .timeWait
    timeWaitDeadline := some (now + kTimeWaitDuration)
    pending := [] }

/-- Our FIN has been acknowledged. -/
def Connection.localFinAcked (c : Connection) : Bool :=
  match c.localFinSeq with
  | some fin => sequenceLessOrEqual (fin + 1) c.sndUna
  | none => false

/-- The acknowledgment-driven close transitions. -/
def Connection.advanceClose (c : Connection) (now : TimePoint) : Connection :=
  if c.state = .finWait1 ∧ c.localFinAcked then { c with state := .finWait2 }
  else if c.state = .closing ∧ c.localFinAcked then c.startTimeWait now
  else if c.state = .lastAck ∧ c.localFinAcked then { c with pendingRemoval := true }
  else c

/-- The scheduling pass at the end of a call. -/
def scheduleIfSendable (key : TcpConnectionKey) (c : Connection) (now : TimePoint) :
    Connection × List TcpSegment :=
  if !c.pendingRemoval && (c.state == .established || c.state == .closeWait) then
    scheduleQueuedData key c now
  else (c.updatePersistState now, [])

/-! ## The window acceptance test -/

/-- The first sequence number behind the promised window. -/
def Connection.windowEnd (c : Connection) : SeqNum :=
  c.rcvNxt + BitVec.ofNat 32 c.advertisedLogicalWindowFor

/-- The first sequence number behind the payload. -/
def TcpSegment.segmentEnd (segment : TcpSegment) : SeqNum :=
  segment.sequenceNumber + BitVec.ofNat 32 segment.payload.length

/-- Where the usable payload starts. -/
def Connection.usableStart (c : Connection) (segment : TcpSegment) : SeqNum :=
  sequenceMax c.rcvNxt segment.sequenceNumber

/-- Where the usable payload ends. -/
def Connection.usableEnd (c : Connection) (segment : TcpSegment) : SeqNum :=
  sequenceMin segment.segmentEnd c.windowEnd

/-- The comparison is a signed difference, so it can be wrong for edges half the space apart. -/
def Connection.anyPayloadInWindow (c : Connection) (segment : TcpSegment) : Bool :=
  sequenceGreater (c.usableEnd segment) (c.usableStart segment)

/-- The states in which the peer's FIN is still expected. -/
def Connection.finEventsOpen (c : Connection) : Bool :=
  c.state == .established || c.state == .finWait1 || c.state == .finWait2

/-- The FIN is expected and lies in the window. -/
def Connection.finInWindow (c : Connection) (segment : TcpSegment) : Bool :=
  c.finEventsOpen && segment.flags.fin && sequenceLessOrEqual c.rcvNxt segment.segmentEnd &&
    sequenceGreater c.windowEnd segment.segmentEnd

/-! ## The receive side -/

/-- The payload bytes between the usable edges, as the source copies them. -/
def usablePayload (memory : ℕ → Byte) (c : Connection) (segment : TcpSegment) : List Byte :=
  readRange memory segment.payload (c.usableStart segment - segment.sequenceNumber).toNat
    (c.usableEnd segment - c.usableStart segment).toNat

/-- The fragment that now contains the start of the inserted range. -/
def mostRecentFragment (c : Connection) (usableStart : SeqNum) : Option SeqNum :=
  (c.outOfOrder.find? fun f =>
    sequenceLessOrEqual f.sequenceStart usableStart &&
      sequenceGreater f.sequenceEnd usableStart).map (·.sequenceStart)

/-- Buffer the payload and retain the FIN, as far as each lies in the window. -/
def storeSegment (memory : ℕ → Byte) (c : Connection) (segment : TcpSegment) :
    Connection × Option SeqNum :=
  let finInWindow := c.finInWindow segment
  let (stored, mostRecent) :=
    if c.anyPayloadInWindow segment then
      let stored := insertReassemblyFragment c (c.usableStart segment)
        (usablePayload memory c segment)
      (stored, mostRecentFragment stored (c.usableStart segment))
    else (c, none)
  (if finInWindow then { stored with pendingFinSeq := some segment.segmentEnd } else stored,
    mostRecent)

/-- Consume a retained FIN that `rcvNxt` has reached. -/
def consumeFin (c : Connection) (now : TimePoint) : Connection × Bool :=
  if c.pendingFinSeq = some c.rcvNxt then
    let c := { c with rcvNxt := c.rcvNxt + 1, pendingFinSeq := none }
    (match c.state with
      | .established => { c with state := .closeWait }
      | .finWait1 => { c with state := .closing }
      | .finWait2 => c.startTimeWait now
      | _ => c, true)
  else (c, false)

/-- Whether a pure ACK has SACK blocks to carry. -/
def Connection.hasSackToReport (c : Connection) : Bool := c.sackPermitted && !c.outOfOrder.isEmpty

/-- The tail of `handleSynchronized`, after acknowledgment and close processing. -/
def receiveSegment (memory : ℕ → Byte) (key : TcpConnectionKey) (c : Connection)
    (segment : TcpSegment) (fastRetransmit : Option TcpSegment) (now : TimePoint) :
    Connection × TcpReceiveResult :=
  if segment.payload.isEmpty && !segment.flags.fin then
    -- An ACK-only segment: nothing on the receive side changes.
    let (next, scheduled) := scheduleIfSendable key c now
    (next,
      { connectionClosed := c.pendingRemoval
        fastRetransmit := fastRetransmit
        scheduled := scheduled
        reply := if next.hasSackToReport then some (makePureAck key next) else none })
  else if !c.anyPayloadInWindow segment && !c.finInWindow segment then
    -- Old data, or data beyond the window: the peer is told where the window is.
    let (next, scheduled) := scheduleIfSendable key c now
    (next,
      { fastRetransmit := fastRetransmit
        scheduled := scheduled
        reply := if scheduled.isEmpty || next.hasSackToReport then some (makePureAck key next)
          else none })
  else
    let (c, mostRecent) := storeSegment memory c segment
    let (c, accepted) := releaseContiguous c
    let (c, peerClosed) := consumeFin c now
    let (c, scheduled) := scheduleIfSendable key c now
    (c,
      { acceptedPayload := accepted
        fastRetransmit := fastRetransmit
        peerClosed := peerClosed
        scheduled := scheduled
        reply := if (accepted.isEmpty && scheduled.isEmpty) || c.hasSackToReport then
          some (makePureAck key c mostRecent) else none })

/-! ## The handlers -/

/-- The SYN-ACK of our own handshake once more. -/
def Connection.isDuplicateHandshakeSynAck (c : Connection) (segment : TcpSegment) : Bool :=
  segment.flags.ack && !segment.flags.rst && !segment.flags.fin && segment.payload.isEmpty &&
    c.remoteIsnKnown && segment.sequenceNumber == c.remoteIsn &&
    segment.acknowledgmentNumber == c.localIsn + 1

/-- A segment for a synchronized connection. -/
def handleSynchronized (memory : ℕ → Byte) (key : TcpConnectionKey) (c : Connection)
    (segment : TcpSegment) (now : TimePoint) : Connection × TcpReceiveResult :=
  if segment.flags.syn then
    -- Before the options are looked at: the answer to a repeated SYN-ACK does not depend on them.
    if c.isDuplicateHandshakeSynAck segment then (c, { reply := some (makePureAck key c) })
    else (c, {})
  else
    match parseTcpOptions segment.options with
    | .error _ => (c, {})
    | .ok options =>
      if segment.flags.rst then
        if segment.sequenceNumber = c.rcvNxt then
          ({ c with pendingRemoval := true }, { connectionReset := true })
        else (c, {})
      else if !segment.flags.ack then (c, {})
      else if !sequenceLessOrEqual segment.acknowledgmentNumber c.sndNxt then (c, {})
      else
        let (c, fastRetransmit) := processAck key c segment options now
        receiveSegment memory key (c.advanceClose now) segment fastRetransmit now

/-- The options a peer's SYN or SYN-ACK settles for the lifetime of the connection. -/
def Connection.negotiate (c : Connection) (options : TcpParsedOptions) : Connection :=
  let peerMss := options.maximumSegmentSize.getD kDefaultPeerMss
  let effectiveSendMss := min (UInt16.ofNat kTcpMss) peerMss
  let c :=
    { c with
      peerMss := peerMss
      effectiveSendMss := effectiveSendMss
      cwnd := initialCongestionWindow effectiveSendMss }
  let c :=
    match options.windowScale with
    | some shift =>
      { c with
        windowScalingEnabled := true
        peerWindowScale := min shift kMaxWindowScaleShift
        localWindowScale := kLocalWindowScaleShift }
    | none => c
  { c with sackPermitted := options.sackPermitted }

/-- The answer to our SYN. -/
def handleSynSent (key : TcpConnectionKey) (c : Connection) (segment : TcpSegment)
    (now : TimePoint) : Connection × TcpReceiveResult :=
  match parseTcpOptions segment.options with
  | .error _ => (c, {})
  | .ok options =>
    if segment.flags.rst then
      if segment.flags.ack && segment.acknowledgmentNumber == c.sndNxt then
        ({ c with pendingRemoval := true }, { connectionReset := true })
      else (c, {})
    else if !segment.flags.syn then (c, {})
    else if !segment.flags.ack then (c, {})
    else if segment.flags.fin || !segment.payload.isEmpty then (c, {})
    else if segment.acknowledgmentNumber ≠ c.sndNxt then (c, {})
    else
      let c :=
        { c with
          remoteIsn := segment.sequenceNumber
          remoteIsnKnown := true
          rcvNxt := segment.sequenceNumber + 1 }
      let c := { c.negotiate options with state := .established }
      let (c, _) := retireAcknowledged c segment.acknowledgmentNumber now
      let c :=
        { c with
          sndWnd := segment.windowSize.toNat
          sndWl1 := segment.sequenceNumber
          sndWl2 := segment.acknowledgmentNumber }
      let finalAck : TcpSegment :=
        { sourcePort := key.localPort
          destinationPort := key.remotePort
          sequenceNumber := c.sndNxt
          acknowledgmentNumber := c.rcvNxt
          flags := { ack := true }
          windowSize := c.advertisedWindowFor c.windowScalingEnabled }
      (c, { reply := some finalAck, connectionEstablished := true })

/-- The repeated FIN is acknowledged and starts the interval over; an exact reset removes. -/
def handleTimeWait (key : TcpConnectionKey) (c : Connection) (segment : TcpSegment)
    (now : TimePoint) : Connection × TcpReceiveResult :=
  if segment.flags.rst then
    (if segment.sequenceNumber = c.rcvNxt then { c with pendingRemoval := true } else c, {})
  else if segment.flags.syn || !segment.payload.isEmpty then (c, {})
  else if segment.flags.fin && segment.sequenceNumber + 1 == c.rcvNxt then
    let c := { c with timeWaitDeadline := some (now + kTimeWaitDuration) }
    (c, { reply := some (makePureAck key c) })
  else (c, {})

/-- The first acknowledgment of our SYN-ACK, which the peer's window rides on. -/
def completeHandshake (c : Connection) (segment : TcpSegment) (now : TimePoint) : Connection :=
  let c :=
    { c with
      state := .established
      rcvNxt := c.remoteIsn + 1
      sndUna := c.localIsn
      sndNxt := c.localIsn + 1 }
  let (c, _) := retireAcknowledged c (c.localIsn + 1) now
  { c with
    sndWnd := c.decodePeerWindow segment.windowSize
    sndWl1 := segment.sequenceNumber
    sndWl2 := segment.acknowledgmentNumber }

/-- The SYN-RECEIVED part of `handle`; `none` means that the connection is erased. -/
def handleSynReceived (key : TcpConnectionKey) (c : Connection) (segment : TcpSegment)
    (now : TimePoint) : Option Connection × TcpReceiveResult :=
  if segment.flags.rst then
    (if segment.sequenceNumber = c.remoteIsn + 1 then none else some c, {})
  else if segment.flags.syn && !segment.flags.ack then
    if segment.sequenceNumber = c.remoteIsn then
      let c := { c with pending := c.pending.modifyHead fun e => { e with lastSentAt := now } }
      (some c, { reply := some (makeSynAck key c) })
    else (some c, {})
  else if segment.flags.ack && !segment.flags.syn then
    if segment.acknowledgmentNumber = c.localIsn + 1 ∧ segment.sequenceNumber = c.remoteIsn + 1 then
      (some (completeHandshake c segment now), {})
    else (some c, {})
  else (some c, {})

/-- `connections_.erase(it)` when a handler has set the removal flag. -/
def eraseIfRemoved (outcome : Connection × TcpReceiveResult) :
    Option Connection × TcpReceiveResult :=
  (if outcome.1.pendingRemoval then none else some outcome.1, outcome.2)

/-- `handle` on a key that has a connection. -/
def handleExisting (memory : ℕ → Byte) (key : TcpConnectionKey) (c : Connection)
    (segment : TcpSegment) (now : TimePoint) : Option Connection × TcpReceiveResult :=
  match c.state with
  | .timeWait => eraseIfRemoved (handleTimeWait key c segment now)
  | .synSent => eraseIfRemoved (handleSynSent key c segment now)
  | .synReceived => handleSynReceived key c segment now
  | _ => eraseIfRemoved (handleSynchronized memory key c segment now)

end Wirestack
