import Mathlib.Data.List.Sort
import Wirestack.Tcp.Windows

set_option autoImplicit false

/-! # Building and scheduling outgoing segments

Option bytes, the control segments (SYN, SYN-ACK, pure ACK, FIN), the scheduler that moves bytes
from the unsent queue into sequence space, the deferred FIN and the persist timer. A function that
the source runs for its effect on a `Connection&` returns the new connection first. -/

namespace Wirestack

/-! ## Option bytes -/

/-- End-of-list padding to a 4-byte boundary. -/
def padOptions (out : List Byte) : List Byte := out ++ List.replicate ((4 - out.length % 4) % 4) 0

/-- Announces the largest segment we take. -/
def mssOption : List Byte := [2, 4, UInt8.ofNat (kTcpMss >>> 8), UInt8.ofNat (kTcpMss &&& 0xff)]

/-- Offers SACK and Window Scale only to a peer that did so in its SYN. -/
def buildSynAckOptions (c : Connection) : List Byte :=
  padOptions (mssOption ++ (if c.sackPermitted then [4, 2] else []) ++
    (if c.windowScalingEnabled then [1, 3, 3, c.localWindowScale] else []))

/-- Offers everything. -/
def buildActiveSynOptions : List Byte :=
  padOptions (mssOption ++ [4, 2] ++ [1, 3, 3, kLocalWindowScaleShift])

/-- The four bytes of an option field. -/
def bigEndian32 (value : SeqNum) : List Byte :=
  [UInt8.ofBitVec ((value >>> 24).setWidth 8), UInt8.ofBitVec ((value >>> 16).setWidth 8),
    UInt8.ofBitVec ((value >>> 8).setWidth 8), UInt8.ofBitVec (value.setWidth 8)]

/-- One SACK option for all blocks. -/
def buildSackOptions (blocks : List TcpSackBlock) : List Byte :=
  if blocks.isEmpty then []
  else padOptions ([5, UInt8.ofNat (2 + 8 * blocks.length)] ++
    blocks.flatMap fun b => bigEndian32 b.leftEdge ++ bigEndian32 b.rightEdge)

/-! ## Control segments -/

/-- Acknowledges the SYN; the window of a SYN-ACK is never scaled. -/
def makeSynAck (key : TcpConnectionKey) (c : Connection) : TcpSegment :=
  { sourcePort := key.localPort
    destinationPort := key.remotePort
    sequenceNumber := c.localIsn
    acknowledgmentNumber := c.remoteIsn + 1
    flags := { syn := true, ack := true }
    windowSize := c.advertisedWindowFor false
    options := buildSynAckOptions c }

/-- The SYN of `beginConnect`. -/
def makeActiveSyn (key : TcpConnectionKey) (c : Connection) : TcpSegment :=
  { sourcePort := key.localPort
    destinationPort := key.remotePort
    sequenceNumber := c.localIsn
    acknowledgmentNumber := 0
    flags := { syn := true }
    windowSize := c.advertisedWindowFor false
    options := buildActiveSynOptions }

/-- The fragments in the order their SACK blocks are reported: the one that starts at
    `mostRecentFragmentStart`, if it still exists, then the others from the highest down. -/
def sackOrder (c : Connection) (mostRecentFragmentStart : Option SeqNum) :
    List TcpReassemblyFragment :=
  let mostRecent := mostRecentFragmentStart.bind fun start =>
    c.outOfOrder.findIdx? fun f => f.sequenceStart == start
  let descending := List.insertionSort fun (a b : TcpReassemblyFragment) =>
    ¬ sequenceGreater b.sequenceStart a.sequenceStart
  match mostRecent with
  | none => descending c.outOfOrder
  | some i => (c.outOfOrder[i]?).toList ++ descending (c.outOfOrder.eraseIdx i)

/-- At most four blocks, the most recent fragment first. -/
def generateSackBlocks (c : Connection) (mostRecentFragmentStart : Option SeqNum) :
    List TcpSackBlock :=
  ((sackOrder c mostRecentFragmentStart).take 4).map fun f =>
    { leftEdge := f.sequenceStart, rightEdge := f.sequenceEnd }

/-- An acknowledgment without data; the only segment that reports SACK blocks. -/
def makePureAck (key : TcpConnectionKey) (c : Connection)
    (mostRecentFragmentStart : Option SeqNum := none) : TcpSegment :=
  { sourcePort := key.localPort
    destinationPort := key.remotePort
    sequenceNumber := c.sndNxt
    acknowledgmentNumber := c.rcvNxt
    flags := { ack := true }
    windowSize := c.advertisedWindowFor c.windowScalingEnabled
    options := if c.sackPermitted then
      buildSackOptions (generateSackBlocks c mostRecentFragmentStart) else [] }

/-- The FIN takes the next sequence number. -/
def makeFin (key : TcpConnectionKey) (c : Connection) : TcpSegment :=
  { sourcePort := key.localPort
    destinationPort := key.remotePort
    sequenceNumber := c.sndNxt
    acknowledgmentNumber := c.rcvNxt
    flags := { fin := true, ack := true }
    windowSize := c.advertisedWindowFor c.windowScalingEnabled }

/-- The reset sent for a segment that no connection and no listener wants. -/
def makeClosedPortReset (incoming : TcpSegment) : TcpSegment :=
  if incoming.flags.ack then
    { sourcePort := incoming.destinationPort
      destinationPort := incoming.sourcePort
      sequenceNumber := incoming.acknowledgmentNumber
      acknowledgmentNumber := 0
      flags := { rst := true }
      windowSize := 0 }
  else
    { sourcePort := incoming.destinationPort
      destinationPort := incoming.sourcePort
      sequenceNumber := 0
      acknowledgmentNumber := incoming.sequenceNumber +
        (BitVec.ofNat 32 incoming.payload.length + (if incoming.flags.syn then 1 else 0) +
          (if incoming.flags.fin then 1 else 0))
      flags := { rst := true, ack := true }
      windowSize := 0 }

/-! ## Send buffer, deferred FIN and persist timer -/

/-- The application data in the send buffer: unsent, or sent and not yet acknowledged. -/
def Connection.appOwnedBytes (c : Connection) : ℕ :=
  c.unsent.length +
    ((c.pending.filter fun e => !e.isSyn && !e.isFin).map (·.payload.length)).sum

/-- Data is stuck behind a closed window with nothing in flight that could draw a window update. -/
def Connection.persistEligible (c : Connection) : Bool :=
  (c.state == .established || c.state == .closeWait) && !c.unsent.isEmpty && c.sndWnd == 0 &&
    c.sndNxt == c.sndUna && !c.localFinSeq.isSome

/-- Arms the persist timer when it becomes necessary and clears it when it no longer is. -/
def Connection.updatePersistState (c : Connection) (now : TimePoint) : Connection :=
  if !c.persistEligible then { c with persistDeadline := none }
  else if c.persistDeadline.isNone then
    { c with
      persistInterval := kInitialPersistInterval
      persistDeadline := some (now + kInitialPersistInterval) }
  else c

/-- The deferred FIN of a requested close, once all data has entered sequence space. -/
def maybeSequenceFin (key : TcpConnectionKey) (c : Connection) (now : TimePoint)
    (segments : List TcpSegment) : Connection × List TcpSegment :=
  if !c.closeRequested then (c, segments)
  else if c.localFinSeq.isSome then (c, segments)
  else if !c.unsent.isEmpty then (c, segments)
  else if c.availableSendWindow < 1 then (c, segments)
  else
    -- Only the peer's window holds a FIN back, not the congestion window.
    let segment := makeFin key c
    let entry : PendingTransmission :=
      { sequenceStart := c.sndNxt
        isFin := true
        flags := segment.flags
        firstSentAt := now
        lastSentAt := now
        timeoutInterval := c.currentRto }
    ({ c with
        pending := c.pending ++ [entry]
        localFinSeq := some c.sndNxt
        sndNxt := c.sndNxt + 1
        state := if c.state = .established then .finWait1 else .lastAck },
      segments ++ [segment])

/-- The segment and the queue entry for one chunk of application data. -/
def dataSegment (key : TcpConnectionKey) (c : Connection) (seq : SeqNum) (psh : Bool)
    (chunk : List Byte) : TcpSegment :=
  { sourcePort := key.localPort
    destinationPort := key.remotePort
    sequenceNumber := seq
    acknowledgmentNumber := c.rcvNxt
    flags := { ack := true, psh := psh }
    windowSize := c.advertisedWindowFor c.windowScalingEnabled
    payload := chunk }

/-- The queue entry of a data segment. -/
def dataEntry (c : Connection) (now : TimePoint) (segment : TcpSegment) : PendingTransmission :=
  { sequenceStart := segment.sequenceNumber
    flags := segment.flags
    payload := segment.payload
    firstSentAt := now
    lastSentAt := now
    timeoutInterval := c.currentRto }

/-- The MSS-cutting loop over the bytes of one scheduling pass. Every round takes at least one byte
    when the MSS is positive, so the number of bytes is enough fuel. -/
def cutSegments (key : TcpConnectionKey) (c : Connection) (drainingWholeQueue : Bool) :
    ℕ → SeqNum → List Byte → List TcpSegment
  | 0, _, _ => []
  | fuel + 1, seq, bytes =>
    if bytes.isEmpty then []
    else
      let chunk := min c.effectiveSendMss.toNat bytes.length
      let isLastChunk := chunk == bytes.length
      dataSegment key c seq (isLastChunk && drainingWholeQueue) (bytes.take chunk) ::
        cutSegments key c drainingWholeQueue fuel (seq + BitVec.ofNat 32 chunk) (bytes.drop chunk)

/-- How many unsent bytes one scheduling pass moves into sequence space. -/
def Connection.sendAllowance (c : Connection) : ℕ :=
  min (min (min c.availableSendWindow c.availableCongestionWindow) c.unsent.length)
    (kMaxSegmentsPerSend * c.effectiveSendMss.toNat)

/-- The data half of a scheduling pass: cut, register, drain. -/
def sendQueued (key : TcpConnectionKey) (c : Connection) (now : TimePoint) :
    Connection × List TcpSegment :=
  let toSend := c.sendAllowance
  let drainingWholeQueue := toSend == c.unsent.length && decide (toSend > 0)
  if toSend > 0 then
    let segments := cutSegments key c drainingWholeQueue toSend c.sndNxt (c.unsent.take toSend)
    ({ c with
        pending := c.pending ++ segments.map (dataEntry c now)
        unsent := c.unsent.drop toSend
        sndNxt := c.sndNxt + BitVec.ofNat 32 toSend },
      segments)
  else (c, [])

/-- One scheduling pass: data, then the FIN, then the persist timer. -/
def scheduleQueuedData (key : TcpConnectionKey) (c : Connection) (now : TimePoint) :
    Connection × List TcpSegment :=
  let (c, segments) := sendQueued key c now
  let (c, segments) := if c.unsent.isEmpty then maybeSequenceFin key c now segments
    else (c, segments)
  (c.updatePersistState now, segments)

end Wirestack
