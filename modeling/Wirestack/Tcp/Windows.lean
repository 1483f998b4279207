import Wirestack.Tcp.Connection

set_option autoImplicit false

/-! # Windows and congestion control

The receive window a connection advertises, the send window its peer advertises, and the
Reno-style congestion window. `std::uint32_t` sums that the source computes in a wider type before
clamping (`clampCwnd`) are plain sums here. -/

namespace Wirestack

/-! ## The receive window -/

/-- The buffered payload; a remembered FIN counts as one byte. -/
def Connection.bufferedReceiveBytes (c : Connection) : ℕ :=
  (c.outOfOrder.map (·.payload.length)).sum + (if c.pendingFinSeq.isSome then 1 else 0)

/-- The wire-format window field. `applyScale` is false for a SYN, a SYN-ACK and their
    retransmissions. -/
def Connection.advertisedWindowFor (c : Connection) (applyScale : Bool) : UInt16 :=
  let buffered := c.bufferedReceiveBytes
  let available := if buffered ≥ kTcpReceiveCapacity then 0 else kTcpReceiveCapacity - buffered
  let wire := if applyScale && c.windowScalingEnabled then available >>> c.localWindowScale.toNat
    else min available 65535
  UInt16.ofNat (min wire 65535)

/-- The byte count that a window field of ours stands for. -/
def Connection.expandLocalAdvertisedWindow (c : Connection) (wire : UInt16) : ℕ :=
  if c.windowScalingEnabled then (wire.toNat <<< c.localWindowScale.toNat) % 2 ^ 32
  else wire.toNat

/-- The window the peer was promised, as a byte count. -/
def Connection.advertisedLogicalWindowFor (c : Connection) : ℕ :=
  c.expandLocalAdvertisedWindow (c.advertisedWindowFor c.windowScalingEnabled)

/-! ## The send window -/

/-- Unacknowledged sequence space, `snd_nxt - snd_una`. -/
def Connection.flight (c : Connection) : ℕ := (c.sndNxt - c.sndUna).toNat

/-- What the peer's window leaves beyond the bytes in flight. -/
def Connection.availableSendWindow (c : Connection) : ℕ :=
  if c.flight ≥ c.sndWnd then 0 else c.sndWnd - c.flight

/-- What the congestion window leaves beyond the bytes in flight. -/
def Connection.availableCongestionWindow (c : Connection) : ℕ :=
  if c.flight ≥ c.cwnd then 0 else c.cwnd - c.flight

/-- The byte count that a window field of the peer's stands for. -/
def Connection.decodePeerWindow (c : Connection) (raw : UInt16) : ℕ :=
  if c.windowScalingEnabled then (raw.toNat <<< c.peerWindowScale.toNat) % 2 ^ 32 else raw.toNat

/-- The SND.WL1/SND.WL2 test: the window is taken from a segment with a newer sequence number, or
    with the same one and an acknowledgment that is not older. -/
def Connection.updateSendWindow (c : Connection) (segment : TcpSegment) : Connection :=
  if sequenceGreater segment.sequenceNumber c.sndWl1 ||
      (segment.sequenceNumber == c.sndWl1 &&
        sequenceLessOrEqual c.sndWl2 segment.acknowledgmentNumber) then
    { c with
      sndWnd := c.decodePeerWindow segment.windowSize
      sndWl1 := segment.sequenceNumber
      sndWl2 := segment.acknowledgmentNumber }
  else c

/-! ## Congestion control -/

/-- The congestion window never exceeds a fixed maximum. -/
def clampCwnd (value : ℕ) : ℕ := min value kMaxCongestionWindow

/-- The initial window of ten segments, with the floor in bytes. -/
def initialCongestionWindow (smss : UInt16) : ℕ :=
  clampCwnd (min (10 * smss.toNat) (max (2 * smss.toNat) kInitialCongestionWindowFloor))

/-- The congestion-avoidance loop: one SMSS of growth for each window's worth of acknowledged bytes.
    Each round takes a positive `cwnd` off the accumulator, so the accumulator is enough fuel. -/
def congestionAvoidanceGrowth (smss : ℕ) : ℕ → ℕ → ℕ → ℕ × ℕ
  | 0, cwnd, acked => (cwnd, acked)
  | fuel + 1, cwnd, acked =>
    if cwnd > 0 ∧ acked ≥ cwnd then
      congestionAvoidanceGrowth smss fuel (clampCwnd (cwnd + smss)) (acked - cwnd)
    else (cwnd, acked)

/-- Growth for acknowledged data: slow start below `ssthresh`, then congestion avoidance. -/
def Connection.applyCongestionGrowth (c : Connection) (dataBytes : ℕ) : Connection :=
  if dataBytes = 0 then c
  else
    let smss := c.effectiveSendMss.toNat
    if c.cwnd < c.ssthresh then { c with cwnd := clampCwnd (c.cwnd + min dataBytes smss) }
    else
      let acked := (c.congestionAvoidanceAckedBytes + dataBytes) % 2 ^ 32
      let grown := congestionAvoidanceGrowth smss acked c.cwnd acked
      { c with cwnd := grown.1, congestionAvoidanceAckedBytes := grown.2 }

/-- A timeout: `ssthresh` drops to half the flight, `cwnd` to one segment, and recovery ends. -/
def Connection.applyTimeoutCongestionCollapse (c : Connection) : Connection :=
  let smss := c.effectiveSendMss.toNat
  { c with
    ssthresh := clampCwnd (max (c.flight / 2) (2 * smss))
    cwnd := smss
    duplicateAckCount := 0
    inFastRecovery := false
    congestionAvoidanceAckedBytes := 0
    pending := c.pending.map fun e => { e with sacked := false, retransmittedInRecovery := false } }

end Wirestack
