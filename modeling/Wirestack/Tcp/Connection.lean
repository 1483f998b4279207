import Mathlib.Data.Int.Notation
import Wirestack.Lib.SerialNumber
import Wirestack.Tcp.Segment

set_option autoImplicit false

/-! # Connection state (`tcp_connection.hpp`)

The per-connection record, the retransmission queue entry, the reassembly fragment, the results
handed to the caller, and the policy constants. Instants and durations are integer nanoseconds of
the steady clock. Byte counts that the source keeps in a `std::uint32_t` are natural numbers, with
the reduction modulo `2 ^ 32` written out where an addition could wrap. -/

namespace Wirestack

/-- The signed-difference tests on sequence numbers: `static_cast<std::int32_t>(a - b) > 0`. -/
def sequenceGreater (a b : SeqNum) : Bool := decide (0 < (a - b).toInt)

def sequenceLessOrEqual (a b : SeqNum) : Bool := decide (0 ≤ (b - a).toInt)

def sequenceMax (a b : SeqNum) : SeqNum := if sequenceGreater a b then a else b

def sequenceMin (a b : SeqNum) : SeqNum := if sequenceGreater a b then b else a

/-! ## Time and policy constants -/

abbrev TimePoint := ℤ

abbrev Duration := ℤ

def milliseconds (n : ℤ) : Duration := n * 1000000

def kInitialRto : Duration := milliseconds 1000
def kMinRto : Duration := milliseconds 1000
def kMaxRto : Duration := milliseconds 60000
def kRtoGranularity : Duration := milliseconds 1
def kMaxRetransmits : ℕ := 5
def kTimeWaitDuration : Duration := milliseconds 60000
def kInitialSsthresh : ℕ := 65535
def kMaxCongestionWindow : ℕ := 2 ^ 30
def kInitialCongestionWindowFloor : ℕ := 14600
def kTcpSendBufferCapacity : ℕ := 256 * 1024
def kInitialPersistInterval : Duration := milliseconds 1000
def kMaxPersistInterval : Duration := milliseconds 60000
def kTcpMss : ℕ := 1460
def kDefaultPeerMss : UInt16 := 536
def kMaxApplicationSendSize : ℕ := 65535
def kMaxSegmentsPerSend : ℕ := 128
def kTcpReceiveCapacity : ℕ := 65535 * 4
def kMaxReassemblyFragments : ℕ := 128
def kLocalWindowScaleShift : UInt8 := 2
def kMaxWindowScaleShift : UInt8 := 14

/-! ## Connections -/

inductive TcpState where
  | synSent
  | synReceived
  | established
  | finWait1
  | finWait2
  | closeWait
  | closing
  | lastAck
  | timeWait
  deriving DecidableEq, Repr

structure Ipv4Address where
  bytes : Vector UInt8 4
  deriving DecidableEq, Repr

structure TcpConnectionKey where
  localIp : Ipv4Address
  localPort : UInt16
  remoteIp : Ipv4Address
  remotePort : UInt16
  deriving DecidableEq, Repr

/-- A sent segment that still occupies unacknowledged sequence space. -/
structure PendingTransmission where
  sequenceStart : SeqNum
  isSyn : Bool := false
  isActiveSyn : Bool := false
  isFin : Bool := false
  flags : TcpFlags := {}
  payload : List Byte := []
  firstSentAt : TimePoint
  lastSentAt : TimePoint
  timeoutInterval : Duration := kInitialRto
  timeoutRetransmitCount : ℕ := 0
  wasRetransmitted : Bool := false
  rttSampleTaken : Bool := false
  sacked : Bool := false
  retransmittedInRecovery : Bool := false
  deriving DecidableEq, Repr

/-- How many sequence numbers the entry occupies. -/
def PendingTransmission.span (e : PendingTransmission) : ℕ :=
  e.payload.length + (if e.isSyn then 1 else 0) + (if e.isFin then 1 else 0)

def PendingTransmission.sequenceEnd (e : PendingTransmission) : SeqNum :=
  e.sequenceStart + BitVec.ofNat 32 e.payload.length + (if e.isSyn then 1 else 0) +
    (if e.isFin then 1 else 0)

/-- One contiguous run of bytes received ahead of `rcvNxt`. -/
structure TcpReassemblyFragment where
  sequenceStart : SeqNum
  payload : List Byte
  deriving DecidableEq, Repr

def TcpReassemblyFragment.sequenceEnd (f : TcpReassemblyFragment) : SeqNum :=
  f.sequenceStart + BitVec.ofNat 32 f.payload.length

structure Connection where
  state : TcpState
  remoteIsn : SeqNum := 0
  remoteIsnKnown : Bool := true
  localIsn : SeqNum
  rcvNxt : SeqNum := 0
  sndUna : SeqNum := 0
  sndNxt : SeqNum := 0
  pending : List PendingTransmission := []
  localFinSeq : Option SeqNum := none
  timeWaitDeadline : Option TimePoint := none
  pendingRemoval : Bool := false
  sndWnd : ℕ := 0
  sndWl1 : SeqNum := 0
  sndWl2 : SeqNum := 0
  outOfOrder : List TcpReassemblyFragment := []
  pendingFinSeq : Option SeqNum := none
  peerMss : UInt16 := kDefaultPeerMss
  effectiveSendMss : UInt16 := 1460
  peerWindowScale : UInt8 := 0
  localWindowScale : UInt8 := 0
  windowScalingEnabled : Bool := false
  sackPermitted : Bool := false
  hasRttSample : Bool := false
  srtt : Duration := 0
  rttvar : Duration := 0
  currentRto : Duration := kInitialRto
  cwnd : ℕ := 0
  ssthresh : ℕ := kInitialSsthresh
  duplicateAckCount : ℕ := 0
  inFastRecovery : Bool := false
  recoveryPoint : SeqNum := 0
  congestionAvoidanceAckedBytes : ℕ := 0
  unsent : List Byte := []
  closeRequested : Bool := false
  persistDeadline : Option TimePoint := none
  persistInterval : Duration := kInitialPersistInterval
  deriving DecidableEq, Repr

/-! ## Results handed to the caller -/

structure TcpReceiveResult where
  reply : Option TcpSegment := none
  fastRetransmit : Option TcpSegment := none
  scheduled : List TcpSegment := []
  acceptedPayload : List Byte := []
  peerClosed : Bool := false
  connectionReset : Bool := false
  connectionClosed : Bool := false
  connectionEstablished : Bool := false
  admissionRejected : Bool := false
  deriving DecidableEq, Repr

inductive TcpSendError where
  | notSendable
  | emptyPayload
  | tooLarge
  | bufferFull
  deriving DecidableEq, Repr

structure TcpSendResult where
  segments : List TcpSegment := []
  bytesAccepted : ℕ := 0
  error : Option TcpSendError := none
  deriving DecidableEq, Repr

structure TcpCloseResult where
  accepted : Bool := false
  fin : Option TcpSegment := none
  deriving DecidableEq, Repr

inductive TcpConnectError where
  | invalidPort
  | duplicateConnection
  | capacityExhausted
  | randomnessUnavailable
  deriving DecidableEq, Repr

structure TcpConnectResult where
  accepted : Bool := false
  syn : Option TcpSegment := none
  error : Option TcpConnectError := none
  deriving DecidableEq, Repr

end Wirestack
