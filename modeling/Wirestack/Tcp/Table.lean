import Wirestack.Tcp.Input

set_option autoImplicit false

/-! # The connection table (`TcpConnectionTable`)

`std::map` from four-tuples to connections, with the public operations of the class. The polls visit
the connections in key order and treat each one on its own, so each poll is a function on one
connection (`pollConnection`, `pollPersistProbe`) applied throughout the map. The ISN generator is an
arbitrary sequence of answers, the `n`-th being the answer to the `n`-th call. -/

namespace Wirestack

/-! ## Keys in the order of the map -/

instance : Ord Ipv4Address := ⟨compareOn Ipv4Address.bytes⟩

instance : Std.TransOrd Ipv4Address := inferInstanceAs <| Std.TransCmp (compareOn _)

instance : Std.LawfulEqOrd Ipv4Address where
  eq_of_compare := by
    rintro ⟨a⟩ ⟨b⟩ h
    exact congrArg _ (Std.LawfulEqOrd.eq_of_compare h)

instance : Ord TcpConnectionKey :=
  ⟨compareLex (compareOn TcpConnectionKey.localIp) <|
    compareLex (compareOn TcpConnectionKey.localPort) <|
    compareLex (compareOn TcpConnectionKey.remoteIp) (compareOn TcpConnectionKey.remotePort)⟩

instance : Std.TransOrd TcpConnectionKey := inferInstanceAs <| Std.TransCmp (compareLex _ _)

instance : Std.LawfulEqOrd TcpConnectionKey where
  eq_of_compare := by
    rintro ⟨lip, lport, rip, rport⟩ ⟨lip', lport', rip', rport'⟩ h
    obtain ⟨h₁, h⟩ := compareLex_eq_eq.1 h
    obtain ⟨h₂, h⟩ := compareLex_eq_eq.1 h
    obtain ⟨h₃, h₄⟩ := compareLex_eq_eq.1 h
    obtain rfl := Std.LawfulEqOrd.eq_of_compare h₁
    obtain rfl := Std.LawfulEqOrd.eq_of_compare h₂
    obtain rfl := Std.LawfulEqOrd.eq_of_compare h₃
    obtain rfl := Std.LawfulEqOrd.eq_of_compare h₄
    rfl

/-! ## The operations on one connection -/

/-- The states in which the application may send. -/
def Connection.isSendable (c : Connection) : Bool := c.state == .established || c.state == .closeWait

/-- `makeOutgoingData` once the payload size has been checked and the connection found. -/
def enqueueData (key : TcpConnectionKey) (c : Connection) (payload : List Byte) (now : TimePoint) :
    Connection × TcpSendResult :=
  if !c.isSendable || c.closeRequested then (c, { error := some .notSendable })
  else
    let owned := c.appOwnedBytes
    let remainingCapacity := if owned ≥ kTcpSendBufferCapacity then 0
      else kTcpSendBufferCapacity - owned
    if payload.length > remainingCapacity then (c, { error := some .bufferFull })
    else
      let (c, segments) := scheduleQueuedData key { c with unsent := c.unsent ++ payload } now
      (c, { segments := segments, bytesAccepted := payload.length })

/-- `beginClose` on a connection that was found. -/
def closeConnection (key : TcpConnectionKey) (c : Connection) (now : TimePoint) :
    Connection × TcpCloseResult :=
  if !c.isSendable then (c, {})
  else
    let (c, segments) := maybeSequenceFin key { c with closeRequested := true } now []
    (c.updatePersistState now, { accepted := true, fin := segments.head? })

/-- The persist probe of one connection, when its deadline has passed. -/
def pollPersistProbe (key : TcpConnectionKey) (c : Connection) (now : TimePoint) :
    Connection × Option TcpSegment :=
  match c.persistDeadline with
  | none => (c, none)
  | some deadline =>
    if now < deadline then (c, none)
    else if !c.persistEligible then ({ c with persistDeadline := none }, none)
    else
      let interval := min (c.persistInterval * 2) kMaxPersistInterval
      ({ c with persistInterval := interval, persistDeadline := some (now + interval) },
        some
          { sourcePort := key.localPort
            destinationPort := key.remotePort
            sequenceNumber := c.sndNxt - 1
            acknowledgmentNumber := c.rcvNxt
            flags := { ack := true }
            windowSize := c.advertisedWindowFor c.windowScalingEnabled
            payload := c.unsent.take 1 })

/-- What `pollRetransmissions` does with one connection. -/
inductive RetransmissionPoll where
  | idle
  | timeWaitExpired
  | timedOut
  | retransmit (c : Connection) (segment : TcpSegment)

/-- The segment a timeout resends for the oldest pending entry. -/
def timeoutSegment (key : TcpConnectionKey) (c : Connection) (oldest : PendingTransmission) :
    TcpSegment :=
  { sourcePort := key.localPort
    destinationPort := key.remotePort
    sequenceNumber := oldest.sequenceStart
    acknowledgmentNumber := if oldest.isActiveSyn then 0
      else if oldest.isSyn then c.remoteIsn + 1 else c.rcvNxt
    flags := oldest.flags
    windowSize := c.advertisedWindowFor (!oldest.isSyn && c.windowScalingEnabled)
    options := if oldest.isActiveSyn then buildActiveSynOptions
      else if oldest.isSyn then buildSynAckOptions c else []
    payload := oldest.payload }

/-- The entry after its timer has expired once more. -/
def PendingTransmission.backOff (e : PendingTransmission) (now : TimePoint) : PendingTransmission :=
  { e with
    timeoutRetransmitCount := e.timeoutRetransmitCount + 1
    wasRetransmitted := true
    lastSentAt := now
    timeoutInterval := min (e.timeoutInterval * 2) kMaxRto }

/-- The retransmission timer of the oldest entry, or the end of TIME-WAIT. -/
def pollConnection (key : TcpConnectionKey) (c : Connection) (now : TimePoint) :
    RetransmissionPoll :=
  if c.state = .timeWait then
    match c.timeWaitDeadline with
    | some deadline => if now ≥ deadline then .timeWaitExpired else .idle
    | none => .idle
  else
    match c.pending with
    | [] => .idle
    | oldest :: _ =>
      if now < oldest.lastSentAt + oldest.timeoutInterval then .idle
      else if oldest.timeoutRetransmitCount ≥ kMaxRetransmits then .timedOut
      else
        -- The window collapses for lost data only, not for a SYN or a FIN.
        let c := if !oldest.isSyn && !oldest.isFin then c.applyTimeoutCongestionCollapse else c
        .retransmit
          { c with
            pending := c.pending.modifyHead (·.backOff now)
            currentRto := max c.currentRto (oldest.backOff now).timeoutInterval }
          (timeoutSegment key c oldest)

/-- When `pollRetransmissions` has to look at the connection next. -/
def Connection.retransmissionDeadline (c : Connection) : Option TimePoint :=
  if c.state = .timeWait then c.timeWaitDeadline
  else
    match c.pending with
    | [] => none
    | oldest :: _ => some (oldest.lastSentAt + oldest.timeoutInterval)

/-- The connection a poll leaves in the map. -/
def RetransmissionPoll.kept (c : Connection) : RetransmissionPoll → Option Connection
  | .idle => some c
  | .timeWaitExpired => none
  | .timedOut => none
  | .retransmit c' _ => some c'

/-- What a poll resends. -/
def RetransmissionPoll.segment? : RetransmissionPoll → Option TcpSegment
  | .retransmit _ segment => some segment
  | _ => none

/-! ## New connections -/

/-- The queue entry of a SYN (`active`) or SYN-ACK. -/
def synEntry (c : Connection) (active : Bool) (flags : TcpFlags) (now : TimePoint) :
    PendingTransmission :=
  { sequenceStart := c.localIsn
    isSyn := true
    isActiveSyn := active
    flags := flags
    firstSentAt := now
    lastSentAt := now
    timeoutInterval := c.currentRto }

/-- The SYN-SENT connection `beginConnect` creates, without its queue entry. -/
def activeConnection (isn : SeqNum) : Connection :=
  { state := .synSent
    remoteIsnKnown := false
    localIsn := isn
    sndUna := isn
    sndNxt := isn + 1 }

/-- The SYN-RECEIVED connection a new SYN creates, without its queue entry. -/
def passiveConnection (segment : TcpSegment) (options : TcpParsedOptions) (isn : SeqNum) :
    Connection :=
  Connection.negotiate
    { state := .synReceived
      remoteIsn := segment.sequenceNumber
      localIsn := isn } options

/-! ## The table -/

/-- The members of the class. A draw from the ISN generator may fail. -/
structure TcpConnectionTable where
  listenPort : UInt16
  maxConnections : ℕ := 1024
  maxHalfOpenConnections : ℕ := 256
  isnGenerator : ℕ → Option SeqNum
  isnDraws : ℕ := 0
  lastIsn : Option SeqNum := none
  connections : Std.ExtTreeMap TcpConnectionKey Connection := ∅

/-- What `pollRetransmissions` reports. -/
structure TcpTimeoutPollResult where
  retransmissions : List (TcpConnectionKey × TcpSegment) := []
  timedOut : List TcpConnectionKey := []
  timeWaitExpired : List TcpConnectionKey := []
  deriving DecidableEq, Repr

namespace TcpConnectionTable

/-- `connections_.find(key)`. -/
def find? (t : TcpConnectionTable) (key : TcpConnectionKey) : Option Connection :=
  t.connections[key]?

/-- The connections whose handshake is not complete. -/
def halfOpenCount (t : TcpConnectionTable) : ℕ :=
  t.connections.toList.countP fun p => p.2.state == .synSent || p.2.state == .synReceived

/-- Either limit is reached. -/
def atCapacity (t : TcpConnectionTable) : Bool :=
  decide (t.connections.size ≥ t.maxConnections) ||
    decide (t.halfOpenCount ≥ t.maxHalfOpenConnections)

/-- A drawn ISN is refused if it repeats the last one. -/
def nextIsn (t : TcpConnectionTable) : TcpConnectionTable × Option SeqNum :=
  let isn := t.isnGenerator t.isnDraws
  let t := { t with isnDraws := t.isnDraws + 1 }
  if isn.isNone || isn == t.lastIsn then (t, none) else ({ t with lastIsn := isn }, isn)

/-- An active open. -/
def beginConnect (t : TcpConnectionTable) (key : TcpConnectionKey) (now : TimePoint) :
    TcpConnectionTable × TcpConnectResult :=
  if key.localPort = 0 ∨ key.remotePort = 0 then (t, { error := some .invalidPort })
  else if t.connections.contains key then (t, { error := some .duplicateConnection })
  else if t.atCapacity then (t, { error := some .capacityExhausted })
  else
    match t.nextIsn with
    | (t, none) => (t, { error := some .randomnessUnavailable })
    | (t, some isn) =>
      let c := activeConnection isn
      let syn := makeActiveSyn key c
      ({ t with
          connections := t.connections.insert key
            { c with pending := c.pending ++ [synEntry c true syn.flags now] } },
        { accepted := true, syn := some syn })

/-- `handle` for a bare SYN to the listening port that matches no connection. -/
def acceptSyn (t : TcpConnectionTable) (key : TcpConnectionKey) (segment : TcpSegment)
    (now : TimePoint) : TcpConnectionTable × TcpReceiveResult :=
  match parseTcpOptions segment.options with
  | .error _ => (t, {})
  | .ok options =>
    if !options.sackBlocks.isEmpty then (t, {})
    else if t.atCapacity then (t, { admissionRejected := true })
    else
      match t.nextIsn with
      | (t, none) => (t, {})
      | (t, some isn) =>
        let c := passiveConnection segment options isn
        let synAck := makeSynAck key c
        ({ t with
            connections := t.connections.insert key
              { c with pending := c.pending ++ [synEntry c false synAck.flags now] } },
          { reply := some synAck })

/-- `handle` for a key without a connection. -/
def handleUnknown (t : TcpConnectionTable) (key : TcpConnectionKey) (segment : TcpSegment)
    (now : TimePoint) : TcpConnectionTable × TcpReceiveResult :=
  if segment.flags.rst then (t, {})
  else if key.localPort ≠ t.listenPort then (t, { reply := some (makeClosedPortReset segment) })
  else if !segment.flags.syn || segment.flags.ack then
    (t, { reply := some (makeClosedPortReset segment) })
  else t.acceptSyn key segment now

/-- The map with the connection of `key` replaced, or erased. -/
def put (t : TcpConnectionTable) (key : TcpConnectionKey) (c : Option Connection) :
    TcpConnectionTable :=
  { t with
    connections := match c with
      | some c => t.connections.insert key c
      | none => t.connections.erase key }

/-- A segment arrives for `key`. -/
def handle (t : TcpConnectionTable) (memory : ℕ → Byte) (key : TcpConnectionKey)
    (segment : TcpSegment) (now : TimePoint) : TcpConnectionTable × TcpReceiveResult :=
  match t.find? key with
  | none => t.handleUnknown key segment now
  | some c =>
    let (c, result) := handleExisting memory key c segment now
    (t.put key c, result)

/-- The state of the connection of `key`. -/
def stateOf (t : TcpConnectionTable) (key : TcpConnectionKey) : Option TcpState :=
  (t.find? key).map (·.state)

/-- The application sends a payload, which is taken whole or not at all. -/
def makeOutgoingData (t : TcpConnectionTable) (key : TcpConnectionKey) (payload : List Byte)
    (now : TimePoint) : TcpConnectionTable × TcpSendResult :=
  if payload.isEmpty then (t, { error := some .emptyPayload })
  else if payload.length > kMaxApplicationSendSize then (t, { error := some .tooLarge })
  else
    match t.find? key with
    | none => (t, { error := some .notSendable })
    | some c =>
      let (c, result) := enqueueData key c payload now
      (t.put key (some c), result)

/-- The application closes its side. -/
def beginClose (t : TcpConnectionTable) (key : TcpConnectionKey) (now : TimePoint) :
    TcpConnectionTable × TcpCloseResult :=
  match t.find? key with
  | none => (t, {})
  | some c =>
    let (c, result) := closeConnection key c now
    (t.put key (some c), result)

/-- All window probes that are due. -/
def pollPersistProbes (t : TcpConnectionTable) (now : TimePoint) :
    TcpConnectionTable × List (TcpConnectionKey × TcpSegment) :=
  ({ t with connections := t.connections.map fun key c => (pollPersistProbe key c now).1 },
    t.connections.toList.filterMap fun p =>
      (pollPersistProbe p.1 p.2 now).2.map fun segment => (p.1, segment))

/-- All retransmissions that are due, and the connections that end. -/
def pollRetransmissions (t : TcpConnectionTable) (now : TimePoint) :
    TcpConnectionTable × TcpTimeoutPollResult :=
  ({ t with
      connections := t.connections.filterMap fun key c => (pollConnection key c now).kept c },
    { retransmissions := t.connections.toList.filterMap fun p =>
        (pollConnection p.1 p.2 now).segment?.map fun segment => (p.1, segment)
      timedOut := t.connections.toList.filterMap fun p =>
        match pollConnection p.1 p.2 now with
        | .timedOut => some p.1
        | _ => none
      timeWaitExpired := t.connections.toList.filterMap fun p =>
        match pollConnection p.1 p.2 now with
        | .timeWaitExpired => some p.1
        | _ => none })

/-- One round of either deadline loop:
    `if (deadline && (!earliest || *deadline < *earliest)) earliest = deadline`. -/
def earlier (earliest deadline : Option TimePoint) : Option TimePoint :=
  match deadline, earliest with
  | none, earliest => earliest
  | some d, none => some d
  | some d, some e => if d < e then some d else some e

/-- The earliest probe that can become due. -/
def nextPersistDeadline (t : TcpConnectionTable) : Option TimePoint :=
  t.connections.toList.foldl (fun earliest p => earlier earliest p.2.persistDeadline) none

/-- The earliest retransmission or end of TIME-WAIT. -/
def nextRetransmissionDeadline (t : TcpConnectionTable) : Option TimePoint :=
  t.connections.toList.foldl (fun earliest p => earlier earliest p.2.retransmissionDeadline) none

end TcpConnectionTable

end Wirestack
