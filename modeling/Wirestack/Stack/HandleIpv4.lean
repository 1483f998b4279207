import Wirestack.Arp.Lan
import Wirestack.Dns.Session
import Wirestack.Stack.HandleTcp
import Wirestack.Wire.Datagrams

set_option autoImplicit false

/-! # Packet arrival (`main.cpp`, `udp_endpoint.cpp`)

`handleIpv4` with all its handlers. A packet answers as the station of `Arp.Lan` does, with answers
that are no longer open, changes the TCP half of the runtime by one of its steps, and reaches the DNS
session only through `handleDnsResponse`. -/

namespace Wirestack

def kProtocolIcmp : UInt8 := 1
def kEchoPort : UInt16 := 9000

/-- The handlers of the bound UDP ports. -/
abbrev UdpEndpointTable := Std.ExtTreeMap UInt16 (List Byte → List Byte)

/-- Refuses port 0 and a port that is bound. -/
def UdpEndpointTable.bind (endpoints : UdpEndpointTable) (port : UInt16)
    (handler : List Byte → List Byte) : UdpEndpointTable × Bool :=
  if port = 0 ∨ endpoints.contains port then (endpoints, false)
  else (endpoints.insert port handler, true)

def UdpEndpointTable.deliver (endpoints : UdpEndpointTable) (port : UInt16) (payload : List Byte) :
    Option (List Byte) :=
  (endpoints[port]?).map fun handler => handler payload

/-- The lookup of a hostname to dial. -/
structure DnsRuntimeState where
  session : DnsClientSession
  httpPort : UInt16

/-- The variables of `main` that a packet can reach. -/
structure Runtime where
  localMac : MacAddress
  cache : ArpCache := {}
  endpoints : UdpEndpointTable := (UdpEndpointTable.bind ∅ kEchoPort id).1
  stack : Stack
  dns : Option DnsRuntimeState := none
  dialTargetIp : Option Ipv4Address := none
  /-- `--source-port` -/
  sourcePort : UInt16 := 0

namespace Runtime

variable (r : Runtime) (packet : Ipv4Packet)

def station : Station := ⟨r.stack.localIp, r.localMac⟩

/-! ## The handlers -/

/-- Only a request is answered, so two stations cannot answer each other forever. -/
def handleIcmp : Option Message :=
  match parseIcmpEcho packet.payload with
  | .error _ => none
  | .ok message =>
    if message.type ≠ .echoRequest then none
    else some (packet.protocol, serializeIcmpEcho (makeEchoReply message))

/-- A request from port 0 is delivered and not answered. -/
def handleUdp : Option Message :=
  match parseUdpDatagram packet.payload packet.source packet.destination with
  | .error _ => none
  | .ok datagram =>
    match r.endpoints.deliver datagram.destinationPort datagram.payload with
    | none => none
    | some response =>
      if datagram.sourcePort = 0 then none
      else
        let reply : UdpDatagram :=
          { sourcePort := datagram.destinationPort
            destinationPort := datagram.sourcePort
            payload := response }
        match serializeUdpDatagram reply r.stack.localIp packet.source with
        | .error _ => none
        | .ok bytes => some (packet.protocol, bytes)

/-- Takes every datagram to the port of the DNS client, and tells whether it did. An answer arms the
    dial. -/
def handleDnsClientUdp (state : DnsRuntimeState) : Runtime × Bool :=
  match parseUdpDatagram packet.payload packet.source packet.destination with
  | .error _ => (r, false)
  | .ok datagram =>
    if datagram.destinationPort ≠ state.session.localPort then (r, false)
    else
      let (session, changed) := handleDnsResponse state.session
        { sourceIp := packet.source
          sourcePort := datagram.sourcePort
          destinationPort := datagram.destinationPort
          payload := datagram.payload }
      let r := { r with dns := some { state with session := session } }
      match changed, session.state, session.resolvedAddress with
      | true, .resolved, some address =>
        let key : TcpConnectionKey :=
          { localIp := r.stack.localIp
            localPort := r.sourcePort
            remoteIp := address
            remotePort := state.httpPort }
        ({ r with
            dialTargetIp := some address
            stack := { r.stack with activeOpenKey := some key } }, true)
      | _, _, _ => (r, true)

/-- The payload of the packet that `sendTcpSegment` makes. -/
def tcpMessage (remoteIp : Ipv4Address) (segment : TcpSegment) : Option Message :=
  match serializeTcpSegment segment r.stack.localIp remoteIp with
  | .error _ => none
  | .ok bytes => some (Tcp.kProtocolTcp, bytes)

/-- The dispatch on the protocol. -/
def dispatch (memory : ℕ → Byte) (now : TimePoint) : Runtime × List Message :=
  if packet.protocol = kProtocolIcmp then (r, (handleIcmp packet).toList)
  else if packet.protocol = Tcp.kProtocolTcp then
    let (stack, segments) := r.stack.handleTcp memory packet.source
      (parseTcpSegment packet.payload packet.source packet.destination).toOption now
    ({ r with stack := stack }, segments.filterMap (r.tcpMessage packet.source))
  else if packet.protocol = Udp.kProtocolUdp then
    let (r', consumed) :=
      match r.dns with
      | none => (r, false)
      | some state => r.handleDnsClientUdp packet state
    if consumed then (r', []) else (r', (r'.handleUdp packet).toList)
  else (r, [])

def handleIpv4 (memory : ℕ → Byte) (frame : EthernetFrame) (now : TimePoint) :
    Runtime × List EthernetFrame :=
  match parseIpv4Packet frame.payload with
  | .error _ => (r, [])
  | .ok packet =>
    if packet.ttl = 0 ∨ packet.destination ≠ r.stack.localIp then (r, [])
    else
      let r := { r with cache := r.cache.insert packet.source frame.source now }
      let (r', messages) := r.dispatch packet memory now
      (r', messages.filterMap (r.station.sendIpv4 packet.source frame.source))

/-! ## One packet is one step of each part -/

/-- What a packet can do to the TCP half of the runtime and to the DNS session. -/
structure Advances (r r' : Runtime) : Prop where
  stack : r'.stack = r.stack ∨ StackStep r.stack r'.stack
  dns : r'.dns = r.dns ∨ ∃ state datagram, r.dns = some state ∧
    r'.dns = some { state with session := (handleDnsResponse state.session datagram).1 }

variable {r packet}

theorem Advances.refl : Advances r r := ⟨.inl rfl, .inl rfl⟩

theorem handleDnsClientUdp_advances {state : DnsRuntimeState} (hstate : r.dns = some state) :
    Advances r (r.handleDnsClientUdp packet state).1 ∧
      (r.handleDnsClientUdp packet state).1.cache = r.cache := by
  unfold handleDnsClientUdp
  split
  · exact ⟨.refl, rfl⟩
  · split
    · exact ⟨.refl, rfl⟩
    · dsimp only
      split
      · exact ⟨⟨.inr (.resolved ..), .inr ⟨state, _, hstate, rfl⟩⟩, rfl⟩
      · exact ⟨⟨.inl rfl, .inr ⟨state, _, hstate, rfl⟩⟩, rfl⟩

theorem dispatch_advances (r : Runtime) (packet : Ipv4Packet) (memory : ℕ → Byte)
    (now : TimePoint) :
    Advances r (r.dispatch packet memory now).1 ∧
      (r.dispatch packet memory now).1.cache = r.cache := by
  unfold dispatch
  split_ifs with hicmp htcp hudp
  · exact ⟨.refl, rfl⟩
  · exact ⟨⟨.inr (.received ..), .inl rfl⟩, rfl⟩
  · cases hstate : r.dns with
    | none => exact ⟨.refl, rfl⟩
    | some state =>
      rw [apply_ite Prod.fst, ite_self]
      exact handleDnsClientUdp_advances hstate
  · exact ⟨.refl, rfl⟩

theorem handleIpv4_parts (r : Runtime) (memory : ℕ → Byte) (frame : EthernetFrame)
    (now : TimePoint) :
    Advances r (r.handleIpv4 memory frame now).1 ∧
    ∃ answers, r.station.handleIpv4 r.cache frame now answers =
      ((r.handleIpv4 memory frame now).1.cache, (r.handleIpv4 memory frame now).2) := by
  unfold handleIpv4 Station.handleIpv4
  cases hparsed : parseIpv4Packet frame.payload with
  | error => exact ⟨.refl, [], rfl⟩
  | ok packet =>
    by_cases hdropped : packet.ttl = 0 ∨ packet.destination ≠ r.stack.localIp
    · simp only [if_pos hdropped]
      exact ⟨.refl, [], if_pos hdropped⟩
    · simp only [if_neg hdropped]
      obtain ⟨hadvances, hcache⟩ := dispatch_advances
        { r with cache := r.cache.insert packet.source frame.source now } packet memory now
      rw [hcache]
      exact ⟨⟨hadvances.stack, hadvances.dns⟩, _, if_neg hdropped⟩

theorem handleIpv4_stackRun (h : StackRun r.stack) (memory : ℕ → Byte) (frame : EthernetFrame)
    (now : TimePoint) : StackRun (r.handleIpv4 memory frame now).1.stack := by
  obtain hsame | hstep := (r.handleIpv4_parts memory frame now).1.stack
  · rwa [hsame]
  · exact .step _ _ h hstep

theorem dispatch_dns {state : DnsRuntimeState} {datagram : UdpDatagram} (hstate : r.dns = some state)
    (hprotocol : packet.protocol = Udp.kProtocolUdp)
    (hparsed : parseUdpDatagram packet.payload packet.source packet.destination = .ok datagram)
    (hport : datagram.destinationPort = state.session.localPort) (memory : ℕ → Byte)
    (now : TimePoint) : (r.dispatch packet memory now).2 = [] := by
  have hconsumed : (r.handleDnsClientUdp packet state).2 = true := by
    unfold handleDnsClientUdp
    simp only [hparsed, hport, ne_eq, not_true_eq_false, if_false]
    split <;> rfl
  rw [dispatch, hprotocol, if_neg (by decide), if_neg (by decide), if_pos rfl, hstate]
  dsimp only
  rw [if_pos hconsumed]

end Runtime

end Wirestack
