import Wirestack.Wire.RoundTrip

set_option autoImplicit false

/-! # UDP datagrams and ICMP echo messages (`udp.cpp`, `icmp.cpp`)

A UDP checksum of zero on the wire means that there is none, so the serializer sends a computed zero
as 0xFFFF. In one's-complement arithmetic that is the same value, and the datagram still verifies. -/

namespace Wirestack

open List

/-! ## UDP -/

structure UdpDatagram where
  sourcePort : UInt16
  destinationPort : UInt16
  payload : List Byte
  deriving DecidableEq, Repr

inductive UdpParseError where
  | tooShort
  | invalidLength
  | badChecksum
  deriving DecidableEq, Repr

inductive UdpSerializeError where
  | payloadTooLarge
  deriving DecidableEq, Repr

namespace Udp

def kHeaderSize : ℕ := 8
def kMaxLength : ℕ := 65535
def kProtocolUdp : UInt8 := 17
def kSourcePortOffset : ℕ := 0
def kDestinationPortOffset : ℕ := 2
def kLengthOffset : ℕ := 4
def kChecksumOffset : ℕ := 6

end Udp

/-- What the UDP checksum covers in front of the datagram. -/
def udpPseudoHeader (source destination : Ipv4Address) (length : ℕ) : List Byte :=
  writeIpv4Address source ++ writeIpv4Address destination ++ [0, Udp.kProtocolUdp] ++
    writeBigEndian16 (UInt16.ofNat length)

def udpChecksum (source destination : Ipv4Address) (udpBytes : List Byte) : UInt16 :=
  internetChecksum (udpPseudoHeader source destination udpBytes.length ++ udpBytes)

/-- The bytes behind the datagram's own length are ignored. -/
def parseUdpDatagram (bytes : List Byte) (source destination : Ipv4Address) :
    Except UdpParseError UdpDatagram :=
  if bytes.length < Udp.kHeaderSize then .error .tooShort
  else
    let length := (readBigEndian16 bytes Udp.kLengthOffset).toNat
    if length < Udp.kHeaderSize ∨ length > bytes.length then .error .invalidLength
    else
      let logicalBytes := bytes.take length
      let checksum := readBigEndian16 bytes Udp.kChecksumOffset
      if checksum ≠ 0 ∧ udpChecksum source destination logicalBytes ≠ 0 then .error .badChecksum
      else
        .ok
          { sourcePort := readBigEndian16 bytes Udp.kSourcePortOffset
            destinationPort := readBigEndian16 bytes Udp.kDestinationPortOffset
            payload := logicalBytes.drop Udp.kHeaderSize }

/-- The datagram with a zero checksum field. -/
def UdpDatagram.blankBytes (datagram : UdpDatagram) : List Byte :=
  writeBigEndian16 datagram.sourcePort ++ writeBigEndian16 datagram.destinationPort ++
    writeBigEndian16 (UInt16.ofNat (Udp.kHeaderSize + datagram.payload.length)) ++
    writeBigEndian16 0 ++ datagram.payload

def serializeUdpDatagram (datagram : UdpDatagram) (source destination : Ipv4Address) :
    Except UdpSerializeError (List Byte) :=
  let totalLength := Udp.kHeaderSize + datagram.payload.length
  if totalLength > Udp.kMaxLength then .error .payloadTooLarge
  else
    let out := datagram.blankBytes
    let checksum := udpChecksum source destination out
    let checksum := if checksum = 0 then 0xffff else checksum
    let out := out.set Udp.kChecksumOffset ((checksum >>> 8) &&& 0xff).toUInt8
    .ok (out.set (Udp.kChecksumOffset + 1) (checksum &&& 0xff).toUInt8)

/-! ## ICMP -/

inductive IcmpEchoType where
  | echoReply
  | echoRequest
  deriving DecidableEq, Repr

/-- The enumerators' values. -/
def IcmpEchoType.value : IcmpEchoType → UInt8
  | echoReply => 0
  | echoRequest => 8

structure IcmpEcho where
  type : IcmpEchoType
  identifier : UInt16
  sequence : UInt16
  payload : List Byte
  deriving DecidableEq, Repr

inductive IcmpParseError where
  | tooShort
  | unsupportedType
  | invalidCode
  | badChecksum
  deriving DecidableEq, Repr

namespace Icmp

def kHeaderSize : ℕ := 8
def kTypeOffset : ℕ := 0
def kCodeOffset : ℕ := 1
def kChecksumOffset : ℕ := 2
def kIdentifierOffset : ℕ := 4
def kSequenceOffset : ℕ := 6

end Icmp

def parseIcmpEcho (data : List Byte) : Except IcmpParseError IcmpEcho :=
  if data.length < Icmp.kHeaderSize then .error .tooShort
  else
    let rawType := data.getD Icmp.kTypeOffset 0
    if rawType ≠ IcmpEchoType.echoRequest.value ∧ rawType ≠ IcmpEchoType.echoReply.value then
      .error .unsupportedType
    else
      let code := data.getD Icmp.kCodeOffset 0
      if code ≠ 0 then .error .invalidCode
      else if internetChecksum data ≠ 0 then .error .badChecksum
      else
        .ok
          -- the cast of `rawType`, which is one of the two values by now
          { type := if rawType = IcmpEchoType.echoRequest.value then .echoRequest else .echoReply
            identifier := readBigEndian16 data Icmp.kIdentifierOffset
            sequence := readBigEndian16 data Icmp.kSequenceOffset
            payload := data.drop Icmp.kHeaderSize }

/-- The message with a zero checksum field. -/
def IcmpEcho.blankBytes (message : IcmpEcho) : List Byte :=
  [message.type.value, 0] ++ writeBigEndian16 0 ++ writeBigEndian16 message.identifier ++
    writeBigEndian16 message.sequence ++ message.payload

def serializeIcmpEcho (message : IcmpEcho) : List Byte :=
  let out := message.blankBytes
  let checksum := internetChecksum out
  let out := out.set Icmp.kChecksumOffset ((checksum >>> 8) &&& 0xff).toUInt8
  out.set (Icmp.kChecksumOffset + 1) (checksum &&& 0xff).toUInt8

/-- Does not look at the request's type. -/
def makeEchoReply (request : IcmpEcho) : IcmpEcho :=
  { type := .echoReply
    identifier := request.identifier
    sequence := request.sequence
    payload := request.payload }

/-! ## What the UDP serializer writes -/

def UdpDatagram.headerFront (datagram : UdpDatagram) : List Byte :=
  writeBigEndian16 datagram.sourcePort ++ (writeBigEndian16 datagram.destinationPort ++
    writeBigEndian16 (UInt16.ofNat (Udp.kHeaderSize + datagram.payload.length)))

def UdpDatagram.bytesWith (datagram : UdpDatagram) (checksum : UInt16) : List Byte :=
  datagram.headerFront ++ (writeBigEndian16 checksum ++ datagram.payload)

section

variable (message : IcmpEcho) (datagram : UdpDatagram) (source destination : Ipv4Address)
  (trailing : List Byte) (checksum : UInt16)

theorem UdpDatagram.length_bytesWith :
    (datagram.bytesWith checksum).length = Udp.kHeaderSize + datagram.payload.length := by
  have hfront : datagram.headerFront.length = 6 := rfl
  rw [bytesWith, length_append, hfront, length_append, length_writeBigEndian16, Udp.kHeaderSize]
  omega

/-- The checksum field as it goes out. -/
def UdpDatagram.sentChecksum (datagram : UdpDatagram) (source destination : Ipv4Address) : UInt16 :=
  if udpChecksum source destination (datagram.bytesWith 0) = 0 then 0xffff
  else udpChecksum source destination (datagram.bytesWith 0)

theorem UdpDatagram.sentChecksum_ne_zero : datagram.sentChecksum source destination ≠ 0 := by
  unfold sentChecksum
  split_ifs with hzero
  · decide
  · exact hzero

theorem serializeUdpDatagram_eq {datagram : UdpDatagram}
    (hlen : Udp.kHeaderSize + datagram.payload.length ≤ Udp.kMaxLength) :
    serializeUdpDatagram datagram source destination =
      .ok (datagram.bytesWith (datagram.sentChecksum source destination)) := by
  have hblank : datagram.blankBytes = datagram.bytesWith 0 := by
    show datagram.headerFront ++ _ ++ _ = _
    rw [UdpDatagram.bytesWith, append_assoc]
  unfold serializeUdpDatagram
  rw [if_neg (not_lt.2 hlen), hblank]
  rfl

theorem UdpDatagram.checksum_bytesWith
    (hlen : Udp.kHeaderSize + datagram.payload.length ≤ Udp.kMaxLength) :
    udpChecksum source destination
      (datagram.bytesWith (datagram.sentChecksum source destination)) = 0 := by
  have hheader : ∀ length, (udpPseudoHeader source destination length).length = 12 := by
    intro length
    simp only [udpPseudoHeader, length_append, length_writeIpv4Address,
      length_writeBigEndian16, length_cons, length_nil]
  generalize hfront : udpPseudoHeader source destination
    (Udp.kHeaderSize + datagram.payload.length) ++ datagram.headerFront = front
  have hsum : ∀ checksum, udpChecksum source destination (datagram.bytesWith checksum) =
      internetChecksum (front ++ (writeBigEndian16 checksum ++ datagram.payload)) := by
    intro checksum
    rw [udpChecksum, datagram.length_bytesWith, ← hfront, append_assoc]
    rfl
  have hfrontLength : front.length = 18 := by
    rw [← hfront, length_append, hheader]
    rfl
  have hcovered : (front ++ (writeBigEndian16 0 ++ datagram.payload)).length ≤ 131072 := by
    rw [length_append, length_append, hfrontLength, length_writeBigEndian16]
    unfold Udp.kMaxLength at hlen
    omega
  have heven : front.length % 2 = 0 := by rw [hfrontLength]
  rw [sentChecksum, hsum]
  split_ifs with hzero
  · exact internetChecksum_filled_ones heven hcovered (by rw [← hsum]; exact hzero)
  · rw [hsum]
    exact internetChecksum_filled heven hcovered

theorem parseUdpDatagram_bytesWith {datagram : UdpDatagram}
    (hlen : Udp.kHeaderSize + datagram.payload.length ≤ Udp.kMaxLength) :
    parseUdpDatagram (datagram.bytesWith (datagram.sentChecksum source destination) ++ trailing)
      source destination = .ok datagram := by
  have hchecksum := datagram.checksum_bytesWith source destination hlen
  have hlength := datagram.length_bytesWith (datagram.sentChecksum source destination)
  have hne := datagram.sentChecksum_ne_zero source destination
  generalize datagram.sentChecksum source destination = checksum at hchecksum hlength hne ⊢
  have htotal : (datagram.bytesWith checksum ++ trailing).length =
      Udp.kHeaderSize + datagram.payload.length + trailing.length := by
    rw [length_append, hlength]
  have htake : (datagram.bytesWith checksum ++ trailing).take
      (Udp.kHeaderSize + datagram.payload.length) = datagram.bytesWith checksum :=
    take_left' hlength
  have hsourcePort : readBigEndian16 (datagram.bytesWith checksum ++ trailing)
      Udp.kSourcePortOffset = datagram.sourcePort := readBigEndian16_of_drop rfl
  have hdestinationPort : readBigEndian16 (datagram.bytesWith checksum ++ trailing)
      Udp.kDestinationPortOffset = datagram.destinationPort := readBigEndian16_of_drop rfl
  have hfield : readBigEndian16 (datagram.bytesWith checksum ++ trailing) Udp.kLengthOffset =
      UInt16.ofNat (Udp.kHeaderSize + datagram.payload.length) := readBigEndian16_of_drop rfl
  have htoNat : (UInt16.ofNat (Udp.kHeaderSize + datagram.payload.length)).toNat =
      Udp.kHeaderSize + datagram.payload.length :=
    UInt16.toNat_ofNat_of_lt' (Nat.lt_succ_of_le hlen)
  have hpayload : (datagram.bytesWith checksum).drop Udp.kHeaderSize = datagram.payload := rfl
  rw [parseUdpDatagram, if_neg (by omega)]
  dsimp only
  rw [hfield, htoNat, if_neg (by omega), htake, hchecksum, if_neg (fun h => h.2 rfl), hsourcePort,
    hdestinationPort, hpayload]

/-! ## What the ICMP serializer writes -/

def IcmpEcho.bytesWith (message : IcmpEcho) (checksum : UInt16) : List Byte :=
  [message.type.value, 0] ++ (writeBigEndian16 checksum ++ (writeBigEndian16 message.identifier ++
    (writeBigEndian16 message.sequence ++ message.payload)))

theorem IcmpEcho.length_bytesWith :
    (message.bytesWith checksum).length = Icmp.kHeaderSize + message.payload.length := by
  rw [bytesWith, length_append, length_append, length_append, length_append,
    length_writeBigEndian16, length_writeBigEndian16, length_writeBigEndian16, Icmp.kHeaderSize,
    length_cons, length_singleton]
  omega

theorem serializeIcmpEcho_eq :
    serializeIcmpEcho message = message.bytesWith (internetChecksum (message.bytesWith 0)) := by
  have hblank : message.blankBytes = message.bytesWith 0 := by
    simp only [IcmpEcho.blankBytes, IcmpEcho.bytesWith, append_assoc]
  unfold serializeIcmpEcho
  rw [hblank]
  rfl

end

theorem parseIcmpEcho_serialize {message : IcmpEcho}
    (hlen : Icmp.kHeaderSize + message.payload.length ≤ 131072) :
    parseIcmpEcho (serializeIcmpEcho message) = .ok message := by
  rw [serializeIcmpEcho_eq]
  have hchecksum : internetChecksum
      (message.bytesWith (internetChecksum (message.bytesWith 0))) = 0 := by
    refine internetChecksum_filled (by simp) ?_
    show (message.bytesWith 0).length ≤ 131072
    rwa [message.length_bytesWith]
  have hlength := message.length_bytesWith (internetChecksum (message.bytesWith 0))
  generalize internetChecksum (message.bytesWith 0) = checksum at hchecksum hlength ⊢
  have htype : (message.bytesWith checksum).getD Icmp.kTypeOffset 0 = message.type.value := rfl
  have hcode : (message.bytesWith checksum).getD Icmp.kCodeOffset 0 = 0 := rfl
  have hidentifier : readBigEndian16 (message.bytesWith checksum) Icmp.kIdentifierOffset =
      message.identifier := readBigEndian16_of_drop rfl
  have hsequence : readBigEndian16 (message.bytesWith checksum) Icmp.kSequenceOffset =
      message.sequence := readBigEndian16_of_drop rfl
  have hpayload : (message.bytesWith checksum).drop Icmp.kHeaderSize = message.payload := rfl
  have hvalue : ∀ type : IcmpEchoType, ¬ (type.value ≠ IcmpEchoType.echoRequest.value ∧
        type.value ≠ IcmpEchoType.echoReply.value) ∧
      (if type.value = IcmpEchoType.echoRequest.value then IcmpEchoType.echoRequest
        else IcmpEchoType.echoReply) = type := by
    intro type
    cases type <;> decide
  rw [parseIcmpEcho, if_neg (by omega)]
  rw [htype, hcode, hchecksum, if_neg (hvalue message.type).1, if_neg (not_not.2 rfl),
    if_neg (not_not.2 rfl), (hvalue message.type).2, hidentifier, hsequence, hpayload]

/-! ## Round trips -/

theorem length_payload_of_parseIpv4Packet {data : List Byte} {packet : Ipv4Packet}
    (h : parseIpv4Packet data = .ok packet) :
    Ipv4.kHeaderSize + packet.payload.length ≤ Ipv4.kMaxTotalLength := by
  have htotal : (readBigEndian16 data Ipv4.kTotalLengthOffset).toNat < 65536 := UInt16.toNat_lt _
  unfold parseIpv4Packet at h
  dsimp only at h
  split_ifs at h with _ _ _ _ _ hlength
  cases h
  have hle := length_take_le
    ((readBigEndian16 data Ipv4.kTotalLengthOffset).toNat - Ipv4.kHeaderSize)
    (data.drop Ipv4.kHeaderSize)
  rw [Ipv4.kMaxTotalLength]
  show Ipv4.kHeaderSize + (take _ _).length ≤ _
  omega

theorem length_payload_of_parseIcmpEcho {data : List Byte} {message : IcmpEcho}
    (h : parseIcmpEcho data = .ok message) :
    Icmp.kHeaderSize + message.payload.length = data.length := by
  unfold parseIcmpEcho at h
  dsimp only at h
  split_ifs at h with hshort
  all_goals
    cases h
    show Icmp.kHeaderSize + (data.drop Icmp.kHeaderSize).length = _
    rw [length_drop]
    omega

/-- **UDP and ICMP echo round trips.** 65507 bytes are what a packet without options has room for
    behind the eight bytes of either header, so every request that arrives in a packet can be
    answered. -/
theorem datagram_roundTrip : (∀ (datagram : UdpDatagram) (source destination : Ipv4Address),
      datagram.payload.length ≤ 65507 →
      ∃ bytes, serializeUdpDatagram datagram source destination = .ok bytes ∧
        readBigEndian16 bytes Udp.kChecksumOffset ≠ 0 ∧
        ∀ trailing, parseUdpDatagram (bytes ++ trailing) source destination = .ok datagram) ∧
    (∀ message : IcmpEcho, message.payload.length ≤ 65507 →
      parseIcmpEcho (serializeIcmpEcho message) = .ok message) ∧
    (∀ (data : List Byte) (request : IcmpEcho), parseIcmpEcho data = .ok request →
      request.payload.length ≤ 65507 →
      ∃ reply, parseIcmpEcho (serializeIcmpEcho (makeEchoReply request)) = .ok reply ∧
        reply.type = .echoReply ∧ reply.identifier = request.identifier ∧
        reply.sequence = request.sequence ∧ reply.payload = request.payload) ∧
    (∀ (data : List Byte) (packet : Ipv4Packet) (message : IcmpEcho),
      parseIpv4Packet data = .ok packet → parseIcmpEcho packet.payload = .ok message →
      message.payload.length ≤ 65507) := by
  have hicmp : ∀ message : IcmpEcho, message.payload.length ≤ 65507 →
      parseIcmpEcho (serializeIcmpEcho message) = .ok message := by
    intro message hlen
    apply parseIcmpEcho_serialize
    rw [Icmp.kHeaderSize]
    omega
  refine ⟨?_, hicmp, ?_, ?_⟩
  · intro datagram source destination hlen
    have hmax : Udp.kHeaderSize + datagram.payload.length ≤ Udp.kMaxLength := by
      rw [Udp.kHeaderSize, Udp.kMaxLength]
      omega
    refine ⟨_, serializeUdpDatagram_eq source destination hmax, ?_,
      fun trailing => parseUdpDatagram_bytesWith source destination trailing hmax⟩
    have hfield : readBigEndian16
        (datagram.bytesWith (datagram.sentChecksum source destination)) Udp.kChecksumOffset =
        datagram.sentChecksum source destination := readBigEndian16_of_drop rfl
    rw [hfield]
    exact datagram.sentChecksum_ne_zero source destination
  · intro data request hparse hlen
    exact ⟨makeEchoReply request, hicmp (makeEchoReply request) hlen, rfl, rfl, rfl, rfl⟩
  · intro data packet message hpacket hmessage
    have hcarried := length_payload_of_parseIpv4Packet hpacket
    have hheader := length_payload_of_parseIcmpEcho hmessage
    rw [Ipv4.kHeaderSize, Ipv4.kMaxTotalLength] at hcarried
    rw [Icmp.kHeaderSize] at hheader
    omega

/-- A datagram whose checksum comes out as zero and is sent as 0xFFFF. -/
def exampleDatagram : UdpDatagram :=
  { sourcePort := 53
    destinationPort := 1024
    payload := [0xd1, 0x7b] }

/-- A request with an odd payload. -/
def exampleEcho : IcmpEcho :=
  { type := .echoRequest
    identifier := 7
    sequence := 1
    payload := [0xaa, 0xbb, 0xcc] }

theorem datagram_roundTrip_example :
    udpChecksum (examplePacket []).source (examplePacket []).destination
      (exampleDatagram.bytesWith 0) = 0 ∧
    (∃ bytes, serializeUdpDatagram exampleDatagram (examplePacket []).source
        (examplePacket []).destination = .ok bytes ∧
      parseUdpDatagram (bytes ++ [0, 0, 0]) (examplePacket []).source
        (examplePacket []).destination = .ok exampleDatagram) ∧
    ∃ reply, parseIcmpEcho (serializeIcmpEcho (makeEchoReply exampleEcho)) = .ok reply ∧
      reply.payload = exampleEcho.payload := by
  obtain ⟨hudp, hicmp, hreply, -⟩ := datagram_roundTrip
  obtain ⟨bytes, hbytes, -, hparse⟩ := hudp exampleDatagram (examplePacket []).source
    (examplePacket []).destination (by decide)
  have hrequest := hicmp exampleEcho (by decide)
  obtain ⟨reply, hanswered, -, -, -, hpayload⟩ := hreply _ exampleEcho hrequest (by decide)
  exact ⟨by decide +kernel, ⟨bytes, hbytes, hparse _⟩, reply, hanswered, hpayload⟩

end Wirestack
