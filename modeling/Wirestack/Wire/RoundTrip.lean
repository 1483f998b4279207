import Wirestack.Tcp.SackOptions
import Wirestack.Wire.Formats

set_option autoImplicit false

/-! # Round trips

What each serializer writes, its parser reads back. The bytes are described as the fields in their
order on the wire; a reader at an offset finds the field that the bytes from there on start with
(`…_of_drop`). The checksums come out right because each field lies at an even offset and the header
in front of it is written out, so that filling it in is `internetChecksum_filled`. -/

namespace Wirestack

variable {data tail : List Byte} {offset : ℕ}

/-! ## Fields -/

theorem readBigEndian16_of_drop {value : UInt16}
    (h : data.drop offset = writeBigEndian16 value ++ tail) :
    readBigEndian16 data offset = value := by
  have hget : ∀ i, data.getD (offset + i) 0 = (writeBigEndian16 value ++ tail).getD i 0 := by
    intro i
    rw [← h, List.getD_eq_getElem?_getD, List.getD_eq_getElem?_getD, List.getElem?_drop]
  rw [readBigEndian16_eq, hget 1, ← Nat.add_zero offset, hget 0]
  exact bigEndianWord_write value

theorem readBigEndian32_of_drop {value : SeqNum}
    (h : data.drop offset = writeBigEndian32 value ++ tail) :
    readBigEndian32 data offset = value := by
  rw [← Nat.add_zero offset, readBigEndian32_add, h]
  exact readBigEndian32_bigEndian32 ..

theorem ofFn_getD_of_drop {n : ℕ} {bytes : Vector Byte n}
    (h : data.drop offset = bytes.toList ++ tail) :
    (Vector.ofFn fun i : Fin n => data.getD (offset + i) 0) = bytes := by
  ext i hi
  rw [Vector.getElem_ofFn]
  rw [List.getD_eq_getElem?_getD, ← List.getElem?_drop, h, List.getElem?_append_left (by simpa using hi)]
  simp [hi]

theorem readMacAddress_of_drop {mac : MacAddress}
    (h : data.drop offset = writeMacAddress mac ++ tail) : readMacAddress data offset = mac := by
  rw [readMacAddress, ofFn_getD_of_drop h]

theorem readIpv4Address_of_drop {ip : Ipv4Address}
    (h : data.drop offset = writeIpv4Address ip ++ tail) : readIpv4Address data offset = ip := by
  rw [readIpv4Address, ofFn_getD_of_drop h]

@[simp]
theorem length_writeBigEndian16 (value : UInt16) : (writeBigEndian16 value).length = 2 := rfl

@[simp]
theorem length_writeMacAddress (mac : MacAddress) : (writeMacAddress mac).length = 6 :=
  Vector.length_toList

@[simp]
theorem length_writeIpv4Address (ip : Ipv4Address) : (writeIpv4Address ip).length = 4 :=
  Vector.length_toList

/-! ## Ethernet -/

theorem length_serializeEthernetFrame (frame : EthernetFrame) :
    (serializeEthernetFrame frame).length = Ethernet.kHeaderSize + frame.payload.length := by
  simp only [serializeEthernetFrame, Ethernet.kHeaderSize, List.length_append,
    length_writeMacAddress, length_writeBigEndian16]

theorem parseEthernetFrame_serialize {frame : EthernetFrame}
    (hlen : Ethernet.kHeaderSize + frame.payload.length ≤ kMaxEthernetFrameLength) :
    parseEthernetFrame (serializeEthernetFrame frame) = .ok frame := by
  have hlength := length_serializeEthernetFrame frame
  have hbytes : serializeEthernetFrame frame = writeMacAddress frame.destination ++
      (writeMacAddress frame.source ++ (writeBigEndian16 frame.etherType ++ frame.payload)) := by
    simp only [serializeEthernetFrame, List.append_assoc]
  have hsource : (serializeEthernetFrame frame).drop 6 =
      writeMacAddress frame.source ++ (writeBigEndian16 frame.etherType ++ frame.payload) := by
    rw [hbytes]
    exact List.drop_left' (length_writeMacAddress _)
  have htype : (serializeEthernetFrame frame).drop (2 * 6) =
      writeBigEndian16 frame.etherType ++ frame.payload := by
    rw [show 2 * 6 = 6 + 6 from rfl, ← List.drop_drop, hsource]
    exact List.drop_left' (length_writeMacAddress _)
  have hpayload : (serializeEthernetFrame frame).drop Ethernet.kHeaderSize = frame.payload := by
    rw [show Ethernet.kHeaderSize = 2 * 6 + 2 from rfl, ← List.drop_drop, htype]
    rfl
  have hdestination : (serializeEthernetFrame frame).drop 0 = writeMacAddress frame.destination ++
      (writeMacAddress frame.source ++ (writeBigEndian16 frame.etherType ++ frame.payload)) := hbytes
  rw [parseEthernetFrame, if_neg (by omega), if_neg (by omega), readMacAddress_of_drop hdestination,
    readMacAddress_of_drop hsource, readBigEndian16_of_drop htype, hpayload]

/-! ## IPv4 -/

/-- The ten bytes in front of the checksum field. -/
def Ipv4Packet.headerFront (packet : Ipv4Packet) : List Byte :=
  [(Ipv4.kSupportedVersion <<< 4) ||| Ipv4.kSupportedIhl, packet.dscpEcn] ++
    writeBigEndian16 (UInt16.ofNat (Ipv4.kHeaderSize + packet.payload.length)) ++
    writeBigEndian16 packet.identification ++ writeBigEndian16 0 ++ [packet.ttl, packet.protocol]

def Ipv4Packet.headerWith (packet : Ipv4Packet) (checksum : UInt16) : List Byte :=
  packet.headerFront ++ (writeBigEndian16 checksum ++
    (writeIpv4Address packet.source ++ writeIpv4Address packet.destination))

section

variable (source destination : Ipv4Address) (length : ℕ) (segment : TcpSegment) (flags : TcpFlags)
  (padding : List Byte) (packet : Ipv4Packet) (checksum : UInt16)

theorem Ipv4Packet.length_headerWith : (packet.headerWith checksum).length = Ipv4.kHeaderSize := by
  simp only [headerWith, headerFront, Ipv4.kHeaderSize, List.length_append,
    length_writeIpv4Address, length_writeBigEndian16, List.length_cons, List.length_nil]

/-- The header as it goes out. -/
def Ipv4Packet.header (packet : Ipv4Packet) : List Byte :=
  packet.headerWith (internetChecksum (packet.headerWith 0))

theorem serializeIpv4Packet_eq {packet : Ipv4Packet}
    (hlen : Ipv4.kHeaderSize + packet.payload.length ≤ Ipv4.kMaxTotalLength) :
    serializeIpv4Packet packet = .ok (packet.header ++ packet.payload) := by
  have hblank : packet.blankHeader.take Ipv4.kHeaderSize = packet.headerWith 0 :=
    List.take_of_length_le (packet.length_headerWith 0).le
  unfold serializeIpv4Packet
  dsimp only
  rw [if_neg (not_lt.2 hlen), hblank]
  rfl

theorem Ipv4Packet.checksum_header : internetChecksum packet.header = 0 := by
  refine internetChecksum_filled (by simp [headerFront]) ?_
  show (packet.headerWith 0).length ≤ 131072
  rw [packet.length_headerWith]
  decide

theorem parseIpv4Packet_header {packet : Ipv4Packet}
    (hlen : Ipv4.kHeaderSize + packet.payload.length ≤ Ipv4.kMaxTotalLength) :
    parseIpv4Packet (packet.header ++ packet.payload ++ padding) = .ok packet := by
  have hheader : packet.header.length = Ipv4.kHeaderSize := packet.length_headerWith _
  have hlength : (packet.header ++ packet.payload ++ padding).length =
      Ipv4.kHeaderSize + packet.payload.length + padding.length := by
    rw [List.length_append, List.length_append, hheader]
  have htake : (packet.header ++ packet.payload ++ padding).take Ipv4.kHeaderSize =
      packet.header := by
    rw [List.append_assoc]
    exact List.take_left' hheader
  have hpayload : (packet.header ++ packet.payload ++ padding).drop Ipv4.kHeaderSize =
      packet.payload ++ padding := by
    rw [List.append_assoc]
    exact List.drop_left' hheader
  have htotal : readBigEndian16 (packet.header ++ packet.payload ++ padding)
      Ipv4.kTotalLengthOffset = UInt16.ofNat (Ipv4.kHeaderSize + packet.payload.length) :=
    readBigEndian16_of_drop rfl
  have hidentification : readBigEndian16 (packet.header ++ packet.payload ++ padding)
      Ipv4.kIdentificationOffset = packet.identification := readBigEndian16_of_drop rfl
  have hfragment : readBigEndian16 (packet.header ++ packet.payload ++ padding)
      Ipv4.kFlagsFragmentOffset = 0 := readBigEndian16_of_drop rfl
  have hsource : (packet.header ++ packet.payload ++ padding).drop Ipv4.kSourceOffset =
      writeIpv4Address packet.source ++ (writeIpv4Address packet.destination ++
        (packet.payload ++ padding)) := by
    show writeIpv4Address packet.source ++ writeIpv4Address packet.destination ++ _ ++ _ = _
    simp only [List.append_assoc]
  have hdestination : (packet.header ++ packet.payload ++ padding).drop Ipv4.kDestinationOffset =
      writeIpv4Address packet.destination ++ (packet.payload ++ padding) := by
    rw [show Ipv4.kDestinationOffset = Ipv4.kSourceOffset + 4 from rfl, ← List.drop_drop, hsource]
    exact List.drop_left' (length_writeIpv4Address _)
  have htoNat : (UInt16.ofNat (Ipv4.kHeaderSize + packet.payload.length)).toNat =
      Ipv4.kHeaderSize + packet.payload.length :=
    UInt16.toNat_ofNat_of_lt' (Nat.lt_succ_of_le hlen)
  have hversion : (packet.header ++ packet.payload ++ padding).getD Ipv4.kVersionIhlOffset 0 =
      0x45 := rfl
  have hdscp : (packet.header ++ packet.payload ++ padding).getD Ipv4.kDscpEcnOffset 0 =
      packet.dscpEcn := rfl
  have httl : (packet.header ++ packet.payload ++ padding).getD Ipv4.kTtlOffset 0 =
      packet.ttl := rfl
  have hprotocol : (packet.header ++ packet.payload ++ padding).getD Ipv4.kProtocolOffset 0 =
      packet.protocol := rfl
  rw [parseIpv4Packet, if_neg (by omega)]
  rw [hversion, htake, packet.checksum_header, htotal, htoNat, hfragment, hidentification,
    readIpv4Address_of_drop hsource, readIpv4Address_of_drop hdestination, hpayload, hdscp, httl,
    hprotocol, if_neg (by decide), if_neg (by decide), if_neg (by decide),
    if_neg (not_not.2 rfl), if_neg (by omega), if_neg (by decide), Nat.add_sub_cancel_left,
    List.take_left]

/-! ## TCP -/

theorem decodeFlags_encodeFlags : decodeFlags (encodeFlags flags) = flags := by
  obtain ⟨fin, syn, rst, psh, ack, urg, ece, cwr⟩ := flags
  revert fin syn rst psh ack urg ece cwr
  decide +kernel

/-- The sixteen bytes in front of the checksum field. -/
def TcpSegment.headerFront (segment : TcpSegment) : List Byte :=
  let dataOffset := UInt8.ofNat ((Tcp.kMinHeaderSize + segment.options.length) / 4)
  writeBigEndian16 segment.sourcePort ++ writeBigEndian16 segment.destinationPort ++
    writeBigEndian32 segment.sequenceNumber ++ writeBigEndian32 segment.acknowledgmentNumber ++
    [dataOffset <<< 4, encodeFlags segment.flags] ++ writeBigEndian16 segment.windowSize

def TcpSegment.bytesWith (segment : TcpSegment) (checksum : UInt16) : List Byte :=
  segment.headerFront ++ (writeBigEndian16 checksum ++
    (writeBigEndian16 segment.urgentPointer ++ (segment.options ++ segment.payload)))

theorem TcpSegment.length_bytesWith : (segment.bytesWith checksum).length =
      Tcp.kMinHeaderSize + segment.options.length + segment.payload.length := by
  have hfront : segment.headerFront.length = 16 := rfl
  rw [bytesWith, List.length_append, hfront, List.length_append, length_writeBigEndian16,
    List.length_append, length_writeBigEndian16, List.length_append, Tcp.kMinHeaderSize]
  omega

theorem TcpSegment.blankBytes_eq : segment.blankBytes = segment.bytesWith 0 := by
  show segment.headerFront ++ _ ++ _ ++ _ ++ _ = _
  simp only [bytesWith, List.append_assoc]

/-- The segment as it goes out. -/
def TcpSegment.bytes (segment : TcpSegment) (source destination : Ipv4Address) : List Byte :=
  segment.bytesWith (tcpChecksum source destination (segment.bytesWith 0))

theorem serializeTcpSegment_eq {segment : TcpSegment} (haligned : segment.options.length % 4 = 0)
    (hoptions : segment.options.length ≤ kMaxTcpOptionsLength) (hlen : Tcp.kMinHeaderSize +
      segment.options.length + segment.payload.length ≤ kMaxTcpSegmentLength) :
    serializeTcpSegment segment source destination = .ok (segment.bytes source destination) := by
  unfold serializeTcpSegment
  rw [if_neg (not_not.2 haligned), if_neg (not_lt.2 hoptions), if_neg (not_lt.2 hlen),
    segment.blankBytes_eq]
  rfl

theorem length_pseudoHeader : (pseudoHeader source destination length).length = 12 := by
  simp only [pseudoHeader, List.length_append, length_writeIpv4Address, length_writeBigEndian16,
    List.length_cons, List.length_nil]

theorem TcpSegment.checksum_bytes (source destination : Ipv4Address) (hlen : Tcp.kMinHeaderSize +
      segment.options.length + segment.payload.length ≤ kMaxTcpSegmentLength) :
    tcpChecksum source destination (segment.bytes source destination) = 0 := by
  unfold tcpChecksum bytes
  rw [segment.length_bytesWith]
  have hfront : ∀ checksum, pseudoHeader source destination
      (Tcp.kMinHeaderSize + segment.options.length + segment.payload.length) ++
        segment.bytesWith checksum =
      (pseudoHeader source destination
        (Tcp.kMinHeaderSize + segment.options.length + segment.payload.length) ++
          segment.headerFront) ++ (writeBigEndian16 checksum ++
        (writeBigEndian16 segment.urgentPointer ++ (segment.options ++ segment.payload))) := by
    intro checksum
    rw [List.append_assoc]
    rfl
  have hchecksum : tcpChecksum source destination (segment.bytesWith 0) =
      internetChecksum (pseudoHeader source destination
        (Tcp.kMinHeaderSize + segment.options.length + segment.payload.length) ++
          segment.bytesWith 0) := by
    rw [tcpChecksum, segment.length_bytesWith]
  rw [hchecksum, hfront, hfront]
  refine internetChecksum_filled ?_ ?_
  · have hfrontLength : segment.headerFront.length = 16 := rfl
    rw [List.length_append, length_pseudoHeader, hfrontLength]
  · rw [← hfront, List.length_append, length_pseudoHeader, segment.length_bytesWith]
    unfold kMaxTcpSegmentLength at hlen
    omega

theorem dataOffset_roundTrip {n : ℕ} (haligned : n % 4 = 0) (hle : n ≤ kMaxTcpOptionsLength) :
    ((UInt8.ofNat ((Tcp.kMinHeaderSize + n) / 4) <<< 4) >>> 4).toNat * 4 = Tcp.kMinHeaderSize + n ∧
    ¬ (UInt8.ofNat ((Tcp.kMinHeaderSize + n) / 4) <<< 4) >>> 4 < 5 := by
  unfold kMaxTcpOptionsLength at hle
  obtain ⟨k, rfl⟩ : ∃ k, n = 4 * k := ⟨n / 4, by omega⟩
  have hk : k < 11 := by omega
  have hall : ∀ k < 11, ((UInt8.ofNat ((Tcp.kMinHeaderSize + 4 * k) / 4) <<< 4) >>> 4).toNat * 4 =
      Tcp.kMinHeaderSize + 4 * k ∧
      ¬ (UInt8.ofNat ((Tcp.kMinHeaderSize + 4 * k) / 4) <<< 4) >>> 4 < 5 := by decide
  exact hall k hk

theorem parseTcpSegment_bytes {segment : TcpSegment} (haligned : segment.options.length % 4 = 0)
    (hoptions : segment.options.length ≤ kMaxTcpOptionsLength) (hlen : Tcp.kMinHeaderSize +
      segment.options.length + segment.payload.length ≤ kMaxTcpSegmentLength) :
    parseTcpSegment (segment.bytes source destination) source destination = .ok segment := by
  obtain ⟨hoffset, hmin⟩ := dataOffset_roundTrip haligned hoptions
  have hchecksum := segment.checksum_bytes source destination hlen
  have hlength : (segment.bytes source destination).length =
      Tcp.kMinHeaderSize + segment.options.length + segment.payload.length :=
    segment.length_bytesWith _
  have hfield : (segment.bytes source destination).getD Tcp.kDataOffsetOffset 0 =
      UInt8.ofNat ((Tcp.kMinHeaderSize + segment.options.length) / 4) <<< 4 := rfl
  have hflags : (segment.bytes source destination).getD Tcp.kFlagsOffset 0 =
      encodeFlags segment.flags := rfl
  have hsourcePort : readBigEndian16 (segment.bytes source destination) Tcp.kSourcePortOffset =
      segment.sourcePort := readBigEndian16_of_drop rfl
  have hdestinationPort : readBigEndian16 (segment.bytes source destination)
      Tcp.kDestinationPortOffset = segment.destinationPort := readBigEndian16_of_drop rfl
  have hsequence : readBigEndian32 (segment.bytes source destination) Tcp.kSequenceOffset =
      segment.sequenceNumber := readBigEndian32_of_drop rfl
  have hack : readBigEndian32 (segment.bytes source destination) Tcp.kAckOffset =
      segment.acknowledgmentNumber := readBigEndian32_of_drop rfl
  have hwindow : readBigEndian16 (segment.bytes source destination) Tcp.kWindowOffset =
      segment.windowSize := readBigEndian16_of_drop rfl
  have hurgent : readBigEndian16 (segment.bytes source destination) Tcp.kUrgentPointerOffset =
      segment.urgentPointer := readBigEndian16_of_drop rfl
  have hrest : (segment.bytes source destination).drop Tcp.kMinHeaderSize =
      segment.options ++ segment.payload := rfl
  have hpayload : (segment.bytes source destination).drop
      (Tcp.kMinHeaderSize + segment.options.length) = segment.payload := by
    rw [← List.drop_drop, hrest, List.drop_left]
  rw [parseTcpSegment, if_neg (by omega), if_neg (by omega)]
  dsimp only
  rw [hfield, hoffset, if_neg (not_or.2 ⟨hmin, by omega⟩), if_neg (not_not.2 hchecksum), hflags,
    decodeFlags_encodeFlags, hsourcePort, hdestinationPort, hsequence, hack, hwindow, hurgent,
    hrest, hpayload, Nat.add_sub_cancel_left, List.take_left]

end

/-! ## The three layers together -/

/-- A segment goes out in a packet in a frame, behind which the link may pad. Each parser gives back
    what its serializer was given, and the packet's parser drops the padding. -/
theorem tcp_wire_roundTrip (segment : TcpSegment) (packet : Ipv4Packet) (frame : EthernetFrame)
    (padding : List Byte) (haligned : segment.options.length % 4 = 0)
    (hoptions : segment.options.length ≤ kMaxTcpOptionsLength)
    (hlen : Ethernet.kHeaderSize + (Ipv4.kHeaderSize + (Tcp.kMinHeaderSize +
      segment.options.length + segment.payload.length) + padding.length) ≤
        kMaxEthernetFrameLength) :
    ∃ tcpBytes ipBytes,
      serializeTcpSegment segment packet.source packet.destination = .ok tcpBytes ∧
      serializeIpv4Packet { packet with payload := tcpBytes } = .ok ipBytes ∧
      (serializeEthernetFrame { frame with payload := ipBytes ++ padding }).length =
        Ethernet.kHeaderSize + (Ipv4.kHeaderSize + (Tcp.kMinHeaderSize +
          segment.options.length + segment.payload.length) + padding.length) ∧
      parseEthernetFrame (serializeEthernetFrame { frame with payload := ipBytes ++ padding }) =
        .ok { frame with payload := ipBytes ++ padding } ∧
      parseIpv4Packet (ipBytes ++ padding) = .ok { packet with payload := tcpBytes } ∧
      parseTcpSegment tcpBytes packet.source packet.destination = .ok segment := by
  have hmax : kMaxEthernetFrameLength = 65535 := rfl
  have hsegment : Tcp.kMinHeaderSize + segment.options.length + segment.payload.length ≤
      kMaxTcpSegmentLength := by
    rw [kMaxTcpSegmentLength]
    omega
  have htcp : (segment.bytes packet.source packet.destination).length =
      Tcp.kMinHeaderSize + segment.options.length + segment.payload.length :=
    segment.length_bytesWith _
  generalize hbytes : segment.bytes packet.source packet.destination = tcpBytes at htcp
  have hpacket : Ipv4.kHeaderSize + tcpBytes.length ≤ Ipv4.kMaxTotalLength := by
    rw [Ipv4.kMaxTotalLength]
    omega
  have hip : ({ packet with payload := tcpBytes }.header ++ tcpBytes ++ padding).length =
      Ipv4.kHeaderSize + (Tcp.kMinHeaderSize + segment.options.length + segment.payload.length) +
        padding.length := by
    rw [List.length_append, List.length_append, htcp, Ipv4Packet.header, Ipv4Packet.length_headerWith]
  have hserialized : serializeIpv4Packet { packet with payload := tcpBytes } =
      .ok ({ packet with payload := tcpBytes }.header ++ tcpBytes) := serializeIpv4Packet_eq hpacket
  have hparsed : parseIpv4Packet ({ packet with payload := tcpBytes }.header ++ tcpBytes ++ padding) =
      .ok { packet with payload := tcpBytes } := parseIpv4Packet_header padding hpacket
  -- Only the bytes of the header matter from here on; unfolded they are costly to compare.
  generalize { packet with payload := tcpBytes }.header ++ tcpBytes = ipBytes
    at hip hserialized hparsed
  refine ⟨tcpBytes, ipBytes, ?_, hserialized, ?_, parseEthernetFrame_serialize ?_, hparsed, ?_⟩
  · rw [← hbytes]
    exact serializeTcpSegment_eq packet.source packet.destination haligned hoptions hsegment
  · rw [length_serializeEthernetFrame, hip]
  · rwa [hip]
  · rw [← hbytes]
    exact parseTcpSegment_bytes packet.source packet.destination haligned hoptions hsegment

/-- A segment with an option and an odd payload. -/
def exampleOptionSegment : TcpSegment :=
  { sourcePort := 80
    destinationPort := 40000
    sequenceNumber := 5001
    acknowledgmentNumber := 1001
    flags := { psh := true, ack := true, cwr := true }
    windowSize := 65535
    options := [2, 4, 5, 180]
    payload := [0xaa, 0xbb, 0xcc] }

def examplePacket (payload : List Byte) : Ipv4Packet :=
  { identification := 7
    ttl := 61
    protocol := 6
    source := ⟨Vector.replicate 4 10⟩
    destination := ⟨Vector.replicate 4 11⟩
    payload := payload }

/-- The frame carries six bytes of padding. -/
theorem tcp_wire_roundTrip_example : ∃ tcpBytes ipBytes,
      serializeTcpSegment exampleOptionSegment (examplePacket []).source
        (examplePacket []).destination = .ok tcpBytes ∧
      serializeIpv4Packet (examplePacket tcpBytes) = .ok ipBytes ∧
      parseIpv4Packet (ipBytes ++ List.replicate 6 0) = .ok (examplePacket tcpBytes) ∧
      parseTcpSegment tcpBytes (examplePacket []).source (examplePacket []).destination =
        .ok exampleOptionSegment := by
  obtain ⟨tcpBytes, ipBytes, htcp, hip, -, -, hparsed, hsegment⟩ :=
    tcp_wire_roundTrip exampleOptionSegment (examplePacket [])
      { destination := ⟨Vector.replicate 6 0xff⟩, source := ⟨Vector.replicate 6 2⟩,
        etherType := 0x0800, payload := [] }
      (List.replicate 6 0) (by decide) (by decide) (by decide)
  exact ⟨tcpBytes, ipBytes, htcp, hip, hparsed, hsegment⟩

end Wirestack
