import Wirestack.Tcp.Output
import Wirestack.Wire.Checksum

set_option autoImplicit false

/-! # Frames, packets and segments on the wire (`ethernet.cpp`, `ipv4.cpp`, `tcp.cpp`)

The parser and the serializer of each layer. A `std::span` that has been checked to be long enough is
read with `getD`, and `out[i] = b` on the finished header is `List.set`. -/

namespace Wirestack

/-! ## Ethernet -/

/-- Six bytes. -/
structure MacAddress where
  bytes : Vector UInt8 6
  deriving DecidableEq, Repr

/-- A frame without its checksum. -/
structure EthernetFrame where
  destination : MacAddress
  source : MacAddress
  etherType : UInt16 := 0
  payload : List Byte
  deriving DecidableEq, Repr

def kMaxEthernetFrameLength : ℕ := 65535

/-- Why a frame is refused. -/
inductive EthernetParseError where
  | tooShort
  | tooLong
  deriving DecidableEq, Repr

def Ethernet.kHeaderSize : ℕ := 14

/-- The six bytes from `offset` on. -/
def readMacAddress (data : List Byte) (offset : ℕ) : MacAddress :=
  ⟨Vector.ofFn fun i => data.getD (offset + i) 0⟩

/-- Its bytes in order. -/
def writeMacAddress (mac : MacAddress) : List Byte := mac.bytes.toList

/-- Everything behind the header is payload. -/
def parseEthernetFrame (data : List Byte) : Except EthernetParseError EthernetFrame :=
  if data.length < Ethernet.kHeaderSize then .error .tooShort
  else if data.length > kMaxEthernetFrameLength then .error .tooLong
  else
    .ok
      { destination := readMacAddress data 0
        source := readMacAddress data 6
        etherType := readBigEndian16 data (2 * 6)
        payload := data.drop Ethernet.kHeaderSize }

/-- Header and payload, without padding. -/
def serializeEthernetFrame (frame : EthernetFrame) : List Byte :=
  writeMacAddress frame.destination ++ writeMacAddress frame.source ++
    writeBigEndian16 frame.etherType ++ frame.payload

/-! ## IPv4 -/

/-- The header fields that are kept, and the payload. -/
structure Ipv4Packet where
  dscpEcn : UInt8 := 0
  identification : UInt16 := 0
  ttl : UInt8 := 64
  protocol : UInt8 := 0
  source : Ipv4Address
  destination : Ipv4Address
  payload : List Byte
  deriving DecidableEq, Repr

/-- Why a packet is refused. -/
inductive Ipv4ParseError where
  | tooShort
  | unsupportedVersion
  | invalidHeaderLength
  | unsupportedOptions
  | invalidTotalLength
  | fragmented
  | badChecksum
  deriving DecidableEq, Repr

/-- Why a packet cannot be sent. -/
inductive Ipv4SerializeError where
  | payloadTooLarge
  deriving DecidableEq, Repr

namespace Ipv4

def kHeaderSize : ℕ := 20
def kSupportedVersion : UInt8 := 4
def kSupportedIhl : UInt8 := 5
def kMaxTotalLength : ℕ := 65535
def kVersionIhlOffset : ℕ := 0
def kDscpEcnOffset : ℕ := 1
def kTotalLengthOffset : ℕ := 2
def kIdentificationOffset : ℕ := 4
def kFlagsFragmentOffset : ℕ := 6
def kTtlOffset : ℕ := 8
def kProtocolOffset : ℕ := 9
def kChecksumOffset : ℕ := 10
def kSourceOffset : ℕ := 12
def kDestinationOffset : ℕ := 16
def kFlagMoreFragments : UInt16 := 0x2000
def kFragmentOffsetMask : UInt16 := 0x1fff

end Ipv4

/-- The four bytes from `offset` on. -/
def readIpv4Address (data : List Byte) (offset : ℕ) : Ipv4Address :=
  ⟨Vector.ofFn fun i => data.getD (offset + i) 0⟩

/-- Its bytes in order. -/
def writeIpv4Address (ip : Ipv4Address) : List Byte := ip.bytes.toList

/-- The bytes behind `totalLength` are Ethernet padding and are dropped. -/
def parseIpv4Packet (data : List Byte) : Except Ipv4ParseError Ipv4Packet :=
  if data.length < Ipv4.kHeaderSize then .error .tooShort
  else
    let versionIhl := data.getD Ipv4.kVersionIhlOffset 0
    let version := versionIhl >>> 4
    let ihl := versionIhl &&& 0x0f
    if version ≠ Ipv4.kSupportedVersion then .error .unsupportedVersion
    else if ihl < Ipv4.kSupportedIhl then .error .invalidHeaderLength
    else if ihl ≠ Ipv4.kSupportedIhl then .error .unsupportedOptions
    else if internetChecksum (data.take Ipv4.kHeaderSize) ≠ 0 then .error .badChecksum
    else
      let totalLength := (readBigEndian16 data Ipv4.kTotalLengthOffset).toNat
      if totalLength < Ipv4.kHeaderSize ∨ totalLength > data.length then .error .invalidTotalLength
      else
        let flagsFragment := readBigEndian16 data Ipv4.kFlagsFragmentOffset
        let moreFragments := flagsFragment &&& Ipv4.kFlagMoreFragments ≠ 0
        let fragmentOffset := flagsFragment &&& Ipv4.kFragmentOffsetMask
        if moreFragments ∨ fragmentOffset ≠ 0 then .error .fragmented
        else
          .ok
            { dscpEcn := data.getD Ipv4.kDscpEcnOffset 0
              identification := readBigEndian16 data Ipv4.kIdentificationOffset
              ttl := data.getD Ipv4.kTtlOffset 0
              protocol := data.getD Ipv4.kProtocolOffset 0
              source := readIpv4Address data Ipv4.kSourceOffset
              destination := readIpv4Address data Ipv4.kDestinationOffset
              payload := (data.drop Ipv4.kHeaderSize).take (totalLength - Ipv4.kHeaderSize) }

/-- The header with a zero checksum field. -/
def Ipv4Packet.blankHeader (packet : Ipv4Packet) : List Byte :=
  [(Ipv4.kSupportedVersion <<< 4) ||| Ipv4.kSupportedIhl, packet.dscpEcn] ++
    writeBigEndian16 (UInt16.ofNat (Ipv4.kHeaderSize + packet.payload.length)) ++
    writeBigEndian16 packet.identification ++ writeBigEndian16 0 ++
    [packet.ttl, packet.protocol] ++ writeBigEndian16 0 ++ writeIpv4Address packet.source ++
    writeIpv4Address packet.destination

/-- The checksum is computed over the header with a zero field and then written into it. -/
def serializeIpv4Packet (packet : Ipv4Packet) : Except Ipv4SerializeError (List Byte) :=
  let totalLength := Ipv4.kHeaderSize + packet.payload.length
  if totalLength > Ipv4.kMaxTotalLength then .error .payloadTooLarge
  else
    let out := packet.blankHeader
    let checksum := internetChecksum (out.take Ipv4.kHeaderSize)
    let out := out.set Ipv4.kChecksumOffset ((checksum >>> 8) &&& 0xff).toUInt8
    let out := out.set (Ipv4.kChecksumOffset + 1) (checksum &&& 0xff).toUInt8
    .ok (out ++ packet.payload)

/-! ## TCP -/

/-- Why a segment is refused. -/
inductive TcpParseError where
  | tooShort
  | tooLong
  | invalidDataOffset
  | badChecksum
  deriving DecidableEq, Repr

/-- Why a segment cannot be sent. -/
inductive TcpSerializeError where
  | payloadTooLarge
  | unalignedOptions
  | optionsTooLong
  deriving DecidableEq, Repr

def kMaxTcpSegmentLength : ℕ := 65535
def kMaxTcpOptionsLength : ℕ := 40

namespace Tcp

def kMinHeaderSize : ℕ := 20
def kProtocolTcp : UInt8 := 6
def kSourcePortOffset : ℕ := 0
def kDestinationPortOffset : ℕ := 2
def kSequenceOffset : ℕ := 4
def kAckOffset : ℕ := 8
def kDataOffsetOffset : ℕ := 12
def kFlagsOffset : ℕ := 13
def kWindowOffset : ℕ := 14
def kChecksumOffset : ℕ := 16
def kUrgentPointerOffset : ℕ := 18
def kFlagFin : UInt8 := 0x01
def kFlagSyn : UInt8 := 0x02
def kFlagRst : UInt8 := 0x04
def kFlagPsh : UInt8 := 0x08
def kFlagAck : UInt8 := 0x10
def kFlagUrg : UInt8 := 0x20
def kFlagEce : UInt8 := 0x40
def kFlagCwr : UInt8 := 0x80

end Tcp

/-- The flag byte, bit by bit. -/
def decodeFlags (byte : Byte) : TcpFlags :=
  { fin := byte &&& Tcp.kFlagFin != 0
    syn := byte &&& Tcp.kFlagSyn != 0
    rst := byte &&& Tcp.kFlagRst != 0
    psh := byte &&& Tcp.kFlagPsh != 0
    ack := byte &&& Tcp.kFlagAck != 0
    urg := byte &&& Tcp.kFlagUrg != 0
    ece := byte &&& Tcp.kFlagEce != 0
    cwr := byte &&& Tcp.kFlagCwr != 0 }

/-- The inverse of `decodeFlags`. -/
def encodeFlags (flags : TcpFlags) : Byte :=
  let byte : Byte := 0
  let byte := if flags.fin then byte ||| Tcp.kFlagFin else byte
  let byte := if flags.syn then byte ||| Tcp.kFlagSyn else byte
  let byte := if flags.rst then byte ||| Tcp.kFlagRst else byte
  let byte := if flags.psh then byte ||| Tcp.kFlagPsh else byte
  let byte := if flags.ack then byte ||| Tcp.kFlagAck else byte
  let byte := if flags.urg then byte ||| Tcp.kFlagUrg else byte
  let byte := if flags.ece then byte ||| Tcp.kFlagEce else byte
  if flags.cwr then byte ||| Tcp.kFlagCwr else byte

/-- The same bytes as the option writer's. -/
def writeBigEndian32 (value : SeqNum) : List Byte := bigEndian32 value

/-- What the TCP checksum covers in front of the segment. -/
def pseudoHeader (source destination : Ipv4Address) (length : ℕ) : List Byte :=
  writeIpv4Address source ++ writeIpv4Address destination ++ [0, Tcp.kProtocolTcp] ++
    writeBigEndian16 (UInt16.ofNat length)

/-- The checksum over pseudo header and segment. -/
def tcpChecksum (source destination : Ipv4Address) (tcpBytes : List Byte) : UInt16 :=
  internetChecksum (pseudoHeader source destination tcpBytes.length ++ tcpBytes)

/-- The options are cut out by the data offset and not looked at. -/
def parseTcpSegment (bytes : List Byte) (source destination : Ipv4Address) :
    Except TcpParseError TcpSegment :=
  if bytes.length < Tcp.kMinHeaderSize then .error .tooShort
  else if bytes.length > kMaxTcpSegmentLength then .error .tooLong
  else
    let dataOffsetField := bytes.getD Tcp.kDataOffsetOffset 0 >>> 4
    let headerLength := dataOffsetField.toNat * 4
    if dataOffsetField < 5 ∨ headerLength > bytes.length then .error .invalidDataOffset
    else if tcpChecksum source destination bytes ≠ 0 then .error .badChecksum
    else
      .ok
        { sourcePort := readBigEndian16 bytes Tcp.kSourcePortOffset
          destinationPort := readBigEndian16 bytes Tcp.kDestinationPortOffset
          sequenceNumber := readBigEndian32 bytes Tcp.kSequenceOffset
          acknowledgmentNumber := readBigEndian32 bytes Tcp.kAckOffset
          flags := decodeFlags (bytes.getD Tcp.kFlagsOffset 0)
          windowSize := readBigEndian16 bytes Tcp.kWindowOffset
          urgentPointer := readBigEndian16 bytes Tcp.kUrgentPointerOffset
          options := (bytes.drop Tcp.kMinHeaderSize).take (headerLength - Tcp.kMinHeaderSize)
          payload := bytes.drop headerLength }

/-- The segment with a zero checksum field. -/
def TcpSegment.blankBytes (segment : TcpSegment) : List Byte :=
  let dataOffset := UInt8.ofNat ((Tcp.kMinHeaderSize + segment.options.length) / 4)
  writeBigEndian16 segment.sourcePort ++ writeBigEndian16 segment.destinationPort ++
    writeBigEndian32 segment.sequenceNumber ++ writeBigEndian32 segment.acknowledgmentNumber ++
    [dataOffset <<< 4, encodeFlags segment.flags] ++ writeBigEndian16 segment.windowSize ++
    writeBigEndian16 0 ++ writeBigEndian16 segment.urgentPointer ++ segment.options ++
    segment.payload

/-- The checksum covers the segment with a zero field and is then written into it. -/
def serializeTcpSegment (segment : TcpSegment) (source destination : Ipv4Address) :
    Except TcpSerializeError (List Byte) :=
  if segment.options.length % 4 ≠ 0 then .error .unalignedOptions
  else if segment.options.length > kMaxTcpOptionsLength then .error .optionsTooLong
  else
    let totalLength := Tcp.kMinHeaderSize + segment.options.length + segment.payload.length
    if totalLength > kMaxTcpSegmentLength then .error .payloadTooLarge
    else
      let out := segment.blankBytes
      let checksum := tcpChecksum source destination out
      let out := out.set Tcp.kChecksumOffset ((checksum >>> 8) &&& 0xff).toUInt8
      .ok (out.set (Tcp.kChecksumOffset + 1) (checksum &&& 0xff).toUInt8)

end Wirestack
