import Wirestack.Wire.RoundTrip

set_option autoImplicit false

/-! # ARP packets (`arp.hpp`, `arp.cpp`)

Only the Ethernet and IPv4 form is spoken. A packet has 28 bytes and carries no checksum; what
follows it in a frame is padding. -/

namespace Wirestack

open List

inductive ArpOperation where
  | request
  | reply
  deriving DecidableEq, Repr

/-- The enumerators' values. -/
def ArpOperation.value : ArpOperation → UInt16
  | request => 1
  | reply => 2

structure ArpPacket where
  operation : ArpOperation
  senderMac : MacAddress
  senderIp : Ipv4Address
  targetMac : MacAddress
  targetIp : Ipv4Address
  deriving DecidableEq, Repr

inductive ArpParseError where
  | tooShort
  | unsupportedHardwareType
  | unsupportedProtocolType
  | invalidHardwareSize
  | invalidProtocolSize
  | unsupportedOperation
  deriving DecidableEq, Repr

namespace Arp

def kPacketSize : ℕ := 28
def kHardwareTypeEthernet : UInt16 := 1
def kProtocolTypeIpv4 : UInt16 := 0x0800
def kHardwareSizeEthernet : UInt8 := 6
def kProtocolSizeIpv4 : UInt8 := 4

end Arp

def parseArpPacket (payload : List Byte) : Except ArpParseError ArpPacket :=
  if payload.length < Arp.kPacketSize then .error .tooShort
  else if readBigEndian16 payload 0 ≠ Arp.kHardwareTypeEthernet then .error .unsupportedHardwareType
  else if readBigEndian16 payload 2 ≠ Arp.kProtocolTypeIpv4 then .error .unsupportedProtocolType
  else if payload.getD 4 0 ≠ Arp.kHardwareSizeEthernet then .error .invalidHardwareSize
  else if payload.getD 5 0 ≠ Arp.kProtocolSizeIpv4 then .error .invalidProtocolSize
  else
    let rawOperation := readBigEndian16 payload 6
    if rawOperation ≠ ArpOperation.request.value ∧ rawOperation ≠ ArpOperation.reply.value then
      .error .unsupportedOperation
    else
      .ok
        { operation := if rawOperation = ArpOperation.request.value then .request else .reply
          senderMac := readMacAddress payload 8
          senderIp := readIpv4Address payload 14
          targetMac := readMacAddress payload 18
          targetIp := readIpv4Address payload 24 }

def serializeArpPacket (packet : ArpPacket) : List Byte :=
  writeBigEndian16 Arp.kHardwareTypeEthernet ++ (writeBigEndian16 Arp.kProtocolTypeIpv4 ++
    ([Arp.kHardwareSizeEthernet] ++ ([Arp.kProtocolSizeIpv4] ++
    (writeBigEndian16 packet.operation.value ++ (writeMacAddress packet.senderMac ++
    (writeIpv4Address packet.senderIp ++ (writeMacAddress packet.targetMac ++
    writeIpv4Address packet.targetIp)))))))

section

variable (request : ArpPacket) (localIp : Ipv4Address) (localMac : MacAddress)

def makeArpRequest (targetIp : Ipv4Address) : ArpPacket :=
  { operation := .request, senderMac := localMac, senderIp := localIp,
    targetMac := ⟨Vector.replicate 6 0⟩, targetIp := targetIp }

def isArpReplyFor (packet : ArpPacket) : Bool :=
  packet.operation == .reply && packet.targetIp == localIp && packet.targetMac == localMac

def makeArpReply : ArpPacket :=
  { operation := .reply, senderMac := localMac, senderIp := localIp,
    targetMac := request.senderMac, targetIp := request.senderIp }

def maybeReply : Option ArpPacket :=
  if request.targetIp ≠ localIp then none else some (makeArpReply request localIp localMac)

end

theorem parseArpPacket_serialize (packet : ArpPacket) :
    parseArpPacket (serializeArpPacket packet) = .ok packet := by
  obtain ⟨operation, senderMac, senderIp, targetMac, targetIp⟩ := packet
  generalize hbytes :
    serializeArpPacket ⟨operation, senderMac, senderIp, targetMac, targetIp⟩ = bytes
  have h8 : bytes.drop 8 = writeMacAddress senderMac ++ (writeIpv4Address senderIp ++
      (writeMacAddress targetMac ++ (writeIpv4Address targetIp ++ []))) := by
    rw [← hbytes, append_nil]
    rfl
  have h14 := congrArg (drop 6) h8
  rw [drop_drop, drop_left' (length_writeMacAddress senderMac)] at h14
  have h18 := congrArg (drop 4) h14
  rw [drop_drop, drop_left' (length_writeIpv4Address senderIp)] at h18
  have h24 := congrArg (drop 6) h18
  rw [drop_drop, drop_left' (length_writeMacAddress targetMac)] at h24
  subst hbytes
  have hoperation : readBigEndian16 (serializeArpPacket
      ⟨operation, senderMac, senderIp, targetMac, targetIp⟩) 6 = operation.value :=
    readBigEndian16_of_drop rfl
  rw [parseArpPacket, if_neg (by simp [serializeArpPacket, Arp.kPacketSize]),
    if_neg (not_not.2 (readBigEndian16_of_drop rfl)),
    if_neg (not_not.2 (readBigEndian16_of_drop rfl)), if_neg (not_not.2 (by rfl)),
    if_neg (not_not.2 (by rfl)), readMacAddress_of_drop h8, readIpv4Address_of_drop h14,
    readMacAddress_of_drop h18, readIpv4Address_of_drop h24, hoperation]
  cases operation with
  | request | reply => rfl

end Wirestack
