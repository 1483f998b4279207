import Wirestack.Http.Text
import Wirestack.Wire.Formats

set_option autoImplicit false

/-! # DNS messages (`dns.hpp`, `dns.cpp`)

The A-record query the resolver sends and the parser of what comes back. A `std::string` is the list
of its bytes; splitting at dots with `find` and `substr` is `List.splitOn`. -/

namespace Wirestack

def kMaxDnsMessageSize : ℕ := 512
def kDnsHeaderSize : ℕ := 12
def kMaxDnsLabelLength : ℕ := 63
def kMaxDnsNameLength : ℕ := 253
def kMaxDnsRecordCount : ℕ := 64
def kMaxDnsPointerHops : ℕ := 16

/-- The byte `-`. -/
def hyphen : Byte := 0x2d

/-! ## Hostnames -/

inductive HostnameError where
  | empty
  | tooLong
  | emptyLabel
  | labelTooLong
  | invalidChar
  | leadingOrTrailingHyphen
  deriving DecidableEq, Repr

def isLdhChar (c : Byte) : Bool :=
  between 'a' 'z' c || between 'A' 'Z' c || between '0' '9' c || c == hyphen

/-- What is wrong with a label, if anything. -/
def labelError (label : List Byte) : Option HostnameError :=
  if label.isEmpty then some .emptyLabel
  else if label.length > kMaxDnsLabelLength then some .labelTooLong
  else if label.head? == some hyphen || label.getLast? == some hyphen then
    some .leadingOrTrailingHyphen
  else if !label.all isLdhChar then some .invalidChar
  else none

/-- The loop over the labels of a hostname. -/
def normalizeLabels : List (List Byte) → List Byte → Except HostnameError (List Byte)
  | [], normalized => .ok normalized
  | label :: rest, normalized =>
    match labelError label with
    | some error => .error error
    | none =>
      let separated := if normalized.isEmpty then normalized else normalized ++ [dot]
      normalizeLabels rest (separated ++ toLower label)

def normalizeHostname (hostname : List Byte) : Except HostnameError (List Byte) :=
  if hostname.isEmpty then .error .empty
  else if hostname.length > 253 then .error .tooLong
  else normalizeLabels (hostname.splitOn dot) []

/-! ## The query -/

structure DnsQuery where
  transactionId : UInt16 := 0
  hostname : List Byte
  deriving DecidableEq, Repr

def encodeLabel (label : List Byte) : List Byte := UInt8.ofNat label.length :: label

/-- The message `serializeDnsQuery` builds before it checks the size. -/
def DnsQuery.bytes (query : DnsQuery) : List Byte :=
  writeBigEndian16 query.transactionId ++
    -- Only RD is set.
    [0x01, 0x00] ++
    writeBigEndian16 1 ++ writeBigEndian16 0 ++ writeBigEndian16 0 ++ writeBigEndian16 0 ++
    (query.hostname.splitOn dot).flatMap encodeLabel ++ [0x00] ++
    writeBigEndian16 1 ++ writeBigEndian16 1

/-- The hostname must already be normalized. -/
def serializeDnsQuery (query : DnsQuery) : Option (List Byte) :=
  match normalizeHostname query.hostname with
  | .error _ => none
  | .ok normalized =>
    if normalized ≠ query.hostname then none
    else if query.bytes.length > kMaxDnsMessageSize then none
    else some query.bytes

/-! ## Names and records -/

/-- `bytesInRecord` is how much of the record the name takes up, whatever a pointer leads to. -/
structure NameDecodeResult where
  name : List Byte
  bytesInRecord : ℕ
  deriving DecidableEq, Repr

/-- The variables of the loop of `decodeName`. -/
structure NameScan where
  name : List Byte := []
  cursor : ℕ
  recordEnd : Option ℕ := none
  hops : ℕ := 0
  firstLabel : Bool := true

/-- The fourteen bits of a compression pointer. -/
def compressionPointer (high low : Byte) : UInt16 :=
  ((high &&& 0x3f).toUInt16 <<< 8) ||| low.toUInt16

def decodeNameFrom (packet : List Byte) (startOffset : ℕ) : ℕ → NameScan →
    Option NameDecodeResult
  | 0, _ => none
  | fuel + 1, s =>
    if s.cursor ≥ packet.length then none
    else
      let lenByte := packet.getD s.cursor 0
      if lenByte &&& 0xc0 = 0xc0 then
        if s.cursor + 1 ≥ packet.length then none
        else
          let pointer := (compressionPointer lenByte (packet.getD (s.cursor + 1) 0)).toNat
          let recordEnd := s.recordEnd.getD (s.cursor + 2)
          -- A pointer leads strictly backwards.
          if pointer ≥ s.cursor then none
          else if s.hops + 1 > kMaxDnsPointerHops then none
          else
            decodeNameFrom packet startOffset fuel
              { s with cursor := pointer, recordEnd := some recordEnd, hops := s.hops + 1 }
      else if lenByte = 0 then
        some
          { name := s.name
            bytesInRecord := s.recordEnd.getD (s.cursor + 1) - startOffset }
      else if lenByte &&& 0xc0 ≠ 0 then none
      else
        let labelStart := s.cursor + 1
        if labelStart + lenByte.toNat > packet.length then none
        else
          let label := (packet.drop labelStart).take lenByte.toNat
          let separated := if s.firstLabel then s.name else s.name ++ [dot]
          let name := separated ++ toLower label
          if name.length > kMaxDnsNameLength then none
          else
            decodeNameFrom packet startOffset fuel
              { s with name := name, cursor := labelStart + lenByte.toNat, firstLabel := false }

/-- Each round but the last lengthens the name or follows a pointer, so the two limits bound the
    number of rounds. -/
def decodeName (packet : List Byte) (startOffset : ℕ) : Option NameDecodeResult :=
  decodeNameFrom packet startOffset (kMaxDnsNameLength + kMaxDnsPointerHops + 1)
    { cursor := startOffset }

structure ResourceRecordHeader where
  name : List Byte
  type : UInt16
  rrClass : UInt16
  ttl : BitVec 32
  rdlength : UInt16
  rdataOffset : ℕ
  nextOffset : ℕ
  deriving DecidableEq, Repr

/-- Type, class, TTL and data length. -/
def kFixedFieldsSize : ℕ := 10

def decodeResourceRecord (packet : List Byte) (offset : ℕ) : Option ResourceRecordHeader :=
  match decodeName packet offset with
  | none => none
  | some name =>
    let cursor := offset + name.bytesInRecord
    if cursor + kFixedFieldsSize > packet.length then none
    else
      let rdlength := readBigEndian16 packet (cursor + 8)
      let rdataOffset := cursor + kFixedFieldsSize
      if rdataOffset + rdlength.toNat > packet.length then none
      else
        some
          { name := name.name
            type := readBigEndian16 packet cursor
            rrClass := readBigEndian16 packet (cursor + 2)
            ttl := readBigEndian32 packet (cursor + 4)
            rdlength := rdlength
            rdataOffset := rdataOffset
            nextOffset := rdataOffset + rdlength.toNat }

/-! ## The response -/

inductive DnsResponseOutcome where
  | resolved
  | noAnswer
  | nxDomain
  | serverFailure
  | refused
  | malformed
  | truncated
  | wrongTransaction
  | wrongQuestion
  deriving DecidableEq, Repr

/-- The address is there only with `resolved`. -/
structure DnsResponseParseResult where
  outcome : DnsResponseOutcome
  address : Option Ipv4Address := none
  deriving DecidableEq, Repr

/-- An answer that may be taken: an address record of the queried name. -/
def ResourceRecordHeader.answers (rr : ResourceRecordHeader) (hostname : List Byte) : Bool :=
  rr.type == 1 && rr.rrClass == 1 && rr.rdlength == 4 && rr.name == hostname

/-- The loop over the answer section: where it ends and the first answer in it. -/
def scanAnswers (packet hostname : List Byte) : ℕ → ℕ → Option Ipv4Address →
    Option (ℕ × Option Ipv4Address)
  | 0, cursor, found => some (cursor, found)
  | count + 1, cursor, found =>
    match decodeResourceRecord packet cursor with
    | none => none
    | some rr =>
      scanAnswers packet hostname count rr.nextOffset
        (if found.isNone && rr.answers hostname then some (readIpv4Address packet rr.rdataOffset)
          else found)

/-- The loop over the authority and additional sections, which must parse and are not looked at. -/
def skipRecords (packet : List Byte) : ℕ → ℕ → Option ℕ
  | 0, cursor => some cursor
  | count + 1, cursor =>
    match decodeResourceRecord packet cursor with
    | none => none
    | some rr => skipRecords packet count rr.nextOffset

/-- The records behind the question. -/
def parseRecords (packet hostname : List Byte) (ancount remaining cursor : ℕ) :
    DnsResponseParseResult :=
  match scanAnswers packet hostname ancount cursor none with
  | none => { outcome := .malformed }
  | some (cursor, found) =>
    match skipRecords packet remaining cursor with
    | none => { outcome := .malformed }
    | some _ =>
      match found with
      | some address => { outcome := .resolved, address := some address }
      | none => { outcome := .noAnswer }

def parseDnsResponse (bytes : List Byte) (expectedTransactionId : UInt16)
    (expectedHostname : List Byte) : DnsResponseParseResult :=
  if bytes.length < kDnsHeaderSize ∨ bytes.length > kMaxDnsMessageSize then
    { outcome := .malformed }
  else
    let id := readBigEndian16 bytes 0
    let flags1 := bytes.getD 2 0
    let flags2 := bytes.getD 3 0
    let qr := flags1 &&& 0x80 ≠ 0
    let opcode := (flags1 >>> 3) &&& 0x0f
    let tc := flags1 &&& 0x02 ≠ 0
    let rcode := flags2 &&& 0x0f
    let qdcount := readBigEndian16 bytes 4
    let ancount := (readBigEndian16 bytes 6).toNat
    let nscount := (readBigEndian16 bytes 8).toNat
    let arcount := (readBigEndian16 bytes 10).toNat
    if ¬qr then { outcome := .malformed }
    else if opcode ≠ 0 then { outcome := .malformed }
    else if qdcount ≠ 1 then { outcome := .malformed }
    else if ancount + nscount + arcount > kMaxDnsRecordCount then { outcome := .malformed }
    else
      match decodeName bytes kDnsHeaderSize with
      | none => { outcome := .malformed }
      | some qname =>
        let cursor := kDnsHeaderSize + qname.bytesInRecord
        if cursor + 4 > bytes.length then { outcome := .malformed }
        else
          let qtype := readBigEndian16 bytes cursor
          let qclass := readBigEndian16 bytes (cursor + 2)
          if id ≠ expectedTransactionId then { outcome := .wrongTransaction }
          else if qname.name ≠ expectedHostname ∨ qtype ≠ 1 ∨ qclass ≠ 1 then
            { outcome := .wrongQuestion }
          else if tc then { outcome := .truncated }
          else if rcode = 3 then { outcome := .nxDomain }
          else if rcode = 5 then { outcome := .refused }
          else if rcode = 2 then { outcome := .serverFailure }
          else if rcode ≠ 0 then { outcome := .malformed }
          else parseRecords bytes expectedHostname ancount (nscount + arcount) (cursor + 4)

theorem not_of_resolved {c : Prop} [Decidable c] {outcome : DnsResponseOutcome}
    {rest result : DnsResponseParseResult} (hresult : result.outcome = .resolved)
    (houtcome : outcome ≠ .resolved) (h : (if c then { outcome := outcome } else rest) = result) :
    ¬c ∧ rest = result := by
  split_ifs at h with hc
  · subst h
    exact absurd hresult houtcome
  · exact ⟨hc, h⟩

theorem parseDnsResponse_resolved {bytes hostname : List Byte} {transactionId : UInt16}
    {result : DnsResponseParseResult} (hresolved : result.outcome = .resolved)
    (h : parseDnsResponse bytes transactionId hostname = result) :
    readBigEndian16 bytes 0 = transactionId ∧
    ∃ qname, decodeName bytes kDnsHeaderSize = some qname ∧ qname.name = hostname ∧
      parseRecords bytes hostname (readBigEndian16 bytes 6).toNat
        ((readBigEndian16 bytes 8).toNat + (readBigEndian16 bytes 10).toNat)
        (kDnsHeaderSize + qname.bytesInRecord + 4) = result := by
  unfold parseDnsResponse at h
  obtain ⟨-, h⟩ := not_of_resolved hresolved (by decide) h
  obtain ⟨-, h⟩ := not_of_resolved hresolved (by decide) h
  obtain ⟨-, h⟩ := not_of_resolved hresolved (by decide) h
  obtain ⟨-, h⟩ := not_of_resolved hresolved (by decide) h
  obtain ⟨-, h⟩ := not_of_resolved hresolved (by decide) h
  cases hname : decodeName bytes kDnsHeaderSize with
  | none =>
    rw [hname] at h
    dsimp only at h
    subst h
    exact absurd hresolved (by decide)
  | some qname =>
    rw [hname] at h
    obtain ⟨-, h⟩ := not_of_resolved hresolved (by decide) h
    obtain ⟨hid, h⟩ := not_of_resolved hresolved (by decide) h
    obtain ⟨hquestion, h⟩ := not_of_resolved hresolved (by decide) h
    obtain ⟨-, h⟩ := not_of_resolved hresolved (by decide) h
    obtain ⟨-, h⟩ := not_of_resolved hresolved (by decide) h
    obtain ⟨-, h⟩ := not_of_resolved hresolved (by decide) h
    obtain ⟨-, h⟩ := not_of_resolved hresolved (by decide) h
    obtain ⟨-, h⟩ := not_of_resolved hresolved (by decide) h
    exact ⟨not_not.1 hid, qname, rfl, not_not.1 (not_or.1 hquestion).1, h⟩

theorem parseDnsResponse_transactionId {bytes hostname : List Byte} {transactionId : UInt16}
    (h : (parseDnsResponse bytes transactionId hostname).outcome = .resolved) :
    readBigEndian16 bytes 0 = transactionId :=
  (parseDnsResponse_resolved h rfl).1

end Wirestack
