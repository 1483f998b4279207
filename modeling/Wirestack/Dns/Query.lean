import Wirestack.Dns.Answers

set_option autoImplicit false

/-! # Hostnames on the wire and back

A normalized hostname is written into a query, read back from it by the decoder, and recognized by the
parser of responses in the same bytes with the QR bit set. -/

namespace Wirestack

open List

/-! ## The source's loops -/

/-- `normalizeHostname` with its loop written out. -/
def normalizeHostnameScan (hostname : List Byte) : Except HostnameError (List Byte) :=
  if hostname.isEmpty then .error .empty
  else if hostname.length > 253 then .error .tooLong
  else normalizeHostnameFrom hostname (hostname.length + 1) 0 []

/-- `DnsQuery.bytes` with its loop written out. -/
def DnsQuery.scanBytes (query : DnsQuery) : List Byte :=
  writeBigEndian16 query.transactionId ++ [0x01, 0x00] ++
    writeBigEndian16 1 ++ writeBigEndian16 0 ++ writeBigEndian16 0 ++ writeBigEndian16 0 ++
    encodeHostnameFrom query.hostname (query.hostname.length + 1) 0 ++ [0x00] ++
    writeBigEndian16 1 ++ writeBigEndian16 1

theorem normalizeHostnameScan_eq (hostname : List Byte) :
    normalizeHostnameScan hostname = normalizeHostname hostname := by
  unfold normalizeHostnameScan normalizeHostname
  rw [normalizeHostnameFrom_eq hostname _ [] (Nat.zero_le _) (by omega), drop_zero]

theorem DnsQuery.scanBytes_eq (query : DnsQuery) : query.scanBytes = query.bytes := by
  unfold DnsQuery.scanBytes DnsQuery.bytes
  rw [encodeHostnameFrom_eq query.hostname _ (Nat.zero_le _) (by omega), drop_zero]

/-! ## The query -/

theorem length_flatMap_encodeLabel {labels : List (List Byte)} (hne : labels ≠ []) :
    (labels.flatMap encodeLabel).length = ([dot].intercalate labels).length + 1 := by
  obtain ⟨label, labels, rfl⟩ := exists_cons_of_ne_nil hne
  clear hne
  induction labels generalizing label with
  | nil => simp
  | cons next labels ih =>
    rw [flatMap_cons, length_append, ih, length_encodeLabel, intercalate_cons_cons]
    simp only [length_append, length_singleton]
    omega

section

variable {hostname : List Byte}

/-- The response that consists of a query with its QR bit set. -/
def echoMessage (transactionId : UInt16) (hostname : List Byte)
    (hfit : ∀ label ∈ hostname.splitOn dot, WireLabel label) : DnsMessage :=
  { transactionId := transactionId, question := hostname.splitOn dot, question_fits := hfit }

theorem echoMessage_bytes (transactionId : UInt16)
    (hfit : ∀ label ∈ hostname.splitOn dot, WireLabel label) :
    (echoMessage transactionId hostname hfit).bytes =
      (DnsQuery.bytes ⟨transactionId, hostname⟩).set 2
        ((DnsQuery.bytes ⟨transactionId, hostname⟩).getD 2 0 ||| 0x80) := by
  have hrecords : (echoMessage transactionId hostname hfit).records.flatMap DnsRecord.bytes = [] := rfl
  have hname : (echoMessage transactionId hostname hfit).questionField.bytes =
      (hostname.splitOn dot).flatMap encodeLabel ++ [0x00] := rfl
  have hflags1 : (echoMessage transactionId hostname hfit).flags1 = 0x01 ||| 0x80 := by
    show (0x80 : Byte) ||| 0 ||| 0x01 = 0x01 ||| 0x80
    decide
  have hflags2 : (echoMessage transactionId hostname hfit).flags2 = 0x00 := by
    show (0 : Byte) ||| UInt8.ofNat ((0 : Fin 8) * 16) = 0
    decide
  rw [DnsMessage.bytes, hrecords, append_nil, hname, DnsMessage.header, hflags1, hflags2,
    DnsQuery.bytes]
  simp only [append_assoc]
  rfl

theorem length_query_bytes (transactionId : UInt16) (hostname : List Byte) :
    (DnsQuery.bytes ⟨transactionId, hostname⟩).length = hostname.length + 18 := by
  have hlabels := length_flatMap_encodeLabel (splitOn_ne_nil dot hostname)
  rw [intercalate_splitOn] at hlabels
  rw [DnsQuery.bytes]
  simp only [length_append, length_writeBigEndian16, length_cons, length_nil, hlabels]
  omega

theorem decodeName_query (transactionId : UInt16) (hshort : hostname.length ≤ kMaxDnsNameLength)
    (hfit : ∀ label ∈ hostname.splitOn dot, WireLabel label)
    (hlower : (hostname.splitOn dot).map toLower = hostname.splitOn dot) :
    decodeName (DnsQuery.bytes ⟨transactionId, hostname⟩) kDnsHeaderSize =
      some ⟨hostname, hostname.length + 2⟩ := by
  let field := NameField.uncompressed (hostname.splitOn dot) hfit
  have hbytes : field.bytes <+: (DnsQuery.bytes ⟨transactionId, hostname⟩).drop kDnsHeaderSize := by
    rw [DnsQuery.bytes]
    simp only [append_assoc]
    exact ⟨writeBigEndian16 1 ++ writeBigEndian16 1, append_assoc _ _ _⟩
  have hlength : field.bytes.length = hostname.length + 2 := by
    rw [NameField.length_bytes]
    show ((hostname.splitOn dot).flatMap encodeLabel).length + 1 = _
    rw [length_flatMap_encodeLabel (splitOn_ne_nil dot hostname), intercalate_splitOn]
  have hnames : Names (DnsQuery.bytes ⟨transactionId, hostname⟩) kDnsHeaderSize field
      (hostname.splitOn dot) 0 := .plain rfl
  rw [← hlength]
  refine decodeName_eq_some_iff.2 ⟨_, 0, hnames.wireName hbytes, Nat.zero_le _, ?_, hshort⟩
  rw [hlower, intercalate_splitOn]

end

/-- **Hostnames survive the encoding.** `normalizeHostname` accepts exactly the strings of 1 to 253
    bytes that split into labels of hostnames, and returns them in lower case, which it does not change
    any more. The query for a normalized hostname is within the size of a message, its name decodes
    to the hostname, and with the QR bit set it is a response without an answer. -/
theorem hostname_roundTrip (raw : List Byte) : normalizeHostnameScan raw = normalizeHostname raw ∧
    ((∃ hostname, normalizeHostname raw = .ok hostname) ↔
      1 ≤ raw.length ∧ raw.length ≤ 253 ∧ ∀ label ∈ raw.splitOn dot, HostLabel label) ∧
    ∀ hostname, normalizeHostname raw = .ok hostname →
      hostname = toLower raw ∧ normalizeHostname hostname = .ok hostname ∧
      ∀ transactionId : UInt16, ∃ bytes, serializeDnsQuery ⟨transactionId, hostname⟩ = some bytes ∧
        bytes = DnsQuery.scanBytes ⟨transactionId, hostname⟩ ∧
        bytes.length ≤ kMaxDnsMessageSize ∧
        decodeName bytes kDnsHeaderSize = some ⟨hostname, hostname.length + 2⟩ ∧
        parseDnsResponse (bytes.set 2 (bytes.getD 2 0 ||| 0x80)) transactionId hostname =
          { outcome := .noAnswer } := by
  refine ⟨normalizeHostnameScan_eq raw, ?_, ?_⟩
  · constructor
    · rintro ⟨hostname, h⟩
      exact (normalizeHostname_eq_ok_iff.1 h).1
    · intro h
      exact ⟨toLower raw, normalizeHostname_eq_ok_iff.2 ⟨h, rfl⟩⟩
  intro hostname h
  have hidempotent := normalizeHostname_idempotent h
  obtain ⟨⟨-, hshort, hlabels⟩, hlower⟩ := normalizeHostname_eq_ok_iff.1 hidempotent
  refine ⟨(normalizeHostname_eq_ok_iff.1 h).2, hidempotent, ?_⟩
  intro transactionId
  have hfit : ∀ label ∈ hostname.splitOn dot, WireLabel label := fun label hlabel =>
    (hlabels label hlabel).fits
  have hsplit : (hostname.splitOn dot).map toLower = hostname.splitOn dot := by
    rw [← splitOn_toLower, ← hlower]
  have hsize := length_query_bytes transactionId hostname
  have hmax : (DnsQuery.bytes ⟨transactionId, hostname⟩).length ≤ kMaxDnsMessageSize := by
    rw [hsize, kMaxDnsMessageSize]
    omega
  refine ⟨DnsQuery.bytes ⟨transactionId, hostname⟩, ?_, (DnsQuery.scanBytes_eq _).symm, hmax,
    decodeName_query transactionId hshort hfit hsplit, ?_⟩
  · rw [serializeDnsQuery, hidempotent]
    dsimp only
    rw [if_neg (not_not.2 rfl), if_neg (not_lt.2 hmax)]
  · have hecho := @parseDnsResponse_written hostname (echoMessage transactionId hostname hfit)
      (normalizeHostname_ne_nil h) hshort hsplit
      (by rw [echoMessage_bytes, length_set]; exact hmax) (Nat.zero_le _) trivial
    rwa [echoMessage_bytes] at hecho

theorem hostname_roundTrip_example :
    normalizeHostname (ascii "Example.TEST") = .ok (ascii "example.test") ∧
    ∃ bytes, serializeDnsQuery ⟨0x1234, ascii "example.test"⟩ = some bytes ∧
      decodeName bytes kDnsHeaderSize = some ⟨ascii "example.test", 14⟩ ∧
      parseDnsResponse (bytes.set 2 (bytes.getD 2 0 ||| 0x80)) 0x1234 (ascii "example.test") =
        { outcome := .noAnswer } := by
  have hnormalized : normalizeHostname (ascii "Example.TEST") = .ok (ascii "example.test") := by
    decide +kernel
  obtain ⟨-, -, htrip⟩ := hostname_roundTrip (ascii "Example.TEST")
  obtain ⟨bytes, hquery, -, -, hname, hresponse⟩ := (htrip _ hnormalized).2.2 0x1234
  exact ⟨hnormalized, bytes, hquery, hname, hresponse⟩

end Wirestack
