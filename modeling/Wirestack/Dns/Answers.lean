import Wirestack.Dns.Hostname
import Wirestack.Wire.RoundTrip

set_option autoImplicit false

/-! # Responses and the answer taken from them

A response as a server builds it: header, question and three sections of records, where an owner name
is written out, or as a pointer to an earlier name, or as labels in front of such a pointer. On every
such message `parseDnsResponse` takes the data of the first address record of the queried name in the
answer section. -/

namespace Wirestack

open List Option

variable {pointers : ℕ} {labels : List (List Byte)} {rest : List Byte}

variable {offset : ℕ} {hostname : List Byte}

/-! ## Messages -/

/-- What a name field at `offset` of a message stands for: its labels, followed by those of the earlier
    name that it points to, and the number of pointers on the way. -/
inductive Names (message : List Byte) : ℕ → NameField → List (List Byte) → ℕ → Prop
  | plain {offset : ℕ} {field : NameField} (hpointer : field.pointer = none) :
      Names message offset field field.labels 0
  | compressed {offset target pointers : ℕ} {field earlier : NameField} {rest : List (List Byte)}
      (hpointer : field.pointer = some target)
      (hearlier : target < offset + (field.labels.flatMap encodeLabel).length)
      (hwritten : earlier.bytes <+: message.drop target)
      (hrest : Names message target earlier rest pointers) :
      Names message offset field (field.labels ++ rest) (pointers + 1)

/-- A record with the labels of its owner and the field that they are written in. -/
structure DnsRecord where
  owner : List (List Byte)
  field : NameField
  type : UInt16
  rrClass : UInt16
  ttl : BitVec 32
  data : List Byte
  data_fits : data.length < 2 ^ 16

variable {record : DnsRecord}

def DnsRecord.bytes (record : DnsRecord) : List Byte :=
  record.field.bytes ++ writeBigEndian16 record.type ++ writeBigEndian16 record.rrClass ++
    writeBigEndian32 record.ttl ++ writeBigEndian16 (UInt16.ofNat record.data.length) ++ record.data

/-- The field of a record at `offset` stands for its owner, within the limits of the decoder, and no
    label of the owner contains a dot. -/
def DnsRecord.Written (message : List Byte) (offset : ℕ) (record : DnsRecord) : Prop :=
  (∃ pointers ≤ kMaxDnsPointerHops, Names message offset record.field record.owner pointers) ∧
    ([dot].intercalate record.owner).length ≤ kMaxDnsNameLength ∧
    ∀ label ∈ record.owner, dot ∉ label

/-- Records from `offset` on, one behind the other. -/
def RecordsWritten (message : List Byte) : ℕ → List DnsRecord → Prop
  | _, [] => True
  | offset, record :: records =>
    record.Written message offset ∧ RecordsWritten message (offset + record.bytes.length) records

/-- A response without error and without truncation to one question. The bits that are free are those
    for an authoritative answer, for recursion desired and available, and the reserved ones. -/
structure DnsMessage where
  transactionId : UInt16
  authoritative : Bool := false
  recursionDesired : Bool := true
  recursionAvailable : Bool := false
  reserved : Fin 8 := 0
  question : List (List Byte)
  answers : List DnsRecord := []
  authorities : List DnsRecord := []
  additionals : List DnsRecord := []
  question_fits : ∀ label ∈ question, WireLabel label

namespace DnsMessage

variable (message : DnsMessage)

def flags1 : Byte :=
  0x80 ||| (if message.authoritative then 0x04 else 0) |||
    (if message.recursionDesired then 0x01 else 0)

def flags2 : Byte :=
  (if message.recursionAvailable then 0x80 else 0) ||| UInt8.ofNat (message.reserved * 16)

def header : List Byte :=
  writeBigEndian16 message.transactionId ++ [message.flags1, message.flags2] ++ writeBigEndian16 1 ++
    writeBigEndian16 (UInt16.ofNat message.answers.length) ++
    writeBigEndian16 (UInt16.ofNat message.authorities.length) ++
    writeBigEndian16 (UInt16.ofNat message.additionals.length)

/-- The name of the question, which is written out. -/
def questionField : NameField := .uncompressed message.question message.question_fits

def records : List DnsRecord := message.answers ++ (message.authorities ++ message.additionals)

/-- The question asks for an address of class IN. -/
def bytes : List Byte :=
  message.header ++ message.questionField.bytes ++ writeBigEndian16 1 ++ writeBigEndian16 1 ++
    message.records.flatMap DnsRecord.bytes

/-- Where the records start. -/
def recordsOffset : ℕ := kDnsHeaderSize + message.questionField.bytes.length + 4

end DnsMessage

/-- An address record of class IN that belongs to the hostname. -/
def DnsRecord.Answers (record : DnsRecord) (hostname : List Byte) : Prop :=
  record.owner.map toLower = hostname.splitOn dot ∧ record.type = 1 ∧ record.rrClass = 1 ∧
    record.data.length = 4

instance (record : DnsRecord) (hostname : List Byte) : Decidable (record.Answers hostname) :=
  inferInstanceAs (Decidable (_ ∧ _ ∧ _ ∧ _))

/-! ## Names -/

theorem WireName.of_labels {packet : List Byte} {length : ℕ} :
    ∀ (own : List (List Byte)) {offset : ℕ},
    (∀ label ∈ own, WireLabel label) → own.flatMap encodeLabel <+: packet.drop offset →
    WireName packet (offset + (own.flatMap encodeLabel).length) labels length pointers →
    WireName packet offset (own ++ labels) ((own.flatMap encodeLabel).length + length) pointers := by
  intro own
  induction own with
  | nil =>
    intro offset _ _ h
    rwa [flatMap_nil, length_nil, Nat.zero_add]
  | cons label own ih =>
    intro offset hfit hbytes h
    obtain ⟨hlabel, hfit⟩ := forall_mem_cons.1 hfit
    obtain ⟨rest, hdrop⟩ := hbytes
    rw [flatMap_cons, append_assoc] at hdrop
    rw [flatMap_cons, length_append, Nat.add_assoc, ← Nat.add_assoc offset] at *
    refine .label hlabel ⟨_, hdrop⟩ (ih hfit ⟨rest, ?_⟩ h)
    exact (drop_add_of_drop hdrop.symm).symm

theorem Names.wireName {message : List Byte} {field : NameField}
    (h : Names message offset field labels pointers) : field.bytes <+: message.drop offset →
    WireName message offset labels field.bytes.length pointers := by
  induction h with
  | @plain offset field hpointer =>
    intro hbytes
    rw [NameField.bytes, hpointer] at hbytes ⊢
    obtain ⟨rest, hdrop⟩ := hbytes
    rw [append_assoc] at hdrop
    have hend : WireName message (offset + (field.labels.flatMap encodeLabel).length) [] 1 0 :=
      .root ⟨rest, (drop_add_of_drop hdrop.symm).symm⟩
    have hname := WireName.of_labels field.labels field.labels_fit ⟨_, hdrop⟩ hend
    rw [append_nil] at hname
    rwa [length_append]
  | @compressed offset target pointers field earlier rest hpointer hearlier hwritten hrest ih =>
    intro hbytes
    have htarget := field.pointer_fits target hpointer
    rw [NameField.bytes, hpointer] at hbytes ⊢
    obtain ⟨tail, hdrop⟩ := hbytes
    rw [append_assoc] at hdrop
    have hjump : WireName message (offset + (field.labels.flatMap encodeLabel).length) rest 2
        (pointers + 1) :=
      .pointer htarget ⟨tail, (drop_add_of_drop hdrop.symm).symm⟩ hearlier (ih hwritten)
    rw [length_append]
    exact WireName.of_labels field.labels field.labels_fit ⟨_, hdrop⟩ hjump

/-! ## Records -/

section

variable {message : List Byte}

theorem length_intercalate_lower (labels : List (List Byte)) :
    ([dot].intercalate (labels.map toLower)).length = ([dot].intercalate labels).length := by
  rw [← toLower_intercalate, length_toLower]

/-- What `decodeResourceRecord` makes of a record at `offset`. -/
def DnsRecord.headerAt (record : DnsRecord) (offset : ℕ) : ResourceRecordHeader :=
  { name := [dot].intercalate (record.owner.map toLower)
    type := record.type
    rrClass := record.rrClass
    ttl := record.ttl
    rdlength := UInt16.ofNat record.data.length
    rdataOffset := offset + record.field.bytes.length + kFixedFieldsSize
    nextOffset := offset + record.bytes.length }

theorem decodeName_written (hwritten : record.Written message offset)
    (hbytes : record.field.bytes <+: message.drop offset) :
    decodeName message offset =
      some ⟨[dot].intercalate (record.owner.map toLower), record.field.bytes.length⟩ := by
  obtain ⟨⟨pointers, hpointers, hnames⟩, hlength, -⟩ := hwritten
  refine decodeName_eq_some_iff.2 ⟨record.owner, pointers, hnames.wireName hbytes, hpointers, rfl, ?_⟩
  rwa [length_intercalate_lower]

theorem decodeResourceRecord_written (hwritten : record.Written message offset)
    (hdrop : message.drop offset = record.bytes ++ rest) :
    decodeResourceRecord message offset = some (record.headerAt offset) := by
  have hname := decodeName_written hwritten (show record.field.bytes <+: message.drop offset by
      rw [hdrop, DnsRecord.bytes]
      simp only [append_assoc]
      exact prefix_append _ _)
  have hsize := lt_length_of_drop hdrop (by
    rw [DnsRecord.bytes, ← length_pos_iff]
    simp only [length_append, length_writeBigEndian16]
    omega)
  have hlength : record.bytes.length = record.field.bytes.length + 10 + record.data.length := by
    rw [DnsRecord.bytes]
    simp only [length_append, length_writeBigEndian16]
    rfl
  have hdatalen : (UInt16.ofNat record.data.length).toNat = record.data.length := by
    rw [UInt16.toNat_ofNat']
    exact Nat.mod_eq_of_lt record.data_fits
  -- the fixed fields, one behind the other
  have htype : message.drop (offset + record.field.bytes.length) = writeBigEndian16 record.type ++
      (writeBigEndian16 record.rrClass ++ (writeBigEndian32 record.ttl ++
        (writeBigEndian16 (UInt16.ofNat record.data.length) ++ (record.data ++ rest)))) := by
    refine drop_add_of_drop ?_
    rw [hdrop, DnsRecord.bytes]
    simp only [append_assoc]
  have hclass := drop_add_of_drop htype
  have httl := drop_add_of_drop hclass
  have hrdlength := drop_add_of_drop httl
  rw [length_writeBigEndian16] at hclass httl hrdlength
  rw [length_writeBigEndian16] at httl hrdlength
  have hread : readBigEndian16 message (offset + record.field.bytes.length + 8) =
      UInt16.ofNat record.data.length := readBigEndian16_of_drop hrdlength
  rw [decodeResourceRecord, hname]
  dsimp only
  rw [hlength] at hsize
  rw [if_neg (by rw [kFixedFieldsSize]; omega), hread, hdatalen,
    if_neg (by rw [kFixedFieldsSize]; omega), readBigEndian16_of_drop htype,
    readBigEndian16_of_drop hclass, readBigEndian32_of_drop httl, DnsRecord.headerAt, hlength,
    kFixedFieldsSize]
  simp only [Nat.add_assoc]

theorem DnsRecord.headerAt_answers (hne : hostname ≠ [])
    (hfree : ∀ label ∈ record.owner, dot ∉ label) :
    (record.headerAt offset).answers hostname = decide (record.Answers hostname) := by
  have hfour : UInt16.ofNat record.data.length = 4 ↔ record.data.length = 4 := by
    rw [← UInt16.toNat_inj, UInt16.toNat_ofNat', Nat.mod_eq_of_lt record.data_fits]
    rfl
  rw [Bool.eq_iff_iff, decide_eq_true_iff, DnsRecord.Answers, ← spelled_eq_iff hne hfree, ← hfour]
  simp only [ResourceRecordHeader.answers, DnsRecord.headerAt, Bool.and_eq_true, beq_iff_eq]
  tauto

/-- The four bytes of data as an address. -/
def DnsRecord.address (record : DnsRecord) : Ipv4Address := readIpv4Address record.data 0

theorem writeIpv4Address_address (h : record.data.length = 4) :
    writeIpv4Address record.address = record.data := by
  unfold writeIpv4Address DnsRecord.address readIpv4Address
  refine ext_getElem (by rw [Vector.length_toList, h]) ?_
  intro i hi hi'
  rw [Vector.getElem_toList, Vector.getElem_ofFn]
  rw [Nat.zero_add, getD_eq_getElem?_getD, getElem?_eq_getElem hi', getD_some]

theorem readIpv4Address_written (hdrop : message.drop offset = record.bytes ++ rest)
    (hfour : record.data.length = 4) :
    readIpv4Address message (record.headerAt offset).rdataOffset = record.address := by
  have hdata : message.drop (offset + (record.field.bytes.length + 10)) = record.data ++ rest := by
    rw [DnsRecord.bytes, append_assoc] at hdrop
    have hlength : (record.field.bytes ++ writeBigEndian16 record.type ++
        writeBigEndian16 record.rrClass ++ writeBigEndian32 record.ttl ++
        writeBigEndian16 (UInt16.ofNat record.data.length)).length =
        record.field.bytes.length + 10 := by
      simp only [length_append, length_writeBigEndian16]
      rfl
    rw [← hlength]
    exact drop_add_of_drop hdrop
  unfold DnsRecord.address readIpv4Address
  congr 1
  ext i hi
  rw [Vector.getElem_ofFn, Vector.getElem_ofFn]
  rw [DnsRecord.headerAt, kFixedFieldsSize, Nat.add_assoc offset, Nat.zero_add,
    getD_of_drop hdata (by omega)]

theorem scanAnswers_written (hne : hostname ≠ []) (records : List DnsRecord) :
    ∀ {offset : ℕ} {found : Option Ipv4Address} {rest : List Byte},
      RecordsWritten message offset records →
      message.drop offset = records.flatMap DnsRecord.bytes ++ rest →
      scanAnswers message hostname records.length offset found =
        some (offset + (records.flatMap DnsRecord.bytes).length,
          found.or ((records.find? fun record => record.Answers hostname).map
            DnsRecord.address)) := by
  induction records with
  | nil =>
    intro offset found rest _ _
    rw [find?_nil, map_none, or_none]
    rfl
  | cons record records ih =>
    intro offset found rest hwritten hdrop
    obtain ⟨hrecord, hrecords⟩ := hwritten
    rw [flatMap_cons, append_assoc] at hdrop
    rw [length_cons, scanAnswers, decodeResourceRecord_written hrecord hdrop]
    dsimp only
    rw [DnsRecord.headerAt_answers hne hrecord.2.2,
      show (record.headerAt offset).nextOffset = offset + record.bytes.length from rfl,
      ih hrecords (drop_add_of_drop hdrop), flatMap_cons, length_append, Nat.add_assoc,
      find?_cons]
    by_cases hanswers : record.Answers hostname
    · rw [decide_eq_true hanswers, readIpv4Address_written hdrop hanswers.2.2.2]
      cases found with
      | none | some first => rfl
    · rw [decide_eq_false hanswers, Bool.and_false]
      rfl

theorem skipRecords_written (records : List DnsRecord) :
    ∀ {offset : ℕ} {rest : List Byte}, RecordsWritten message offset records →
      message.drop offset = records.flatMap DnsRecord.bytes ++ rest →
      skipRecords message records.length offset =
        some (offset + (records.flatMap DnsRecord.bytes).length) := by
  induction records with
  | nil => exact fun _ _ => rfl
  | cons record records ih =>
    intro offset rest hwritten hdrop
    obtain ⟨hrecord, hrecords⟩ := hwritten
    rw [flatMap_cons, append_assoc] at hdrop
    rw [length_cons, skipRecords, decodeResourceRecord_written hrecord hdrop]
    dsimp only
    rw [show (record.headerAt offset).nextOffset = offset + record.bytes.length from rfl,
      ih hrecords (drop_add_of_drop hdrop), flatMap_cons, length_append, Nat.add_assoc]

theorem RecordsWritten.append {records more : List DnsRecord}
    (h : RecordsWritten message offset (records ++ more)) :
    RecordsWritten message offset records ∧
      RecordsWritten message (offset + (records.flatMap DnsRecord.bytes).length) more := by
  induction records generalizing offset with
  | nil => exact ⟨trivial, h⟩
  | cons record records ih =>
    obtain ⟨hrecord, hrest⟩ := h
    obtain ⟨hrecords, hmore⟩ := ih hrest
    rw [flatMap_cons, length_append, ← Nat.add_assoc]
    exact ⟨⟨hrecord, hrecords⟩, hmore⟩

/-- What the records behind the question come to. -/
def selectedAnswer (answers : List DnsRecord) (hostname : List Byte) : DnsResponseParseResult :=
  match answers.find? fun record => record.Answers hostname with
  | some record => { outcome := .resolved, address := some record.address }
  | none => { outcome := .noAnswer }

theorem parseRecords_written (hne : hostname ≠ []) {answers others : List DnsRecord}
    (hwritten : RecordsWritten message offset (answers ++ others))
    (hdrop : message.drop offset = (answers ++ others).flatMap DnsRecord.bytes) :
    parseRecords message hostname answers.length others.length offset =
      selectedAnswer answers hostname := by
  obtain ⟨hanswers, hothers⟩ := hwritten.append
  rw [flatMap_append] at hdrop
  have hdrop' : message.drop (offset + (answers.flatMap DnsRecord.bytes).length) =
      others.flatMap DnsRecord.bytes ++ [] := by
    rw [drop_add_of_drop hdrop, append_nil]
  rw [parseRecords, scanAnswers_written hne answers hanswers hdrop]
  dsimp only
  rw [skipRecords_written others hothers hdrop', none_or, selectedAnswer]
  cases answers.find? fun record => record.Answers hostname with
  | none | some record => rfl

end

/-! ## Responses -/

namespace DnsMessage

variable (message : DnsMessage)

theorem flags1_response : message.flags1 &&& 0x80 ≠ 0 := by
  unfold flags1
  cases message.authoritative <;> cases message.recursionDesired <;> decide

theorem flags1_opcode : (message.flags1 >>> 3) &&& 0x0f = 0 := by
  unfold flags1
  cases message.authoritative <;> cases message.recursionDesired <;> decide

theorem flags1_complete : message.flags1 &&& 0x02 = 0 := by
  unfold flags1
  cases message.authoritative <;> cases message.recursionDesired <;> decide

theorem flags2_rcode : message.flags2 &&& 0x0f = 0 := by
  unfold flags2
  generalize message.reserved = reserved
  cases message.recursionAvailable <;> revert reserved <;> decide

end DnsMessage

theorem parseDnsResponse_written {message : DnsMessage} (hne : hostname ≠ [])
    (hshort : hostname.length ≤ kMaxDnsNameLength)
    (hquestion : message.question.map toLower = hostname.splitOn dot)
    (hsize : message.bytes.length ≤ kMaxDnsMessageSize)
    (hcount : message.records.length ≤ kMaxDnsRecordCount)
    (hwritten : RecordsWritten message.bytes message.recordsOffset message.records) :
    parseDnsResponse message.bytes message.transactionId hostname =
      selectedAnswer message.answers hostname := by
  have hcounts : message.answers.length +
      (message.authorities.length + message.additionals.length) ≤ 64 := by
    rwa [DnsMessage.records, length_append, length_append] at hcount
  have hbytes : message.bytes = message.header ++ (message.questionField.bytes ++
      (writeBigEndian16 1 ++ (writeBigEndian16 1 ++ message.records.flatMap DnsRecord.bytes))) := by
    rw [DnsMessage.bytes]
    simp only [append_assoc]
  have hlength : message.bytes.length = 12 + (message.questionField.bytes.length +
      (2 + (2 + (message.records.flatMap DnsRecord.bytes).length))) := by
    rw [hbytes]
    simp only [length_append, length_writeBigEndian16]
    rfl
  -- the header
  have hid : readBigEndian16 message.bytes 0 = message.transactionId := by
    rw [hbytes]
    exact readBigEndian16_of_drop rfl
  have hqdcount : readBigEndian16 message.bytes 4 = 1 := by
    rw [hbytes]
    exact readBigEndian16_of_drop rfl
  have hancount : (readBigEndian16 message.bytes 6).toNat = message.answers.length := by
    have hread : readBigEndian16 message.bytes 6 = UInt16.ofNat message.answers.length := by
      rw [hbytes]
      exact readBigEndian16_of_drop rfl
    rw [hread]
    exact UInt16.toNat_ofNat_of_lt' (by show _ < 65536; omega)
  have hnscount : (readBigEndian16 message.bytes 8).toNat = message.authorities.length := by
    have hread : readBigEndian16 message.bytes 8 = UInt16.ofNat message.authorities.length := by
      rw [hbytes]
      exact readBigEndian16_of_drop rfl
    rw [hread]
    exact UInt16.toNat_ofNat_of_lt' (by show _ < 65536; omega)
  have harcount : (readBigEndian16 message.bytes 10).toNat = message.additionals.length := by
    have hread : readBigEndian16 message.bytes 10 = UInt16.ofNat message.additionals.length := by
      rw [hbytes]
      exact readBigEndian16_of_drop rfl
    rw [hread]
    exact UInt16.toNat_ofNat_of_lt' (by show _ < 65536; omega)
  have hflags1 : message.bytes.getD 2 0 = message.flags1 := by
    rw [hbytes]
    rfl
  have hflags2 : message.bytes.getD 3 0 = message.flags2 := by
    rw [hbytes]
    rfl
  -- the question
  have hname : message.bytes.drop kDnsHeaderSize = message.questionField.bytes ++ (writeBigEndian16 1 ++
      (writeBigEndian16 1 ++ message.records.flatMap DnsRecord.bytes)) := by
    rw [hbytes]
    rfl
  have hqtype := drop_add_of_drop hname
  have hqclass := drop_add_of_drop hqtype
  have hrecords := drop_add_of_drop hqclass
  rw [length_writeBigEndian16] at hqclass hrecords
  have hqname : decodeName message.bytes kDnsHeaderSize =
      some ⟨hostname, message.questionField.bytes.length⟩ := by
    have hplain : Names message.bytes kDnsHeaderSize message.questionField message.question 0 :=
      .plain rfl
    refine decodeName_eq_some_iff.2 ⟨message.question, 0, hplain.wireName ⟨_, hname.symm⟩,
      Nat.zero_le _, ?_, hshort⟩
    rw [hquestion, intercalate_splitOn]
  rw [parseDnsResponse, if_neg (by rw [kDnsHeaderSize]; omega), hid, hqdcount, hancount, hnscount, harcount, hflags1,
    hflags2, hqname]
  dsimp only
  rw [if_neg (not_not.2 message.flags1_response), if_neg (not_not.2 message.flags1_opcode),
    if_neg (by decide), if_neg (by rw [kMaxDnsRecordCount]; omega),
    if_neg (by rw [kDnsHeaderSize]; omega), if_neg (not_not.2 rfl),
    readBigEndian16_of_drop hqtype, readBigEndian16_of_drop hqclass, if_neg (by simp),
    if_neg (not_not.2 message.flags1_complete), message.flags2_rcode, if_neg (by decide),
    if_neg (by decide), if_neg (by decide), if_neg (by decide), ← length_append]
  exact parseRecords_written hne hwritten hrecords

/-- **The answer that is taken.** For a normalized hostname and every message that answers the question
    for it, whatever records it has and however their owners are written: the data of the first address
    record of the hostname in the answer section, and no answer if there is none. Neither the authority
    nor the additional section has a part in it. -/
theorem parseDnsResponse_selects {raw hostname : List Byte} {message : DnsMessage}
    (hnormalized : normalizeHostname raw = .ok hostname)
    (hquestion : message.question.map toLower = hostname.splitOn dot)
    (hsize : message.bytes.length ≤ kMaxDnsMessageSize)
    (hcount : message.answers.length + message.authorities.length + message.additionals.length ≤
      kMaxDnsRecordCount)
    (hwritten : RecordsWritten message.bytes message.recordsOffset message.records) :
    match message.answers.find? fun record => record.Answers hostname with
    | some record => ∃ address, writeIpv4Address address = record.data ∧
        parseDnsResponse message.bytes message.transactionId hostname =
          { outcome := .resolved, address := some address }
    | none => parseDnsResponse message.bytes message.transactionId hostname =
        { outcome := .noAnswer } := by
  have hne := normalizeHostname_ne_nil hnormalized
  have hidempotent := normalizeHostname_idempotent hnormalized
  have hshort := (normalizeHostname_eq_ok_iff.1 hidempotent).1.2.1
  have hparsed := parseDnsResponse_written hne hshort hquestion hsize
    (by rw [DnsMessage.records, length_append, length_append, ← Nat.add_assoc]
        exact hcount) hwritten
  unfold selectedAnswer at hparsed
  cases hfind : message.answers.find? fun record => record.Answers hostname with
  | none => rwa [hfind] at hparsed
  | some record =>
    rw [hfind] at hparsed
    have hfound := find?_some hfind
    have hanswers := of_decide_eq_true hfound
    exact ⟨record.address, writeIpv4Address_address hanswers.2.2.2, hparsed⟩

/-- An alias in front of the address, a pointer to the question, and another address among the
    additional records. -/
theorem parseDnsResponse_selects_example : ∃ message : DnsMessage,
    message.answers.length = 2 ∧ message.additionals.length = 1 ∧
    ∃ address, writeIpv4Address address = [10, 0, 0, 1] ∧
      parseDnsResponse message.bytes 0x1234 (ascii "example.test") =
        { outcome := .resolved, address := some address } := by
  let canonical : DnsRecord :=
    { owner := [ascii "www", ascii "Example", ascii "test"]
      field := ⟨[ascii "www"], some 12, by decide, by decide⟩
      type := 5, rrClass := 1, ttl := 60, data := [0xc0, 0x0c], data_fits := by decide }
  let address : DnsRecord :=
    { owner := [ascii "Example", ascii "test"]
      field := ⟨[], some 12, by decide, by decide⟩
      type := 1, rrClass := 1, ttl := 60, data := [10, 0, 0, 1], data_fits := by decide }
  let message : DnsMessage :=
    { transactionId := 0x1234
      question := [ascii "Example", ascii "test"]
      question_fits := by decide
      answers := [canonical, address]
      additionals := [{ address with data := [10, 0, 0, 2], data_fits := by decide }] }
  have hearlier : message.questionField.bytes <+: message.bytes.drop 12 := by decide +kernel
  have hplain : Names message.bytes 12 message.questionField message.question 0 := .plain rfl
  have hwritten : RecordsWritten message.bytes message.recordsOffset message.records := by
    refine ⟨⟨⟨1, by decide, .compressed rfl ?_ hearlier hplain⟩, by decide, by decide⟩,
      ⟨⟨1, by decide, .compressed rfl ?_ hearlier hplain⟩, by decide, by decide⟩,
      ⟨⟨1, by decide, .compressed rfl ?_ hearlier hplain⟩, by decide, by decide⟩, trivial⟩
    all_goals decide +kernel
  have hselected := parseDnsResponse_selects
    (show normalizeHostname (ascii "example.TEST") = .ok (ascii "example.test") by decide +kernel)
    (show message.question.map toLower = (ascii "example.test").splitOn dot by decide +kernel)
    (by decide +kernel) (by decide) hwritten
  exact ⟨message, rfl, rfl, hselected⟩

end Wirestack
