import Wirestack.Dns.Decoding

set_option autoImplicit false

/-! # Names label by label

A name on the wire is a sequence of labels, each with its length in front, and a label may hold any
byte. `decodeName` writes the labels one behind the other with dots between them, and
`parseDnsResponse` compares the strings. A label that contains a dot reads like two labels, so the
comparison is one of names exactly as long as no label contains a dot (`resolved_labels_iff`). -/

namespace Wirestack

open List

variable {packet hostname : List Byte} {cursor offset : ℕ} {labels : List (List Byte)}

/-! ## Splitting at a separator -/

section

variable {α : Type} [BEq α] [LawfulBEq α]

theorem not_mem_of_mem_splitOn {x : α} {xs piece : List α} (h : piece ∈ xs.splitOn x) :
    x ∉ piece := by
  induction xs generalizing piece with
  | nil =>
    rw [splitOn_nil, mem_singleton] at h
    rw [h]
    exact not_mem_nil
  | cons y xs ih =>
    rw [splitOn_cons_eq_if_modifyHead] at h
    split_ifs at h with hy
    · obtain rfl | hmem := mem_cons.1 h
      · exact not_mem_nil
      · exact ih hmem
    · cases hsplit : xs.splitOn x with
      | nil => exact absurd hsplit (splitOn_ne_nil x xs)
      | cons first rest =>
        rw [hsplit] at h ih
        obtain rfl | hmem := mem_cons.1 h
        · intro hx
          obtain rfl | hx := mem_cons.1 hx
          · exact hy (beq_self_eq_true x)
          · exact ih mem_cons_self hx
        · exact ih (mem_cons_of_mem _ hmem)

end

/-! ## The labels on the wire -/

/-- The labels of the name at `cursor`, with its pointers followed. -/
inductive NameAt (packet : List Byte) : ℕ → List (List Byte) → Prop
  | root {cursor : ℕ} (hbyte : packet[cursor]? = some 0) : NameAt packet cursor []
  | label {cursor : ℕ} {len : Byte} {rest : List (List Byte)} (hbyte : packet[cursor]? = some len)
      (hne : len ≠ 0) (hform : len &&& 0xc0 = 0) (hfits : cursor + 1 + len.toNat ≤ packet.length)
      (hrest : NameAt packet (cursor + 1 + len.toNat) rest) :
      NameAt packet cursor ((packet.drop (cursor + 1)).take len.toNat :: rest)
  | pointer {cursor : ℕ} {high low : Byte} {labels : List (List Byte)}
      (hbyte : packet[cursor]? = some high) (hform : high &&& 0xc0 = 0xc0)
      (hlow : packet[cursor + 1]? = some low)
      (htarget : NameAt packet (compressionPointer high low).toNat labels) :
      NameAt packet cursor labels

theorem NameAt.unique {labels' : List (List Byte)} (h : NameAt packet cursor labels)
    (h' : NameAt packet cursor labels') : labels = labels' := by
  have hforms : ¬ (0 : Byte) &&& 0xc0 = 0xc0 := by decide
  induction h generalizing labels' with
  | root hbyte =>
    cases h' with
    | root hbyte' => rfl
    | label hbyte' hne' =>
      cases hbyte.symm.trans hbyte'
      exact absurd rfl hne'
    | pointer hbyte' hform' =>
      cases hbyte.symm.trans hbyte'
      exact absurd hform' hforms
  | label hbyte hne hform hfits hrest ih =>
    cases h' with
    | root hbyte' =>
      cases hbyte.symm.trans hbyte'
      exact absurd rfl hne
    | label hbyte' hne' hform' hfits' hrest' =>
      cases hbyte.symm.trans hbyte'
      rw [ih hrest']
    | pointer hbyte' hform' =>
      cases hbyte.symm.trans hbyte'
      rw [hform] at hform'
      exact absurd hform' (by decide)
  | pointer hbyte hform hlow htarget ih =>
    cases h' with
    | root hbyte' =>
      cases hbyte.symm.trans hbyte'
      exact absurd hform hforms
    | label hbyte' hne' hform' =>
      cases hbyte.symm.trans hbyte'
      rw [hform'] at hform
      exact absurd hform (by decide)
    | pointer hbyte' hform' hlow' htarget' =>
      cases hbyte.symm.trans hbyte'
      cases hlow.symm.trans hlow'
      exact ih htarget'

theorem WireName.nameAt {length pointers : ℕ} (h : WireName packet offset labels length pointers) :
    NameAt packet offset labels := by
  induction h with
  | root hbytes =>
    obtain ⟨rest, hdrop⟩ := hbytes
    exact .root (getElem?_of_drop (k := 0) hdrop.symm Nat.one_pos)
  | @label offset length pointers label labels hlabel hbytes hrest ih =>
    obtain ⟨rest, hdrop⟩ := hbytes
    have hsize := lt_length_of_drop hdrop.symm (cons_ne_nil _ _)
    rw [length_encodeLabel] at hsize ih
    have hcursor : offset + (label.length + 1) = offset + 1 + (UInt8.ofNat label.length).toNat := by
      rw [hlabel.toNat_length]
      omega
    rw [hcursor] at ih
    have hread := NameAt.label (getElem?_of_drop (k := 0) hdrop.symm (Nat.succ_pos _))
      hlabel.byte_ne_zero hlabel.and_c0 (by rw [hlabel.toNat_length]; omega) ih
    rwa [hlabel.toNat_length, take_of_encodeLabel hdrop.symm] at hread
  | @pointer offset target length pointers labels htarget hbytes hback hname ih =>
    obtain ⟨rest, hdrop⟩ := hbytes
    refine .pointer (getElem?_of_drop (k := 0) hdrop.symm Nat.two_pos) ?_
      (getElem?_of_drop (k := 1) hdrop.symm Nat.one_lt_two) ?_
    · rw [and_c0_eq_c0_iff, toNat_pointer_high htarget]
      exact Nat.le_add_right _ _
    · rw [compressionPointer_encodePointer htarget]
      exact ih

theorem decodeName_labels {result : NameDecodeResult} (h : decodeName packet offset = some result) :
    ∃ labels, NameAt packet offset labels ∧
      result.name = [dot].intercalate (labels.map toLower) := by
  obtain ⟨labels, pointers, hwire, -, hname, -⟩ := decodeName_eq_some_iff.1 h
  exact ⟨labels, hwire.nameAt, hname⟩

/-! ## The answer taken -/

/-- The records of a section, each with where it starts. -/
def readRecords (packet : List Byte) : ℕ → ℕ → Option (List (ℕ × ResourceRecordHeader))
  | 0, _ => some []
  | count + 1, cursor =>
    match decodeResourceRecord packet cursor with
    | none => none
    | some rr => (readRecords packet count rr.nextOffset).map ((cursor, rr) :: ·)

/-- The answer whose address is returned: the first address record in the answer section whose
    owner, written with dots, is the hostname. -/
def takenAnswer (packet hostname : List Byte) : Option (ℕ × ResourceRecordHeader) :=
  match decodeName packet kDnsHeaderSize with
  | none => none
  | some qname =>
    match readRecords packet (readBigEndian16 packet 6).toNat
      (kDnsHeaderSize + qname.bytesInRecord + 4) with
    | none => none
    | some records => records.find? fun record => record.2.answers hostname

theorem scanAnswers_records {count finish : ℕ} {found address : Option Ipv4Address}
    (h : scanAnswers packet hostname count cursor found = some (finish, address)) :
    ∃ records, readRecords packet count cursor = some records ∧
      address = found.or ((records.find? fun record => record.2.answers hostname).map
        fun record => readIpv4Address packet record.2.rdataOffset) := by
  induction count generalizing cursor found with
  | zero =>
    cases h
    exact ⟨[], rfl, (Option.or_none).symm⟩
  | succ count ih =>
    rw [scanAnswers] at h
    cases hrr : decodeResourceRecord packet cursor with
    | none =>
      simp [hrr] at h
    | some rr =>
      rw [hrr] at h
      obtain ⟨records, hrecords, haddress⟩ := ih h
      refine ⟨(cursor, rr) :: records, ?_, ?_⟩
      · rw [readRecords, hrr]
        dsimp only
        rw [hrecords]
        rfl
      · rw [haddress, find?_cons]
        cases found with
        | some first => rfl
        | none => cases hanswers : rr.answers hostname <;> rfl

theorem name_of_decodeResourceRecord {rr : ResourceRecordHeader}
    (h : decodeResourceRecord packet offset = some rr) :
    ∃ name, decodeName packet offset = some name ∧ rr.name = name.name := by
  unfold decodeResourceRecord at h
  cases hname : decodeName packet offset with
  | none =>
    simp [hname] at h
  | some name =>
    rw [hname] at h
    dsimp only at h
    split_ifs at h
    cases h
    exact ⟨name, rfl, rfl⟩

theorem decoded_of_mem_readRecords {rr : ResourceRecordHeader} {count : ℕ}
    {records : List (ℕ × ResourceRecordHeader)} (h : readRecords packet count cursor = some records)
    (hmem : (offset, rr) ∈ records) : decodeResourceRecord packet offset = some rr := by
  induction count generalizing cursor records with
  | zero =>
    cases h
    cases hmem
  | succ count ih =>
    rw [readRecords] at h
    cases hrr : decodeResourceRecord packet cursor with
    | none =>
      simp [hrr] at h
    | some first =>
      rw [hrr] at h
      obtain ⟨rest, hrest, rfl⟩ := Option.map_eq_some_iff.1 h
      obtain heq | hmem := mem_cons.1 hmem
      · cases heq
        exact hrr
      · exact ih hrest hmem

theorem scanAnswers_of_parseRecords {ancount remaining : ℕ} {result : DnsResponseParseResult}
    (hresolved : result.outcome = .resolved)
    (h : parseRecords packet hostname ancount remaining cursor = result) :
    ∃ finish address, scanAnswers packet hostname ancount cursor none =
      some (finish, some address) ∧ result.address = some address := by
  unfold parseRecords at h
  split at h
  · subst h
    exact absurd hresolved (by decide)
  · rename_i finish found hscan
    split at h
    · subst h
      exact absurd hresolved (by decide)
    · cases found with
      | none =>
        dsimp only at h
        subst h
        exact absurd hresolved (by decide)
      | some address =>
        dsimp only at h
        subst h
        exact ⟨finish, address, hscan, rfl⟩

theorem parseDnsResponse_spells {bytes : List Byte} {transactionId : UInt16}
    (h : (parseDnsResponse bytes transactionId hostname).outcome = .resolved) :
    ∃ offset rr question owner, takenAnswer bytes hostname = some (offset, rr) ∧
      (parseDnsResponse bytes transactionId hostname).address =
        some (readIpv4Address bytes rr.rdataOffset) ∧
      NameAt bytes kDnsHeaderSize question ∧
      [dot].intercalate (question.map toLower) = hostname ∧
      NameAt bytes offset owner ∧ [dot].intercalate (owner.map toLower) = hostname := by
  obtain ⟨-, qname, hqname, hhost, hparsed⟩ := parseDnsResponse_resolved h rfl
  obtain ⟨finish, address, hscan, haddress⟩ := scanAnswers_of_parseRecords h hparsed
  obtain ⟨records, hrecords, hfound⟩ := scanAnswers_records hscan
  rw [Option.none_or] at hfound
  obtain ⟨⟨offset, rr⟩, hfind, rfl⟩ := Option.map_eq_some_iff.1 hfound.symm
  have hanswers := find?_some hfind
  have hmatches : rr.name = hostname := eq_of_beq (Bool.and_eq_true_iff.1 hanswers).2
  obtain ⟨name, hname, hrr⟩ := name_of_decodeResourceRecord
    (decoded_of_mem_readRecords hrecords (mem_of_find?_eq_some hfind))
  obtain ⟨question, hquestion, hspelled⟩ := decodeName_labels hqname
  obtain ⟨owner, howner, hspelled'⟩ := decodeName_labels hname
  refine ⟨offset, rr, question, owner, ?_, haddress, hquestion, ?_, howner, ?_⟩
  · rw [takenAnswer, hqname]
    dsimp only
    rwa [hrecords]
  · rw [← hspelled, hhost]
  · rw [← hspelled', ← hrr, hmatches]

/-! ## Strings against labels -/

theorem toNat_lower {c : Byte} (h : between 'A' 'Z' c = true) :
    (c + 0x20).toNat = c.toNat + 32 ∧ 65 ≤ c.toNat ∧ c.toNat ≤ 90 := by
  unfold between at h
  rw [Bool.and_eq_true_iff, decide_eq_true_iff, decide_eq_true_iff] at h
  obtain ⟨hlow, hhigh⟩ := h
  have hlow' : 65 ≤ c.toNat := hlow
  have hhigh' : c.toNat ≤ 90 := hhigh
  refine ⟨?_, hlow', hhigh'⟩
  rw [UInt8.toNat_add]
  show (c.toNat + 32) % 256 = _
  omega

theorem dot_mem_toLower {label : List Byte} : dot ∈ toLower label ↔ dot ∈ label := by
  rw [toLower, mem_map]
  constructor
  · rintro ⟨c, hc, hdot⟩
    split_ifs at hdot with hupper
    · obtain ⟨hnat, hlow, -⟩ := toNat_lower hupper
      rw [hdot] at hnat
      have hvalue : dot.toNat = 46 := rfl
      omega
    · rwa [← hdot]
  · intro h
    exact ⟨dot, h, rfl⟩

theorem toLower_toLower (s : List Byte) : toLower (toLower s) = toLower s := by
  unfold toLower
  rw [map_map]
  apply map_congr_left
  intro c _
  dsimp only [Function.comp_apply]
  split_ifs with hupper hagain
  · obtain ⟨hnat, hlow, -⟩ := toNat_lower hupper
    obtain ⟨-, -, hhigh⟩ := toNat_lower hagain
    omega
  · rfl
  · rfl

theorem spelled_eq_iff (hne : hostname ≠ []) (hfree : ∀ label ∈ labels, dot ∉ label) :
    [dot].intercalate (labels.map toLower) = hostname ↔
      labels.map toLower = hostname.splitOn dot := by
  constructor
  · intro hspelled
    have hlabels : labels.map toLower ≠ [] := by
      intro hnil
      rw [hnil] at hspelled
      exact hne hspelled.symm
    rw [← hspelled]
    refine (splitOn_intercalate dot ?_ hlabels).symm
    intro piece hpiece
    obtain ⟨label, hlabel, rfl⟩ := mem_map.1 hpiece
    exact fun hdot => hfree label hlabel (dot_mem_toLower.1 hdot)
  · intro hsame
    rw [hsame, intercalate_splitOn]

theorem labels_eq_iff (hne : hostname ≠ [])
    (hspelled : [dot].intercalate (labels.map toLower) = hostname) :
    labels.map toLower = (hostname.splitOn dot).map toLower ↔ ∀ label ∈ labels, dot ∉ label := by
  constructor
  · intro hsame label hlabel hdot
    have hmem : toLower label ∈ (hostname.splitOn dot).map toLower := by
      rw [← hsame]
      exact mem_map_of_mem hlabel
    obtain ⟨piece, hpiece, heq⟩ := mem_map.1 hmem
    have hlower : dot ∈ toLower piece := by
      rw [heq]
      exact dot_mem_toLower.2 hdot
    exact not_mem_of_mem_splitOn hpiece (dot_mem_toLower.1 hlower)
  · intro hfree
    rw [← (spelled_eq_iff hne hfree).1 hspelled, map_map]
    apply map_congr_left
    intro label _
    exact (toLower_toLower label).symm

theorem normalizeLabels_ne_nil {normalized : List Byte}
    (h : normalizeLabels labels normalized = .ok hostname) (hne : labels ≠ [] ∨ normalized ≠ []) :
    hostname ≠ [] := by
  induction labels generalizing normalized with
  | nil =>
    cases h
    exact hne.resolve_left fun h => h rfl
  | cons label rest ih =>
    rw [normalizeLabels] at h
    cases herror : labelError label with
    | some error =>
      simp [herror] at h
    | none =>
      rw [herror] at h
      refine ih h (.inr ?_)
      intro hnil
      have hlabel : label = [] := map_eq_nil_iff.1 (append_eq_nil_iff.1 hnil).2
      rw [hlabel] at herror
      exact absurd herror (by decide)

theorem normalizeHostname_ne_nil {raw : List Byte} (h : normalizeHostname raw = .ok hostname) :
    hostname ≠ [] := by
  unfold normalizeHostname at h
  split_ifs at h
  exact normalizeLabels_ne_nil h (.inl (splitOn_ne_nil dot raw))

/-- The name at `offset` is the hostname label by label, up to case. -/
def NamesHost (packet : List Byte) (offset : ℕ) (hostname : List Byte) : Prop :=
  ∃ labels, NameAt packet offset labels ∧
    labels.map toLower = (hostname.splitOn dot).map toLower

/-- No label of the name at `offset` contains a dot. -/
def DotFree (packet : List Byte) (offset : ℕ) : Prop :=
  ∃ labels, NameAt packet offset labels ∧ ∀ label ∈ labels, dot ∉ label

theorem namesHost_iff_dotFree (hne : hostname ≠ []) (hlabels : NameAt packet offset labels)
    (hspelled : [dot].intercalate (labels.map toLower) = hostname) :
    NamesHost packet offset hostname ↔ DotFree packet offset := by
  constructor
  · rintro ⟨labels', hlabels', hsame⟩
    cases hlabels.unique hlabels'
    exact ⟨labels, hlabels, (labels_eq_iff hne hspelled).1 hsame⟩
  · rintro ⟨labels', hlabels', hfree⟩
    cases hlabels.unique hlabels'
    exact ⟨labels, hlabels, (labels_eq_iff hne hspelled).2 hfree⟩

/-- **A response that resolves matches the hostname label by label exactly if no label contains a
    dot**, in its question's name and in the owner name of the answer taken. -/
theorem resolved_labels_iff {raw hostname bytes : List Byte} {transactionId : UInt16}
    (hnormalized : normalizeHostname raw = .ok hostname)
    (hresolved : (parseDnsResponse bytes transactionId hostname).outcome = .resolved) :
    ∃ offset rr, takenAnswer bytes hostname = some (offset, rr) ∧
      (parseDnsResponse bytes transactionId hostname).address =
        some (readIpv4Address bytes rr.rdataOffset) ∧
      (NamesHost bytes kDnsHeaderSize hostname ∧ NamesHost bytes offset hostname ↔
        DotFree bytes kDnsHeaderSize ∧ DotFree bytes offset) := by
  have hne := normalizeHostname_ne_nil hnormalized
  obtain ⟨offset, rr, question, owner, htaken, haddress, hquestion, hspelled, howner, hspelled'⟩ :=
    parseDnsResponse_spells hresolved
  refine ⟨offset, rr, htaken, haddress, ?_⟩
  rw [namesHost_iff_dotFree hne hquestion hspelled, namesHost_iff_dotFree hne howner hspelled']

/-- The compressed response of the documentation: `example.test` is at 10.0.0.1. -/
def exampleCompressedAnswer : List Byte :=
  [0x12, 0x34, 0x81, 0x80, 0x00, 0x01, 0x00, 0x01, 0x00, 0x00, 0x00, 0x00,
    0x07, 0x65, 0x78, 0x61, 0x6d, 0x70, 0x6c, 0x65, 0x04, 0x74, 0x65, 0x73, 0x74, 0x00,
    0x00, 0x01, 0x00, 0x01,
    0xc0, 0x0c, 0x00, 0x01, 0x00, 0x01, 0x00, 0x00, 0x00, 0x3c, 0x00, 0x04,
    0x0a, 0x00, 0x00, 0x01]

theorem resolved_labels_iff_example :
    (parseDnsResponse exampleCompressedAnswer 0x1234 (ascii "example.test")).outcome = .resolved ∧
    ∃ offset rr, takenAnswer exampleCompressedAnswer (ascii "example.test") = some (offset, rr) ∧
      NamesHost exampleCompressedAnswer kDnsHeaderSize (ascii "example.test") ∧
      NamesHost exampleCompressedAnswer offset (ascii "example.test") := by
  have hnormalized : normalizeHostname (ascii "Example.test") = .ok (ascii "example.test") := by
    decide +kernel
  have hresolved : (parseDnsResponse exampleCompressedAnswer 0x1234
      (ascii "example.test")).outcome = .resolved := by decide +kernel
  refine ⟨hresolved, ?_⟩
  obtain ⟨offset, rr, htaken, -, hiff⟩ := resolved_labels_iff hnormalized hresolved
  have hquestion : NameAt exampleCompressedAnswer kDnsHeaderSize [ascii "example", ascii "test"] :=
    @NameAt.label _ _ 7 _ rfl (by decide) (by decide) (by decide)
      (@NameAt.label _ _ 4 _ rfl (by decide) (by decide) (by decide) (.root rfl))
  have howner : NameAt exampleCompressedAnswer 30 [ascii "example", ascii "test"] :=
    .pointer rfl (by decide) rfl hquestion
  have hfree : ∀ label ∈ [ascii "example", ascii "test"], dot ∉ label := by decide
  have hoffset : (takenAnswer exampleCompressedAnswer (ascii "example.test")).map Prod.fst =
      some 30 := by decide +kernel
  rw [htaken] at hoffset
  cases hoffset
  obtain ⟨hasked, hanswered⟩ := hiff.2 ⟨⟨_, hquestion, hfree⟩, ⟨_, howner, hfree⟩⟩
  exact ⟨30, rr, htaken, hasked, hanswered⟩

/-- The one label `a.b`, three bytes long, in the question, and an answer that points to it. -/
def exampleDottedResponse : List Byte :=
  [0x12, 0x34, 0x81, 0x80, 0x00, 0x01, 0x00, 0x01, 0x00, 0x00, 0x00, 0x00,
    0x03, 0x61, 0x2e, 0x62, 0x00, 0x00, 0x01, 0x00, 0x01,
    0xc0, 0x0c, 0x00, 0x01, 0x00, 0x01, 0x00, 0x00, 0x00, 0x3c, 0x00, 0x04,
    0x0a, 0x00, 0x00, 0x01]

/-- It resolves the hostname `a.b`, which has two labels. -/
theorem dotted_label_resolves :
    normalizeHostname (ascii "a.b") = .ok (ascii "a.b") ∧
    (parseDnsResponse exampleDottedResponse 0x1234 (ascii "a.b")).outcome = .resolved ∧
    (takenAnswer exampleDottedResponse (ascii "a.b")).map Prod.fst = some 21 ∧
    ¬ NamesHost exampleDottedResponse kDnsHeaderSize (ascii "a.b") ∧
    ¬ NamesHost exampleDottedResponse 21 (ascii "a.b") := by
  have hquestion : NameAt exampleDottedResponse kDnsHeaderSize [ascii "a.b"] :=
    @NameAt.label _ _ 3 _ rfl (by decide) (by decide) (by decide) (.root rfl)
  have howner : NameAt exampleDottedResponse 21 [ascii "a.b"] :=
    .pointer rfl (by decide) rfl hquestion
  have hlabels : ¬ [ascii "a.b"].map toLower = ((ascii "a.b").splitOn dot).map toLower := by decide
  refine ⟨by decide +kernel, by decide +kernel, by decide +kernel, ?_, ?_⟩
  · rintro ⟨labels, hread, hsame⟩
    cases hquestion.unique hread
    exact hlabels hsame
  · rintro ⟨labels, hread, hsame⟩
    cases howner.unique hread
    exact hlabels hsame

end Wirestack
