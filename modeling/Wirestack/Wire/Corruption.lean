import Wirestack.Wire.RoundTrip

set_option autoImplicit false

/-! # Corruption inside one word

The checksums of the segment and of the packet header are sums of 16-bit words modulo 65535. A change
inside one word moves the sum by less than 65535, unless it turns 0x0000 into 0xFFFF or back. So an
accepted message with one word changed fails the checksum if it has not failed an earlier test. -/

namespace Wirestack

open List

variable {j : ℕ} {high low high' low' : Byte} {segment : TcpSegment} {packet : Ipv4Packet}

variable {data data' bytes bytes' : List Byte} {k : ℕ}
  {source destination source' destination' : Ipv4Address}

/-! ## Changed words -/

/-- The `i`-th aligned word. The last of an odd number of bytes is the high half of its word. -/
def wordAt (data : List Byte) (i : ℕ) : UInt16 :=
  bigEndianWord (data.getD (2 * i) 0) (data.getD (2 * i + 1) 0)

/-- `data'` is `data` with another value in its `i`-th word. -/
structure WordChanged (i : ℕ) (data data' : List Byte) : Prop where
  length : data'.length = data.length
  elsewhere : ∀ j, j / 2 ≠ i → data'[j]? = data[j]?
  differs : wordAt data i ≠ wordAt data' i
  notRaised : ¬ (wordAt data i = 0x0000 ∧ wordAt data' i = 0xffff)
  notCleared : ¬ (wordAt data i = 0xffff ∧ wordAt data' i = 0x0000)

def OneWordChanged (data data' : List Byte) : Prop := ∃ i, WordChanged i data data'

theorem wordSum_split (i : ℕ) : ∀ data : List Byte,
    wordSum data = wordSum (data.take (2 * i)) + (wordAt data i).toNat +
      wordSum (data.drop (2 * i + 2)) := by
  induction i with
  | zero =>
    intro data
    match data with
    | [] => rfl
    | [high] => exact (Nat.zero_add _).symm
    | high :: low :: rest => exact congrArg (· + wordSum rest) (Nat.zero_add _).symm
  | succ i ih =>
    intro data
    match data with
    | [] => simp [wordSum, wordAt, bigEndianWord]
    | [high] =>
      have htake : [high].take (2 * (i + 1)) = [high] :=
          take_of_length_le (by rw [length_singleton]; omega)
      rw [htake]
      simp [wordSum, wordAt, bigEndianWord]
    | high :: low :: rest =>
      have hnext : wordAt (high :: low :: rest) (i + 1) = wordAt rest i := rfl
      have htake : (high :: low :: rest).take (2 * (i + 1)) =
          high :: low :: rest.take (2 * i) := rfl
      have hdrop : (high :: low :: rest).drop (2 * (i + 1) + 2) = rest.drop (2 * i + 2) := rfl
      rw [hnext, htake, hdrop, wordSum, wordSum, ih]
      omega

theorem WordChanged.digitChanged {i : ℕ} (h : WordChanged i data data') :
    EndAround.DigitChanged (2 ^ 16) (wordSum data) (wordSum data') := by
  have htake : data'.take (2 * i) = data.take (2 * i) := by
    apply ext_getElem?
    intro j
    rw [getElem?_take, getElem?_take]
    split_ifs with hj
    · exact h.elsewhere j (by omega)
    · rfl
  have hdrop : data'.drop (2 * i + 2) = data.drop (2 * i + 2) := by
    apply ext_getElem?
    intro j
    rw [getElem?_drop, getElem?_drop]
    exact h.elsewhere _ (by omega)
  have hzero : (0x0000 : UInt16).toNat = 0 := rfl
  have hones : (0xffff : UInt16).toNat = 2 ^ 16 - 1 := rfl
  refine ⟨wordSum (data.take (2 * i)) + wordSum (data.drop (2 * i + 2)), (wordAt data i).toNat,
    (wordAt data' i).toNat, ?_, ?_, (wordAt data i).toNat_lt, (wordAt data' i).toNat_lt, ?_, ?_, ?_⟩
  · rw [wordSum_split, Nat.add_right_comm]
  · rw [wordSum_split, htake, hdrop, Nat.add_right_comm]
  · exact fun heq => h.differs (UInt16.toNat_inj.1 heq)
  · rw [← hzero, ← hones, UInt16.toNat_inj, UInt16.toNat_inj]
    exact h.notRaised
  · rw [← hzero, ← hones, UInt16.toNat_inj, UInt16.toNat_inj]
    exact h.notCleared

theorem internetChecksum_ne_zero (hlen : data.length ≤ 131072) (hlen' : data'.length ≤ 131072)
    (h : EndAround.DigitChanged (2 ^ 16) (wordSum data) (wordSum data'))
    (hright : internetChecksum data = 0) : internetChecksum data' ≠ 0 := by
  rw [internetChecksum_eq_zero_iff hlen] at hright
  rw [Ne, internetChecksum_eq_zero_iff hlen']
  exact h.residue_ne (by decide) hright

/-! ## Flipped bits -/

/-- Bit `k % 8` of byte `k / 8` inverted. -/
def flipBit (data : List Byte) (k : ℕ) : List Byte :=
  data.modify (k / 8) (· ^^^ (1 <<< UInt8.ofNat (k % 8)))

def OneBitFlipped (data data' : List Byte) : Prop := ∃ k < 8 * data.length, data' = flipBit data k

theorem getElem?_flipBit (hj : j ≠ k / 8) : (flipBit data k)[j]? = data[j]? :=
  getElem?_modify_ne _ _ hj.symm

theorem getD_flipBit (hj : j ≠ k / 8) : (flipBit data k).getD j 0 = data.getD j 0 := by
  rw [getD_eq_getElem?_getD, getD_eq_getElem?_getD, getElem?_flipBit hj]

theorem getD_flipBit_self (hk : k < 8 * data.length) :
    data.getD (k / 8) 0 ≠ (flipBit data k).getD (k / 8) 0 := by
  have hlt : k / 8 < data.length := by omega
  have hmask : ∀ n < 8, (1 : Byte) <<< UInt8.ofNat n ≠ 0 := by decide
  rw [flipBit, getD_eq_getElem?_getD, getD_eq_getElem?_getD, getElem?_modify_eq,
    getElem?_eq_getElem hlt]
  show data[k / 8] ≠ data[k / 8] ^^^ _
  intro heq
  have hsame : data[k / 8] ^^^ 0 = data[k / 8] ^^^ ((1 : Byte) <<< UInt8.ofNat (k % 8)) := by
    rwa [UInt8.xor_zero]
  exact hmask _ (Nat.mod_lt _ (by decide)) ((UInt8.xor_right_inj _).1 hsame).symm

theorem bigEndianWord_inj :
    bigEndianWord high low = bigEndianWord high' low' ↔ high = high' ∧ low = low' := by
  constructor
  · intro h
    have hnat := congrArg UInt16.toNat h
    have hlow := low.toNat_lt
    have hlow' := low'.toNat_lt
    rw [toNat_bigEndianWord, toNat_bigEndianWord] at hnat
    exact ⟨UInt8.toNat_inj.1 (by omega), UInt8.toNat_inj.1 (by omega)⟩
  · rintro ⟨rfl, rfl⟩
    rfl

theorem not_complemented (hkept : high = high' ∨ low = low') :
    ¬ (bigEndianWord high low = 0x0000 ∧ bigEndianWord high' low' = 0xffff) ∧
    ¬ (bigEndianWord high low = 0xffff ∧ bigEndianWord high' low' = 0x0000) := by
  have hzero : (0x0000 : UInt16) = bigEndianWord 0 0 := rfl
  have hones : (0xffff : UInt16) = bigEndianWord 0xff 0xff := rfl
  have hbyte : ¬ (0 : Byte) = 0xff := by decide
  rw [hzero, hones, bigEndianWord_inj, bigEndianWord_inj, bigEndianWord_inj, bigEndianWord_inj]
  constructor
  · rintro ⟨⟨rfl, rfl⟩, rfl, rfl⟩
    exact hkept.elim hbyte hbyte
  · rintro ⟨⟨rfl, rfl⟩, rfl, rfl⟩
    exact hkept.elim (fun h => hbyte h.symm) fun h => hbyte h.symm

theorem OneBitFlipped.wordChanged (h : OneBitFlipped data data') : OneWordChanged data data' := by
  obtain ⟨k, hk, rfl⟩ := h
  have hself := getD_flipBit_self hk
  have hbyte : k / 8 = 2 * (k / 16) ∨ k / 8 = 2 * (k / 16) + 1 := by omega
  have hkept : data.getD (2 * (k / 16)) 0 = (flipBit data k).getD (2 * (k / 16)) 0 ∨
      data.getD (2 * (k / 16) + 1) 0 = (flipBit data k).getD (2 * (k / 16) + 1) 0 := by
    obtain hhigh | hlow := hbyte
    · exact .inr (getD_flipBit (by omega)).symm
    · exact .inl (getD_flipBit (by omega)).symm
  refine ⟨k / 16, length_modify .., fun j hj => getElem?_flipBit (by omega), ?_,
    (not_complemented hkept).1, (not_complemented hkept).2⟩
  intro hsame
  obtain ⟨hhigh, hlow⟩ := bigEndianWord_inj.1 hsame
  obtain hk | hk := hbyte
  · exact hself (by rw [hk, hhigh])
  · exact hself (by rw [hk, hlow])

/-! ## The parsers -/

/-- One of the three things that `parseTcpSegment` is given has changed. -/
inductive TcpAltered (Change : List Byte → List Byte → Prop) (bytes : List Byte)
    (source destination : Ipv4Address) : List Byte → Ipv4Address → Ipv4Address → Prop
  | segment {bytes' : List Byte} (h : Change bytes bytes') :
      TcpAltered Change bytes source destination bytes' source destination
  | source {source' : Ipv4Address}
      (h : Change (writeIpv4Address source) (writeIpv4Address source')) :
      TcpAltered Change bytes source destination bytes source' destination
  | destination {destination' : Ipv4Address}
      (h : Change (writeIpv4Address destination) (writeIpv4Address destination')) :
      TcpAltered Change bytes source destination bytes source destination'

/-- The header of a packet has changed. -/
structure HeaderAltered (Change : List Byte → List Byte → Prop) (data data' : List Byte) :
    Prop where
  header : Change (data.take Ipv4.kHeaderSize) (data'.take Ipv4.kHeaderSize)
  payload : data'.drop Ipv4.kHeaderSize = data.drop Ipv4.kHeaderSize

theorem TcpAltered.mono {Change Change' : List Byte → List Byte → Prop}
    (hmono : ∀ {data data'}, Change data data' → Change' data data')
    (h : TcpAltered Change bytes source destination bytes' source' destination') :
    TcpAltered Change' bytes source destination bytes' source' destination' := by
  cases h with
  | segment h => exact .segment (hmono h)
  | source h => exact .source (hmono h)
  | destination h => exact .destination (hmono h)

theorem wordSum_pseudoHeader (source destination : Ipv4Address) (length : ℕ) (bytes : List Byte) :
    wordSum (pseudoHeader source destination length ++ bytes) =
      wordSum (writeIpv4Address source) + (wordSum (writeIpv4Address destination) +
        (wordSum ([0, Tcp.kProtocolTcp] ++ writeBigEndian16 (UInt16.ofNat length)) +
          wordSum bytes)) := by
  rw [pseudoHeader, append_assoc, append_assoc, append_assoc,
    wordSum_append _ (by rw [length_writeIpv4Address]),
    wordSum_append _ (by rw [length_writeIpv4Address]), ← append_assoc,
    wordSum_append bytes (by simp)]

theorem checksum_of_parseTcpSegment (h : parseTcpSegment bytes source destination = .ok segment) :
    bytes.length ≤ kMaxTcpSegmentLength ∧ tcpChecksum source destination bytes = 0 := by
  unfold parseTcpSegment at h
  dsimp only at h
  split_ifs at h with hshort hlong hoffset hchecksum
  exact ⟨not_lt.1 hlong, not_not.1 hchecksum⟩

theorem checksum_of_parseIpv4Packet (h : parseIpv4Packet data = .ok packet) :
    internetChecksum (data.take Ipv4.kHeaderSize) = 0 := by
  unfold parseIpv4Packet at h
  dsimp only at h
  split_ifs at h with _ _ _ _ hchecksum
  exact not_not.1 hchecksum

theorem TcpAltered.digitChanged
    (h : TcpAltered OneWordChanged bytes source destination bytes' source' destination') :
    EndAround.DigitChanged (2 ^ 16)
      (wordSum (pseudoHeader source destination bytes.length ++ bytes))
      (wordSum (pseudoHeader source' destination' bytes'.length ++ bytes')) := by
  rw [wordSum_pseudoHeader, wordSum_pseudoHeader]
  cases h with
  | segment h =>
    obtain ⟨i, hword⟩ := h
    -- the length word of the pseudo-header stays as it was
    rw [hword.length]
    exact ((hword.digitChanged.add_left _).add_left _).add_left _
  | source h =>
    obtain ⟨i, hword⟩ := h
    exact hword.digitChanged.add_right _
  | destination h =>
    obtain ⟨i, hword⟩ := h
    exact (hword.digitChanged.add_right _).add_left _

theorem parseTcpSegment_rejects (hok : parseTcpSegment bytes source destination = .ok segment)
    (h : TcpAltered OneWordChanged bytes source destination bytes' source' destination') :
    ∃ e, parseTcpSegment bytes' source' destination' = .error e := by
  cases hparse : parseTcpSegment bytes' source' destination' with
  | error e => exact ⟨e, rfl⟩
  | ok segment' =>
    obtain ⟨hlen, hright⟩ := checksum_of_parseTcpSegment hok
    obtain ⟨hlen', hright'⟩ := checksum_of_parseTcpSegment hparse
    have hcovered : ∀ {source destination : Ipv4Address} {bytes : List Byte},
        bytes.length ≤ kMaxTcpSegmentLength →
        (pseudoHeader source destination bytes.length ++ bytes).length ≤ 131072 := by
      intro source destination bytes hle
      rw [length_append, length_pseudoHeader]
      unfold kMaxTcpSegmentLength at hle
      omega
    exact absurd hright'
      (internetChecksum_ne_zero (hcovered hlen) (hcovered hlen') h.digitChanged hright)

theorem parseIpv4Packet_rejects (hok : parseIpv4Packet data = .ok packet)
    (h : HeaderAltered OneWordChanged data data') : ∃ e, parseIpv4Packet data' = .error e := by
  cases hparse : parseIpv4Packet data' with
  | error e => exact ⟨e, rfl⟩
  | ok packet' =>
    obtain ⟨i, hword⟩ := h.header
    have hcovered : ∀ {data : List Byte}, (data.take Ipv4.kHeaderSize).length ≤ 131072 := by
      intro data
      exact (length_take_le _ _).trans (by decide)
    exact absurd (checksum_of_parseIpv4Packet hparse) (internetChecksum_ne_zero hcovered hcovered
      hword.digitChanged (checksum_of_parseIpv4Packet hok))

/-- **Corruption inside one word is rejected.** Whatever the parsers accept, they no longer accept with
    one word of it changed, unless from 0x0000 to 0xFFFF or back: a word of the segment or of either
    address, a word of the packet's header. A flipped bit never is that exception. -/
theorem corruption_rejected :
    (∀ {bytes : List Byte} {source destination : Ipv4Address} {segment : TcpSegment},
      parseTcpSegment bytes source destination = .ok segment →
      ∀ {bytes' : List Byte} {source' destination' : Ipv4Address},
        TcpAltered OneWordChanged bytes source destination bytes' source' destination' ∨
          TcpAltered OneBitFlipped bytes source destination bytes' source' destination' →
        ∃ e, parseTcpSegment bytes' source' destination' = .error e) ∧
    (∀ {data : List Byte} {packet : Ipv4Packet}, parseIpv4Packet data = .ok packet →
      ∀ {data' : List Byte},
        HeaderAltered OneWordChanged data data' ∨ HeaderAltered OneBitFlipped data data' →
        ∃ e, parseIpv4Packet data' = .error e) := by
  constructor
  · intro bytes source destination segment hok bytes' source' destination' haltered
    obtain hword | hbit := haltered
    · exact parseTcpSegment_rejects hok hword
    · exact parseTcpSegment_rejects hok (hbit.mono OneBitFlipped.wordChanged)
  · intro data packet hok data' haltered
    obtain hword | hbit := haltered
    · exact parseIpv4Packet_rejects hok hword
    · exact parseIpv4Packet_rejects hok ⟨hbit.header.wordChanged, hbit.payload⟩

/-- A segment of 27 bytes between two hosts. -/
def exampleBytes : List Byte :=
  exampleOptionSegment.bytes (examplePacket []).source (examplePacket []).destination

/-- The odd last byte of the segment cleared, and a bit of the time to live flipped. -/
theorem corruption_rejected_example :
    (∃ e, parseTcpSegment (exampleBytes.set 26 0) (examplePacket []).source
      (examplePacket []).destination = .error e) ∧
    ∃ e, parseIpv4Packet (flipBit (examplePacket []).header 64) = .error e := by
  have hsegment : parseTcpSegment exampleBytes (examplePacket []).source
      (examplePacket []).destination = .ok exampleOptionSegment :=
    parseTcpSegment_bytes _ _ (by decide) (by decide) (by decide)
  have hpacket : parseIpv4Packet (examplePacket []).header = .ok (examplePacket []) := by
    have hparsed : parseIpv4Packet ((examplePacket []).header ++ [] ++ []) =
        .ok (examplePacket []) := parseIpv4Packet_header [] (by decide)
    rwa [append_nil, append_nil] at hparsed
  refine ⟨corruption_rejected.1 hsegment (.inl (.segment ⟨13, ?_⟩)),
    corruption_rejected.2 hpacket (.inr ⟨⟨64, ?_⟩, ?_⟩)⟩
  · exact
      { length := length_set
        elsewhere := fun j hj => getElem?_set_ne (by omega)
        differs := by decide +kernel
        notRaised := by decide +kernel
        notCleared := by decide +kernel }
  · exact ⟨by decide +kernel, by decide +kernel⟩
  · decide +kernel

-- The urgent pointer of the segment is zero. All ones in its place add up to the same checksum.
example : (parseTcpSegment ((exampleBytes.set 18 0xff).set 19 0xff) (examplePacket []).source
    (examplePacket []).destination).isOk = true := by decide +kernel

end Wirestack
