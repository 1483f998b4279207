import Wirestack.Lib.EndAround
import Wirestack.Tcp.Segment

set_option autoImplicit false

/-! # The Internet checksum (`checksum.cpp`)

`internetChecksum` adds the bytes as big-endian 16-bit words into a `std::uint32_t`, folds the
carries and complements. Up to 131072 bytes the accumulator cannot wrap, so the result is the
complement of the end-around residue of the exact sum, and a message that carries its own checksum at
an even offset sums to all ones. -/

namespace Wirestack

open List

/-! ## Words -/

def writeBigEndian16 (value : UInt16) : List Byte :=
  [((value >>> 8) &&& 0xff).toUInt8, (value &&& 0xff).toUInt8]

/-- `(high << 8) | low`. -/
def bigEndianWord (high low : Byte) : UInt16 := (high.toUInt16 <<< 8) ||| low.toUInt16

theorem toNat_bigEndianWord (high low : Byte) :
    (bigEndianWord high low).toNat = high.toNat * 2 ^ 8 + low.toNat := by
  have hhigh := high.toNat_lt
  have hlow : low.toNat < 2 ^ 8 := low.toNat_lt
  have hshift : (high.toNat <<< 8) % 2 ^ 16 = high.toNat <<< 8 := by
    rw [Nat.shiftLeft_eq]
    exact Nat.mod_eq_of_lt (by omega)
  unfold bigEndianWord
  simp only [UInt16.toNat_or, UInt16.toNat_shiftLeft, UInt8.toNat_toUInt16]
  show (high.toNat <<< 8) % 2 ^ 16 ||| low.toNat = _
  rw [hshift, ← Nat.shiftLeft_add_eq_or_of_lt hlow, Nat.shiftLeft_eq]

section

variable (back data : List Byte) (offset : ℕ) (value : UInt16)

theorem bigEndianWord_write :
    bigEndianWord ((value >>> 8) &&& 0xff).toUInt8 (value &&& 0xff).toUInt8 = value := by
  have hlt : value.toNat < 2 ^ 16 := value.toNat_lt
  apply UInt16.toNat_inj.1
  rw [toNat_bigEndianWord]
  simp only [UInt16.toNat_toUInt8, UInt16.toNat_and, UInt16.toNat_shiftRight]
  show (value.toNat >>> 8 &&& 255) % 2 ^ 8 * 2 ^ 8 + (value.toNat &&& 255) % 2 ^ 8 = value.toNat
  rw [Nat.and_two_pow_sub_one_eq_mod _ 8, Nat.and_two_pow_sub_one_eq_mod _ 8,
    Nat.shiftRight_eq_div_pow]
  omega

theorem readBigEndian16_eq : readBigEndian16 data offset =
      bigEndianWord (data.getD offset 0) (data.getD (offset + 1) 0) := rfl

/-! ## The checksum -/

/-- The loop over the data, two bytes a round. A last byte without a partner is the high half of its
    word. -/
def addWords (sum : ℕ) : List Byte → ℕ
  | high :: low :: rest => addWords ((sum + (bigEndianWord high low).toNat) % 2 ^ 32) rest
  | [high] => (sum + (bigEndianWord high 0).toNat) % 2 ^ 32
  | [] => sum

def internetChecksum (data : List Byte) : UInt16 :=
  let sum := addWords 0 data
  ~~~ UInt16.ofNat (EndAround.fold (2 ^ 16) sum sum)

/-- The sum that `addWords` computes modulo 2³². -/
def wordSum : List Byte → ℕ
  | high :: low :: rest => (bigEndianWord high low).toNat + wordSum rest
  | [high] => (bigEndianWord high 0).toNat
  | [] => 0

theorem addWords_eq :
    ∀ {sum : ℕ}, sum < 2 ^ 32 → addWords sum data = (sum + wordSum data) % 2 ^ 32 := by
  induction data using wordSum.induct with
  | case1 high low rest ih =>
    intro sum _
    rw [addWords, wordSum, ih (Nat.mod_lt _ (by decide)), Nat.mod_add_mod, Nat.add_assoc]
  | case2 high => exact fun _ => rfl
  | case3 => exact fun h => (Nat.mod_eq_of_lt h).symm

theorem wordSum_le : wordSum data ≤ 65535 * ((data.length + 1) / 2) := by
  induction data using wordSum.induct with
  | case1 high low rest ih =>
    have hword := (bigEndianWord high low).toNat_lt
    rw [wordSum, length_cons, length_cons]
    omega
  | case2 high =>
    have hword := (bigEndianWord high 0).toNat_lt
    rw [wordSum, length_singleton]
    omega
  | case3 => exact Nat.zero_le _

theorem wordSum_append {front : List Byte} :
    front.length % 2 = 0 → wordSum (front ++ back) = wordSum front + wordSum back := by
  induction front using wordSum.induct with
  | case1 high low rest ih =>
    intro heven
    rw [length_cons, length_cons] at heven
    rw [cons_append, cons_append, wordSum, wordSum, ih (by omega), Nat.add_assoc]
  | case2 high => exact fun heven => absurd heven (by rw [length_singleton]; decide)
  | case3 => exact fun _ => (Nat.zero_add _).symm

theorem addWords_eq_wordSum {data : List Byte} (hlen : data.length ≤ 131072) :
    addWords 0 data = wordSum data := by
  have hle := wordSum_le data
  rw [addWords_eq data (by decide), Nat.zero_add, Nat.mod_eq_of_lt (by omega)]

theorem toNat_internetChecksum {data : List Byte} (hlen : data.length ≤ 131072) :
    (internetChecksum data).toNat = 65535 - EndAround.residue (2 ^ 16) (wordSum data) := by
  have hres := EndAround.residue_le (show 2 ≤ 2 ^ 16 by decide) (wordSum data)
  have hfold : EndAround.fold (2 ^ 16) (addWords 0 data) (addWords 0 data) =
      EndAround.residue (2 ^ 16) (wordSum data) := by
    rw [EndAround.fold_eq_residue (by decide) _ le_rfl, addWords_eq_wordSum hlen]
  unfold internetChecksum
  dsimp only
  rw [hfold, UInt16.toNat_not, UInt16.toNat_ofNat_of_lt' (by show _ < 2 ^ 16; omega)]
  rfl

theorem internetChecksum_eq_zero_iff {data : List Byte} (hlen : data.length ≤ 131072) :
    internetChecksum data = 0 ↔ EndAround.residue (2 ^ 16) (wordSum data) = 65535 := by
  have hnat := toNat_internetChecksum hlen
  have hres := EndAround.residue_le (show 2 ≤ 2 ^ 16 by decide) (wordSum data)
  rw [← UInt16.toNat_inj, hnat]
  show 65535 - _ = 0 ↔ _
  omega

theorem wordSum_filled {front : List Byte} (heven : front.length % 2 = 0) (value : UInt16) :
    wordSum (front ++ (writeBigEndian16 value ++ back)) =
      wordSum (front ++ (writeBigEndian16 0 ++ back)) + value.toNat := by
  have hvalue : ∀ value : UInt16, wordSum (writeBigEndian16 value ++ back) =
      value.toNat + wordSum back := by
    intro value
    show (bigEndianWord _ _).toNat + wordSum back = _
    rw [bigEndianWord_write]
  have hzero : (0 : UInt16).toNat = 0 := rfl
  rw [wordSum_append _ heven, wordSum_append _ heven, hvalue, hvalue, hzero]
  omega

theorem internetChecksum_filled {front back : List Byte} (heven : front.length % 2 = 0)
    (hlen : (front ++ (writeBigEndian16 0 ++ back)).length ≤ 131072) :
    internetChecksum (front ++
      (writeBigEndian16 (internetChecksum (front ++ (writeBigEndian16 0 ++ back))) ++ back)) = 0 := by
  have hfilled : (front ++ (writeBigEndian16
      (internetChecksum (front ++ (writeBigEndian16 0 ++ back))) ++ back)).length ≤ 131072 := by
    rw [length_append, length_append] at hlen ⊢
    exact hlen
  rw [internetChecksum_eq_zero_iff hfilled, wordSum_filled back heven, toNat_internetChecksum hlen]
  exact EndAround.residue_add_complement (by decide) _

theorem internetChecksum_filled_ones {front back : List Byte} (heven : front.length % 2 = 0)
    (hlen : (front ++ (writeBigEndian16 0 ++ back)).length ≤ 131072)
    (hzero : internetChecksum (front ++ (writeBigEndian16 0 ++ back)) = 0) :
    internetChecksum (front ++ (writeBigEndian16 0xffff ++ back)) = 0 := by
  have hfilled : (front ++ (writeBigEndian16 0xffff ++ back)).length ≤ 131072 := by
    rw [length_append, length_append] at hlen ⊢
    exact hlen
  rw [internetChecksum_eq_zero_iff hlen] at hzero
  have hne : wordSum (front ++ (writeBigEndian16 0 ++ back)) ≠ 0 := by
    intro hsum
    rw [hsum] at hzero
    exact absurd hzero (by decide)
  rw [internetChecksum_eq_zero_iff hfilled, wordSum_filled back heven, ← hzero]
  exact EndAround.residue_add_mul _ 1 hne

/-! ## RFC 1071 -/

/-- The data as big-endian words, an odd last byte padded with a low zero byte. -/
def bigEndianWords : List Byte → List UInt16
  | high :: low :: rest => bigEndianWord high low :: bigEndianWords rest
  | [high] => [bigEndianWord high 0]
  | [] => []

theorem wordSum_eq : wordSum data = ((bigEndianWords data).map UInt16.toNat).sum := by
  induction data using wordSum.induct with
  | case1 high low rest ih => rw [wordSum, bigEndianWords, map_cons, sum_cons, ih]
  | case2 high | case3 => rfl

theorem bigEndianWords_take :
    ∀ n : ℕ, bigEndianWords (data.take (2 * n)) = (bigEndianWords data).take n := by
  induction data using bigEndianWords.induct with
  | case1 high low rest ih =>
    intro n
    cases n with
    | zero => rfl
    | succ n =>
      rw [Nat.mul_succ, take_succ_cons, take_succ_cons, bigEndianWords, bigEndianWords,
        ih n, take_succ_cons]
  | case2 high =>
    intro n
    cases n with
    | zero => rfl
    | succ n =>
      rw [Nat.mul_succ, take_succ_cons, take_nil, bigEndianWords, take_succ_cons, take_nil]
  | case3 => exact fun n => by rw [take_nil, bigEndianWords, take_nil]

/-- One round of the folding loop. -/
def foldCarry (sum : ℕ) : ℕ := (sum &&& 0xffff) + (sum >>> 16)

theorem foldCarry_eq : foldCarry = EndAround.round (2 ^ 16) := by
  funext sum
  rw [foldCarry, EndAround.round, Nat.and_two_pow_sub_one_eq_mod sum 16, Nat.shiftRight_eq_div_pow]

/-- Store a value in the two bytes at an offset. -/
def storeBigEndian16 (data : List Byte) (offset : ℕ) (value : UInt16) : List Byte :=
  (data.set offset ((value >>> 8) &&& 0xff).toUInt8).set (offset + 1) (value &&& 0xff).toUInt8

theorem length_storeBigEndian16 : (storeBigEndian16 data offset value).length = data.length := by
  rw [storeBigEndian16, length_set, length_set]

end

theorem storeBigEndian16_eq {data : List Byte} {offset : ℕ} (h : offset + 2 ≤ data.length)
    (value : UInt16) : storeBigEndian16 data offset value =
      data.take offset ++ (writeBigEndian16 value ++ data.drop (offset + 2)) := by
  have hfront : (data.take offset).length = offset := length_take_of_le (by omega)
  obtain ⟨high, low, hdrop⟩ : ∃ high low, data.drop offset = high :: low :: data.drop (offset + 2) :=
    ⟨_, _, by rw [drop_eq_getElem_cons (by omega), drop_eq_getElem_cons (by omega)]⟩
  have hdata : data = data.take offset ++ (high :: low :: data.drop (offset + 2)) := by
    rw [← hdrop, take_append_drop]
  generalize data.take offset = front at hfront hdata ⊢
  generalize data.drop (offset + 2) = back at hdata ⊢
  rw [storeBigEndian16, hdata, ← hfront, set_append_right _ _ le_rfl, Nat.sub_self,
    set_append_right _ _ (Nat.le_add_right _ 1), Nat.add_sub_cancel_left]
  rfl

/-- **`internetChecksum` is the RFC 1071 checksum.** The accumulator holds the exact sum of the words
    read so far, the folding loop stops after at most two rounds, and a checksum stored in the field
    that was zero when it was computed makes the whole check out. -/
theorem internetChecksum_rfc1071 {data : List Byte} (hlen : data.length ≤ 131072) :
    (∀ n, addWords 0 (data.take (2 * n)) = (((bigEndianWords data).take n).map UInt16.toNat).sum) ∧
      (∃ rounds ≤ 2, (∀ r < rounds, foldCarry^[r] (addWords 0 data) >>> 16 ≠ 0) ∧
        foldCarry^[rounds] (addWords 0 data) >>> 16 = 0 ∧
        internetChecksum data = ~~~ UInt16.ofNat (foldCarry^[rounds] (addWords 0 data))) ∧
      (internetChecksum data).toNat +
        EndAround.sum (2 ^ 16) ((bigEndianWords data).map UInt16.toNat) = 0xffff ∧
      (internetChecksum data = 0 ↔ 0 < ((bigEndianWords data).map UInt16.toNat).sum ∧
        65535 ∣ ((bigEndianWords data).map UInt16.toNat).sum) ∧
      ∀ offset, offset % 2 = 0 → offset + 2 ≤ data.length →
        internetChecksum (storeBigEndian16 data offset
          (internetChecksum (storeBigEndian16 data offset 0))) = 0 := by
  have hsum : addWords 0 data < 2 ^ 16 * 2 ^ 16 := by
    have hle := wordSum_le data
    rw [addWords_eq_wordSum hlen]
    omega
  refine ⟨fun n => ?_, ?_, ?_, ?_, fun offset heven hfits => ?_⟩
  · have htake : (data.take (2 * n)).length ≤ 131072 := (length_take_le' _ _).trans hlen
    rw [addWords_eq_wordSum htake, wordSum_eq, bigEndianWords_take]
  · obtain ⟨rounds, hrounds, hcarry, hdone⟩ := EndAround.exists_rounds (by decide) hsum
    refine ⟨rounds, hrounds, fun r hr => ?_, ?_, ?_⟩
    · have hge := hcarry r hr
      rw [foldCarry_eq, Nat.shiftRight_eq_div_pow]
      exact (Nat.div_pos hge (by decide)).ne'
    · rw [foldCarry_eq, Nat.shiftRight_eq_div_pow]
      exact Nat.div_eq_of_lt hdone
    · rw [foldCarry_eq, ← EndAround.fold_eq_iterate (by decide) le_rfl hdone]
      rfl
  · have hwords : ∀ d ∈ (bigEndianWords data).map UInt16.toNat, d < 2 ^ 16 :=
      forall_mem_map.2 fun word _ => word.toNat_lt
    have hres := EndAround.residue_le (show 2 ≤ 2 ^ 16 by decide) (wordSum data)
    rw [EndAround.sum_eq_residue (by decide) hwords, ← wordSum_eq, toNat_internetChecksum hlen]
    exact Nat.sub_add_cancel hres
  · rw [internetChecksum_eq_zero_iff hlen, ← wordSum_eq]
    exact EndAround.residue_eq_iff (by decide) (wordSum data)
  · have hfront : (data.take offset).length % 2 = 0 := by rwa [length_take_of_le (by omega)]
    have hzero : (data.take offset ++ (writeBigEndian16 0 ++ data.drop (offset + 2))).length ≤
        131072 := by
      rwa [← storeBigEndian16_eq hfits, length_storeBigEndian16]
    rw [storeBigEndian16_eq hfits, storeBigEndian16_eq hfits]
    exact internetChecksum_filled hfront hzero

/-- The worked example of RFC 1071, followed by an odd byte; its first word is the field. -/
theorem internetChecksum_rfc1071_example :
    let data : List Byte := [0x00, 0x01, 0xf2, 0x03, 0xf4, 0xf5, 0xf6, 0xf7, 0x12]
    (internetChecksum data).toNat = 0x100d ∧ (internetChecksum data).toNat +
        EndAround.sum (2 ^ 16) ((bigEndianWords data).map UInt16.toNat) = 0xffff ∧
      internetChecksum (storeBigEndian16 data 0
        (internetChecksum (storeBigEndian16 data 0 0))) = 0 := by
  obtain ⟨-, -, hsum, -, hstored⟩ := internetChecksum_rfc1071
    (show [0x00, 0x01, 0xf2, 0x03, 0xf4, 0xf5, 0xf6, 0xf7, 0x12].length ≤ 131072 by decide)
  exact ⟨by decide +kernel, hsum, hstored 0 (by decide) (by decide)⟩

end Wirestack
