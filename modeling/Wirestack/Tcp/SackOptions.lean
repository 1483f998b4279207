import Wirestack.Tcp.OptionGrammar
import Wirestack.Tcp.Output

set_option autoImplicit false

/-! # SACK options on the wire

`buildSackOptions` writes the blocks of a pure ACK as option bytes and `parseTcpOptions` reads them at
the other end. What is read is what was written, and every block written names one of the fragments
in the reassembly buffer. -/

namespace Wirestack

open List Connection

/-! ## Numbers -/

theorem readBigEndian32_bigEndian32 (v : SeqNum) (tail : List Byte) :
    readBigEndian32 (bigEndian32 v ++ tail) 0 = v := by
  simp only [readBigEndian32, bigEndian32, cons_append, nil_append, getD_cons_zero,
    getD_cons_succ, Nat.zero_add]
  ext i hi
  simp only [BitVec.getElem_or, BitVec.getElem_shiftLeft, BitVec.getLsbD_setWidth,
    BitVec.getLsbD_ushiftRight, BitVec.getElem_setWidth]
  rw [← BitVec.getLsbD_eq_getElem hi]
  -- Each bit comes from the one byte it lies in.
  rcases Nat.lt_or_ge i 8 with h₁ | h₁
  · simp [h₁, show i < 16 by omega, show i < 24 by omega]
  rcases Nat.lt_or_ge i 16 with h₂ | h₂
  · simp [h₂, show i < 24 by omega, show ¬ i < 8 by omega, show i - 8 < 8 by omega,
      show 8 + (i - 8) = i by omega]
  rcases Nat.lt_or_ge i 24 with h₃ | h₃
  · simp [h₃, show ¬ i < 8 by omega, show ¬ i < 16 by omega, show i - 16 < 8 by omega,
      show ¬ i - 8 < 8 by omega, show 16 + (i - 16) = i by omega]
  · simp [show ¬ i < 8 by omega, show ¬ i < 16 by omega, show ¬ i < 24 by omega,
      show i - 24 < 8 by omega, show ¬ i - 8 < 8 by omega, show ¬ i - 16 < 8 by omega,
      show 24 + (i - 24) = i by omega]

theorem readBigEndian32_add (data : List Byte) (n i : ℕ) :
    readBigEndian32 data (n + i) = readBigEndian32 (data.drop n) i := by
  simp only [readBigEndian32, getD_eq_getElem?_getD, getElem?_drop, Nat.add_assoc]

/-! ## Blocks -/

def TcpSackBlock.bytes (b : TcpSackBlock) : List Byte :=
  bigEndian32 b.leftEdge ++ bigEndian32 b.rightEdge

section

variable (key : TcpConnectionKey) (c : Connection) (mostRecent : Option SeqNum)
  (blocks : List TcpSackBlock)

theorem drop_flatMap_bytes : ∀ b, (blocks.flatMap TcpSackBlock.bytes).drop (b * 8) =
      (blocks.drop b).flatMap TcpSackBlock.bytes := by
  induction blocks with
  | nil => simp
  | cons block rest ih =>
    intro b
    cases b with
    | zero => rfl
    | succ b =>
      have hskip : (block.bytes ++ rest.flatMap TcpSackBlock.bytes).drop ((b + 1) * 8) =
          (rest.flatMap TcpSackBlock.bytes).drop (b * 8) := by
        rw [show (b + 1) * 8 = block.bytes.length + b * 8 by rw [Nat.succ_mul, Nat.add_comm]; rfl,
          drop_length_add_append]
      rw [flatMap_cons, hskip, ih b, drop_succ_cons]

theorem length_flatMap_bytes : (blocks.flatMap TcpSackBlock.bytes).length = 8 * blocks.length := by
  rw [length_flatMap]
  simp [TcpSackBlock.bytes, bigEndian32, Nat.mul_comm]

theorem sackBlocksOf_bytes : sackBlocksOf (blocks.flatMap TcpSackBlock.bytes) = blocks := by
  rw [sackBlocksOf, length_flatMap_bytes, Nat.mul_div_cancel_left _ (by omega)]
  apply ext_getElem
  · simp
  · intro b hb hb'
    have hdrop : (blocks.flatMap TcpSackBlock.bytes).drop (b * 8) =
        bigEndian32 blocks[b].leftEdge ++ (bigEndian32 blocks[b].rightEdge ++
          (blocks.drop (b + 1)).flatMap TcpSackBlock.bytes) := by
      rw [drop_flatMap_bytes, drop_eq_getElem_cons hb', flatMap_cons, TcpSackBlock.bytes,
        append_assoc]
    have hleft := readBigEndian32_add (blocks.flatMap TcpSackBlock.bytes) (b * 8) 0
    have hright := readBigEndian32_add (blocks.flatMap TcpSackBlock.bytes) (b * 8 + 4) 0
    rw [Nat.add_zero, hdrop, readBigEndian32_bigEndian32] at hleft
    have hskip : ∀ rest, (bigEndian32 blocks[b].leftEdge ++ rest).drop 4 = rest := fun _ => rfl
    rw [Nat.add_zero, ← drop_drop, hdrop, hskip, readBigEndian32_bigEndian32] at hright
    rw [getElem_map, getElem_range, hleft, hright]

/-- Padding is End-of-List, so it is not read. -/
theorem parse_padOptions {items : List TcpOptionItem} (h : Legal items) :
    parseTcpOptions (padOptions (items.flatMap TcpOptionItem.bytes)) = .ok (optionsOf items) := by
  refine parse_legal h ?_
  cases (4 - (items.flatMap TcpOptionItem.bytes).length % 4) % 4 with
  | zero => exact .inl rfl
  | succ n => exact .inr rfl

/-- **What is read is what was written**, for as many blocks as an option can hold. -/
theorem parse_buildSackOptions {blocks : List TcpSackBlock} (hlimit : blocks.length ≤ 4) :
    parseTcpOptions (buildSackOptions blocks) = .ok { sackBlocks := blocks } := by
  by_cases hne : blocks = []
  · rw [hne]
    rfl
  · have hpos : 0 < blocks.length := length_pos_iff.2 hne
    have hsize := length_flatMap_bytes blocks
    have hread := sackBlocksOf_bytes blocks
    rw [buildSackOptions, if_neg (by simpa using hne)]
    change parseTcpOptions (padOptions ([5, UInt8.ofNat (2 + 8 * blocks.length)] ++
      blocks.flatMap TcpSackBlock.bytes)) = _
    generalize blocks.flatMap TcpSackBlock.bytes = body at hsize hread ⊢
    let o : TcpOption := ⟨kOptionKindSack, body, by decide, by decide, by omega⟩
    have hlength : o.length = 10 ∨ o.length = 18 ∨ o.length = 26 ∨ o.length = 34 := by
      show body.length + 2 = 10 ∨ body.length + 2 = 18 ∨ body.length + 2 = 26 ∨ body.length + 2 = 34
      omega
    have hlegal : Legal ([] ++ [.option o]) :=
      legal_snoc_option.2 ⟨legal_nil, hlength, fun _ => rfl⟩
    have hbytes : [TcpOptionItem.option o].flatMap TcpOptionItem.bytes =
        [5, UInt8.ofNat (2 + 8 * blocks.length)] ++ body := by
      rw [flatMap_singleton, ← hsize, Nat.add_comm]
      rfl
    have hmeaning : optionsOf [.option o] = { sackBlocks := blocks } := by
      show TcpParsedOptions.mk _ _ _ ([body].flatMap sackBlocksOf) = _
      rw [flatMap_singleton, hread]
      rfl
    rw [← hbytes, ← hmeaning]
    exact parse_padOptions hlegal

/-! ## Blocks and fragments -/

theorem mem_sackOrder {c : Connection} {mostRecent : Option SeqNum} {f : TcpReassemblyFragment}
    (h : f ∈ sackOrder c mostRecent) : f ∈ c.outOfOrder := by
  unfold sackOrder at h
  dsimp only at h
  split at h
  · exact (mem_insertionSort _).1 h
  · rcases mem_append.1 h with h | h
    · exact mem_of_getElem? (Option.mem_toList.1 h)
    · exact mem_of_mem_eraseIdx ((mem_insertionSort _).1 h)

theorem mem_generateSackBlocks {c : Connection} {mostRecent : Option SeqNum} {block : TcpSackBlock}
    (h : block ∈ generateSackBlocks c mostRecent) :
    ∃ f ∈ c.outOfOrder, block = ⟨f.sequenceStart, f.sequenceEnd⟩ := by
  obtain ⟨f, hf, rfl⟩ := mem_map.1 h
  exact ⟨f, mem_sackOrder (mem_of_mem_take hf), rfl⟩

/-- The blocks that a pure ACK of the connection reports. -/
def Connection.reportedBlocks (c : Connection) (mostRecentFragmentStart : Option SeqNum) :
    List TcpSackBlock :=
  if c.sackPermitted then generateSackBlocks c mostRecentFragmentStart else []

theorem makePureAck_options :
    (makePureAck key c mostRecent).options = buildSackOptions (c.reportedBlocks mostRecent) := by
  unfold makePureAck Connection.reportedBlocks
  split <;> rfl

theorem length_reportedBlocks_le : (c.reportedBlocks mostRecent).length ≤ 4 := by
  unfold Connection.reportedBlocks generateSackBlocks
  split
  · rw [length_map]
    exact length_take_le _ _
  · exact Nat.zero_le _

end

/-- Every block that is reported is a fragment of the connection. -/
theorem mem_reportedBlocks {c : Connection} {mostRecent : Option SeqNum} {block : TcpSackBlock}
    (h : block ∈ c.reportedBlocks mostRecent) :
    ∃ f ∈ c.outOfOrder, block = ⟨f.sequenceStart, f.sequenceEnd⟩ := by
  unfold Connection.reportedBlocks at h
  split at h
  · exact mem_generateSackBlocks h
  · cases h

end Wirestack
