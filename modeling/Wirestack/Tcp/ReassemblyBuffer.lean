import Wirestack.Lib.Chunks
import Wirestack.Tcp.Reassembly
import Wirestack.Tcp.Sequence

set_option autoImplicit false

/-! # The reassembly buffer refines a chunk buffer

Seen from `rcvNxt`, a list of fragments is a list of chunks at natural-number offsets (`buffer`). As
long as it is well formed (`BufferOk`), `insertReassemblyFragment` is `Chunks.insert` with the
fragment limit as its cap, and the release loop cuts off the run that starts at offset 0. -/

namespace Wirestack

open SerialNumber Chunks Intervals List

variable {base : SeqNum} {f : TcpReassemblyFragment} {fragments : List TcpReassemblyFragment}
  {n : ℕ}

/-- The fragment as a chunk at its offset from `base`. -/
def TcpReassemblyFragment.toChunk (base : SeqNum) (f : TcpReassemblyFragment) : Chunk Byte :=
  ⟨ahead base f.sequenceStart, f.payload⟩

def buffer (base : SeqNum) (fragments : List TcpReassemblyFragment) : List (Chunk Byte) :=
  fragments.map (TcpReassemblyFragment.toChunk base)

theorem buffer_cons (base : SeqNum) (f : TcpReassemblyFragment)
    (fragments : List TcpReassemblyFragment) :
    buffer base (f :: fragments) = f.toChunk base :: buffer base fragments := rfl

/-- Sorted, non-empty, disjoint and never adjacent fragments, none of which reaches around the
    sequence space, and not more of them than the limit. -/
structure BufferOk (base : SeqNum) (fragments : List TcpReassemblyFragment) : Prop where
  canonical : Canonical (buffer base fragments)
  below : ∀ c ∈ buffer base fragments, c.stop < 2 ^ 32
  limit : fragments.length ≤ kMaxReassemblyFragments

theorem BufferOk.nil (base : SeqNum) : BufferOk base [] :=
  ⟨⟨by simp [buffer], by simp [buffer]⟩, by simp [buffer], by simp⟩

theorem length_buffer (base : SeqNum) (fragments : List TcpReassemblyFragment) :
    (buffer base fragments).length = fragments.length :=
  length_map ..

/-! ## Insertion -/

theorem fragmentRange_eq (h : (f.toChunk base).stop < 2 ^ 32) :
    fragmentRange base f = (f.toChunk base).range := by
  simp only [fragmentRange, Chunk.range, Chunk.stop, TcpReassemblyFragment.toChunk] at *
  rw [Nat.mod_eq_of_lt h]

theorem buffer_storeGaps (base : SeqNum) (newStart : ℕ) (payload : List Byte)
    (gaps : List (ℕ × ℕ)) :
    ∀ fragments, (∀ g ∈ gaps, g.1 < 2 ^ 32) →
    buffer base (storeGaps base newStart payload gaps fragments) =
      Chunks.storeGaps kMaxReassemblyFragments newStart payload gaps (buffer base fragments) := by
  induction gaps with
  | nil => intro fragments _; rfl
  | cons g gaps ih =>
    intro fragments hlt
    have hrest : ∀ g ∈ gaps, g.1 < 2 ^ 32 := fun g hg => hlt g (mem_cons_of_mem _ hg)
    rw [storeGaps, Chunks.storeGaps, length_buffer]
    split_ifs
    · exact ih fragments hrest
    · rfl
    · rw [ih _ hrest]
      congr 1
      simp only [buffer, map_append, map_cons, map_nil,
        TcpReassemblyFragment.toChunk, piece, ahead_pos base (hlt g (mem_cons_self ..))]

theorem sequenceEnd_eq_pos (base : SeqNum) (f : TcpReassemblyFragment) :
    f.sequenceEnd = pos base (f.toChunk base).stop := by
  rw [Chunk.stop, ← pos_pos]
  simp only [TcpReassemblyFragment.toChunk, pos_ahead]
  rfl

theorem sequenceEnd_eq_iff {back : TcpReassemblyFragment} (h : (back.toChunk base).stop < 2 ^ 32) :
    back.sequenceEnd = f.sequenceStart ↔ (back.toChunk base).stop = (f.toChunk base).start := by
  rw [sequenceEnd_eq_pos]
  constructor
  · intro heq
    rw [← ahead_pos base h, heq]
    rfl
  · intro heq
    rw [heq]
    exact pos_ahead ..

theorem buffer_coalesceInto (base : SeqNum) (fragments : List TcpReassemblyFragment) :
    ∀ back, (∀ f ∈ back :: fragments, (f.toChunk base).stop < 2 ^ 32) →
    buffer base (coalesceInto back fragments) =
      Chunks.coalesceInto (back.toChunk base) (buffer base fragments) := by
  induction fragments with
  | nil => intro back _; rfl
  | cons f rest ih =>
    intro back hlt
    obtain ⟨hback, hf, hrest⟩ : _ ∧ _ ∧ _ := by simpa only [forall_mem_cons] using hlt
    rw [coalesceInto, buffer_cons, Chunks.coalesceInto]
    by_cases hadj : back.sequenceEnd = f.sequenceStart
    · have hadj' := (sequenceEnd_eq_iff hback).1 hadj
      rw [if_pos hadj, if_pos hadj']
      refine ih { back with payload := back.payload ++ f.payload } ?_
      rw [forall_mem_cons]
      refine ⟨?_, hrest⟩
      simp only [Chunk.stop, TcpReassemblyFragment.toChunk, length_append] at hadj' hf ⊢
      omega
    · rw [if_neg hadj, if_neg fun h => hadj ((sequenceEnd_eq_iff hback).2 h), buffer_cons]
      congr 1
      exact ih f (forall_mem_cons.2 ⟨hf, hrest⟩)

theorem buffer_coalesce (base : SeqNum) (fragments : List TcpReassemblyFragment)
    (h : ∀ f ∈ fragments, (f.toChunk base).stop < 2 ^ 32) :
    buffer base (coalesce fragments) = Chunks.coalesce (buffer base fragments) := by
  cases fragments with
  | nil => rfl
  | cons f rest => exact buffer_coalesceInto base rest f h

section Insert

variable {c : Connection} (hok : BufferOk c.rcvNxt c.outOfOrder) {start : SeqNum}
  {payload : List Byte} (hne : payload ≠ [])
  (hend : ahead c.rcvNxt start + payload.length < 2 ^ 32)

include hok hne hend

theorem buffer_insertReassemblyFragment :
    buffer c.rcvNxt (insertReassemblyFragment c start payload).outOfOrder =
      Chunks.insert kMaxReassemblyFragments (buffer c.rcvNxt c.outOfOrder)
        (ahead c.rcvNxt start) payload := by
  have hranges : c.outOfOrder.map (fragmentRange c.rcvNxt) =
      (buffer c.rcvNxt c.outOfOrder).map Chunk.range := by
    rw [buffer, map_map]
    exact map_congr_left fun f hf => fragmentRange_eq (hok.below _ (mem_map_of_mem hf))
  simp only [insertReassemblyFragment, hranges, Nat.mod_eq_of_lt hend]
  set gaps := missing (buffer c.rcvNxt c.outOfOrder) (ahead c.rcvNxt start) payload with hgaps
  have hgap : ∀ g ∈ gaps, g.1 < 2 ^ 32 ∧ g.2 < 2 ^ 32 := by
    intro g hg
    have := missing_bounds hok.canonical hne hg
    omega
  have hstored : ∀ f ∈ storeGaps c.rcvNxt (ahead c.rcvNxt start) payload gaps c.outOfOrder,
      (f.toChunk c.rcvNxt).stop < 2 ^ 32 := by
    intro f hf
    have hmem := mem_map_of_mem (f := TcpReassemblyFragment.toChunk c.rcvNxt) hf
    have hbuf := buffer_storeGaps c.rcvNxt (ahead c.rcvNxt start) payload gaps c.outOfOrder
      fun g hg => (hgap g hg).1
    rw [buffer] at hbuf
    rw [hbuf, storeGaps_eq _ _ _ _ _ fun g hg => (missing_bounds hok.canonical hne hg).2.1] at hmem
    rcases mem_append.1 hmem with hmem | hmem
    · exact hok.below _ hmem
    · obtain ⟨g, hg, heq⟩ := mem_map.1 hmem
      have hb := missing_bounds hok.canonical hne (mem_of_mem_take hg)
      rw [← heq, piece_stop hb.1 hb.2.1 hb.2.2]
      exact (hgap g (mem_of_mem_take hg)).2
  rw [Chunks.insert, ← hgaps,
    ← buffer_storeGaps c.rcvNxt _ payload gaps c.outOfOrder fun g hg => (hgap g hg).1]
  have hsort : ∀ fragments, buffer c.rcvNxt (insertionSort
      (fun a b => ahead c.rcvNxt a.sequenceStart ≤ ahead c.rcvNxt b.sequenceStart) fragments) =
      (buffer c.rcvNxt fragments).insertionSort fun a b => a.start ≤ b.start :=
    fun fragments => map_insertionSort _ _ _ fragments fun _ _ _ _ => Iff.rfl
  rw [buffer_coalesce, hsort]
  · rfl
  · intro f hf
    exact hstored f ((mem_insertionSort _).1 hf)

theorem BufferOk.insertReassemblyFragment :
    BufferOk c.rcvNxt (insertReassemblyFragment c start payload).outOfOrder := by
  have heq := buffer_insertReassemblyFragment hok hne hend
  constructor
  · rw [heq]
    exact hok.canonical.insert hne _
  · rw [heq]
    intro d hd
    have hcan : Canonical (Chunks.insert kMaxReassemblyFragments (buffer c.rcvNxt c.outOfOrder)
        (ahead c.rcvNxt start) payload) := hok.canonical.insert hne _
    have hlt := Chunk.start_lt_stop (hcan.nonempty d hd)
    -- The last element of a chunk was buffered before or belongs to the inserted payload.
    obtain ⟨b, hb⟩ : ∃ b, d.Has (d.stop - 1) b :=
      Chunk.exists_has ⟨by simp only [Chunk.range]; omega, by simp only [Chunk.range]; omega⟩
    rcases holds_of_holds_insert hok.canonical hne ⟨d, hd, hb⟩ with ⟨e, he, heb⟩ | ⟨-, hle, hget⟩
    · have h₁ := hok.below e he
      have h₂ := Chunk.within_of_has heb
      simp only [Within, Chunk.range] at h₂
      omega
    · obtain ⟨hlen, -⟩ := List.getElem?_eq_some_iff.1 hget
      omega
  · rw [← length_buffer, heq]
    exact length_insert_le hok.canonical hne (by rw [length_buffer]; exact hok.limit)

end Insert

theorem buffer_injective (base : SeqNum) : Function.Injective (buffer base) := by
  refine map_injective_iff.2 fun f g h => ?_
  obtain ⟨hstart, hpayload⟩ := Chunk.mk.inj h
  have hseq : f.sequenceStart = g.sequenceStart := by
    rw [← pos_ahead base f.sequenceStart, hstart, pos_ahead]
  cases f
  cases g
  exact congrArg₂ TcpReassemblyFragment.mk hseq hpayload

theorem insertReassemblyFragment_front {c : Connection} (hok : BufferOk c.rcvNxt c.outOfOrder)
    {start : SeqNum} {payload : List Byte} (hne : payload ≠ [])
    (hend : ahead c.rcvNxt start + payload.length < 2 ^ 32)
    (hroom : c.outOfOrder.length < kMaxReassemblyFragments)
    (hbefore : ∀ d ∈ buffer c.rcvNxt c.outOfOrder,
      ahead c.rcvNxt start + payload.length < d.start) :
    (insertReassemblyFragment c start payload).outOfOrder = ⟨start, payload⟩ :: c.outOfOrder := by
  apply buffer_injective c.rcvNxt
  rw [buffer_insertReassemblyFragment hok hne hend,
    insert_front hok.canonical hne (by rwa [length_buffer]) hbefore]
  rfl

/-! ## Moving `rcvNxt` forward -/

theorem buffer_pos (h : ∀ c ∈ buffer base fragments, n ≤ c.start) :
    buffer (pos base n) fragments = (buffer base fragments).map (Chunk.shift n) := by
  rw [buffer, buffer, map_map]
  refine map_congr_left fun f hf => ?_
  have := h _ (mem_map_of_mem hf)
  simp only [TcpReassemblyFragment.toChunk, Function.comp_apply, Chunk.shift] at this ⊢
  rw [ahead_pos_base base _ this]

theorem BufferOk.rebase (hok : BufferOk base fragments)
    (h : ∀ c ∈ buffer base fragments, n ≤ c.start) : BufferOk (pos base n) fragments := by
  constructor
  · rw [buffer_pos h]
    exact hok.canonical.shift h
  · rw [buffer_pos h]
    intro c hc
    obtain ⟨d, hd, rfl⟩ := mem_map.1 hc
    have := hok.below d hd
    rw [Chunk.shift_stop (h d hd)]
    omega
  · exact hok.limit

theorem holds_rebase (h : ∀ c ∈ buffer base fragments, n ≤ c.start) (o : ℕ) (b : Byte) :
    Holds (buffer (pos base n) fragments) o b ↔ Holds (buffer base fragments) (n + o) b := by
  rw [buffer_pos h]
  exact holds_shift h o b

/-! ## Release -/

/-- What the release loop hands out, and what it leaves: `released` is the run of buffered bytes
    from offset 0 on, and everything kept lies strictly beyond its end. -/
structure Release (base : SeqNum) (fragments : List TcpReassemblyFragment)
    (released : List Byte) (rcvNxt : SeqNum) (kept : List TcpReassemblyFragment) : Prop where
  advance : rcvNxt = pos base released.length
  holds : ∀ i b, released[i]? = some b → Holds (buffer base fragments) i b
  gap : ¬ Covers (buffer base fragments) released.length
  sublist : kept.Sublist fragments
  beyond : ∀ c ∈ buffer base kept, released.length < c.start
  split : ∀ o b, Holds (buffer base fragments) o b →
    o < released.length ∨ Holds (buffer base kept) o b

theorem BufferOk.sublist {kept : List TcpReassemblyFragment} (hok : BufferOk base fragments)
    (h : kept.Sublist fragments) : BufferOk base kept := by
  have hsub : (buffer base kept).Sublist (buffer base fragments) := h.map _
  exact ⟨⟨fun c hc => hok.canonical.nonempty c (hsub.subset hc), hok.canonical.apart.sublist hsub⟩,
    fun c hc => hok.below c (hsub.subset hc), h.length_le.trans hok.limit⟩

theorem releaseFragments_none {rcvNxt : SeqNum} (h : ∀ f ∈ fragments, f.sequenceStart ≠ rcvNxt) :
    releaseFragments rcvNxt fragments = ([], rcvNxt, fragments) := by
  cases fragments with
  | nil => rfl
  | cons f rest => rw [releaseFragments, if_neg (h f (mem_cons_self ..))]

theorem sequenceStart_eq_iff (hn : n < 2 ^ 32) :
    f.sequenceStart = pos base n ↔ (f.toChunk base).start = n := by
  constructor
  · intro h
    simp only [TcpReassemblyFragment.toChunk]
    rw [h, ahead_pos base hn]
  · rintro rfl
    exact (pos_ahead base f.sequenceStart).symm

theorem release_of_beyond (hbeyond : ∀ c ∈ buffer base fragments, 0 < c.start) :
    releaseFragments base fragments = ([], base, fragments) ∧
      Release base fragments [] base fragments := by
  constructor
  · apply releaseFragments_none
    intro f hf heq
    have hpos := hbeyond _ (mem_map_of_mem hf)
    rw [← pos_zero base, sequenceStart_eq_iff (by norm_num)] at heq
    omega
  · refine ⟨(pos_zero base).symm, by simp, ?_, Sublist.refl _, hbeyond, fun o b h => .inr h⟩
    rintro ⟨c, hc, hlo, -⟩
    have := hbeyond c hc
    simp only [Chunk.range, length_nil] at hlo
    omega

theorem releaseFragments_spec (hok : BufferOk base fragments) :
    ∃ released kept, releaseFragments base fragments = (released, pos base released.length, kept) ∧
      Release base fragments released (pos base released.length) kept := by
  cases fragments with
  | nil =>
    have hbeyond : ∀ c ∈ buffer base [], 0 < c.start := by simp [buffer]
    obtain ⟨heq, hrel⟩ := release_of_beyond hbeyond
    refine ⟨[], [], ?_, ?_⟩
    · simpa using heq
    · simpa using hrel
  | cons f rest =>
    have hfar := hok.canonical.head_lt
    by_cases hstart : (f.toChunk base).start = 0
    · have hstop : (f.toChunk base).stop = f.payload.length := by
        rw [Chunk.stop, hstart, Nat.zero_add]
        rfl
      have hbelow := hok.below _ (mem_cons_self ..)
      rw [hstop] at hbelow
      have hseq : f.sequenceStart = base := by
        rwa [← pos_zero base, sequenceStart_eq_iff (by norm_num)]
      have hrest : ∀ g ∈ rest, g.sequenceStart ≠ pos base f.payload.length := by
        intro g hg heq
        rw [sequenceStart_eq_iff hbelow] at heq
        have := hfar _ (mem_map_of_mem hg)
        omega
      refine ⟨f.payload, rest, ?_, rfl, ?_, ?_, sublist_cons_self _ _, ?_, ?_⟩
      · rw [releaseFragments, if_pos hseq]
        have : base + BitVec.ofNat 32 f.payload.length = pos base f.payload.length := rfl
        rw [this, releaseFragments_none hrest]
        simp
      · intro i b hget
        refine ⟨_, mem_cons_self .., by rw [hstart]; exact Nat.zero_le i, ?_⟩
        rwa [hstart]
      · rintro ⟨c, hc, hlo, hhi⟩
        simp only [Chunk.range] at hlo hhi
        rcases mem_cons.1 hc with rfl | hc
        · omega
        · have := hfar c hc
          omega
      · intro c hc
        have := hfar c hc
        omega
      · intro o b hb
        rw [buffer_cons, holds_cons] at hb
        rcases hb with hb | hb
        · left
          have := Chunk.within_of_has hb
          simp only [Within, Chunk.range] at this
          omega
        · exact .inr hb
    · have hbeyond : ∀ c ∈ buffer base (f :: rest), 0 < c.start := by
        intro c hc
        rcases mem_cons.1 hc with rfl | hc
        · omega
        · have := hfar c hc
          omega
      obtain ⟨heq, hrel⟩ := release_of_beyond hbeyond
      refine ⟨[], f :: rest, ?_, ?_⟩
      · simpa using heq
      · simpa using hrel

end Wirestack
