import Mathlib.Data.Finset.Prod
import Wirestack.Tcp.ReassemblyBuffer

set_option autoImplicit false

/-! # What one insertion does to the reassembly buffer

The buffer is read here as a map from sequence numbers to bytes (`bufferedByte`), without reference to
`rcvNxt`. Inserting a payload never changes a byte of that map; it adds bytes of the payload where
there were none. The payload's bytes that are not buffered yet come in maximal runs (`MissingRun`), and
a run is stored whole or dropped whole: only the fragment limit can make a run be dropped. -/

namespace Wirestack

open SerialNumber Chunks Intervals List

variable {fragments : List TcpReassemblyFragment}

/-! ## The buffer as a map -/

/-- The byte that is buffered at a sequence number. -/
def bufferedByte (fragments : List TcpReassemblyFragment) (p : SeqNum) : Option Byte :=
  fragments.findSome? fun f => f.payload[ahead f.sequenceStart p]?

section Map

variable {base : SeqNum} {fragments : List TcpReassemblyFragment}

theorem TcpReassemblyFragment.toChunk_has_iff {f : TcpReassemblyFragment}
    (hbelow : (f.toChunk base).stop < 2 ^ 32) (p : SeqNum) (b : Byte) :
    (f.toChunk base).Has (ahead base p) b ↔ f.payload[ahead f.sequenceStart p]? = some b := by
  have hstop : ahead base f.sequenceStart + f.payload.length < 2 ^ 32 := hbelow
  show ahead base f.sequenceStart ≤ ahead base p ∧
    f.payload[ahead base p - ahead base f.sequenceStart]? = some b ↔ _
  by_cases hle : ahead base f.sequenceStart ≤ ahead base p
  · have hoffset : ahead f.sequenceStart p = ahead base p - ahead base f.sequenceStart := by
      have hmoved := ahead_pos_base base p hle
      rwa [pos_ahead] at hmoved
    rw [hoffset, and_iff_right hle]
  · -- From `f` on, `p` is met only behind `base`, further on than the payload is long.
    have hlt : ahead base p ≤ ahead base f.sequenceStart := (not_le.1 hle).le
    have hback : ahead p f.sequenceStart = ahead base f.sequenceStart - ahead base p := by
      have hmoved := ahead_pos_base base f.sequenceStart hlt
      rwa [pos_ahead] at hmoved
    have hoffset := ahead_swap (b := p) (x := f.sequenceStart) (by omega)
    have hfar : f.payload.length ≤ ahead f.sequenceStart p := by omega
    rw [getElem?_eq_none hfar]
    exact iff_of_false (fun h => hle h.1) (by simp)

theorem bufferedByte_eq_some_iff (hok : BufferOk base fragments) (p : SeqNum) (b : Byte) :
    bufferedByte fragments p = some b ↔ Holds (buffer base fragments) (ahead base p) b := by
  have hfragment : ∀ f ∈ fragments, ∀ b : Byte,
      (f.toChunk base).Has (ahead base p) b ↔ f.payload[ahead f.sequenceStart p]? = some b :=
    fun f hf b => f.toChunk_has_iff (hok.below _ (mem_map_of_mem hf)) p b
  have hholds : ∀ {b : Byte}, bufferedByte fragments p = some b →
      Holds (buffer base fragments) (ahead base p) b := by
    intro b hb
    obtain ⟨f, hf, hget⟩ := exists_of_findSome?_eq_some hb
    exact ⟨_, mem_map_of_mem hf, (hfragment f hf b).2 hget⟩
  refine ⟨hholds, ?_⟩
  rintro ⟨chunk, hchunk, hb⟩
  obtain ⟨f, hf, rfl⟩ := mem_map.1 hchunk
  have hsome : (bufferedByte fragments p).isSome := by
    refine findSome?_isSome_iff.2 ⟨f, hf, ?_⟩
    rw [(hfragment f hf b).1 hb]
    rfl
  obtain ⟨b', hb'⟩ := Option.isSome_iff_exists.1 hsome
  rw [hb', hok.canonical.holds_unique (hholds hb') ⟨_, mem_map_of_mem hf, hb⟩]

theorem bufferedByte_eq_none_iff (hok : BufferOk base fragments) (p : SeqNum) :
    bufferedByte fragments p = none ↔ ¬ Covers (buffer base fragments) (ahead base p) := by
  rw [covers_iff_holds, Option.eq_none_iff_forall_ne_some, not_exists]
  exact forall_congr' fun b => not_congr (bufferedByte_eq_some_iff hok p b)

end Map

/-! ## Runs of missing bytes -/

/-- The bytes `i` up to `j` of a payload that starts at `start` are a maximal run of bytes that are not
    buffered: on either side the payload ends or the next byte is buffered. -/
structure MissingRun (fragments : List TcpReassemblyFragment) (start : SeqNum) (payload : List Byte)
    (i j : ℕ) : Prop where
  nonempty : i < j
  inside : j ≤ payload.length
  missing : ∀ k < j, i ≤ k → bufferedByte fragments (pos start k) = none
  left : i = 0 ∨ bufferedByte fragments (pos start (i - 1)) ≠ none
  right : j = payload.length ∨ bufferedByte fragments (pos start j) ≠ none

instance (fragments : List TcpReassemblyFragment) (start : SeqNum) (payload : List Byte) (i j : ℕ) :
    Decidable (MissingRun fragments start payload i j) :=
  decidable_of_iff (i < j ∧ j ≤ payload.length ∧
      (∀ k < j, i ≤ k → bufferedByte fragments (pos start k) = none) ∧
      (i = 0 ∨ bufferedByte fragments (pos start (i - 1)) ≠ none) ∧
      (j = payload.length ∨ bufferedByte fragments (pos start j) ≠ none))
    ⟨fun h => ⟨h.1, h.2.1, h.2.2.1, h.2.2.2.1, h.2.2.2.2⟩,
      fun h => ⟨h.nonempty, h.inside, h.missing, h.left, h.right⟩⟩

def missingRuns (fragments : List TcpReassemblyFragment) (start : SeqNum) (payload : List Byte) :
    Finset (ℕ × ℕ) :=
  (Finset.range (payload.length + 1) ×ˢ Finset.range (payload.length + 1)).filter fun r =>
    MissingRun fragments start payload r.1 r.2

theorem mem_missingRuns {start : SeqNum} {payload : List Byte} {r : ℕ × ℕ} :
    r ∈ missingRuns fragments start payload ↔ MissingRun fragments start payload r.1 r.2 := by
  rw [missingRuns, Finset.mem_filter, Finset.mem_product, Finset.mem_range, Finset.mem_range]
  refine and_iff_right_of_imp fun h => ?_
  have hlt := h.nonempty
  have hle := h.inside
  omega

section Runs

variable {base start : SeqNum} {fragments : List TcpReassemblyFragment} {payload : List Byte}
  (hok : BufferOk base fragments) (hne : payload ≠ [])
  (hend : ahead base start + payload.length < 2 ^ 32)

include hend in
theorem ahead_payload {k : ℕ} (hk : k ≤ payload.length) :
    ahead base (pos start k) = ahead base start + k := by
  rw [← pos_ahead base start, pos_pos, pos_ahead, ahead_pos base (by omega)]

include hok hne hend

theorem missingRun_iff {i j : ℕ} : MissingRun fragments start payload i j ↔
    (ahead base start + i, ahead base start + j) ∈
      missing (buffer base fragments) (ahead base start) payload := by
  rw [mem_missing_iff hok.canonical hne]
  generalize hP : (fun o => Within (ahead base start, ahead base start + payload.length) o ∧
    ¬ Covers (buffer base fragments) o) = P
  have hlow : ∀ {o : ℕ}, P o → ahead base start ≤ o := by
    rw [← hP]
    exact fun h => h.1.1
  have hbyte : ∀ k, P (ahead base start + k) ↔
      k < payload.length ∧ bufferedByte fragments (pos start k) = none := by
    intro k
    rw [← hP]
    constructor
    · rintro ⟨⟨-, hhi⟩, hfree⟩
      have hk : k < payload.length := by dsimp only at hhi; omega
      rw [bufferedByte_eq_none_iff hok, ahead_payload hend hk.le]
      exact ⟨hk, hfree⟩
    · rintro ⟨hk, hfree⟩
      rw [bufferedByte_eq_none_iff hok, ahead_payload hend hk.le] at hfree
      exact ⟨⟨Nat.le_add_right _ _, by dsimp only; omega⟩, hfree⟩
  constructor
  · rintro ⟨hlt, hle, hmissing, hleft, hright⟩
    refine ⟨by dsimp only; omega, ?_, ?_, ?_⟩
    · rintro o ⟨hlo, hhi⟩
      dsimp only at hlo hhi
      obtain ⟨k, rfl⟩ := Nat.exists_eq_add_of_le (show ahead base start ≤ o by omega)
      exact (hbyte k).2 ⟨by omega, hmissing k (by omega) (by omega)⟩
    · rw [or_iff_not_imp_left]
      intro hpos hprev
      have hstart := hlow hprev
      dsimp only at hpos hprev hstart
      rw [Nat.add_sub_assoc (by omega), hbyte] at hprev
      rcases hleft with rfl | hleft
      · omega
      · exact hleft hprev.2
    · rw [hbyte]
      rintro ⟨hj, hfree⟩
      rcases hright with rfl | hright
      · exact lt_irrefl _ hj
      · exact hright hfree
  · rintro ⟨hlt, hinside, hleft, hright⟩
    dsimp only at hlt hleft hright
    have hin : ∀ k < j, i ≤ k → k < payload.length ∧ bufferedByte fragments (pos start k) = none :=
      fun k hkj hik => (hbyte k).1 (hinside _ ⟨by dsimp only; omega, by dsimp only; omega⟩)
    have hlast := (hin (j - 1) (by omega) (by omega)).1
    refine ⟨by omega, by omega, fun k hkj hik => (hin k hkj hik).2, ?_, ?_⟩
    · refine or_iff_not_imp_left.2 fun hpos hfree => ?_
      rcases hleft with hzero | hleft
      · omega
      · rw [Nat.add_sub_assoc (by omega), hbyte] at hleft
        exact hleft ⟨by omega, hfree⟩
    · refine or_iff_not_imp_left.2 fun hshort hfree => ?_
      exact hright ((hbyte j).2 ⟨by omega, hfree⟩)

theorem length_missing_le : (missing (buffer base fragments) (ahead base start) payload).length ≤
      (missingRuns fragments start payload).card := by
  set gaps := missing (buffer base fragments) (ahead base start) payload
  let run (g : ℕ × ℕ) : ℕ × ℕ := (g.1 - ahead base start, g.2 - ahead base start)
  have hbounds : ∀ g ∈ gaps, ahead base start ≤ g.1 ∧ g.1 < g.2 := fun g hg =>
    have h := missing_bounds hok.canonical hne hg
    ⟨h.1, h.2.1⟩
  have hnodup : (gaps.map run).Nodup := by
    refine ((missing_gaps hok.canonical hne).nodup).map_on fun g hg g' hg' heq => ?_
    obtain ⟨h₁, h₂⟩ := Prod.mk.inj heq
    have := hbounds g hg
    have := hbounds g' hg'
    exact Prod.ext (by omega) (by omega)
  rw [← length_map, ← toFinset_card_of_nodup hnodup]
  refine Finset.card_le_card fun r hr => ?_
  obtain ⟨g, hg, rfl⟩ := mem_map.1 (mem_toFinset.1 hr)
  have hg' := hbounds g hg
  rw [mem_missingRuns, missingRun_iff hok hne hend]
  show (ahead base start + (g.1 - ahead base start), ahead base start + (g.2 - ahead base start)) ∈ _
  rwa [Nat.add_sub_cancel' hg'.1, Nat.add_sub_cancel' (by omega)]

end Runs

/-! ## Insertion -/

theorem storeGaps_of_empty (base : SeqNum) (newStart : ℕ) (payload : List Byte) {gaps : List (ℕ × ℕ)}
    (h : ∀ g ∈ gaps, g.2 ≤ g.1) (fragments : List TcpReassemblyFragment) :
    storeGaps base newStart payload gaps fragments = fragments := by
  induction gaps with
  | nil => rfl
  | cons g gaps ih =>
    obtain ⟨hg, hgaps⟩ := forall_mem_cons.1 h
    rw [storeGaps, if_pos hg]
    exact ih hgaps

theorem BufferOk.sorted {base : SeqNum} (hok : BufferOk base fragments) :
    fragments.Pairwise fun a b => ahead base a.sequenceStart ≤ ahead base b.sequenceStart := by
  refine (pairwise_map.1 hok.canonical.apart).imp fun {a b} hab => ?_
  exact (Nat.le_add_right _ _).trans hab.le

theorem insertReassemblyFragment_nil {c : Connection} (hok : BufferOk c.rcvNxt c.outOfOrder)
    (start : SeqNum) : insertReassemblyFragment c start [] = c := by
  have hgaps : ∀ g ∈ subtractAll (c.outOfOrder.map (fragmentRange c.rcvNxt))
      [(ahead c.rcvNxt start, ahead c.rcvNxt start)], g.2 ≤ g.1 := by
    intro g hg
    rw [eq_of_mem_subtractAll_empty _ (fun _ => mem_singleton.1) g hg]
  have hcoalesce : coalesce c.outOfOrder = c.outOfOrder := by
    apply buffer_injective c.rcvNxt
    rw [buffer_coalesce c.rcvNxt _ fun f hf => hok.below _ (mem_map_of_mem hf)]
    exact hok.canonical.coalesce_eq
  unfold insertReassemblyFragment
  dsimp only
  rw [length_nil, Nat.add_zero, Nat.mod_eq_of_lt (ahead_lt _ _),
    storeGaps_of_empty _ _ _ hgaps, hok.sorted.insertionSort_eq, hcoalesce]

section Insert

variable {c : Connection} {start : SeqNum} {payload : List Byte}

/-- The fragments as they are kept: sorted by their offset from `rcvNxt`, none empty, disjoint, never
    adjacent, and at most 128 of them. -/
structure Connection.CanonicalFragments (c : Connection) : Prop where
  nonempty : ∀ f ∈ c.outOfOrder, f.payload ≠ []
  apart : c.outOfOrder.Pairwise fun f g =>
    ahead c.rcvNxt f.sequenceStart + f.payload.length < ahead c.rcvNxt g.sequenceStart
  count : c.outOfOrder.length ≤ 128

theorem Connection.CanonicalFragments.bufferOk (h : c.CanonicalFragments)
    (hbelow : ∀ f ∈ c.outOfOrder, ahead c.rcvNxt f.sequenceStart + f.payload.length < 2 ^ 32) :
    BufferOk c.rcvNxt c.outOfOrder :=
  ⟨⟨forall_mem_map.2 h.nonempty, pairwise_map.2 h.apart⟩, forall_mem_map.2 hbelow, h.count⟩

theorem BufferOk.canonicalFragments (h : BufferOk c.rcvNxt c.outOfOrder) : c.CanonicalFragments :=
  ⟨fun _ hf => h.canonical.nonempty _ (mem_map_of_mem hf),
    pairwise_map.1 h.canonical.apart, h.limit⟩

/-- What an insertion makes of the buffer, `before` and `after` being the fragments around it. -/
structure FirstArrival (start : SeqNum) (payload : List Byte)
    (before after : List TcpReassemblyFragment) : Prop where
  keeps : ∀ p b, bufferedByte before p = some b → bufferedByte after p = some b
  adds : ∀ p b, bufferedByte before p = none → bufferedByte after p = some b →
    payload[ahead start p]? = some b
  whole : ∀ i j, MissingRun before start payload i j →
    (∀ k, i ≤ k → k < j → bufferedByte after (pos start k) = payload[k]?) ∨
      ∀ k, i ≤ k → k < j → bufferedByte after (pos start k) = none
  room : before.length + (missingRuns before start payload).card ≤ 128 →
    ∀ k < payload.length, bufferedByte after (pos start k) =
      (bufferedByte before (pos start k)).or payload[k]?

theorem FirstArrival.nil (start : SeqNum) (fragments : List TcpReassemblyFragment) :
    FirstArrival start [] fragments fragments where
  keeps _ _ h := h
  adds p b hnone hsome := by
    simp [hnone] at hsome
  whole i j h := absurd (h.nonempty.trans_le h.inside) (Nat.not_lt_zero i)
  room _ k hk := absurd hk (Nat.not_lt_zero k)

theorem firstArrival_of_bufferOk (hok : BufferOk c.rcvNxt c.outOfOrder) (hne : payload ≠ [])
    (hend : ahead c.rcvNxt start + payload.length < 2 ^ 32) :
    FirstArrival start payload c.outOfOrder
      (insertReassemblyFragment c start payload).outOfOrder := by
  have hafter := hok.insertReassemblyFragment hne hend
  have hinsert := buffer_insertReassemblyFragment hok hne hend
  have hsome : ∀ p b, bufferedByte (insertReassemblyFragment c start payload).outOfOrder p = some b ↔
      Holds (Chunks.insert kMaxReassemblyFragments (buffer c.rcvNxt c.outOfOrder)
        (ahead c.rcvNxt start) payload) (ahead c.rcvNxt p) b := by
    intro p b
    rw [bufferedByte_eq_some_iff hafter, hinsert]
  have hkeeps : ∀ p b, bufferedByte c.outOfOrder p = some b →
      bufferedByte (insertReassemblyFragment c start payload).outOfOrder p = some b := by
    intro p b hb
    rw [bufferedByte_eq_some_iff hok] at hb
    exact (hsome p b).2 (holds_insert_of_holds hok.canonical hne _ hb)
  constructor
  · exact hkeeps
  · intro p b hnone hb
    rw [bufferedByte_eq_none_iff hok] at hnone
    rcases holds_of_holds_insert hok.canonical hne ((hsome p b).1 hb) with hold | ⟨-, hle, hget⟩
    · exact absurd (covers_iff_holds.2 ⟨b, hold⟩) hnone
    · have hoffset := ahead_pos_base c.rcvNxt p hle
      rw [pos_ahead] at hoffset
      rwa [hoffset]
  · intro i j hrun
    have hinside := hrun.inside
    rcases holds_insert_gap hok.canonical hne kMaxReassemblyFragments
      ((missingRun_iff hok hne hend).1 hrun) with hstored | hdropped
    · left
      intro k hik hkj
      have hk : k < payload.length := by omega
      rw [getElem?_eq_getElem hk, hsome, ahead_payload hend hk.le]
      refine hstored _ _ ⟨by dsimp only; omega, by dsimp only; omega⟩ ?_
      rw [Nat.add_sub_cancel_left, getElem?_eq_getElem hk]
    · right
      intro k hik hkj
      rw [bufferedByte_eq_none_iff hafter, hinsert, ahead_payload hend (by omega)]
      exact hdropped _ ⟨by dsimp only; omega, by dsimp only; omega⟩
  · intro hroom k hk
    have hgaps := length_missing_le hok hne hend
    cases hbefore : bufferedByte c.outOfOrder (pos start k) with
    | some b => exact hkeeps _ b hbefore
    | none =>
      rw [bufferedByte_eq_none_iff hok, ahead_payload hend hk.le] at hbefore
      rw [Option.none_or, getElem?_eq_getElem hk, hsome, ahead_payload hend hk.le]
      refine holds_insert_of_room hok.canonical hne ?_ (Nat.le_add_right _ _) ?_ hbefore
      · rw [length_buffer]
        show _ ≤ 128
        omega
      · rw [Nat.add_sub_cancel_left, getElem?_eq_getElem hk]

/-- **Insertion is first-arrival-wins and canonical.** -/
theorem insertReassemblyFragment_firstArrival (hcanonical : c.CanonicalFragments)
    (hbelow : ∀ f ∈ c.outOfOrder, ahead c.rcvNxt f.sequenceStart + f.payload.length < 2 ^ 31)
    (hend : ahead c.rcvNxt start + payload.length < 2 ^ 31) :
    (insertReassemblyFragment c start payload).CanonicalFragments ∧
      FirstArrival start payload c.outOfOrder
        (insertReassemblyFragment c start payload).outOfOrder := by
  have hok : BufferOk c.rcvNxt c.outOfOrder :=
    hcanonical.bufferOk fun f hf => (hbelow f hf).trans (by decide)
  by_cases hne : payload = []
  · rw [hne, insertReassemblyFragment_nil hok]
    exact ⟨hcanonical, FirstArrival.nil start c.outOfOrder⟩
  · have hend : ahead c.rcvNxt start + payload.length < 2 ^ 32 := hend.trans (by decide)
    exact ⟨(hok.insertReassemblyFragment hne hend).canonicalFragments,
      firstArrival_of_bufferOk hok hne hend⟩

end Insert

/-- A payload across the end of the sequence space, around two fragments: the bytes 2, 3 and 6 that were
    there first stay, and the three runs around them join with them. -/
theorem insertReassemblyFragment_firstArrival_example : let c : Connection :=
      { state := .established, localIsn := 0, rcvNxt := 0xfffffffd
        outOfOrder := [⟨0, [2, 3]⟩, ⟨3, [6]⟩] }
    let payload : List Byte := [101, 102, 103, 104, 105, 106, 107]
    (insertReassemblyFragment c 0xffffffff payload).outOfOrder =
        [⟨0xffffffff, [101, 2, 3, 104, 6, 106, 107]⟩] ∧
      missingRuns c.outOfOrder 0xffffffff payload = {(0, 1), (3, 4), (5, 7)} ∧
      (insertReassemblyFragment c 0xffffffff payload).CanonicalFragments ∧
      FirstArrival 0xffffffff payload c.outOfOrder
        (insertReassemblyFragment c 0xffffffff payload).outOfOrder := by
  refine ⟨by decide +kernel, by decide +kernel, ?_⟩
  refine insertReassemblyFragment_firstArrival ⟨?_, ?_, ?_⟩ ?_ ?_
  · decide
  · decide
  · decide
  · decide
  · decide

end Wirestack
