import Wirestack.Tcp.Entries

set_option autoImplicit false

/-! # The SACK scoreboard

Which sequence numbers of the retransmission queue are marked as held by the peer, and where a mark
can come from. Marks survive trimming and every retransmission, a timeout clears them, and new ones
are set in one place only: `applySackBlocks`, from the blocks of the acknowledgment being processed.
The blocks are validated, merged and compared by signed differences of sequence numbers; over offsets
less than half the circle apart these comparisons are exact. -/

namespace Wirestack

open SerialNumber List PendingTransmission

variable {ack x : SeqNum} {b : TcpSackBlock} {S : List Byte} {u : ℕ} {segment : TcpSegment}
  {options : TcpParsedOptions}

variable {e : PendingTransmission} {c : Connection} {blocks : List TcpSackBlock}

/-! ## Marks -/

/-- The entry carries the byte numbered `x`. -/
def PendingTransmission.Spans (e : PendingTransmission) (x : SeqNum) : Prop :=
  ∃ i < e.payload.length, x = pos e.sequenceStart i

/-- Every mark in `q` was already a mark in `p`, on an entry with at least the same bytes. -/
structure MarksFrom (p q : List PendingTransmission) : Prop where
  source : ∀ e' ∈ q, e'.sacked = true → ∃ e ∈ p, e.sacked = true ∧ ∀ x, e'.Spans x → e.Spans x

theorem PendingTransmission.spans_of_trimTo (h : (e.trimTo ack).Spans x) : e.Spans x := by
  obtain ⟨i, hi, rfl⟩ := h
  have hack : ack = pos e.sequenceStart (ack - e.sequenceStart).toNat :=
    (pos_ahead e.sequenceStart ack).symm
  unfold trimTo at hi ⊢
  rw [length_drop] at hi
  refine ⟨(ack - e.sequenceStart).toNat + i, by omega, ?_⟩
  rw [← pos_pos, ← hack]

theorem EntryUpdate.marks {e' : PendingTransmission} (h : EntryUpdate e e') :
    (e'.sacked = true → e.sacked = true) ∧ ∀ x, e'.Spans x → e.Spans x := by
  cases h with
  | trimmed ack => exact ⟨id, fun _ => spans_of_trimTo⟩
  | sampled | sentAgain now | recovered now | cleared => exact ⟨id, fun _ hx => hx⟩
  | collapsed => exact ⟨fun hmark => absurd hmark Bool.false_ne_true, fun _ hx => hx⟩
  | backedOff now => exact ⟨id, fun _ hx => hx⟩

theorem MarksFrom.of_rewrites {rto : Duration} {p q : List PendingTransmission}
    (h : Rewrites rto p q) : MarksFrom p q := by
  refine ⟨fun e' he' hmark => ?_⟩
  obtain ⟨e, hsource, hchain⟩ := h.source e' he'
  have hkept : (e'.sacked = true → e.sacked = true) ∧ ∀ x, e'.Spans x → e.Spans x := by
    clear he' hmark
    induction hchain with
    | refl => exact ⟨id, fun _ hx => hx⟩
    | tail _ hstep ih =>
      obtain ⟨hsacked, hspans⟩ := hstep.marks
      exact ⟨fun hmark => ih.1 (hsacked hmark), fun x hx => ih.2 x (hspans x hx)⟩
  rcases hsource with he | hfresh
  · exact ⟨e, he, hkept.1 hmark, hkept.2⟩
  · have hnot := hkept.1 hmark
    simp [hfresh.sacked] at hnot

theorem CallKept.marks {key : TcpConnectionKey} {c' : Connection} {e : Event}
    (h : CallKept key c e c') :
    MarksFrom c.pending c'.pending ∨
    ∃ segment result options now, e = .handle segment result ∧ c.state.synchronized = true ∧
      Processes c segment options ∧
      MarksFrom (afterRetire c segment options now).pending c'.pending := by
  rcases h.rewrites with hrewrites | ⟨segment, result, options, now, he, hsync, hproc, hrewrites⟩
  · exact .inl (.of_rewrites hrewrites)
  · exact .inr ⟨segment, result, options, now, he, hsync, hproc, .of_rewrites hrewrites⟩

/-! ## New marks -/

/-- A block whose edges are offsets of the stream that starts at `first`, all of it in `H`. -/
structure TrueBlock (first : SeqNum) (H : ℕ → Prop) (b : TcpSackBlock) : Prop where
  exact : ∃ l r, b.leftEdge = pos first l ∧ b.rightEdge = pos first r ∧ l ≤ 2 ^ 30 ∧ r ≤ 2 ^ 30 ∧
    ∀ k, l ≤ k → k < r → H k

theorem TrueBlock.mono {first : SeqNum} {H H' : ℕ → Prop} (h : TrueBlock first H b)
    (himp : ∀ k, H k → H' k) : TrueBlock first H' b := by
  obtain ⟨l, r, hleft, hright, hl, hr, hall⟩ := h
  exact ⟨l, r, hleft, hright, hl, hr, fun k hlk hkr => himp k (hall k hlk hkr)⟩

section Blocks

variable {first : SeqNum} {H : ℕ → Prop}

theorem TrueBlock.merge {back : TcpSackBlock} (hback : TrueBlock first H back)
    (hb : TrueBlock first H b) (htouch : sequenceGreater b.leftEdge back.rightEdge = false) :
    TrueBlock first H { back with rightEdge := sequenceMax back.rightEdge b.rightEdge } := by
  obtain ⟨l, r, hleft, hright, hl, hr, hall⟩ := hback
  obtain ⟨l', r', hleft', hright', hl', hr', hall'⟩ := hb
  rw [hleft', hright, sequenceGreater_pos first (by omega) (by omega), decide_eq_false_iff_not] at htouch
  have hmax : sequenceMax back.rightEdge b.rightEdge = pos first (max r r') := by
    rw [sequenceMax, hright, hright', sequenceGreater_pos first (by omega) (by omega)]
    by_cases hlt : r' < r
    · rw [if_pos (by simpa using hlt), max_eq_left hlt.le]
    · rw [if_neg (by simpa using hlt), max_eq_right (not_lt.1 hlt)]
  refine ⟨l, max r r', hleft, hmax, hl, by omega, fun k hlk hkr => ?_⟩
  by_cases hkr' : k < r
  · exact hall k hlk hkr'
  · exact hall' k (by omega) (by omega)

theorem TrueBlock.mergeInto :
    ∀ {back : TcpSackBlock}, TrueBlock first H back → (∀ b ∈ blocks, TrueBlock first H b) →
    ∀ m ∈ mergeSackBlocksInto back blocks, TrueBlock first H m := by
  induction blocks with
  | nil =>
    intro back hback _ m hm
    rwa [mem_singleton.1 hm]
  | cons b rest ih =>
    intro back hback hblocks m hm
    have hb := hblocks b (mem_cons_self ..)
    have hrest : ∀ b' ∈ rest, TrueBlock first H b' :=
      fun b' hb' => hblocks b' (mem_cons_of_mem b hb')
    rw [mergeSackBlocksInto] at hm
    split at hm
    · next htouch => exact ih (hback.merge hb (by simpa using htouch)) hrest m hm
    · rcases mem_cons.1 hm with rfl | hm
      · exact hback
      · exact ih hb hrest m hm

theorem TrueBlock.mergeSackBlocks (h : ∀ b ∈ blocks, TrueBlock first H b) :
    ∀ m ∈ mergeSackBlocks blocks, TrueBlock first H m := by
  cases blocks with
  | nil => exact fun m hm => nomatch hm
  | cons b rest =>
    exact TrueBlock.mergeInto (h b (mem_cons_self ..)) fun b' hb' => h b' (mem_cons_of_mem b hb')

theorem sackCovers_held {merged : List TcpSackBlock} (h : ∀ m ∈ merged, TrueBlock first H m)
    (hsyn : e.isSyn = false) (hfin : e.isFin = false) {k : ℕ}
    (hstart : e.sequenceStart = pos first k) (hend : k + e.payload.length ≤ 2 ^ 30)
    (hcovers : sackCovers merged e = true) (hx : e.Spans x) : ∃ j, x = pos first j ∧ H j := by
  obtain ⟨m, hm, hin⟩ := any_eq_true.1 hcovers
  obtain ⟨l, r, hleft, hright, hl, hr, hall⟩ := h m hm
  obtain ⟨i, hi, rfl⟩ := hx
  have hstop : e.sequenceEnd = pos first (k + e.payload.length) := by
    rw [sequenceEnd, hsyn, hfin, hstart, ← pos_add_ofNat]
    simp
  rw [Bool.and_eq_true, hleft, hstart, hstop, hright,
    sequenceLessOrEqual_pos first (by omega) (by omega),
    sequenceLessOrEqual_pos first (by omega) (by omega), decide_eq_true_eq, decide_eq_true_eq] at hin
  exact ⟨k + i, by rw [hstart, pos_pos], hall _ (by omega) (by omega)⟩

/-- Where the entries of the queue lie in the stream that starts at `first`. -/
def Placed (first : SeqNum) (pending : List PendingTransmission) : Prop :=
  ∀ e ∈ pending, e.payload ≠ [] →
    ∃ k, e.sequenceStart = pos first k ∧ k + e.payload.length ≤ 2 ^ 30

theorem applySackBlocks_marks (hplaced : Placed first c.pending)
    (hblocks : ∀ b ∈ blocks, TrueBlock first H b)
    (hold : ∀ e ∈ c.pending, e.sacked = true → ∀ x, e.Spans x → ∃ k, x = pos first k ∧ H k) :
    ∀ e ∈ (applySackBlocks c ack blocks).pending, e.sacked = true →
      ∀ x, e.Spans x → ∃ k, x = pos first k ∧ H k := by
  unfold applySackBlocks
  dsimp only
  split
  · exact hold
  · have hsorted : ∀ b ∈ (usableSackBlocks ack c.sndNxt blocks).insertionSort
        fun a b => ¬ sequenceGreater a.leftEdge b.leftEdge, TrueBlock first H b :=
      fun b hb => hblocks b (mem_of_mem_filter ((mem_insertionSort _).1 hb))
    have hmerged := TrueBlock.mergeSackBlocks hsorted
    intro e' he' hmark x hx
    obtain ⟨e, he, rfl⟩ := mem_map.1 he'
    by_cases hskip : (e.isSyn || e.isFin || e.sacked) = true
    · rw [if_pos hskip] at hmark hx
      exact hold e he hmark x hx
    · rw [if_neg hskip] at hmark hx
      simp only [Bool.or_eq_true, not_or, Bool.not_eq_true] at hskip
      obtain ⟨⟨hsyn, hfin⟩, hsacked⟩ := hskip
      split at hmark
      · next hcovers =>
        rw [if_pos hcovers] at hx
        have hne : e.payload ≠ [] := by
          obtain ⟨i, hi, -⟩ := hx
          exact ne_nil_of_length_pos (lt_of_le_of_lt (Nat.zero_le i) hi)
        obtain ⟨k, hstart, hend⟩ := hplaced e he hne
        exact sackCovers_held hmerged hsyn hfin hstart hend hcovers hx
      · simp [hsacked] at hmark

theorem Synced.placed_afterRetire (h : Synced S u c) (hS : S.length < 2 ^ 30)
    (hproc : Processes c segment options) (now : TimePoint) : Placed (c.localIsn + 1)
      (retireAcknowledged c segment.acknowledgmentNumber now).1.pending := by
  obtain ⟨u', -, hinv⟩ := h.send.retire hproc.inSent
  have hview := retireAcknowledged_view c segment.acknowledgmentNumber now
  rw [← show (retireAcknowledged c segment.acknowledgmentNumber now).1.view.send =
    c.view.send.retire segment.acknowledgmentNumber from congrArg View.send hview] at hinv
  have hisn : (retireAcknowledged c segment.acknowledgmentNumber now).1.localIsn = c.localIsn := by
    rw [retireAcknowledged_shape]
  intro e he hne
  obtain ⟨k, hstart, hslice⟩ := hinv.data_slice (e := e.outstanding) (mem_map_of_mem he) hne
  refine ⟨k, ?_, ?_⟩
  · rwa [← hisn]
  · have hlen := hslice.length_le
    rw [length_drop] at hlen
    have hpos : 0 < e.payload.length := length_pos_iff.2 hne
    change e.payload.length ≤ S.length - k at hlen
    omega

theorem Synced.marks_afterRetire (h : Synced S u c) (hS : S.length < 2 ^ 30)
    (hproc : Processes c segment options) (now : TimePoint)
    (hblocks : ∀ b ∈ options.sackBlocks, TrueBlock (c.localIsn + 1) H b)
    (hold : ∀ e ∈ c.pending, e.sacked = true → ∀ x, e.Spans x → ∃ k, x = pos (c.localIsn + 1) k ∧ H
      k) : ∀ e ∈ (afterRetire c segment options now).pending, e.sacked = true →
      ∀ x, e.Spans x → ∃ k, x = pos (c.localIsn + 1) k ∧ H k := by
  have hretired : ∀ e ∈ (retireAcknowledged c segment.acknowledgmentNumber now).1.pending,
      e.sacked = true → ∀ x, e.Spans x → ∃ k, x = pos (c.localIsn + 1) k ∧ H k := by
    intro e' he' hmark x hx
    have hmarks : MarksFrom c.pending
        (retireAcknowledged c segment.acknowledgmentNumber now).1.pending :=
      .of_rewrites (retireAcknowledged_rewrites c.currentRto c segment.acknowledgmentNumber now)
    obtain ⟨e, he, hsacked, hspans⟩ := hmarks.source e' he' hmark
    exact hold e he hsacked x (hspans x hx)
  unfold afterRetire
  dsimp only
  split
  · exact applySackBlocks_marks (h.placed_afterRetire hS hproc now) hblocks hretired
  · exact hretired

end Blocks

end Wirestack
