import Wirestack.Lib.Intervals
import Wirestack.Tcp.Scoreboard
import Wirestack.Tcp.SendProperties

set_option autoImplicit false

/-! # What a SACK report covers

`applySackBlocks` compares edges by signed differences. Written as offsets from the cumulative
acknowledgment (`TcpSackBlock.offsets`), the blocks that pass its tests are the usable ones and those
that reach around the circle. The latter all start behind `snd_nxt`. So sorting, merging and the
coverage test are exact on the offsets (`reportedBlocks_eq`, `sackCovers_iff`), and blocks of the
second kind cover nothing that was sent. -/

namespace Wirestack

open SerialNumber Intervals PendingTransmission

variable {r : ℕ × ℕ} {o s : ℕ} {c : Connection} {ack : SeqNum}

variable {b : TcpSackBlock} {e : PendingTransmission}

/-! ## Blocks as intervals of offsets -/

/-- The block has the sequence number `x` in it. -/
def TcpSackBlock.Contains (b : TcpSackBlock) (x : SeqNum) : Prop :=
  ∃ i < ahead b.leftEdge b.rightEdge, x = pos b.leftEdge i

/-- The block lies behind the acknowledgment and ends at or before `nxt`. -/
def TcpSackBlock.Usable (ack nxt : SeqNum) (b : TcpSackBlock) : Prop :=
  0 < ahead ack b.leftEdge ∧ ahead ack b.leftEdge < ahead ack b.rightEdge ∧
    ahead ack b.rightEdge ≤ ahead ack nxt

/-- The edges as offsets from the acknowledgment, walking on from the left edge to the right one. -/
def TcpSackBlock.offsets (ack : SeqNum) (b : TcpSackBlock) : ℕ × ℕ :=
  (ahead ack b.leftEdge, ahead ack b.leftEdge + ahead b.leftEdge b.rightEdge)

/-- The block at the given offsets. -/
def blockAt (ack : SeqNum) (r : ℕ × ℕ) : TcpSackBlock :=
  { leftEdge := pos ack r.1, rightEdge := pos ack r.2 }

@[simp]
theorem blockAt_offsets (ack : SeqNum) (b : TcpSackBlock) : blockAt ack (b.offsets ack) = b := by
  unfold blockAt TcpSackBlock.offsets
  rw [← pos_pos, pos_ahead, pos_ahead]

/-- What the tests of `applySackBlocks` let through: `n` is the offset of `snd_nxt`. -/
structure PassesTests (n : ℕ) (r : ℕ × ℕ) : Prop where
  start_pos : 0 < r.1
  start_lt : r.1 < 2 ^ 31
  nonempty : r.1 < r.2
  length_lt : r.2 < r.1 + 2 ^ 31
  inside : r.2 ≤ n ∨ n + 2 ^ 31 ≤ r.2

theorem PassesTests.stop_le {n : ℕ} (h : PassesTests n r) (ho : o ≤ n) (hwithin : Within r o) :
    r.2 ≤ n := by
  have hlength := h.length_lt
  have hlo := hwithin.1
  rcases h.inside with hinside | haround
  · exact hinside
  · omega

section

variable {ack nxt : SeqNum}

theorem not_sequenceGreater_nxt_iff (hhalf : ahead ack nxt < 2 ^ 31)
    (hstart : ahead ack b.leftEdge < 2 ^ 31) (hlength : ahead b.leftEdge b.rightEdge < 2 ^ 31) :
    sequenceGreater b.rightEdge nxt = false ↔
      (b.offsets ack).2 ≤ ahead ack nxt ∨ ahead ack nxt + 2 ^ 31 ≤ (b.offsets ack).2 := by
  have hright : b.rightEdge = pos ack (b.offsets ack).2 :=
    (congrArg TcpSackBlock.rightEdge (blockAt_offsets ack b)).symm
  have hlt : (b.offsets ack).2 < 2 ^ 32 := by
    show ahead ack b.leftEdge + ahead b.leftEdge b.rightEdge < _
    omega
  generalize (b.offsets ack).2 = r at hright hlt ⊢
  rw [hright, ← Bool.not_eq_true, sequenceGreater_iff, ← pos_ahead ack nxt]
  generalize ahead ack nxt = n at hhalf ⊢
  rcases Nat.le_total n r with hle | hle
  · obtain ⟨d, rfl⟩ := Nat.exists_eq_add_of_le hle
    rw [← pos_pos, ahead_pos _ (by omega), ahead_pos _ (by omega)]
    omega
  · rw [ahead_pos _ (by omega : n < 2 ^ 32), ← sequenceGreater_iff,
      sequenceGreater_pos ack (by omega) (by omega), decide_eq_true_eq]
    omega

theorem mem_usableSackBlocks {blocks : List TcpSackBlock} (hhalf : ahead ack nxt < 2 ^ 31) :
    b ∈ usableSackBlocks ack nxt blocks ↔
      b ∈ blocks ∧ PassesTests (ahead ack nxt) (b.offsets ack) := by
  rw [usableSackBlocks, List.mem_filter, Bool.and_eq_true, Bool.and_eq_true, Bool.not_eq_true', sequenceGreater_iff,
    sequenceGreater_iff]
  refine and_congr_right fun _ => ?_
  constructor
  · rintro ⟨⟨⟨hpos, hlt⟩, hne, hlength⟩, hnxt⟩
    exact
      { start_pos := hpos
        start_lt := hlt
        nonempty := Nat.lt_add_of_pos_right hne
        length_lt := Nat.add_lt_add_left hlength _
        inside := (not_sequenceGreater_nxt_iff hhalf hlt hlength).1 hnxt }
  · intro h
    have hne : 0 < ahead b.leftEdge b.rightEdge := Nat.lt_add_right_iff_pos.1 h.nonempty
    have hlength : ahead b.leftEdge b.rightEdge < 2 ^ 31 := Nat.lt_of_add_lt_add_left h.length_lt
    exact ⟨⟨⟨h.start_pos, h.start_lt⟩, hne, hlength⟩,
      (not_sequenceGreater_nxt_iff hhalf h.start_lt hlength).2 h.inside⟩

theorem usable_iff (hhalf : ahead ack nxt < 2 ^ 31) : b.Usable ack nxt ↔
      PassesTests (ahead ack nxt) (b.offsets ack) ∧ (b.offsets ack).2 ≤ ahead ack nxt := by
  have hedge : pos ack (b.offsets ack).2 = b.rightEdge :=
    congrArg TcpSackBlock.rightEdge (blockAt_offsets ack b)
  constructor
  · rintro ⟨hpos, hlt, hle⟩
    have hoffset : (b.offsets ack).2 = ahead ack b.rightEdge := by
      have hright' := ahead_pos_base ack b.rightEdge hlt.le
      rw [pos_ahead] at hright'
      show ahead ack b.leftEdge + ahead b.leftEdge b.rightEdge = _
      omega
    rw [hoffset]
    refine ⟨⟨hpos, ?_, ?_, ?_, ?_⟩, hle⟩
    · show ahead ack b.leftEdge < _
      omega
    · rwa [hoffset]
    · rw [hoffset]
      show _ < ahead ack b.leftEdge + _
      omega
    · rw [hoffset]
      exact .inl hle
  · rintro ⟨h, hle⟩
    have hright : ahead ack b.rightEdge = (b.offsets ack).2 := by
      rw [← hedge, ahead_pos ack (by omega)]
    refine ⟨h.start_pos, ?_, ?_⟩
    · rw [hright]
      exact h.nonempty
    · rwa [hright]

/-! ## Merging -/

theorem mergeSackBlocksInto_at {rest : List (ℕ × ℕ)} :
    ∀ {back : ℕ × ℕ}, (back :: rest).Pairwise (fun a b => a.1 ≤ b.1) → back.1 < back.2 →
    (∀ r ∈ rest, r.1 < 2 ^ 31 ∧ r.1 < r.2 ∧ r.2 < r.1 + 2 ^ 31) →
    (∀ r ∈ rest, back.2 < r.1 + 2 ^ 31) →
    mergeSackBlocksInto (blockAt ack back) (rest.map (blockAt ack)) =
      (mergeInto back rest).map (blockAt ack) := by
  induction rest with
  | nil => exact fun _ _ _ _ => rfl
  | cons r rest ih =>
    intro back hsorted hback hrest hnear
    obtain ⟨hstart, hsorted'⟩ := List.pairwise_cons.1 hsorted
    obtain ⟨hle, hrest'⟩ := List.pairwise_cons.1 hsorted'
    obtain ⟨hlt, hne, hlength⟩ := hrest r List.mem_cons_self
    have hreach := hnear r List.mem_cons_self
    have hlater : ∀ r' ∈ rest, r.2 < r'.1 + 2 ^ 31 := fun r' hr' => by
      have := hle r' hr'
      omega
    have htest : (!sequenceGreater (blockAt ack r).leftEdge (blockAt ack back).rightEdge) =
        true ↔ r.1 ≤ back.2 := by
      rw [Bool.not_eq_true', ← not_lt, ← decide_eq_false_iff_not]
      exact Eq.congr (sequenceGreater_pos ack (by omega) (by omega)) rfl
    have htail : ∀ r' ∈ rest, r'.1 < 2 ^ 31 ∧ r'.1 < r'.2 ∧ r'.2 < r'.1 + 2 ^ 31 :=
      fun r' hr' => hrest r' (List.mem_cons_of_mem r hr')
    rw [List.map_cons, mergeSackBlocksInto, mergeInto]
    by_cases htouch : r.1 ≤ back.2
    · have hmax : sequenceMax (blockAt ack back).rightEdge (blockAt ack r).rightEdge =
          pos ack (max back.2 r.2) := by
        show sequenceMax (pos ack back.2) (pos ack r.2) = _
        rw [sequenceMax, sequenceGreater_pos ack (by omega) (by omega)]
        by_cases hlt' : r.2 < back.2
        · rw [if_pos (by simpa using hlt'), max_eq_left hlt'.le]
        · rw [if_neg (by simpa using hlt'), max_eq_right (not_lt.1 hlt')]
      rw [if_pos (htest.2 htouch), if_pos htouch, hmax]
      have hsorted'' : ((back.1, max back.2 r.2) :: rest).Pairwise (fun a b => a.1 ≤ b.1) :=
        List.pairwise_cons.2 ⟨fun r' hr' => hstart r' (List.mem_cons_of_mem r hr'), hrest'⟩
      refine ih hsorted'' (by dsimp only; omega) htail fun r' hr' => ?_
      have hfar := hnear r' (List.mem_cons_of_mem r hr')
      have hfar' := hlater r' hr'
      omega
    · rw [if_neg (htest.not.2 htouch), if_neg htouch, List.map_cons]
      exact congrArg _ (ih hsorted' hne htail hlater)

/-- The blocks `applySackBlocks` looks for an entry in. -/
def reportedBlocks (ack nxt : SeqNum) (blocks : List TcpSackBlock) : List TcpSackBlock :=
  mergeSackBlocks ((usableSackBlocks ack nxt blocks).insertionSort
    fun a b => ¬ sequenceGreater a.leftEdge b.leftEdge)

/-- The offsets of the blocks that pass the tests, in ascending order. -/
def reportedOffsets (ack nxt : SeqNum) (blocks : List TcpSackBlock) : List (ℕ × ℕ) :=
  ((usableSackBlocks ack nxt blocks).map (TcpSackBlock.offsets ack)).insertionSort
    fun a b => a.1 ≤ b.1

section

variable {blocks : List TcpSackBlock} (hhalf : ahead ack nxt < 2 ^ 31)

include hhalf

theorem mem_reportedOffsets : r ∈ reportedOffsets ack nxt blocks ↔
      PassesTests (ahead ack nxt) r ∧ ∃ b ∈ blocks, b.offsets ack = r := by
  rw [reportedOffsets, List.mem_insertionSort, List.mem_map]
  constructor
  · rintro ⟨b, hb, rfl⟩
    obtain ⟨hmem, hpasses⟩ := (mem_usableSackBlocks hhalf).1 hb
    exact ⟨hpasses, b, hmem, rfl⟩
  · rintro ⟨hpasses, b, hmem, rfl⟩
    exact ⟨b, (mem_usableSackBlocks hhalf).2 ⟨hmem, hpasses⟩, rfl⟩

theorem ascending_reportedOffsets : Ascending (reportedOffsets ack nxt blocks) where
  nonempty r hr := ((mem_reportedOffsets hhalf).1 hr).1.nonempty
  sorted := by
    have : Std.Total fun a b : ℕ × ℕ => a.1 ≤ b.1 := ⟨fun a b => Nat.le_total a.1 b.1⟩
    have : IsTrans (ℕ × ℕ) fun a b => a.1 ≤ b.1 := ⟨fun _ _ _ => Nat.le_trans⟩
    exact List.pairwise_insertionSort _ _

theorem reportedBlocks_eq : reportedBlocks ack nxt blocks =
      (merge (reportedOffsets ack nxt blocks)).map (blockAt ack) := by
  have hsort : ((usableSackBlocks ack nxt blocks).insertionSort
      fun a b => ¬ sequenceGreater a.leftEdge b.leftEdge).map (TcpSackBlock.offsets ack) =
      reportedOffsets ack nxt blocks := by
    refine List.map_insertionSort _ _ _ _ fun a ha b hb => ?_
    have hla := ((mem_usableSackBlocks hhalf).1 ha).2.start_lt
    have hlb := ((mem_usableSackBlocks hhalf).1 hb).2.start_lt
    have hgreater : sequenceGreater a.leftEdge b.leftEdge =
        decide ((b.offsets ack).1 < (a.offsets ack).1) := by
      conv_lhs => rw [← blockAt_offsets ack a, ← blockAt_offsets ack b]
      exact sequenceGreater_pos ack (by omega) (by omega)
    rw [hgreater, decide_eq_true_eq, not_lt]
  have hblocks : (usableSackBlocks ack nxt blocks).insertionSort
      (fun a b => ¬ sequenceGreater a.leftEdge b.leftEdge) =
      (reportedOffsets ack nxt blocks).map (blockAt ack) := by
    rw [← hsort, List.map_map]
    exact (List.map_id'' (fun b => blockAt_offsets ack b) _).symm
  have hascending : Ascending (reportedOffsets ack nxt blocks) := ascending_reportedOffsets hhalf
  have hpasses : ∀ r ∈ reportedOffsets ack nxt blocks, PassesTests (ahead ack nxt) r :=
    fun r hr => ((mem_reportedOffsets hhalf).1 hr).1
  rw [reportedBlocks, hblocks]
  generalize reportedOffsets ack nxt blocks = ranges at hascending hpasses ⊢
  cases ranges with
  | nil => rfl
  | cons back rest =>
    have hback := hpasses back List.mem_cons_self
    refine mergeSackBlocksInto_at hascending.sorted hback.nonempty (fun r hr => ?_) fun r hr => ?_
    · have hr' := hpasses r (List.mem_cons_of_mem back hr)
      exact ⟨hr'.start_lt, hr'.nonempty, hr'.length_lt⟩
    · have hle := (List.pairwise_cons.1 hascending.sorted).1 r hr
      have hlength := hback.length_lt
      omega

/-! ## Coverage -/

theorem merge_stop_le {g : ℕ × ℕ} (hg : g ∈ merge (reportedOffsets ack nxt blocks))
    (hstart : g.1 < ahead ack nxt) : g.2 ≤ ahead ack nxt := by
  by_contra hbeyond
  obtain ⟨r, hr, hwithin⟩ := (mem_merge (ascending_reportedOffsets hhalf) _).1
    ⟨g, hg, hstart.le, not_le.1 hbeyond⟩
  have hstop := ((mem_reportedOffsets hhalf).1 hr).1.stop_le le_rfl hwithin
  exact absurd hwithin.2 (not_lt.2 hstop)

theorem sackCovers_merge_iff {t : ℕ} (hstart : e.sequenceStart = pos ack s)
    (hend : e.sequenceEnd = pos ack t) (hlt : s < t) (hstop : t ≤ ahead ack nxt) :
    sackCovers (reportedBlocks ack nxt blocks) e = true ↔
      ∃ g ∈ merge (reportedOffsets ack nxt blocks), g.1 ≤ s ∧ t ≤ g.2 := by
  rw [sackCovers, reportedBlocks_eq hhalf, List.any_map, List.any_eq_true]
  refine exists_congr fun g => and_congr_right fun hg => ?_
  obtain ⟨r, hr, hfirst⟩ := merge_start hg
  have hbelow := ((mem_reportedOffsets hhalf).1 hr).1.start_lt
  show (sequenceLessOrEqual (pos ack g.1) e.sequenceStart &&
    sequenceLessOrEqual e.sequenceEnd (pos ack g.2)) = true ↔ _
  rw [hstart, hend, sequenceLessOrEqual_pos ack (by omega) (by omega), Bool.and_eq_true,
    decide_eq_true_eq]
  refine and_congr_right fun hle => ?_
  -- Only now is the block known to end within reach of the second comparison.
  have hinside := merge_stop_le hhalf hg (by omega)
  rw [sequenceLessOrEqual_pos ack (by omega) (by omega), decide_eq_true_eq]

theorem within_merge_iff (ho : o < ahead ack nxt) :
    (∃ g ∈ merge (reportedOffsets ack nxt blocks), Within g o) ↔
      ∃ b ∈ blocks, b.Usable ack nxt ∧ b.Contains (pos ack o) := by
  rw [mem_merge (ascending_reportedOffsets hhalf)]
  constructor
  · rintro ⟨r, hr, hwithin⟩
    obtain ⟨hpasses, b, hb, rfl⟩ := (mem_reportedOffsets hhalf).1 hr
    obtain ⟨k, hk⟩ : ∃ k, o = ahead ack b.leftEdge + k := Nat.exists_eq_add_of_le hwithin.1
    have hinside := hpasses.stop_le ho.le hwithin
    refine ⟨b, hb, (usable_iff hhalf).2 ⟨hpasses, hinside⟩, k, ?_, ?_⟩
    · have hlt : o < ahead ack b.leftEdge + ahead b.leftEdge b.rightEdge := hwithin.2
      omega
    · rw [hk, ← pos_pos, pos_ahead]
  · rintro ⟨b, hb, husable, k, hk, hx⟩
    obtain ⟨hpasses, hinside⟩ := (usable_iff hhalf).1 husable
    have hright : (b.offsets ack).2 = ahead ack b.leftEdge + ahead b.leftEdge b.rightEdge := rfl
    have hoffset : o = ahead ack b.leftEdge + k := by
      refine pos_inj ack (by omega) (by omega) ?_
      rw [hx, ← pos_pos, pos_ahead]
    refine ⟨b.offsets ack, (mem_reportedOffsets hhalf).2 ⟨hpasses, b, hb, rfl⟩, ?_⟩
    rw [hoffset]
    exact ⟨Nat.le_add_right _ _, Nat.add_lt_add_left hk _⟩

theorem sackCovers_iff (hsyn : e.isSyn = false) (hfin : e.isFin = false) (hne : e.payload ≠ [])
    (hstart : e.sequenceStart = pos ack s) (hstop : s + e.payload.length ≤ ahead ack nxt) :
    sackCovers (reportedBlocks ack nxt blocks) e = true ↔
      ∀ x, e.Spans x → ∃ b ∈ blocks, b.Usable ack nxt ∧ b.Contains x := by
  have hlt : s < s + e.payload.length := Nat.lt_add_of_pos_right (List.length_pos_iff.2 hne)
  have hend : e.sequenceEnd = pos ack (s + e.payload.length) := by
    rw [sequenceEnd, hsyn, hfin, hstart, ← pos_add_ofNat]
    simp
  rw [sackCovers_merge_iff hhalf hstart hend hlt hstop,
    ← (ascending_reportedOffsets hhalf).gaps_merge.covers_iff hlt]
  constructor
  · rintro hall x ⟨i, hi, rfl⟩
    rw [hstart, pos_pos]
    exact (within_merge_iff hhalf (by omega)).1 (hall (s + i) (Nat.le_add_right s i) (by omega))
  · intro hall o hlo hhi
    obtain ⟨i, rfl⟩ := Nat.exists_eq_add_of_le hlo
    refine (within_merge_iff hhalf (by omega)).2 ?_
    rw [← pos_pos, ← hstart]
    exact hall _ ⟨i, by omega, rfl⟩

end

end

/-! ## The scoreboard after a report -/

/-- The queue covers what is in flight: every entry takes up sequence numbers, each one starts where
    the one before it ends, and together they are as long as the flight. -/
structure QueueTiles (c : Connection) : Prop where
  tiled : Tiled c.sndUna (c.pending.map outstanding) c.sndNxt
  occupied : ∀ e ∈ c.pending, 0 < e.span
  length : (c.pending.map span).sum = ahead c.sndUna c.sndNxt

theorem QueueTiles.placed (h : QueueTiles c) (hack : ahead ack c.sndUna ≤ ahead ack c.sndNxt)
    (he : e ∈ c.pending) : ∃ s, e.sequenceStart = pos ack s ∧ s + e.span ≤ ahead ack c.sndNxt := by
  obtain ⟨p, rest, hsplit⟩ := List.append_of_mem he
  have htiled := h.tiled
  have hlength := h.length
  have hflight := ahead_pos_base ack c.sndNxt hack
  rw [pos_ahead] at hflight
  rw [hsplit, List.map_append, List.map_cons] at htiled
  rw [hsplit, List.map_append, List.map_cons, List.sum_append, List.sum_cons,
    sum_span_eq p] at hlength
  refine ⟨ahead ack c.sndUna + (cells (p.map outstanding)).length, ?_, ?_⟩
  · rw [← pos_pos, pos_ahead]
    exact htiled.start_of_append
  · omega

/-- The usable blocks of the report cover the whole entry. -/
def CoveredBy (ack nxt : SeqNum) (blocks : List TcpSackBlock) (e : PendingTransmission) : Prop :=
  ∀ x, e.Spans x → ∃ b ∈ blocks, b.Usable ack nxt ∧ b.Contains x

/-- Whether an entry is marked after the report. -/
def markedAfter (ack nxt : SeqNum) (blocks : List TcpSackBlock) (e : PendingTransmission) : Bool :=
  e.sacked || (!e.isSyn && !e.isFin && sackCovers (reportedBlocks ack nxt blocks) e)

theorem applySackBlocks_eq (c : Connection) (ack : SeqNum) (blocks : List TcpSackBlock) :
    applySackBlocks c ack blocks = { c with
        pending := c.pending.map fun e =>
          { e with sacked := markedAfter ack c.sndNxt blocks e } } := by
  have hentry : ∀ e : PendingTransmission, (if e.isSyn || e.isFin || e.sacked then e
        else if sackCovers (reportedBlocks ack c.sndNxt blocks) e then { e with sacked := true }
        else e) = { e with sacked := markedAfter ack c.sndNxt blocks e } := by
    intro e
    obtain ⟨_, syn, _, fin, _, _, _, _, _, _, _, _, sacked, _⟩ := e
    unfold markedAfter
    generalize sackCovers _ _ = covered
    cases syn <;> cases fin <;> cases sacked <;> cases covered <;> rfl
  unfold applySackBlocks
  dsimp only
  split_ifs with hempty
  · have hnone : reportedBlocks ack c.sndNxt blocks = [] := by
      rw [reportedBlocks, List.isEmpty_iff.1 hempty]
      rfl
    have hid : (c.pending.map fun e =>
        { e with sacked := markedAfter ack c.sndNxt blocks e }) = c.pending := by
      refine List.map_id'' (fun e => ?_) _
      rw [← hentry, hnone, if_neg (show ¬sackCovers [] e = true from Bool.false_ne_true), ite_self]
    rw [hid]
  · exact congrArg (fun pending => { c with pending := pending })
      (List.map_congr_left fun e _ => hentry e)

theorem QueueTiles.markedAfter_iff (h : QueueTiles c)
    (hack : ahead ack c.sndUna ≤ ahead ack c.sndNxt) (hhalf : ahead ack c.sndNxt < 2 ^ 31)
    (he : e ∈ c.pending) (blocks : List TcpSackBlock) : markedAfter ack c.sndNxt blocks e = true ↔
      e.sacked = true ∨ e.isSyn = false ∧ e.isFin = false ∧ CoveredBy ack c.sndNxt blocks e := by
  rw [markedAfter, Bool.or_eq_true, Bool.and_eq_true, Bool.and_eq_true, Bool.not_eq_true', Bool.not_eq_true',
    and_assoc]
  refine or_congr_right (and_congr_right fun hsyn => and_congr_right fun hfin => ?_)
  obtain ⟨s, hstart, hstop⟩ := h.placed hack he
  have hoccupied := h.occupied e he
  have hspan : e.span = e.payload.length := by
    rw [span, hsyn, hfin]
    rfl
  rw [hspan] at hstop hoccupied
  exact sackCovers_iff hhalf hsyn hfin (List.length_pos_iff.1 hoccupied) hstart hstop

/-- **A report marks exactly the data entries it covers**, whatever else is in it, and changes
    nothing else; so neither the order of the blocks nor repetitions matter. -/
theorem applySackBlocks_exact (c : Connection) (htiles : QueueTiles c) (ack : SeqNum)
    (hack : ahead ack c.sndUna ≤ ahead ack c.sndNxt) (hhalf : ahead ack c.sndNxt < 2 ^ 31)
    (blocks : List TcpSackBlock) :
    (∃ marked : PendingTransmission → Bool, applySackBlocks c ack blocks =
        { c with pending := c.pending.map fun e => { e with sacked := marked e } } ∧
      ∀ e ∈ c.pending, marked e = true ↔
        e.sacked = true ∨ e.isSyn = false ∧ e.isFin = false ∧ CoveredBy ack c.sndNxt blocks e) ∧
    ∀ blocks', (∀ b, b ∈ blocks' ↔ b ∈ blocks) →
      applySackBlocks c ack blocks' = applySackBlocks c ack blocks := by
  constructor
  · exact ⟨markedAfter ack c.sndNxt blocks, applySackBlocks_eq c ack blocks,
      fun e he => htiles.markedAfter_iff hack hhalf he blocks⟩
  · intro blocks' hsame
    have hmarked : ∀ e ∈ c.pending,
        markedAfter ack c.sndNxt blocks' e = markedAfter ack c.sndNxt blocks e := by
      intro e he
      rw [Bool.eq_iff_iff, htiles.markedAfter_iff hack hhalf he,
        htiles.markedAfter_iff hack hhalf he]
      simp only [CoveredBy, hsame]
    rw [applySackBlocks_eq, applySackBlocks_eq]
    refine congrArg (fun pending => { c with pending := pending }) (List.map_congr_left ?_)
    intro e he
    rw [hmarked e he]

/-- Three entries of two bytes each and the FIN. -/
def exampleFlight : Connection :=
  { state := .finWait1
    localIsn := 99
    sndUna := 100
    sndNxt := 107
    pending :=
      [{ sequenceStart := 100, payload := [1, 2], firstSentAt := 0, lastSentAt := 0 },
        { sequenceStart := 102, payload := [3, 4], firstSentAt := 0, lastSentAt := 0 },
        { sequenceStart := 104, payload := [5, 6], firstSentAt := 0, lastSentAt := 0 },
        { sequenceStart := 106, isFin := true, firstSentAt := 0, lastSentAt := 0 }] }

/-- Two blocks that touch cover the second entry between them. The block that reaches around the
    circle passes the tests and marks nothing. -/
theorem applySackBlocks_exact_example : ∃ marked : PendingTransmission → Bool,
      applySackBlocks exampleFlight 100 [⟨0x7fffffff, 0xfffffff0⟩, ⟨103, 105⟩, ⟨101, 103⟩] =
        { exampleFlight with
          pending := exampleFlight.pending.map fun e => { e with sacked := marked e } } ∧
      (exampleFlight.pending.map marked) = [false, true, false, false] := by
  obtain ⟨⟨marked, hresult, -⟩, -⟩ := applySackBlocks_exact exampleFlight
    { tiled := ⟨rfl, rfl, rfl, rfl, rfl⟩, occupied := by decide, length := by decide } 100
    (by decide) (by decide)
    [⟨0x7fffffff, 0xfffffff0⟩, ⟨103, 105⟩, ⟨101, 103⟩]
  refine ⟨marked, hresult, ?_⟩
  have hmarks := congrArg (fun c => c.pending.map (·.sacked)) hresult
  dsimp only at hmarks
  rw [List.map_map] at hmarks
  exact hmarks.symm.trans (by decide +kernel)

end Wirestack
