import Mathlib.Data.Prod.Lex
import Wirestack.Lib.LatestMaximum
import Wirestack.Tcp.Sequence
import Wirestack.Tcp.Replay

set_option autoImplicit false

/-! # Window updates in any order of arrival

`updateSendWindow` compares a segment with the one that last set the window, by sequence number and
then by acknowledgment number. The comparisons are signed differences and no order, but as long as
the numbers span less than half the space they agree with the lexicographic order of the offsets from
a common base (`windowRank`). The send window is then a register that keeps the latest of the highest
advertisements (`updateSendWindow_eq`). -/

namespace Wirestack

open SerialNumber LatestMaximum List Connection

/-! ## Advertisements in order -/

/-- The numbers span less than half the sequence space, counted from `base`. -/
def SpanFrom (base : SeqNum) (numbers : List SeqNum) : Prop := ∀ x ∈ numbers, ahead base x < 2 ^ 31

section Comparisons

variable {base a b : SeqNum} (ha : ahead base a < 2 ^ 31) (hb : ahead base b < 2 ^ 31)

include ha hb

theorem sequenceGreater_ahead : sequenceGreater a b = decide (ahead base b < ahead base a) := by
  have h := sequenceGreater_pos base (i := ahead base a) (j := ahead base b) (by omega) (by omega)
  rwa [pos_ahead, pos_ahead] at h

theorem sequenceLessOrEqual_ahead :
    sequenceLessOrEqual a b = decide (ahead base a ≤ ahead base b) := by
  have h := sequenceLessOrEqual_pos base (i := ahead base a) (j := ahead base b) (by omega)
    (by omega)
  rwa [pos_ahead, pos_ahead] at h

end Comparisons

theorem ahead_inj {base a b : SeqNum} (h : ahead base a = ahead base b) : a = b := by
  rw [← pos_ahead base a, h, pos_ahead]

/-- The sequence and acknowledgment number that a window came with. -/
def TcpSegment.windowPair (segment : TcpSegment) : SeqNum × SeqNum :=
  (segment.sequenceNumber, segment.acknowledgmentNumber)

def Connection.windowPair (c : Connection) : SeqNum × SeqNum := (c.sndWl1, c.sndWl2)

/-- The place of a pair in the lexicographic order, with offsets from the two bases. -/
def windowRank (seqBase ackBase : SeqNum) (p : SeqNum × SeqNum) : ℕ ×ₗ ℕ :=
  toLex (ahead seqBase p.1, ahead ackBase p.2)

theorem windowRank_inj {seqBase ackBase : SeqNum} {p q : SeqNum × SeqNum}
    (h : windowRank seqBase ackBase p = windowRank seqBase ackBase q) : p = q := by
  obtain ⟨hseq, hack⟩ := Prod.mk.inj (toLex.injective h)
  exact Prod.ext (ahead_inj hseq) (ahead_inj hack)

/-! ## The send window as a register -/

/-- A window with the pair that it came with. -/
structure WindowAdvertisement where
  pair : SeqNum × SeqNum
  window : ℕ

def Connection.sendWindow (c : Connection) : WindowAdvertisement := ⟨c.windowPair, c.sndWnd⟩

/-- What a segment advertises to the connection. -/
def Connection.advertised (c : Connection) (segment : TcpSegment) : WindowAdvertisement :=
  ⟨segment.windowPair, c.decodePeerWindow segment.windowSize⟩

def Connection.withSendWindow (c : Connection) (w : WindowAdvertisement) : Connection :=
  { c with
    sndWnd := w.window
    sndWl1 := w.pair.1
    sndWl2 := w.pair.2 }

/-- The pairs span less than half the space in both numbers. -/
structure PairsSpan (seqBase ackBase : SeqNum) (pairs : List (SeqNum × SeqNum)) : Prop where
  sequence : SpanFrom seqBase (pairs.map Prod.fst)
  ack : SpanFrom ackBase (pairs.map Prod.snd)

theorem PairsSpan.subset {seqBase ackBase : SeqNum} {pairs pairs' : List (SeqNum × SeqNum)}
    (h : PairsSpan seqBase ackBase pairs) (hsub : pairs' ⊆ pairs) :
    PairsSpan seqBase ackBase pairs' where
  sequence := fun x hx => h.sequence x (map_subset _ hsub hx)
  ack := fun x hx => h.ack x (map_subset _ hsub hx)

section Register

variable {seqBase ackBase : SeqNum}

theorem updateSendWindow_eq {c : Connection} {segment : TcpSegment}
    (hspan : PairsSpan seqBase ackBase [c.windowPair, segment.windowPair]) :
    c.updateSendWindow segment = c.withSendWindow
      (keep (fun w => windowRank seqBase ackBase w.pair) c.sendWindow (c.advertised segment)) := by
  have hwl1 : ahead seqBase c.sndWl1 < 2 ^ 31 := hspan.sequence _ (by simp [windowPair])
  have hseq : ahead seqBase segment.sequenceNumber < 2 ^ 31 :=
    hspan.sequence _ (by simp [TcpSegment.windowPair])
  have hwl2 : ahead ackBase c.sndWl2 < 2 ^ 31 := hspan.ack _ (by simp [windowPair])
  have hack : ahead ackBase segment.acknowledgmentNumber < 2 ^ 31 :=
    hspan.ack _ (by simp [TcpSegment.windowPair])
  have hsame : segment.sequenceNumber = c.sndWl1 ↔
      ahead seqBase c.sndWl1 = ahead seqBase segment.sequenceNumber :=
    ⟨fun h => by rw [h], fun h => (ahead_inj h).symm⟩
  have haccept : (sequenceGreater segment.sequenceNumber c.sndWl1 ||
      (segment.sequenceNumber == c.sndWl1 &&
        sequenceLessOrEqual c.sndWl2 segment.acknowledgmentNumber)) = true ↔
      windowRank seqBase ackBase c.sendWindow.pair ≤
        windowRank seqBase ackBase (c.advertised segment).pair := by
    rw [sequenceGreater_ahead hseq hwl1, sequenceLessOrEqual_ahead hwl2 hack, windowRank, windowRank,
      Prod.Lex.toLex_le_toLex]
    simp only [Bool.or_eq_true, Bool.and_eq_true, decide_eq_true_eq, beq_iff_eq, hsame]
    rfl
  unfold updateSendWindow keep
  by_cases h : windowRank seqBase ackBase c.sendWindow.pair ≤
      windowRank seqBase ackBase (c.advertised segment).pair
  · rw [if_pos (haccept.2 h), if_pos h]
    rfl
  · rw [if_neg fun hguard => h (haccept.1 hguard), if_neg h]
    rfl

theorem foldl_updateSendWindow_eq (segments : List TcpSegment) : ∀ c : Connection,
      PairsSpan seqBase ackBase (c.windowPair :: segments.map TcpSegment.windowPair) →
      segments.foldl updateSendWindow c = c.withSendWindow
        ((segments.map c.advertised).foldl (keep fun w => windowRank seqBase ackBase w.pair)
          c.sendWindow) := by
  induction segments with
  | nil => exact fun _ _ => rfl
  | cons segment rest ih =>
    intro c hspan
    have hfirst : PairsSpan seqBase ackBase [c.windowPair, segment.windowPair] :=
      hspan.subset (by simp)
    rw [foldl_cons, map_cons, foldl_cons, updateSendWindow_eq hfirst]
    have hkept : keep (fun w => windowRank seqBase ackBase w.pair) c.sendWindow
          (c.advertised segment) = c.sendWindow ∨
        keep (fun w => windowRank seqBase ackBase w.pair) c.sendWindow
          (c.advertised segment) = c.advertised segment := by
      unfold keep
      split
      · exact .inr rfl
      · exact .inl rfl
    generalize keep (fun w => windowRank seqBase ackBase w.pair) c.sendWindow
      (c.advertised segment) = w at hkept ⊢
    -- The register now holds `w`, one of the two; nothing else of the connection has changed.
    refine ih (c.withSendWindow w) (hspan.subset ?_)
    rw [map_cons]
    rcases hkept with rfl | rfl
    · exact cons_subset_cons _ (subset_cons_self ..)
    · exact subset_cons_self ..

end Register

/-! ## Any order of arrival -/

/-- **Window updates.** The window ends up as the latest of the newest advertisements. -/
theorem updateSendWindow_newest {c : Connection} {segments : List TcpSegment}
    {seqBase ackBase : SeqNum}
    (hseq : SpanFrom seqBase (c.sndWl1 :: segments.map (·.sequenceNumber)))
    (hack : SpanFrom ackBase (c.sndWl2 :: segments.map (·.acknowledgmentNumber))) :
    (segments.foldl updateSendWindow c).windowPair ∈
      c.windowPair :: segments.map TcpSegment.windowPair ∧
    (∀ p ∈ c.windowPair :: segments.map TcpSegment.windowPair, windowRank seqBase ackBase p ≤
      windowRank seqBase ackBase (segments.foldl updateSendWindow c).windowPair) ∧
    (((segments.foldl updateSendWindow c).sndWnd = c.sndWnd ∧ ∀ s ∈ segments,
          s.windowPair ≠ (segments.foldl updateSendWindow c).windowPair) ∨
      ∃ before newest after, segments = before ++ newest :: after ∧
        newest.windowPair = (segments.foldl updateSendWindow c).windowPair ∧
        (segments.foldl updateSendWindow c).sndWnd = c.decodePeerWindow newest.windowSize ∧
        ∀ s ∈ after, s.windowPair ≠ (segments.foldl updateSendWindow c).windowPair) ∧
    ∀ segments' : List TcpSegment, segments'.Perm segments →
      (segments.map TcpSegment.windowPair).Nodup →
      segments'.foldl updateSendWindow c = segments.foldl updateSendWindow c := by
  have hspan : PairsSpan seqBase ackBase (c.windowPair :: segments.map TcpSegment.windowPair) := by
    refine ⟨?_, ?_⟩
    · rwa [map_cons, map_map]
    · rwa [map_cons, map_map]
  have hlatest := latest_foldl_keep (fun w : WindowAdvertisement =>
    windowRank seqBase ackBase w.pair) c.sendWindow (segments.map c.advertised)
  have hpairs : (c.sendWindow :: segments.map c.advertised).map WindowAdvertisement.pair =
      c.windowPair :: segments.map TcpSegment.windowPair := by
    rw [map_cons, map_map]
    rfl
  have hfold := foldl_updateSendWindow_eq segments c hspan
  refine ⟨?_, ?_, ?_, fun segments' hperm hnodup => ?_⟩
  · rw [hfold, ← hpairs]
    exact mem_map_of_mem hlatest.mem
  · rw [hfold, ← hpairs]
    intro p hp
    obtain ⟨w, hw, rfl⟩ := mem_map.1 hp
    exact hlatest.le hw
  · rw [hfold]
    generalize (segments.map c.advertised).foldl (keep fun w => windowRank seqBase ackBase w.pair)
      c.sendWindow = m at hlatest ⊢
    have hlower : ∀ s, windowRank seqBase ackBase (c.advertised s).pair <
        windowRank seqBase ackBase m.pair → s.windowPair ≠ m.pair := by
      intro s hlt hsame
      exact absurd hlt (not_lt.2 (le_of_eq (congrArg (windowRank seqBase ackBase) hsame.symm)))
    rcases hlatest.head_or with ⟨rfl, hall⟩ | ⟨before, after, hlist, -, hafter⟩
    · exact .inl ⟨rfl, fun s hs => hlower s (hall _ (mem_map_of_mem hs))⟩
    · obtain ⟨first, rest, hsegments, -, hrest⟩ := map_eq_append_iff.1 hlist
      obtain ⟨newest, last, hnewest, rfl, hlast⟩ := map_eq_cons_iff.1 hrest
      refine .inr ⟨first, newest, last, by rw [hsegments, hnewest], rfl, rfl, fun s hs => ?_⟩
      refine hlower s (hafter _ ?_)
      rw [← hlast]
      exact mem_map_of_mem hs
  · have hspan' : PairsSpan seqBase ackBase (c.windowPair :: segments'.map TcpSegment.windowPair) :=
      hspan.subset (cons_subset_cons _ (hperm.map _).subset)
    rw [hfold, foldl_updateSendWindow_eq segments' c hspan']
    refine congrArg c.withSendWindow (foldl_keep_perm c.sendWindow (hperm.map _) ?_)
    intro x hx y hy hrank
    obtain ⟨s, hs, rfl⟩ := mem_map.1 hx
    obtain ⟨s', hs', rfl⟩ := mem_map.1 hy
    rw [inj_on_of_nodup_map hnodup hs hs' (windowRank_inj hrank)]

/-- A connection whose window was last set shortly before the sequence numbers wrap around. -/
def exampleBeforeWrap : Connection :=
  { activeConnection 1000 with
    sndWl1 := 4294967290
    sndWl2 := 1001
    sndWnd := 100 }

/-- Two advertisements, one on either side of the wraparound. -/
def exampleAdvertisements : List TcpSegment :=
  [{ exampleSegment 4294967292 [] with windowSize := 900 },
    { exampleSegment 5 [] with windowSize := 500 }]

/-- Whichever arrives first, the window is that of the segment behind the wraparound. -/
theorem updateSendWindow_newest_example : SpanFrom 4294967290
      (exampleBeforeWrap.sndWl1 :: exampleAdvertisements.map (·.sequenceNumber)) ∧
    SpanFrom 1001 (exampleBeforeWrap.sndWl2 :: exampleAdvertisements.map (·.acknowledgmentNumber)) ∧
    (exampleAdvertisements.foldl updateSendWindow exampleBeforeWrap).sndWnd = 500 ∧
    (exampleAdvertisements.reverse.foldl updateSendWindow exampleBeforeWrap).sndWnd = 500 := by
  have hseq : SpanFrom 4294967290
      (exampleBeforeWrap.sndWl1 :: exampleAdvertisements.map (·.sequenceNumber)) := by
    intro x hx
    simp only [exampleBeforeWrap, exampleAdvertisements, exampleSegment, map_cons,
      map_nil, mem_cons, not_mem_nil, or_false] at hx
    rcases hx with rfl | rfl | rfl
    · decide
    · decide
    · decide
  have hack : SpanFrom 1001
      (exampleBeforeWrap.sndWl2 :: exampleAdvertisements.map (·.acknowledgmentNumber)) := by
    intro x hx
    simp only [exampleBeforeWrap, exampleAdvertisements, exampleSegment, map_cons,
      map_nil, mem_cons, not_mem_nil, or_false, or_self] at hx
    rw [hx]
    decide
  have hwindow : (exampleAdvertisements.foldl updateSendWindow exampleBeforeWrap).sndWnd = 500 := by
    decide
  have horder := (updateSendWindow_newest hseq hack).2.2.2 exampleAdvertisements.reverse
    (reverse_perm _) (by decide)
  exact ⟨hseq, hack, hwindow, (congrArg sndWnd horder).trans hwindow⟩

end Wirestack
