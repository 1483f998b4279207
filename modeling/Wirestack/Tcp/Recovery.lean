import Wirestack.Tcp.SackAdvisory
import Wirestack.Tcp.Survival

set_option autoImplicit false

/-! # Loss recovery

What fast recovery sends again. The queue tiles the sequence numbers in flight, and the mark of an
entry says whether it was sent again in the current episode. Partial acknowledgments break that
reading: the trimmed rest of an entry loses its mark and may be sent again. It then starts at a
sequence number that was strictly inside the entry, and no segment of the episode has started there.

`Ledgered sent c` keeps the starts of an episode together with the queue in this way: a start that
lies in a queued entry is the start of that entry, and the entry is marked (`Settled`). Retirement,
SACK marks and new entries keep it, and recovery extends it by a start that is not in it. -/

namespace Wirestack

open SerialNumber List Connection PendingTransmission

variable {c' : Connection} {memory : ℕ → Byte} {outcome : Connection × TcpReceiveResult}

variable {stop ack : SeqNum} {q : List Outstanding} {sent : List SeqNum} {e : PendingTransmission}
  {c : Connection} {key : TcpConnectionKey} {now : TimePoint} {segment : TcpSegment}
  {options : TcpParsedOptions}

/-! ## Places in the queue -/

theorem length_cells_cons (e : Outstanding) (rest : List Outstanding) :
    (cells (e :: rest)).length = e.span + (cells rest).length := by
  rw [cells_cons, length_append, e.length_cells]

theorem Outstanding.pos_sequenceEnd (e : Outstanding) (l : ℕ) :
    pos e.sequenceEnd l = pos e.sequenceStart (e.span + l) := by
  rw [← pos_pos]
  rfl

theorem Tiled.place :
    ∀ {start : SeqNum} {j : ℕ} {b : Outstanding}, Tiled start q stop → q[j]? = some b →
    ∃ l, b.sequenceStart = pos start l ∧ l + b.span ≤ (cells q).length := by
  induction q with
  | nil => exact nofun
  | cons e rest ih =>
    intro start j b htiled hb
    obtain ⟨hstart, hrest⟩ := htiled
    rw [length_cells_cons]
    cases j with
    | zero =>
      cases hb
      exact ⟨0, by rw [hstart, pos_zero], by omega⟩
    | succ j =>
      obtain ⟨l, hl, hle⟩ := ih hrest hb
      exact ⟨e.span + l, by rw [hl, e.pos_sequenceEnd, hstart], by omega⟩

theorem Tiled.apart : ∀ {start : SeqNum} {i j : ℕ} {a b : Outstanding}, Tiled start q stop → i < j →
    q[i]? = some a → q[j]? = some b →
    ∃ k l, a.sequenceStart = pos start k ∧ b.sequenceStart = pos start l ∧ k + a.span ≤ l ∧
      l + b.span ≤ (cells q).length := by
  induction q with
  | nil => exact nofun
  | cons e rest ih =>
    intro start i j a b htiled hij ha hb
    obtain ⟨hstart, hrest⟩ := htiled
    rw [length_cells_cons]
    have hshift : ∀ {x : SeqNum} {l : ℕ}, x = pos e.sequenceEnd l → x = pos start (e.span + l) := by
      intro x l hx
      rw [hx, e.pos_sequenceEnd, hstart]
    obtain ⟨j, rfl⟩ : ∃ j', j = j' + 1 := ⟨j - 1, by omega⟩
    cases i with
    | zero =>
      cases ha
      obtain ⟨l, hl, hle⟩ := hrest.place hb
      exact ⟨0, e.span + l, by rw [hstart, pos_zero], hshift hl, by omega, by omega⟩
    | succ i =>
      obtain ⟨k, l, hk, hl, hkl, hle⟩ := ih hrest (by omega) ha hb
      exact ⟨e.span + k, e.span + l, hshift hk, hshift hl, by omega, by omega⟩

theorem Tiled.span_le_ahead {start : SeqNum} (h : Tiled start q stop)
    (hspan : (cells q).length < 2 ^ 31) {i j : ℕ} (hij : i ≠ j) {a b : Outstanding}
    (ha : q[i]? = some a) (hb : q[j]? = some b) (hne : 0 < a.span) :
    b.span ≤ ahead b.sequenceStart a.sequenceStart := by
  rcases Nat.lt_or_gt_of_ne hij with hlt | hgt
  · obtain ⟨k, l, hk, hl, hkl, hle⟩ := h.apart hlt ha hb
    have hbehind : b.sequenceStart = pos a.sequenceStart (l - k) := by
      rw [hl, hk, pos_pos, Nat.add_sub_cancel' (by omega)]
    have hahead : ahead a.sequenceStart b.sequenceStart = l - k := by
      rw [hbehind, ahead_pos _ (by omega)]
    rw [ahead_swap (by omega)]
    omega
  · obtain ⟨l, k, hl, hk, hlk, hle⟩ := h.apart hgt hb ha
    have hbehind : a.sequenceStart = pos b.sequenceStart (k - l) := by
      rw [hl, hk, pos_pos, Nat.add_sub_cancel' (by omega)]
    rw [hbehind, ahead_pos _ (by omega)]
    omega

/-! ## The ledger of an episode -/

/-- A start of the episode that lies in the entry is the start of the entry, which is marked. -/
def Settled (sent : List SeqNum) (e : PendingTransmission) : Prop :=
  ∀ s ∈ sent, ahead e.sequenceStart s < e.span →
    s = e.sequenceStart ∧ e.retransmittedInRecovery = true

theorem Settled.congr {e' : PendingTransmission} (h : Settled sent e)
    (hout : e'.outstanding = e.outstanding)
    (hmark : e.retransmittedInRecovery = true → e'.retransmittedInRecovery = true) :
    Settled sent e' := by
  have hstart : e'.sequenceStart = e.sequenceStart := congrArg Outstanding.sequenceStart hout
  have hspan : e'.span = e.span := congrArg Outstanding.span hout
  intro s hs hlt
  rw [hstart, hspan] at hlt
  obtain ⟨hsame, hmarked⟩ := h s hs hlt
  exact ⟨hsame.trans hstart.symm, hmark hmarked⟩

theorem Settled.trimTo (h : Settled sent e) (hsent : e.outstanding.Sent) (hspan : e.span < 2 ^ 31)
    (hend : sequenceLessOrEqual e.sequenceEnd ack = false)
    (hstart : sequenceGreater ack e.sequenceStart = true) : Settled sent (e.trimTo ack) := by
  obtain ⟨d, rfl, hpos, hlt⟩ := trim_offset hspan hend hstart
  intro s hs hin
  rw [trimTo_span hsent hspan hpos hlt] at hin
  change ahead (pos e.sequenceStart d) s < e.span - d at hin
  have hs' : s = pos e.sequenceStart (d + ahead (pos e.sequenceStart d) s) := by
    rw [← pos_pos, pos_ahead]
  have hahead : ahead e.sequenceStart s = d + ahead (pos e.sequenceStart d) s := by
    conv_lhs => rw [hs']
    exact ahead_pos _ (by omega)
  obtain ⟨hsame, -⟩ := h s hs (by omega)
  rw [hsame, ahead_self] at hahead
  omega

/-- `sent` are the starts of what was sent again in this episode. -/
structure Ledgered (sent : List SeqNum) (c : Connection) : Prop where
  nodup : sent.Nodup
  below : ∀ s ∈ sent, ∃ a, c.recoveryPoint = pos s a ∧ 0 < a ∧ a ≤ kTcpSendBufferCapacity + 1
  settled : ∀ e ∈ c.pending, Settled sent e

theorem Ledgered.empty (c : Connection) : Ledgered [] c where
  nodup := nodup_nil
  below := nofun
  settled := fun _ _ _ h => nomatch h

/-- The recovery point lies ahead of what is acknowledged and is not beyond what was sent. -/
def PointAhead (c : Connection) : Prop :=
  ∃ k, c.recoveryPoint = pos c.sndUna k ∧ 0 < k ∧ k ≤ (cells c.view.send.queue).length

theorem PointAhead.pending_ne_nil (h : PointAhead c) : c.pending ≠ [] := by
  obtain ⟨k, -, hpos, hle⟩ := h
  intro hnil
  have hqueue : c.view.send.queue = [] := by
    show c.pending.map outstanding = []
    rw [hnil]
    rfl
  rw [hqueue] at hle
  exact absurd hle (by simp only [cells, flatMap_nil, length_nil]; omega)

/-! ## Sending again -/

/-- What is known of a segment that recovery has just sent again. -/
structure SentAgain (c : Connection) (segment : TcpSegment) : Prop where
  range : ahead c.sndUna segment.sequenceNumber < ahead c.sndUna c.recoveryPoint
  entry : ∃ e ∈ c.pending, e.sequenceStart = segment.sequenceNumber ∧ e.payload = segment.payload ∧
    e.isSyn = false ∧ e.isFin = false ∧ e.sacked = false

def starts (segment : Option TcpSegment) : List SeqNum := (segment.map (·.sequenceNumber)).toList

/-- A stage of a call during an episode, with what it sends again. -/
structure RecoveryStage (sent : List SeqNum) (outcome : Connection × Option TcpSegment) : Prop where
  ledger : Ledgered (sent ++ starts outcome.2) outcome.1
  point : PointAhead outcome.1
  resent : ∀ segment, outcome.2 = some segment → SentAgain outcome.1 segment

theorem RecoveryStage.silent (hledger : Ledgered sent c) (hpoint : PointAhead c) :
    RecoveryStage sent (c, none) where
  ledger := by rwa [show starts none = [] from rfl, append_nil]
  point := hpoint
  resent := nofun

section Stages

variable {S : List Byte} {u : ℕ} {sent : List SeqNum} {c : Connection}

theorem SendInv.entry_span_pos (h : SendInv S u c.view.send) (he : e ∈ c.pending) : 0 < e.span := by
  have hne := (h.sent e.outstanding (mem_map_of_mem he)).cells_ne_nil
  have hlength : e.outstanding.cells.length = e.span := e.outstanding.length_cells
  rw [← hlength]
  exact length_pos_iff.2 hne

theorem Ledgered.mark (h : Ledgered sent c) (hsend : SendInv S u c.view.send) {index : ℕ}
    {entry : PendingTransmission} (hindex : c.pending[index]? = some entry) (now : TimePoint) :
    ∀ e ∈ c.pending.modify index fun e =>
      { e with wasRetransmitted := true, retransmittedInRecovery := true, lastSentAt := now },
    Settled (sent ++ [entry.sequenceStart]) e := by
  have hmem := mem_of_getElem? hindex
  intro e' he' s hs hlt
  obtain ⟨j, hj⟩ := mem_iff_getElem?.1 he'
  rw [getElem?_modify] at hj
  obtain ⟨e, he, rfl⟩ := Option.map_eq_some_iff.1 hj
  by_cases hij : index = j
  · subst hij
    rw [if_pos rfl] at hlt ⊢
    obtain rfl : entry = e := Option.some.inj (hindex.symm.trans he)
    rcases mem_append.1 hs with hs | hs
    · exact ⟨(h.settled entry hmem s hs hlt).1, rfl⟩
    · exact ⟨mem_singleton.1 hs, rfl⟩
  · rw [if_neg hij] at hlt ⊢
    rcases mem_append.1 hs with hs | hs
    · exact h.settled e (mem_of_getElem? he) s hs hlt
    · have hat : ∀ {i : ℕ} {e : PendingTransmission}, c.pending[i]? = some e →
          c.view.send.queue[i]? = some e.outstanding := by
        intro i e hi
        show (c.pending.map outstanding)[i]? = some e.outstanding
        rw [getElem?_map, hi]
        rfl
      have hapart : e.span ≤ ahead e.sequenceStart entry.sequenceStart :=
        hsend.tiled.span_le_ahead hsend.span_lt hij (hat hindex) (hat he)
          (hsend.entry_span_pos hmem)
      rw [mem_singleton.1 hs] at hlt
      exact absurd hlt (not_lt.2 hapart)

theorem RecoveryStage.retransmit (hledger : Ledgered sent c) (hpoint : PointAhead c)
    (hsend : SendInv S u c.view.send) (key : TcpConnectionKey) (now : TimePoint) :
    RecoveryStage sent (retransmitForRecovery key c now) := by
  have hview := (retransmitForRecovery_spec key c now).1
  unfold retransmitForRecovery at hview ⊢
  split at hview
  · exact .silent hledger hpoint
  · next index entry hselect =>
    have hselected := selectRecoveryRetransmission_spec hselect
    have hmem := mem_of_getElem? hselected.index
    have hspan := hsend.span_le
    have hhalf := hsend.span_lt
    obtain ⟨k, hk, hpos, hle⟩ := hpoint
    -- The entry starts `i` cells ahead of `sndUna`, and the recovery point lies further ahead.
    obtain ⟨i, hi, hentry⟩ : ∃ i, entry.sequenceStart = pos c.sndUna i ∧
        i + entry.span ≤ (cells c.view.send.queue).length := by
      obtain ⟨j, hj⟩ := mem_iff_getElem?.1 (mem_map_of_mem (f := outstanding) hmem)
      exact hsend.tiled.place hj
    have hik : i < k := by
      have hbelow := hselected.below
      rwa [hk, hi, sequenceGreater_pos _ (by omega) (by omega), decide_eq_true_eq] at hbelow
    have hfresh : entry.sequenceStart ∉ sent := by
      intro hs
      have hin : ahead entry.sequenceStart entry.sequenceStart < entry.span := by
        rw [ahead_self]
        exact hsend.entry_span_pos hmem
      have hmarked := (hledger.settled entry hmem _ hs hin).2
      simp [hselected.retransmittedInRecovery] at hmarked
    refine ⟨⟨?_, ?_, hledger.mark hsend hselected.index now⟩, ⟨k, hk, hpos, ?_⟩, ?_⟩
    · refine nodup_append.2 ⟨hledger.nodup, nodup_singleton _, fun s hs s' hs' hsame => ?_⟩
      rw [hsame, mem_singleton.1 hs'] at hs
      exact hfresh hs
    · intro s hs
      rcases mem_append.1 hs with hs | hs
      · exact hledger.below s hs
      · refine ⟨k - i, ?_, by omega, by omega⟩
        rw [mem_singleton.1 hs]
        show c.recoveryPoint = pos entry.sequenceStart (k - i)
        rw [hk, hi, pos_pos, Nat.add_sub_cancel' hik.le]
    · rwa [hview]
    · rintro segment ⟨rfl⟩
      refine ⟨?_, { entry with
        wasRetransmitted := true
        retransmittedInRecovery := true
        lastSentAt := now }, mem_of_getElem? (i := index) ?_, rfl, rfl, hselected.isSyn,
        hselected.isFin, hselected.sacked⟩
      · show ahead c.sndUna entry.sequenceStart < ahead c.sndUna c.recoveryPoint
        rwa [hk, hi, ahead_pos _ (by omega), ahead_pos _ (by omega)]
      · show (c.pending.modify index _)[index]? = _
        rw [getElem?_modify, hselected.index]
        simp

/-! ## Acknowledgment processing -/

theorem PointAhead.retire (h : PointAhead c) (hsend : SendInv S u c.view.send)
    (hle : sequenceLessOrEqual ack c.sndNxt = true)
    (hnotFull : sequenceGreater ack c.sndUna = true → sequenceLessOrEqual c.recoveryPoint ack = false)
    {d : Connection} (hpoint : d.recoveryPoint = c.recoveryPoint)
    (hview : d.view.send = c.view.send.retire ack) : PointAhead d := by
  obtain ⟨k, hk, hpos, hkle⟩ := h
  have huna : d.sndUna = (c.view.send.retire ack).sndUna := congrArg SendView.sndUna hview
  have hspan := hsend.span_lt
  rw [PointAhead, hpoint, hview, huna]
  unfold SendView.retire
  by_cases hgt : sequenceGreater ack c.sndUna = true
  · rw [if_pos (show sequenceGreater ack c.view.send.sndUna = true from hgt)]
    obtain ⟨d, rfl, hd, hdle⟩ := hsend.ack_offset hgt hle
    obtain ⟨-, -, hcells⟩ := retireQueue_spec hsend.tiled hsend.sent hdle hspan
    have hbefore := hnotFull hgt
    have huna₀ : c.view.send.sndUna = c.sndUna := rfl
    rw [hk, huna₀, sequenceLessOrEqual_pos _ (by omega) (by omega), decide_eq_false_iff_not,
      not_le] at hbefore
    refine ⟨k - d, ?_, by omega, ?_⟩
    · dsimp only
      rw [hk, huna₀, pos_pos, Nat.add_sub_cancel' hbefore.le]
    · dsimp only
      rw [hcells, length_drop]
      omega
  · rw [if_neg (show ¬ sequenceGreater ack c.view.send.sndUna = true from hgt)]
    exact ⟨k, hk, hpos, hkle⟩

theorem Ledgered.retire (h : Ledgered sent c) (hsend : SendInv S u c.view.send) (ack : SeqNum)
    (now : TimePoint) : ∀ e ∈ (retireAcknowledged c ack now).1.pending, Settled sent e := by
  have hretired := retireAcknowledged_retirement c ack now
  generalize (retireAcknowledged c ack now).1.pending = after at hretired ⊢
  cases hretired with
  | whole retired _ hpending =>
    intro e he
    exact h.settled e (hpending ▸ mem_append_right _ he)
  | trimmed retired rest e taken hpending hend hstart =>
    have hmem : e ∈ c.pending := by
      rw [hpending]
      exact mem_append_right _ (mem_cons_self ..)
    intro e' he'
    rcases mem_cons.1 he' with rfl | he'
    · have htrimmed := (h.settled e hmem).trimTo (hsend.sent _ (mem_map_of_mem hmem))
        (hsend.entry_span_lt hmem) hend hstart
      exact htrimmed.congr rfl id
    · refine h.settled e' ?_
      rw [hpending]
      exact mem_append_right _ (mem_cons_of_mem _ he')

theorem Ledgered.afterRetire (h : Ledgered sent c) (hsend : SendInv S u c.view.send)
    (segment : TcpSegment) (options : TcpParsedOptions) (now : TimePoint) :
    Ledgered sent ((afterRetire c segment options now).updateSendWindow segment) := by
  have hretire := h.retire hsend segment.acknowledgmentNumber now
  have hsettled : ∀ e ∈ (Wirestack.afterRetire c segment options now).pending, Settled sent e := by
    unfold Wirestack.afterRetire
    dsimp only
    split
    · rw [applySackBlocks_eq]
      intro e' he'
      obtain ⟨e, he, rfl⟩ := mem_map.1 he'
      exact (hretire e he).congr rfl id
    · exact hretire
  rw [updateSendWindow_shape]
  refine ⟨h.nodup, ?_, hsettled⟩
  rw [afterRetire_shape]
  exact h.below

theorem RecoveryStage.onAdvancingAck (hledger : Ledgered sent c) (hsend : SendInv S u c.view.send)
    (hrecovery : c.inFastRecovery = true)
    (hpoint : sequenceLessOrEqual c.recoveryPoint ack = false → PointAhead c)
    {retired : TcpAckRetirementResult}
    (hstays : (onAdvancingAck key c ack retired now).1.inFastRecovery = true) :
    RecoveryStage sent (onAdvancingAck key c ack retired now) := by
  unfold Wirestack.onAdvancingAck at hstays ⊢
  dsimp only at hstays ⊢
  rw [if_pos hrecovery] at hstays ⊢
  by_cases hfull : sequenceLessOrEqual c.recoveryPoint ack = true
  · simp [if_pos hfull] at hstays
  · rw [if_neg hfull]
    apply RecoveryStage.retransmit
    · exact ⟨hledger.nodup, hledger.below, hledger.settled⟩
    · exact hpoint (by simpa using hfull)
    · exact hsend

theorem RecoveryStage.onStandingAck (hledger : Ledgered sent c) (hpoint : PointAhead c)
    (hsend : SendInv S u c.view.send) (hrecovery : c.inFastRecovery = true) (key : TcpConnectionKey)
    (segment : TcpSegment) (windowChanged : Bool) (now : TimePoint) :
    RecoveryStage sent (onStandingAck key c segment windowChanged now) := by
  unfold Wirestack.onStandingAck
  dsimp only
  split
  · split
    · apply RecoveryStage.retransmit
      · exact ⟨hledger.nodup, hledger.below, hledger.settled⟩
      · exact hpoint
      · exact hsend
    · exact .silent ⟨hledger.nodup, hledger.below, hledger.settled⟩ hpoint
  · split
    · exact .silent ⟨hledger.nodup, hledger.below, hledger.settled⟩ hpoint
    · exact .silent hledger hpoint

theorem RecoveryStage.beginFastRecovery (hsend : SendInv S u c.view.send) (hdata : c.pending ≠ [])
    (key : TcpConnectionKey) (now : TimePoint) :
    RecoveryStage [] (beginFastRecovery key c now) := by
  have hcleared := map_outstanding_clearRecoveryMarks c.pending
  obtain ⟨e, he⟩ := exists_mem_of_ne_nil _ hdata
  have hqueue : e.outstanding ∈ c.view.send.queue := mem_map_of_mem he
  have hspan := length_cells_le_of_mem hqueue
  rw [e.outstanding.length_cells] at hspan
  have hpos : 0 < (cells c.view.send.queue).length := lt_of_lt_of_le (hsend.entry_span_pos he) hspan
  unfold Wirestack.beginFastRecovery
  refine RecoveryStage.retransmit (S := S) (u := u) (Ledgered.empty _)
    ⟨(cells c.view.send.queue).length, hsend.tiled.stop_eq, hpos, ?_⟩ ?_ key now
  · simp only [view, hcleared]
    exact le_rfl
  · simp only [view, hcleared]
    exact hsend

theorem RecoveryStage.enter (hsend : SendInv S u c.view.send) (hrecovery : c.inFastRecovery = false)
    {windowChanged : Bool}
    (hstarts : (Wirestack.onStandingAck key c segment windowChanged now).1.inFastRecovery = true) :
    RecoveryStage [] (Wirestack.onStandingAck key c segment windowChanged now) := by
  have hnot : ¬ c.inFastRecovery = true := by rw [hrecovery]; exact Bool.false_ne_true
  unfold Wirestack.onStandingAck at hstarts ⊢
  dsimp only at hstarts ⊢
  split
  · next hduplicate =>
    rw [if_pos hduplicate, if_neg hnot] at hstarts
    split
    · have hdata : c.pending ≠ [] := by
        rintro hnil
        rw [hnil] at hduplicate
        simp at hduplicate
      apply RecoveryStage.beginFastRecovery
      · exact hsend
      · exact hdata
    · next hcount =>
      rw [if_neg hcount, hrecovery] at hstarts
      cases hstarts
  · next hduplicate =>
    rw [if_neg hduplicate] at hstarts
    split at hstarts
    · simp [hrecovery] at hstarts
    · simp [hrecovery] at hstarts

theorem retireAcknowledged_advanced (c : Connection) (ack : SeqNum) (now : TimePoint) :
    (retireAcknowledged c ack now).2.ackAdvanced = sequenceGreater ack c.sndUna := by
  unfold retireAcknowledged
  cases hgt : sequenceGreater ack c.sndUna with
  | false => rfl
  | true =>
    simp only [Bool.not_true, Bool.false_eq_true, if_false]
    split
    · split <;> rfl
    · rfl

theorem RecoveryStage.processAck (hledger : Ledgered sent c) (hpoint : PointAhead c)
    (hsend : SendInv S u c.view.send) (hrecovery : c.inFastRecovery = true)
    (hle : sequenceLessOrEqual segment.acknowledgmentNumber c.sndNxt = true)
    (hstays : (processAck key c segment options now).1.inFastRecovery = true) :
    RecoveryStage sent (processAck key c segment options now) := by
  have hretired := hledger.afterRetire hsend segment options now
  have hview := afterRetire_send c segment options now
  obtain ⟨u', -, hsend'⟩ := hsend.retire hle
  rw [← hview] at hsend'
  have hkept : ((afterRetire c segment options now).updateSendWindow segment).inFastRecovery =
      c.inFastRecovery := by rw [updateSendWindow_shape, afterRetire_shape]
  have hsame : ((afterRetire c segment options now).updateSendWindow segment).recoveryPoint =
      c.recoveryPoint := by rw [updateSendWindow_shape, afterRetire_shape]
  have hnotFull := fun h => hpoint.retire hsend hle h hsame hview
  rw [processAck_eq, retireAcknowledged_advanced] at hstays ⊢
  by_cases hgt : sequenceGreater segment.acknowledgmentNumber c.sndUna = true
  · rw [if_pos hgt] at hstays ⊢
    refine RecoveryStage.onAdvancingAck hretired hsend' (hkept.trans hrecovery)
      (fun hshort => ?_) hstays
    rw [hsame] at hshort
    exact hnotFull fun _ => hshort
  · rw [if_neg hgt] at hstays ⊢
    exact RecoveryStage.onStandingAck hretired (hnotFull fun h => absurd h hgt) hsend'
      (hkept.trans hrecovery) ..

theorem RecoveryStage.processAck_enter (hsend : SendInv S u c.view.send)
    (hrecovery : c.inFastRecovery = false)
    (hle : sequenceLessOrEqual segment.acknowledgmentNumber c.sndNxt = true)
    (hstarts : (Wirestack.processAck key c segment options now).1.inFastRecovery = true) :
    RecoveryStage [] (Wirestack.processAck key c segment options now) := by
  obtain ⟨u', -, hsend'⟩ := hsend.retire hle
  rw [← afterRetire_send] at hsend'
  have hkept : ((afterRetire c segment options now).updateSendWindow segment).inFastRecovery =
      false := by rw [updateSendWindow_shape, afterRetire_shape]; exact hrecovery
  rw [processAck_eq] at hstarts ⊢
  split
  · next hadvanced =>
    rw [if_pos hadvanced] at hstarts
    unfold Wirestack.onAdvancingAck applyCongestionGrowth at hstarts
    dsimp only at hstarts
    rw [if_neg (by rw [hkept]; exact Bool.false_ne_true)] at hstarts
    split_ifs at hstarts
    all_goals
      rw [hkept] at hstarts
      cases hstarts
  · next hstanding =>
    rw [if_neg hstanding] at hstarts
    exact RecoveryStage.enter hsend' hkept hstarts

/-! ## The rest of a call -/

theorem Joined.pending_eq_nil (h : Joined S u c) (hseq : c.state.finSequenced = true)
    (hacked : u = S.length + 1) : c.pending = [] :=
  map_eq_nil_iff.1 (h.send.all_acked (h.sequenced.trans hseq) hacked).1

theorem Joined.advanceClose_of_pending (h : Joined S u c) (hpending : c.pending ≠ [])
    (now : TimePoint) : c.advanceClose now = c := by
  have hacked : ¬ c.localFinAcked = true := by
    intro hfin
    obtain ⟨hseq, hu⟩ := h.localFinAcked_iff.1 hfin
    exact hpending (h.pending_eq_nil hseq hu)
  rw [Connection.advanceClose, if_neg fun hboth => hacked hboth.2, if_neg fun hboth => hacked hboth.2,
    if_neg fun hboth => hacked hboth.2]

theorem Joined.receivePart_pending (h : Joined S u c) (hpending : c.pending ≠ [])
    (memory : ℕ → Byte) (segment : TcpSegment) (now : TimePoint) :
    (receivePart memory c segment now).connection.pending = c.pending := by
  obtain ⟨_, _, hreceived⟩ := receivedWith_eq memory c segment
  have hcases := receivePart_cases memory c segment now
  generalize receivePart memory c segment now = part at hcases ⊢
  rw [hreceived] at hcases
  cases hcases with
  | ignored _ | stored _ _ _ => rfl
  | consumed =>
    unfold peerFinTransition
    split
    · rfl
    · rfl
    · next hstate =>
      -- The FIN is acknowledged in FIN-WAIT-2, so nothing is outstanding there.
      refine absurd (h.pending_eq_nil ?_ (h.acked ?_)) hpending
      · rw [hstate]
        rfl
      · rw [hstate]
        rfl
    · rfl

theorem Ledgered.appends (h : Ledgered sent c) (hpoint : PointAhead c)
    (htiled : Tiled c.sndUna c.view.send.queue c.sndNxt) {outcome : Connection × List TcpSegment}
    {new : List PendingTransmission} (hnew : Appends c outcome new)
    (hspan : (cells outcome.1.view.send.queue).length ≤ kTcpSendBufferCapacity + 1)
    (hsame : outcome.1.recoveryPoint = c.recoveryPoint) (huna : outcome.1.sndUna = c.sndUna) :
    Ledgered sent outcome.1 ∧ PointAhead outcome.1 := by
  have hqueue : outcome.1.view.send.queue = c.view.send.queue ++ new.map outstanding := by
    show outcome.1.pending.map outstanding = _
    rw [hnew.pending, map_append]
    rfl
  obtain ⟨k, hk, hpos, hle⟩ := hpoint
  have hlength : (cells outcome.1.view.send.queue).length = (cells c.view.send.queue).length +
      (cells (new.map outstanding)).length := by
    rw [hqueue, cells_append, length_append]
  refine ⟨⟨h.nodup, ?_, ?_⟩, k, ?_, hpos, by omega⟩
  · rw [hsame]
    exact h.below
  · rw [hnew.pending]
    intro e he
    rcases mem_append.1 he with he | he
    · exact h.settled e he
    · intro s hs hlt
      obtain ⟨a, ha, hapos, hale⟩ := h.below s hs
      obtain ⟨j, hj⟩ := mem_iff_getElem?.1 (mem_map_of_mem (f := outstanding) he)
      obtain ⟨l, hl, hspanle⟩ := hnew.tiled.place hj
      have hnxt : c.sndNxt = pos c.sndUna (cells c.view.send.queue).length := htiled.stop_eq
      -- `s`, the recovery point, `sndNxt` and the entry follow one another.
      have hstart : e.sequenceStart = pos s (a + ((cells c.view.send.queue).length - k) + l) := by
        rwa [← pos_pos, ← pos_pos, ← ha, hk, pos_pos c.sndUna k, Nat.add_sub_cancel' hle, ← hnxt]
      change l + e.span ≤ _ at hspanle
      unfold kTcpSendBufferCapacity at hspan hale
      have hahead : ahead s e.sequenceStart = a + ((cells c.view.send.queue).length - k) + l := by
        rw [hstart, ahead_pos _ (by omega)]
      rw [ahead_swap (by omega)] at hlt
      omega
  · rwa [hsame, huna]

theorem SentAgain.of_pending {c : Connection} (h : SentAgain c segment)
    (huna : c'.sndUna = c.sndUna) (hpoint : c'.recoveryPoint = c.recoveryPoint)
    (hpending : ∀ e ∈ c.pending, e ∈ c'.pending) : SentAgain c' segment where
  range := by
    rw [huna, hpoint]
    exact h.range
  entry := by
    obtain ⟨e, he, hentry⟩ := h.entry
    exact ⟨e, hpending e he, hentry⟩

theorem processed_outstanding (hsynced : Synced S u c) {fast : Option TcpSegment}
    (hproc : Processes c segment options)
    (hpending : (Wirestack.processAck key c segment options now).1.pending ≠ [])
    (hout : ProcessedOutcome memory key c segment options fast now outcome) :
    outcome.1.pendingRemoval = false ∧
    ∃ new, outcome.1.pending =
      (Wirestack.processAck key c segment options now).1.pending ++ new := by
  obtain ⟨u₁, -, hjoined⟩ := hsynced.toJoined.processAck key options now hproc.inSent
  rw [ProcessedOutcome, afterAck, hjoined.advanceClose_of_pending hpending now] at hout
  generalize (Wirestack.processAck key c segment options now).1 = d at *
  have hkept := hjoined.receivePart_pending hpending memory segment now
  have hmss : 0 < (receivePart memory d segment now).connection.effectiveSendMss.toNat := by
    rw [receivePart_shape]
    exact hjoined.send.mss
  obtain ⟨new, hnew⟩ := scheduleIfSendable_appends key now hmss
  refine ⟨?_, new, by rw [hout.connection, hnew.pending, hkept]⟩
  rw [hout.connection, scheduleIfSendable_shape]
  exact (receivePart_pendingRemoval ..).trans hjoined.removal

theorem RecoveryStage.processed (hsynced : Synced S u c) (hproc : Processes c segment options)
    (hstage : RecoveryStage sent (Wirestack.processAck key c segment options now))
    (hout : ProcessedOutcome memory key c segment options
      (Wirestack.processAck key c segment options now).2 now outcome)
    (hspan : (cells outcome.1.view.send.queue).length ≤ kTcpSendBufferCapacity + 1) :
    RecoveryStage sent (outcome.1, outcome.2.fastRetransmit) := by
  obtain ⟨u₁, -, hjoined⟩ := hsynced.toJoined.processAck key options now hproc.inSent
  have hpending := hstage.point.pending_ne_nil
  rw [ProcessedOutcome, afterAck, hjoined.advanceClose_of_pending hpending now] at hout
  obtain ⟨hledger, hpoint, hresent⟩ := hstage
  generalize Wirestack.processAck key c segment options now = processed at *
  obtain ⟨d, fast⟩ := processed
  dsimp only at hjoined hpending hout hledger hpoint hresent ⊢
  have hkept := hjoined.receivePart_pending hpending memory segment now
  have hview : (receivePart memory d segment now).connection.view.send = d.view.send := by
    rw [receivePart_shape] at hkept ⊢
    dsimp only at hkept
    simp only [view, hkept]
  have hsame : (receivePart memory d segment now).connection.recoveryPoint = d.recoveryPoint := by
    rw [receivePart_shape]
  have huna : (receivePart memory d segment now).connection.sndUna = d.sndUna := by rw [receivePart_shape]
  have hledger' : Ledgered (sent ++ starts fast) (receivePart memory d segment now).connection := by
    refine ⟨hledger.nodup, ?_, ?_⟩
    · rw [hsame]
      exact hledger.below
    · rw [hkept]
      exact hledger.settled
  have hpoint' : PointAhead (receivePart memory d segment now).connection := by
    rw [PointAhead, hsame, huna, hview]
    exact hpoint
  have hsend : SendInv S u₁ (receivePart memory d segment now).connection.view.send := by
    rw [hview]
    exact hjoined.send
  generalize (receivePart memory d segment now) = part at *
  obtain ⟨new, hnew⟩ := scheduleIfSendable_appends key now hsend.mss
  rw [hout.connection] at hspan ⊢
  have hsame' : (scheduleIfSendable key part.connection now).1.recoveryPoint =
      part.connection.recoveryPoint := by rw [scheduleIfSendable_shape]
  have huna' : (scheduleIfSendable key part.connection now).1.sndUna = part.connection.sndUna := by
    rw [scheduleIfSendable_shape]
  obtain ⟨hledger'', hpoint''⟩ := hledger'.appends hpoint' hsend.tiled hnew hspan hsame' huna'
  have hpending' : (scheduleIfSendable key part.connection now).1.pending = d.pending ++ new := by
    rw [hnew.pending, hkept]
  refine ⟨?_, hpoint'', fun f hf => ?_⟩
  · rwa [hout.fastRetransmit]
  · have hsent := hresent f (hout.fastRetransmit.symm.trans hf)
    refine hsent.of_pending (huna'.trans huna) (hsame'.trans hsame) fun e he => ?_
    rw [hpending']
    exact mem_append_left _ he

end Stages

/-! ## What sending again leaves alone -/

theorem Alike.pending (h : Alike c c') :
    c'.pending.map PendingTransmission.erased = c.pending.map PendingTransmission.erased :=
  congrArg Connection.pending h.erased

section

variable (key : TcpConnectionKey) (c : Connection) (segment : TcpSegment)
  (options : TcpParsedOptions) (windowChanged : Bool) (ack : SeqNum)
  (retired : TcpAckRetirementResult) (now : TimePoint)

theorem onAdvancingAck_erased :
    (onAdvancingAck key c ack retired now).1.pending.map PendingTransmission.erased =
      c.pending.map PendingTransmission.erased := by
  unfold onAdvancingAck
  dsimp only
  split
  · split
    · exact Alike.map_erased_clearRecoveryMarks ..
    · exact (Alike.retransmitForRecovery ..).pending
  · unfold applyCongestionGrowth
    split_ifs
    · rfl
    · rfl
    · rfl

theorem onStandingAck_erased :
    (onStandingAck key c segment windowChanged now).1.pending.map PendingTransmission.erased =
      c.pending.map PendingTransmission.erased := by
  unfold onStandingAck
  dsimp only
  split_ifs
  · exact (Alike.retransmitForRecovery ..).pending
  · rfl
  · exact (Alike.retransmitForRecovery ..).pending.trans
      (Alike.map_erased_clearRecoveryMarks c.pending)
  · rfl
  · rfl
  · rfl

theorem processAck_erased :
    (processAck key c segment options now).1.pending.map PendingTransmission.erased =
      (retireAcknowledged c segment.acknowledgmentNumber now).1.pending.map
        PendingTransmission.erased := by
  have hsack : (afterRetire c segment options now).pending.map PendingTransmission.erased =
      (retireAcknowledged c segment.acknowledgmentNumber now).1.pending.map
        PendingTransmission.erased := by
    unfold afterRetire
    dsimp only
    split
    · exact (Alike.applySackBlocks ..).pending
    · rfl
  rw [← hsack, processAck_eq]
  split
  · rw [onAdvancingAck_erased, updateSendWindow_shape]
  · rw [onStandingAck_erased, updateSendWindow_shape]

end

theorem processAck_recovering {f : TcpSegment}
    (h : (processAck key c segment options now).2 = some f) :
    (processAck key c segment options now).1.inFastRecovery = true ∧
      (processAck key c segment options now).1.pending ≠ [] := by
  obtain ⟨hview, hsent⟩ := processAck_spec key c segment options now
  obtain ⟨e, he, -⟩ := hsent f h
  refine ⟨?_, fun hnil => ?_⟩
  · -- Both branches that call `retransmitForRecovery` are in recovery.
    have hretransmit : ∀ d : Connection, d.inFastRecovery = true →
        (retransmitForRecovery key d now).1.inFastRecovery = true := by
      intro d hd
      rwa [retransmitForRecovery_shape]
    clear hview hsent he
    rw [processAck_eq] at h ⊢
    generalize (afterRetire c segment options now).updateSendWindow segment = d at h ⊢
    generalize (afterRetire c segment options now).sndWnd = before at h ⊢
    split
    · next hadvanced =>
      rw [if_pos hadvanced] at h
      unfold onAdvancingAck at h ⊢
      dsimp only at h ⊢
      by_cases hrecovery : d.inFastRecovery = true
      · rw [if_pos hrecovery] at h ⊢
        split at h
        · cases h
        · next hshort =>
          rw [if_neg hshort]
          apply hretransmit
          exact hrecovery
      · simp [if_neg hrecovery] at h
    · next hstanding =>
      rw [if_neg hstanding] at h
      unfold onStandingAck at h ⊢
      dsimp only at h ⊢
      split_ifs at h ⊢ with hduplicate hrecovery hsack hthird
      · apply hretransmit
        exact hrecovery
      · apply hretransmit
        rfl
  · have hqueue : (processAck key c segment options now).1.view.send.queue =
        (c.view.send.retire segment.acknowledgmentNumber).queue := by rw [hview]
    rw [← hqueue] at he
    have hempty : (processAck key c segment options now).1.view.send.queue = [] := by
      show (processAck key c segment options now).1.pending.map outstanding = []
      rw [hnil]
      rfl
    simp [hempty] at he

end Wirestack
