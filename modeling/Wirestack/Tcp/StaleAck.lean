import Wirestack.Tcp.Arrival
import Wirestack.Tcp.Recovery
import Wirestack.Tcp.Replies

set_option autoImplicit false

/-! # Which segments draw a retransmission with a stale acknowledgment

The fast retransmission is built while the acknowledgment is processed, before the receive side of the
same segment moves `rcvNxt` or the window. A duplicate acknowledgment carries neither payload nor FIN,
so nothing moves after it. A partial acknowledgment may carry both: it draws a retransmission when it
leaves a hole below the recovery point (`FillsHole`), and that retransmission is stale when the segment
also brings something (`Arrival`). Both are said about the connection before the call. -/

namespace Wirestack

open SerialNumber List TcpConnectionTable Connection Option PendingTransmission

variable {pending : List PendingTransmission} {point : SeqNum} {memory : ℕ → Byte}

variable {S : List Byte} {u : ℕ} {c : Connection} {key : TcpConnectionKey} {segment : TcpSegment}
  {options : TcpParsedOptions} {now : TimePoint} {ack : SeqNum}

/-! ## The hole behind a partial acknowledgment -/

/-- The rest of an entry that an acknowledgment has not covered. -/
def PendingTransmission.behind (e : PendingTransmission) (ack : SeqNum) : PendingTransmission :=
  if sequenceGreater ack e.sequenceStart then e.trimTo ack else e

/-- The SACK blocks of the segment that count. -/
def Connection.reported (c : Connection) (options : TcpParsedOptions) : List TcpSackBlock :=
  if c.sackPermitted then options.sackBlocks else []

/-- Data below `point` that is not sent again yet and that no report covers, old or new. -/
structure Hole (point ack nxt : SeqNum) (blocks : List TcpSackBlock) (e : PendingTransmission) :
    Prop where
  isSyn : e.isSyn = false
  isFin : e.isFin = false
  below : sequenceGreater point e.sequenceStart = true
  unsent : e.retransmittedInRecovery = false
  unmarked : e.sacked = false
  uncovered : ¬ CoveredBy ack nxt blocks e

/-- The segment is a partial acknowledgment that leaves a hole. -/
structure Connection.FillsHole (c : Connection) (segment : TcpSegment) (options : TcpParsedOptions) :
    Prop where
  recovering : c.inFastRecovery = true
  advances : sequenceGreater segment.acknowledgmentNumber c.sndUna = true
  short : sequenceGreater c.recoveryPoint segment.acknowledgmentNumber = true
  hole : ∃ e ∈ c.pending, sequenceLessOrEqual e.sequenceEnd segment.acknowledgmentNumber = false ∧
    Hole c.recoveryPoint segment.acknowledgmentNumber c.sndNxt (c.reported options)
      (e.behind segment.acknowledgmentNumber)

/-! ## Retirement, entry by entry -/

/-- An acknowledgment cuts the queue once: behind an entry that it does not cover it touches none. -/
def CutOnce (ack : SeqNum) (pending : List PendingTransmission) : Prop :=
  pending.Pairwise fun a b => sequenceLessOrEqual a.sequenceEnd ack = false →
    sequenceLessOrEqual b.sequenceEnd ack = false ∧ sequenceGreater ack b.sequenceStart = false

theorem mem_retireEntries (hcut : CutOnce ack pending) (e' : PendingTransmission) :
    ∀ {n : ℕ} {sample : Option TimePoint},
    e' ∈ (retireEntries ack pending n sample).pending ↔
      ∃ e ∈ pending, sequenceLessOrEqual e.sequenceEnd ack = false ∧ e' = e.behind ack := by
  induction pending with
  | nil => simp [retireEntries]
  | cons e rest ih =>
    intro n sample
    obtain ⟨hbehind, hrest⟩ := pairwise_cons.1 hcut
    rw [retireEntries, exists_mem_cons_iff]
    by_cases hend : sequenceLessOrEqual e.sequenceEnd ack = true
    · rw [if_pos hend, ih hrest, hend]
      simp
    · have hend' : sequenceLessOrEqual e.sequenceEnd ack = false := Bool.eq_false_iff.2 hend
      have hkept : e' ∈ rest ↔
          ∃ e ∈ rest, sequenceLessOrEqual e.sequenceEnd ack = false ∧ e' = e.behind ack := by
        constructor
        · intro hmem
          obtain ⟨hle, hgt⟩ := hbehind e' hmem hend'
          exact ⟨e', hmem, hle, by simp [behind, hgt]⟩
        · rintro ⟨e₁, hmem, -, rfl⟩
          rwa [behind, (hbehind e₁ hmem hend').2]
      rw [if_neg hend, ← hkept, hend', behind]
      split_ifs <;> simp

theorem SendInv.pending_apart (h : SendInv S u c.view.send) : c.pending.Pairwise fun a b =>
    ∃ k l, a.sequenceStart = pos c.sndUna k ∧ a.sequenceEnd = pos c.sndUna (k + a.span) ∧
      b.sequenceStart = pos c.sndUna l ∧ b.sequenceEnd = pos c.sndUna (l + b.span) ∧
      k + a.span ≤ l ∧ l + b.span ≤ (cells c.view.send.queue).length := by
  have hends : ∀ {e : PendingTransmission} {k : ℕ}, e.sequenceStart = pos c.sndUna k →
      e.sequenceEnd = pos c.sndUna (k + e.span) := by
    intro e k hk
    rw [← pos_pos, ← hk, e.sequenceEnd_eq]
    rfl
  refine pairwise_iff_getElem.2 fun i j hi hj hij => ?_
  have hat : ∀ {k : ℕ} (hk : k < c.pending.length),
      c.view.send.queue[k]? = some c.pending[k].outstanding := by
    intro k hk
    rw [show c.view.send.queue = c.pending.map outstanding from rfl,
      getElem?_map, getElem?_eq_getElem hk]
    rfl
  obtain ⟨k, l, hk, hl, hkl, hle⟩ := h.tiled.apart hij (hat hi) (hat hj)
  exact ⟨k, l, hk, hends hk, hl, hends hl, hkl, hle⟩

theorem SendInv.cutOnce (h : SendInv S u c.view.send) {d : ℕ}
    (hd : d ≤ (cells c.view.send.queue).length) : CutOnce (pos c.sndUna d) c.pending := by
  have hspan := h.span_lt
  refine h.pending_apart.imp ?_
  rintro a b ⟨k, l, -, haend, hbstart, hbend, hkl, hle⟩ hend
  rw [haend, sequenceLessOrEqual_pos _ (by omega) (by omega), decide_eq_false_iff_not] at hend
  rw [hbend, hbstart, sequenceLessOrEqual_pos _ (by omega) (by omega),
    sequenceGreater_pos _ (by omega) (by omega), decide_eq_false_iff_not, decide_eq_false_iff_not]
  omega

theorem SendInv.exists_retired_iff (h : SendInv S u c.view.send)
    (hgt : sequenceGreater ack c.sndUna = true) (hle : sequenceLessOrEqual ack c.sndNxt = true)
    (now : TimePoint) {P : PendingTransmission → Prop}
    (hP : ∀ e taken, P { e with rttSampleTaken := taken } ↔ P e) :
    (∃ e ∈ (retireAcknowledged c ack now).1.pending, P e) ↔
      ∃ e ∈ c.pending, sequenceLessOrEqual e.sequenceEnd ack = false ∧ P (e.behind ack) := by
  have hcut : CutOnce ack c.pending := by
    obtain ⟨d, rfl, -, hd⟩ := h.ack_offset hgt hle
    exact h.cutOnce hd
  have hloop : (∃ e ∈ (retireEntries ack c.pending 0 none).pending, P e) ↔
      ∃ e ∈ c.pending, sequenceLessOrEqual e.sequenceEnd ack = false ∧ P (e.behind ack) := by
    simp only [mem_retireEntries hcut]
    constructor
    · rintro ⟨_, ⟨e, he, hend, rfl⟩, hP'⟩
      exact ⟨e, he, hend, hP'⟩
    · rintro ⟨e, he, hend, hP'⟩
      exact ⟨_, ⟨e, he, hend, rfl⟩, hP'⟩
  have hmark : ∀ l : List PendingTransmission, (∃ e ∈ markSampled l, P e) ↔ ∃ e ∈ l, P e := by
    intro l
    cases l with
    | nil => rfl
    | cons e rest => simp only [markSampled, exists_mem_cons_iff, hP]
  rw [← hloop, retireAcknowledged, hgt]
  simp only [Bool.not_true, Bool.false_eq_true, if_false]
  split
  · split
    · dsimp only
      split
      · exact hmark _
      · rfl
    · rfl
  · rfl

/-! ## The entry that recovery selects -/

theorem selectRecoveryRetransmission_ne_none
    (hbelow : pending.Pairwise fun a b => sequenceGreater point b.sequenceStart = true →
      sequenceGreater point a.sequenceStart = true) {e : PendingTransmission} (he : e ∈ pending)
    (hsyn : e.isSyn = false) (hfin : e.isFin = false)
    (hpoint : sequenceGreater point e.sequenceStart = true) (hsacked : e.sacked = false)
    (hresent : e.retransmittedInRecovery = false) :
    selectRecoveryRetransmission point pending ≠ none := by
  induction pending with
  | nil => cases he
  | cons d rest ih =>
    obtain ⟨hd, hrest⟩ := pairwise_cons.1 hbelow
    rw [selectRecoveryRetransmission]
    rcases mem_cons.1 he with rfl | he
    · simp [hsyn, hfin, hpoint, hsacked, hresent]
    · rw [hd e he hpoint]
      have := ih hrest he
      split_ifs <;> simp_all

theorem SendInv.queueTiles (h : SendInv S u c.view.send) : QueueTiles c where
  tiled := h.tiled
  occupied _ he := h.entry_span_pos he
  length := by
    have hspan := h.span_lt
    have hnxt : c.sndNxt = pos c.sndUna (cells c.view.send.queue).length := h.tiled.stop_eq
    rw [sum_span_eq, hnxt, ahead_pos _ (by omega)]
    rfl

theorem SendInv.selects_none (h : SendInv S u c.view.send)
    (hpoint : sequenceGreater point c.sndUna = false) :
    selectRecoveryRetransmission point c.pending = none := by
  cases hpending : c.pending with
  | nil => rfl
  | cons e rest =>
    have hqueue : c.view.send.queue = [] ++ e.outstanding :: rest.map outstanding := by
      simp only [view, hpending, map_cons, nil_append]
    have hstart : e.sequenceStart = c.sndUna := by
      have htiled := h.tiled
      rw [hqueue] at htiled
      exact htiled.1
    have hsyn : e.isSyn = false := by
      have hsent := h.sent e.outstanding (by simp [hqueue])
      generalize hout : e.outstanding = o at hsent
      rw [show e.isSyn = o.isSyn by rw [← hout]; rfl]
      cases hsent <;> rfl
    rw [selectRecoveryRetransmission, hstart, hpoint, hsyn]
    cases hfin : e.isFin with
    | false => rfl
    | true =>
      rw [map_eq_nil_iff.1 (h.fin_last hqueue hfin)]
      rfl

theorem SendInv.selects_iff (h : SendInv S u c.view.send)
    (hgt : sequenceGreater segment.acknowledgmentNumber c.sndUna = true)
    (hle : sequenceLessOrEqual segment.acknowledgmentNumber c.sndNxt = true)
    (hshort : sequenceGreater c.recoveryPoint segment.acknowledgmentNumber = true)
    (options : TcpParsedOptions) (now : TimePoint) :
    selectRecoveryRetransmission c.recoveryPoint
        (afterRetire c segment options now).pending ≠ none ↔
      ∃ e ∈ c.pending, sequenceLessOrEqual e.sequenceEnd segment.acknowledgmentNumber = false ∧
        Hole c.recoveryPoint segment.acknowledgmentNumber c.sndNxt (c.reported options)
          (e.behind segment.acknowledgmentNumber) := by
  obtain ⟨u', -, hretired⟩ := h.retire hle
  have hview := congrArg View.send (retireAcknowledged_view c segment.acknowledgmentNumber now)
  have hexists := h.exists_retired_iff hgt hle now (P := Hole c.recoveryPoint
    segment.acknowledgmentNumber c.sndNxt (c.reported options)) fun e taken =>
      ⟨fun h => ⟨h.1, h.2, h.3, h.4, h.5, h.6⟩, fun h => ⟨h.1, h.2, h.3, h.4, h.5, h.6⟩⟩
  have hsack : afterRetire c segment options now =
      applySackBlocks (retireAcknowledged c segment.acknowledgmentNumber now).1
        segment.acknowledgmentNumber (c.reported options) := by
    unfold afterRetire reported
    dsimp only
    rw [show (retireAcknowledged c segment.acknowledgmentNumber now).1.sackPermitted =
      c.sackPermitted by rw [retireAcknowledged_shape]]
    split_ifs <;> rfl
  rw [hsack, ← hexists]
  have huna : (retireAcknowledged c segment.acknowledgmentNumber now).1.sndUna =
      segment.acknowledgmentNumber := by
    refine (congrArg SendView.sndUna hview).trans ?_
    simp only [SendView.retire, view, hgt, if_true]
  have hnxt : (retireAcknowledged c segment.acknowledgmentNumber now).1.sndNxt = c.sndNxt := by
    refine (congrArg SendView.sndNxt hview).trans ?_
    simp only [SendView.retire, view, hgt, if_true]
  replace hretired : SendInv S u'
      (retireAcknowledged c segment.acknowledgmentNumber now).1.view.send := hview ▸ hretired
  generalize segment.acknowledgmentNumber = ack at *
  generalize (retireAcknowledged c ack now).1 = c₁ at *
  subst huna
  rw [← hnxt, applySackBlocks_eq]
  have hmarked : ∀ e ∈ c₁.pending, _ := fun e he => hretired.queueTiles.markedAfter_iff
    (by rw [ahead_self]; exact Nat.zero_le _)
    ((sequenceLessOrEqual_iff _ _).1 (hnxt ▸ hle)) he (c.reported options)
  constructor
  · intro hsome
    obtain ⟨⟨i, e'⟩, hselect⟩ := ne_none_iff_exists'.1 hsome
    obtain ⟨hindex, hsyn, hfin, hbelow, hsacked, hresent⟩ := selectRecoveryRetransmission_spec hselect
    obtain ⟨e, he, rfl⟩ := mem_map.1 (mem_of_getElem? hindex)
    have hnot := Bool.eq_false_iff.1 hsacked
    rw [ne_eq, hmarked e he, not_or] at hnot
    exact ⟨e, he, hsyn, hfin, hbelow, hresent, Bool.eq_false_iff.2 hnot.1,
      fun hcovered => hnot.2 ⟨hsyn, hfin, hcovered⟩⟩
  · rintro ⟨e, he, hole⟩
    refine selectRecoveryRetransmission_ne_none ?_ (mem_map_of_mem he) hole.isSyn hole.isFin
      hole.below ?_ hole.unsent
    · -- Both the point and the entries are less than half the space ahead of the acknowledgment.
      obtain ⟨hpos, hlt⟩ := (sequenceGreater_iff _ _).1 hshort
      have hspan := hretired.span_lt
      refine pairwise_map.2 (hretired.pending_apart.imp ?_)
      rintro a b ⟨k, l, ha, -, hb, -, hkl, hle⟩
      rw [ha, hb, ← pos_ahead c₁.sndUna c.recoveryPoint, sequenceGreater_pos _ (by omega) (by omega),
        sequenceGreater_pos _ (by omega) (by omega), decide_eq_true_eq, decide_eq_true_eq]
      omega
    · rw [Bool.eq_false_iff, ne_eq, hmarked e he]
      rintro (hsacked | ⟨-, -, hcovered⟩)
      · simp [hole.unmarked] at hsacked
      · exact hole.uncovered hcovered

section

variable (key : TcpConnectionKey) (c : Connection) (ack : SeqNum) (retired : TcpAckRetirementResult)
  (now : TimePoint)

theorem retransmitForRecovery_none_iff : (retransmitForRecovery key c now).2 = none ↔
      selectRecoveryRetransmission c.recoveryPoint c.pending = none := by
  unfold retransmitForRecovery
  split
  · next hselect => simp [hselect]
  · next hselect => simp [hselect]

theorem onAdvancingAck_ne_none_iff : (onAdvancingAck key c ack retired now).2 ≠ none ↔
      c.inFastRecovery = true ∧ sequenceLessOrEqual c.recoveryPoint ack = false ∧
        selectRecoveryRetransmission c.recoveryPoint c.pending ≠ none := by
  unfold onAdvancingAck
  by_cases hrecovery : c.inFastRecovery = true
  · rw [if_pos hrecovery]
    cases hfull : sequenceLessOrEqual c.recoveryPoint ack with
    | true => simp
    | false =>
      rw [if_neg Bool.false_ne_true, ne_eq, retransmitForRecovery_none_iff]
      simp [hrecovery]
  · simp [hrecovery]

theorem onStandingAck_of_carries
    (hcarries : (segment.payload.isEmpty && !segment.flags.fin) = false) (windowChanged : Bool)
    (now : TimePoint) : ∃ count, onStandingAck key c segment windowChanged now =
      ({ c with duplicateAckCount := count }, none) := by
  unfold onStandingAck
  rw [if_neg]
  · split
    · exact ⟨0, rfl⟩
    · exact ⟨c.duplicateAckCount, rfl⟩
  · rw [Bool.and_eq_false_iff] at hcarries
    rcases hcarries with h | h <;> simp [h]

end

theorem SendInv.processAck_ne_none_iff (h : SendInv S u c.view.send)
    (hle : sequenceLessOrEqual segment.acknowledgmentNumber c.sndNxt = true)
    (hcarries : (segment.payload.isEmpty && !segment.flags.fin) = false) (key : TcpConnectionKey)
    (options : TcpParsedOptions) (now : TimePoint) :
    (processAck key c segment options now).2 ≠ none ↔ c.FillsHole segment options := by
  rw [processAck_eq, retireAcknowledged_advanced]
  by_cases hgt : sequenceGreater segment.acknowledgmentNumber c.sndUna = true
  · have hselects := fun hshort => h.selects_iff hgt hle hshort options now
    have hsend := afterRetire_send c segment options now
    obtain ⟨u', -, hretired⟩ := h.retire hle
    have hsame : ((afterRetire c segment options now).updateSendWindow segment).pending =
          (afterRetire c segment options now).pending ∧
        ((afterRetire c segment options now).updateSendWindow segment).inFastRecovery =
          c.inFastRecovery ∧
        ((afterRetire c segment options now).updateSendWindow segment).recoveryPoint =
          c.recoveryPoint := by
      rw [updateSendWindow_shape, afterRetire_shape]
      exact ⟨rfl, rfl, rfl⟩
    rw [if_pos hgt, onAdvancingAck_ne_none_iff]
    rw [← hsame.1] at hselects
    rw [← hsend] at hretired
    generalize (afterRetire c segment options now).updateSendWindow segment = d at *
    have huna : d.sndUna = segment.acknowledgmentNumber := by
      refine (congrArg SendView.sndUna hsend).trans ?_
      simp only [SendView.retire, view, hgt, if_true]
    rw [hsame.2.1, hsame.2.2]
    constructor
    · rintro ⟨hrecovering, -, hsome⟩
      have hshort : sequenceGreater c.recoveryPoint segment.acknowledgmentNumber = true := by
        by_contra hnot
        rw [← huna, Bool.not_eq_true] at hnot
        exact hsome (hretired.selects_none hnot)
      exact ⟨hrecovering, hgt, hshort, (hselects hshort).1 hsome⟩
    · intro hfills
      refine ⟨hfills.recovering, ?_, (hselects hfills.short).2 hfills.hole⟩
      obtain ⟨hpos, hlt⟩ := (sequenceGreater_iff _ _).1 hfills.short
      rw [Bool.eq_false_iff, ne_eq, sequenceLessOrEqual_iff, ahead_swap hpos]
      omega
  · rw [if_neg hgt]
    obtain ⟨_, hstanding⟩ := onStandingAck_of_carries key
      ((afterRetire c segment options now).updateSendWindow segment) hcarries _ now
    rw [hstanding]
    exact iff_of_false (fun hne => hne rfl) fun hfills => hgt hfills.advances

/-! ## What moves behind the retransmission -/

/-- The segment moves `rcvNxt` or changes the window field. -/
def Connection.Moves (memory : ℕ → Byte) (c : Connection) (segment : TcpSegment) : Prop :=
  c.received memory segment ≠ [] ∨ c.closes memory segment = true ∨
    c.acceptsPart segment = true ∧
      c.windowFor (c.bufferedWith segment) ≠ c.windowFor c.bufferedReceiveBytes

theorem Connection.Moves.carries (h : c.Moves memory segment) :
    (segment.payload.isEmpty && !segment.flags.fin) = false := by
  have haccepts : c.acceptsPart segment = true := by
    by_contra hnot
    simp [Moves, received, closes, hnot] at h
  simp only [acceptsPart, Bool.and_eq_true, Bool.not_eq_true'] at haccepts
  exact haccepts.1

theorem Arrival.moves_iff {part : Received} (h : Arrival memory c segment part)
    (hlen : (c.received memory segment).length + (if c.closes memory segment then 1 else 0) < 2 ^
      32) : part.connection.rcvNxt = c.rcvNxt ∧
        part.connection.advertisedWindowFor part.connection.windowScalingEnabled =
          c.advertisedWindowFor c.windowScalingEnabled ↔
      ¬ c.Moves memory segment := by
  unfold Moves
  by_cases hmoved : c.received memory segment = [] ∧ c.closes memory segment = false
  · obtain ⟨hnone, hopen⟩ := hmoved
    have hrcv := h.rcvNxt
    rw [hnone, hopen] at hrcv
    rw [hnone, hopen, and_iff_right (hrcv.trans (pos_zero _)), advertisedWindowFor_eq c]
    cases haccepts : c.acceptsPart segment with
    | false =>
      have hview := h.ignored haccepts
      rw [advertisedWindowFor_congr hview,
        show part.connection.windowScalingEnabled = c.windowScalingEnabled from
          congrArg ReceiveView.windowScalingEnabled hview, advertisedWindowFor_eq]
      simp
    | true =>
      rw [h.window haccepts hnone hopen]
      simp
  · refine iff_of_false (fun hsame => ?_) (not_not.2 ?_)
    · have hzero := congrArg (ahead c.rcvNxt) (h.rcvNxt.symm.trans hsame.1)
      rw [ahead_pos _ hlen, ahead_self, Nat.add_eq_zero_iff] at hzero
      exact hmoved ⟨eq_nil_of_length_eq_zero hzero.1, by simpa using hzero.2⟩
    · rw [not_and, Bool.not_eq_false] at hmoved
      exact (em _).elim (fun hnone => .inr (.inl (hmoved hnone))) .inl

/-! ## One call -/

/-- **When every segment handed back is up to date.** In a reachable connection in a synchronized
    state other than TIME-WAIT, every segment that `handle` hands back carries the acknowledgment number
    and the window of the connection after the call, unless the segment is a partial acknowledgment
    that leaves a hole and moves `rcvNxt` or the window itself. -/
theorem handedBack_stamped_iff {s : Traced} (hs : Reachable s) {key : TcpConnectionKey}
    {c c' : Connection} (hc : s.table.find? key = some c) (hsync : c.state.synchronized = true)
    (hwait : c.state ≠ .timeWait) (memory : ℕ → Byte) (segment : TcpSegment) (now : TimePoint)
    (hc' : (s.table.handle memory key segment now).1.find? key = some c') :
    (∀ sent ∈ (s.table.handle memory key segment now).2.handedBack,
        sent.acknowledgmentNumber = c'.rcvNxt ∧
          sent.windowSize = c'.advertisedWindowFor c'.windowScalingEnabled) ↔
      ¬ ∃ options, Processes c segment options ∧ c.FillsHole segment options ∧
        c.Moves memory segment := by
  obtain ⟨u, hsynced⟩ := Run.synced hs hc hsync
  have hinv := Run.receiveInv hs hc
  rw [handle_of_some hc, find?_put, if_pos rfl,
    handleExisting_of_synchronized memory key segment now hsync hwait] at hc'
  obtain ⟨hkept, rfl⟩ := eraseIfRemoved_eq_some hc'
  rw [handle_of_some hc,
    handleExisting_of_synchronized memory key segment now hsync hwait, eraseIfRemoved_result]
  have hcases := handleSynchronized_cases memory key c segment now
  generalize handleSynchronized memory key c segment now = outcome at hcases hkept ⊢
  cases hcases with
  | dropped reply hreply _ hnot =>
    refine iff_of_true (fun sent hmem => ?_) fun h => h.elim fun options h => hnot options h.1
    have hsent := (hreply sent (by simpa [TcpReceiveResult.handedBack] using hmem)).2
    rw [hsent]
    exact ⟨rfl, rfl⟩
  | reset => cases hkept
  | processed options outcome hproc hout =>
    have hmoves := ((hsynced.arrives hwait key hproc now).arrival hinv.ok memory now).moves_iff
      (length_received_lt hinv hsynced.retained memory segment)
    rw [← (bufferOk_congr hout.receive_eq).1, ← hout.receive_window] at hmoves
    rw [hout.stamped_iff, hmoves, ← not_ne_iff, ← not_and_or]
    refine not_congr ⟨?_, ?_⟩
    · rintro ⟨hfast, hmoved⟩
      exact ⟨options, hproc, (hsynced.send.processAck_ne_none_iff hproc.inSent hmoved.carries key
        options now).1 hfast, hmoved⟩
    · rintro ⟨options', hproc', hfills, hmoved⟩
      cases Except.ok.inj (hproc'.options.symm.trans hproc.options)
      exact ⟨(hsynced.send.processAck_ne_none_iff hproc.inSent hmoved.carries key
        options now).2 hfills, hmoved⟩

/-- With an MSS of one byte the initial congestion window lets ten of the fifteen bytes out. -/
def exampleBacklog : List Op :=
  [.makeOutgoingData exampleKey [1, 2, 3, 4, 5, 6, 7, 8, 9, 10, 11, 12, 13, 14, 15] 0]

/-- Three duplicate acknowledgments put the sender into fast recovery. -/
def exampleRecovery : List Op :=
  exampleBacklog ++ replicate 3 (.handle noMemory exampleKey (exampleSegment 5001 []) 0)

/-- A byte of data whose acknowledgment covers the first byte sent. -/
def exampleDataAck : TcpSegment :=
  { exampleSegment 5001 [0xaa] with acknowledgmentNumber := 1002 }

/-- The two segments that the acknowledgment lets out also acknowledge the byte it came with. -/
theorem handedBack_stamped_example :
    ∃ c', ((exampleRun [2, 4, 0, 1] exampleBacklog).table.handle noMemory exampleKey
        exampleDataAck 0).1.find? exampleKey = some c' ∧ c'.rcvNxt = 5002 ∧
      ((exampleRun [2, 4, 0, 1] exampleBacklog).table.handle noMemory exampleKey
        exampleDataAck 0).2.scheduled.length = 2 ∧
      ∀ sent ∈ ((exampleRun [2, 4, 0, 1] exampleBacklog).table.handle noMemory exampleKey
          exampleDataAck 0).2.handedBack,
        sent.acknowledgmentNumber = c'.rcvNxt ∧
          sent.windowSize = c'.advertisedWindowFor c'.windowScalingEnabled := by
  obtain ⟨c, hc, hstate, hrecovery, hrcv, hscheduled⟩ := exampleRun_at [2, 4, 0, 1] exampleBacklog
    (fun _ c => c.state = .established ∧ c.inFastRecovery = false ∧
      (handleExisting noMemory exampleKey c exampleDataAck 0).1.map rcvNxt = some 5002 ∧
      (handleExisting noMemory exampleKey c exampleDataAck 0).2.scheduled.length = 2)
      (by decide +kernel)
  obtain ⟨c', hkept, hrcv⟩ := map_eq_some_iff.1 hrcv
  have hhandle := handle_of_some hc noMemory exampleDataAck 0
  have hc' : ((exampleRun [2, 4, 0, 1] exampleBacklog).table.handle noMemory exampleKey
      exampleDataAck 0).1.find? exampleKey = some c' := by
    rw [hhandle, find?_put, if_pos rfl, hkept]
  refine ⟨c', hc', hrcv, by rw [hhandle]; exact hscheduled, ?_⟩
  refine (handedBack_stamped_iff (exampleRun_reachable _ _) hc ?_ ?_ noMemory exampleDataAck 0 hc').2
    ?_
  · rw [hstate]; rfl
  · rw [hstate]; decide
  · rintro ⟨_, -, hfills, -⟩
    simp [hfills.recovering] at hrecovery

/-- In fast recovery the same segment draws a retransmission that still acknowledges 5001, although
    the call has delivered the byte at 5001. -/
theorem handedBack_stale : Reachable (exampleRun [2, 4, 0, 1] exampleRecovery) ∧
    ∃ c c' fast, (exampleRun [2, 4, 0, 1] exampleRecovery).table.find? exampleKey = some c ∧
      c.state = .established ∧
      ((exampleRun [2, 4, 0, 1] exampleRecovery).table.handle noMemory exampleKey
        exampleDataAck 0).1.find? exampleKey = some c' ∧
      ((exampleRun [2, 4, 0, 1] exampleRecovery).table.handle noMemory exampleKey
        exampleDataAck 0).2.fastRetransmit = some fast ∧
      fast.acknowledgmentNumber = 5001 ∧ c'.rcvNxt = 5002 := by
  obtain ⟨c, hc, hstate, hrcv, hfast⟩ := exampleRun_at [2, 4, 0, 1] exampleRecovery
    (fun _ c => c.state = .established ∧
      (handleExisting noMemory exampleKey c exampleDataAck 0).1.map rcvNxt = some 5002 ∧
      (handleExisting noMemory exampleKey c exampleDataAck 0).2.fastRetransmit.map
        TcpSegment.acknowledgmentNumber = some 5001) (by decide +kernel)
  obtain ⟨c', hkept, hrcv⟩ := map_eq_some_iff.1 hrcv
  obtain ⟨fast, hfast, hack⟩ := map_eq_some_iff.1 hfast
  rw [handle_of_some hc, find?_put, if_pos rfl]
  exact ⟨exampleRun_reachable _ _, c, c', fast, hc, hstate, hkept, hfast, hack, hrcv⟩

end Wirestack
