import Wirestack.Tcp.Table

set_option autoImplicit false

/-! # What of a connection the stream properties depend on

A connection carries a great deal of bookkeeping (RTT estimation, congestion control, the SACK
scoreboard, timers) that decides when a byte is sent but not which byte. `Connection.view` keeps the
rest: the send side with its queue of outstanding segments, the receive side, and the control state.
For each stage of the model this module says what it does to the view; the bookkeeping stages leave
it alone (`…_view : (f c).view = c.view`). -/

namespace Wirestack

open Connection PendingTransmission

/-- A queue entry without its timers and marks. -/
structure Outstanding where
  sequenceStart : SeqNum
  isSyn : Bool
  isActiveSyn : Bool
  isFin : Bool
  flags : TcpFlags
  payload : List Byte
  deriving DecidableEq, Repr

def PendingTransmission.outstanding (e : PendingTransmission) : Outstanding :=
  { sequenceStart := e.sequenceStart
    isSyn := e.isSyn
    isActiveSyn := e.isActiveSyn
    isFin := e.isFin
    flags := e.flags
    payload := e.payload }

structure SendView where
  localIsn : SeqNum
  sndUna : SeqNum
  sndNxt : SeqNum
  queue : List Outstanding
  localFinSeq : Option SeqNum
  unsent : List Byte
  closeRequested : Bool
  effectiveSendMss : UInt16

structure ReceiveView where
  remoteIsn : SeqNum
  remoteIsnKnown : Bool
  rcvNxt : SeqNum
  outOfOrder : List TcpReassemblyFragment
  pendingFinSeq : Option SeqNum
  windowScalingEnabled : Bool
  localWindowScale : UInt8

structure ControlView where
  state : TcpState
  timeWaitDeadline : Option TimePoint
  pendingRemoval : Bool

structure View where
  send : SendView
  receive : ReceiveView
  control : ControlView

def Connection.view (c : Connection) : View :=
  { send :=
      { localIsn := c.localIsn
        sndUna := c.sndUna
        sndNxt := c.sndNxt
        queue := c.pending.map outstanding
        localFinSeq := c.localFinSeq
        unsent := c.unsent
        closeRequested := c.closeRequested
        effectiveSendMss := c.effectiveSendMss }
    receive :=
      { remoteIsn := c.remoteIsn
        remoteIsnKnown := c.remoteIsnKnown
        rcvNxt := c.rcvNxt
        outOfOrder := c.outOfOrder
        pendingFinSeq := c.pendingFinSeq
        windowScalingEnabled := c.windowScalingEnabled
        localWindowScale := c.localWindowScale }
    control :=
      { state := c.state
        timeWaitDeadline := c.timeWaitDeadline
        pendingRemoval := c.pendingRemoval } }

section Fields

variable {c c' : Connection}

theorem advertisedLogicalWindowFor_congr (h : c'.view.receive = c.view.receive) :
    c'.advertisedLogicalWindowFor = c.advertisedLogicalWindowFor := by
  simp only [view, ReceiveView.mk.injEq] at h
  obtain ⟨-, -, -, hout, hfin, hscale, hshift⟩ := h
  unfold advertisedLogicalWindowFor expandLocalAdvertisedWindow
    advertisedWindowFor bufferedReceiveBytes
  rw [hout, hfin, hscale, hshift]

end Fields

/-! ## Bookkeeping on the queue -/

section

variable {α : Type} {f : PendingTransmission → α} {g : PendingTransmission → PendingTransmission}
  (hg : ∀ e, f (g e) = f e) (l : List PendingTransmission)

include hg

theorem map_map_unchanged : (l.map g).map f = l.map f := by
  rw [List.map_map]
  exact List.map_congr_left fun e _ => hg e

theorem map_modify_unchanged (i : ℕ) : (l.modify i g).map f = l.map f := by
  induction l generalizing i with
  | nil => cases i <;> rfl
  | cons e rest ih =>
    cases i with
    | zero => simp [hg]
    | succ i => simp [ih i]

theorem map_modifyHead_unchanged : (l.modifyHead g).map f = l.map f := by
  cases l with
  | nil => rfl
  | cons e rest => simp [hg]

end

theorem map_outstanding_markSampled (l : List PendingTransmission) :
    (markSampled l).map outstanding = l.map outstanding := by
  cases l <;> rfl

theorem view_of_pending {c : Connection} {pending : List PendingTransmission}
    (h : pending.map outstanding = c.pending.map outstanding) :
    view { c with pending := pending } = c.view := by
  simp only [view, h]

/-! ## Acknowledgment processing -/

def Outstanding.span (e : Outstanding) : ℕ :=
  e.payload.length + (if e.isSyn then 1 else 0) + (if e.isFin then 1 else 0)

def Outstanding.sequenceEnd (e : Outstanding) : SeqNum :=
  e.sequenceStart + BitVec.ofNat 32 e.span

theorem PendingTransmission.sequenceEnd_eq (e : PendingTransmission) :
    e.sequenceEnd = e.outstanding.sequenceEnd := by
  cases hsyn : e.isSyn <;> cases hfin : e.isFin <;>
    simp [sequenceEnd, Outstanding.sequenceEnd, Outstanding.span,
      outstanding, hsyn, hfin, BitVec.ofNat_add, BitVec.add_assoc]

def Outstanding.trimTo (e : Outstanding) (ack : SeqNum) : Outstanding :=
  { e with
    payload := e.payload.drop (ack - e.sequenceStart).toNat
    sequenceStart := ack }

/-- The retirement loop on outstanding segments. -/
def retireQueue (ack : SeqNum) : List Outstanding → List Outstanding
  | [] => []
  | e :: rest =>
    if sequenceLessOrEqual e.sequenceEnd ack then retireQueue ack rest
    else if sequenceGreater ack e.sequenceStart then e.trimTo ack :: rest
    else e :: rest

def SendView.retire (v : SendView) (ack : SeqNum) : SendView :=
  if sequenceGreater ack v.sndUna then
    { v with sndUna := ack, queue := retireQueue ack v.queue }
  else v

section

variable (key : TcpConnectionKey) (c : Connection) (dataBytes : ℕ) (segment : TcpSegment)
  (options : TcpParsedOptions) (windowChanged : Bool) (r : Duration) (ack : SeqNum)
  (retired : TcpAckRetirementResult) (blocks : List TcpSackBlock) (now : TimePoint)
  (pending : List PendingTransmission)

theorem map_outstanding_retireEntries : ∀ (dataBytes : ℕ) (sample : Option TimePoint),
    (retireEntries ack pending dataBytes sample).pending.map outstanding =
      retireQueue ack (pending.map outstanding) := by
  induction pending with
  | nil => intro dataBytes sample; rfl
  | cons e rest ih =>
    intro dataBytes sample
    have hstart : e.outstanding.sequenceStart = e.sequenceStart := rfl
    simp only [retireEntries, List.map_cons, retireQueue, ← e.sequenceEnd_eq, hstart]
    by_cases hle : sequenceLessOrEqual e.sequenceEnd ack = true
    · rw [if_pos hle, if_pos hle]
      exact ih _ _
    · rw [if_neg hle, if_neg hle]
      by_cases hgt : sequenceGreater ack e.sequenceStart = true
      · rw [if_pos hgt, if_pos hgt]
        rfl
      · rw [if_neg hgt, if_neg hgt]
        rfl

theorem recordRttSample_view : (c.recordRttSample r).view = c.view := by
  unfold recordRttSample
  split_ifs <;> rfl

theorem recordRttSample_pending : (c.recordRttSample r).pending = c.pending := by
  unfold recordRttSample
  split_ifs <;> rfl

theorem retireAcknowledged_view : (retireAcknowledged c ack now).1.view =
      { c.view with send := c.view.send.retire ack } := by
  have hqueue := map_outstanding_retireEntries ack c.pending 0 none
  have hretired : view
      { c with sndUna := ack, pending := (retireEntries ack c.pending 0 none).pending } =
      { c.view with
        send := { c.view.send with sndUna := ack, queue := retireQueue ack c.view.send.queue } } := by
    simp only [view, hqueue]
  have hsnd : c.view.send.sndUna = c.sndUna := rfl
  simp only [retireAcknowledged, SendView.retire, hsnd]
  cases hgt : sequenceGreater ack c.sndUna with
  | false => rfl
  | true =>
    simp only [Bool.not_true, Bool.false_eq_true, if_false, if_true]
    cases (retireEntries ack c.pending 0 none).sampleFirstSent with
    | none => exact hretired
    | some firstSent =>
      dsimp only
      split_ifs
      · rw [view_of_pending, recordRttSample_view, hretired]
        rw [recordRttSample_pending]
        exact map_outstanding_markSampled _
      · rw [view_of_pending, recordRttSample_view, hretired]
        rw [recordRttSample_pending]
      · exact hretired

theorem applySackBlocks_view : (applySackBlocks c ack blocks).view = c.view := by
  unfold applySackBlocks
  dsimp only
  split_ifs
  · rfl
  · apply view_of_pending
    apply map_map_unchanged
    intro e
    split_ifs <;> rfl

theorem updateSendWindow_view : (c.updateSendWindow segment).view = c.view := by
  unfold updateSendWindow
  split_ifs <;> rfl

theorem applyCongestionGrowth_view : (c.applyCongestionGrowth dataBytes).view = c.view := by
  unfold applyCongestionGrowth
  split_ifs <;> rfl

theorem applyTimeoutCongestionCollapse_view : c.applyTimeoutCongestionCollapse.view = c.view := by
  unfold applyTimeoutCongestionCollapse
  have hmap := map_map_unchanged (l := c.pending) (f := outstanding)
    (g := fun e => { e with sacked := false, retransmittedInRecovery := false }) fun _ => rfl
  simp only [view, hmap]

theorem map_outstanding_clearRecoveryMarks : (clearRecoveryMarks pending).map outstanding =
      pending.map outstanding := by
  apply map_map_unchanged
  intro e
  rfl

/-- The segment repeats an outstanding one, with `ack` as its acknowledgment number. -/
structure Outstanding.IsSentAs (e : Outstanding) (ack : SeqNum) (segment : TcpSegment) : Prop where
  sequenceNumber : segment.sequenceNumber = e.sequenceStart
  acknowledgmentNumber : segment.acknowledgmentNumber = ack
  flags : segment.flags = e.flags
  payload : segment.payload = e.payload

/-- The entry that recovery sends again: data below the recovery point, neither reported nor sent
    again before. -/
structure Selected (point : SeqNum) (pending : List PendingTransmission) (index : ℕ)
    (entry : PendingTransmission) : Prop where
  index : pending[index]? = some entry
  isSyn : entry.isSyn = false
  isFin : entry.isFin = false
  below : sequenceGreater point entry.sequenceStart = true
  sacked : entry.sacked = false
  retransmittedInRecovery : entry.retransmittedInRecovery = false

theorem selectRecoveryRetransmission_spec {point : SeqNum} {pending : List PendingTransmission} :
    ∀ {index : ℕ} {entry : PendingTransmission},
    selectRecoveryRetransmission point pending = some (index, entry) →
    Selected point pending index entry := by
  induction pending with
  | nil => exact nofun
  | cons e rest ih =>
    intro index entry h
    have hlater : (selectRecoveryRetransmission point rest).map (fun p => (p.1 + 1, p.2)) =
        some (index, entry) → Selected point (e :: rest) index entry := by
      intro h
      obtain ⟨⟨i, x⟩, hselect, hsame⟩ := Option.map_eq_some_iff.1 h
      cases hsame
      obtain ⟨hindex, hsyn, hfin, hbelow, hsacked, hmark⟩ := ih hselect
      exact ⟨hindex, hsyn, hfin, hbelow, hsacked, hmark⟩
    rw [selectRecoveryRetransmission] at h
    split_ifs at h with hkind hbelow hmarked
    · exact hlater h
    · exact hlater h
    · cases h
      simp only [Bool.or_eq_true, not_or, Bool.not_eq_true] at hkind hmarked
      exact
        { index := rfl
          isSyn := hkind.1
          isFin := hkind.2
          below := by simpa using hbelow
          sacked := hmarked.1
          retransmittedInRecovery := hmarked.2 }

theorem retransmitForRecovery_spec : (retransmitForRecovery key c now).1.view = c.view ∧
    ∀ segment, (retransmitForRecovery key c now).2 = some segment →
      ∃ e ∈ c.view.send.queue, e.IsSentAs c.rcvNxt segment := by
  unfold retransmitForRecovery
  split
  · exact ⟨rfl, by simp⟩
  · next index entry hselect =>
    constructor
    · apply view_of_pending
      apply map_modify_unchanged
      intro e
      rfl
    · rintro segment ⟨rfl⟩
      have hmem := List.mem_of_getElem? (selectRecoveryRetransmission_spec hselect).index
      exact ⟨entry.outstanding, List.mem_map_of_mem hmem, rfl, rfl, rfl, rfl⟩

/-- A stage that leaves the view alone and emits at most a copy of an outstanding segment. -/
structure Quiet (c : Connection) (outcome : Connection × Option TcpSegment) : Prop where
  view : outcome.1.view = c.view
  segment : ∀ segment, outcome.2 = some segment →
    ∃ e ∈ c.view.send.queue, e.IsSentAs c.rcvNxt segment

theorem Quiet.silent {c c' : Connection} (h : c'.view = c.view) : Quiet c (c', none) :=
  ⟨h, by simp⟩

theorem Quiet.retransmitForRecovery {c c' : Connection} (h : c'.view = c.view)
    (key : TcpConnectionKey) (now : TimePoint) : Quiet c (retransmitForRecovery key c' now) := by
  obtain ⟨hview, hseg⟩ := retransmitForRecovery_spec key c' now
  have hrcv : c'.rcvNxt = c.rcvNxt := congrArg (·.receive.rcvNxt) h
  rw [h] at hview hseg
  rw [hrcv] at hseg
  exact ⟨hview, hseg⟩

theorem onAdvancingAck_quiet : Quiet c (onAdvancingAck key c ack retired now) := by
  unfold onAdvancingAck
  dsimp only
  split
  · split
    · exact Quiet.silent (view_of_pending (map_outstanding_clearRecoveryMarks c.pending))
    · apply Quiet.retransmitForRecovery
      rfl
  · apply Quiet.silent
    rw [applyCongestionGrowth_view]
    rfl

theorem onStandingAck_quiet : Quiet c (onStandingAck key c segment windowChanged now) := by
  unfold onStandingAck
  dsimp only
  split_ifs
  · apply Quiet.retransmitForRecovery
    rfl
  · exact Quiet.silent rfl
  · apply Quiet.retransmitForRecovery
    exact view_of_pending (map_outstanding_clearRecoveryMarks c.pending)
  · exact Quiet.silent rfl
  · exact Quiet.silent rfl
  · exact Quiet.silent rfl

theorem processAck_spec : (processAck key c segment options now).1.view =
      { c.view with send := c.view.send.retire segment.acknowledgmentNumber } ∧
    ∀ resent, (processAck key c segment options now).2 = some resent →
      ∃ e ∈ (c.view.send.retire segment.acknowledgmentNumber).queue, e.IsSentAs c.rcvNxt resent := by
  have hretire := retireAcknowledged_view c segment.acknowledgmentNumber now
  unfold processAck
  generalize retireAcknowledged c segment.acknowledgmentNumber now = retired at hretire ⊢
  obtain ⟨c₁, result⟩ := retired
  dsimp only at hretire ⊢
  set c₂ := if c₁.sackPermitted then
    applySackBlocks c₁ segment.acknowledgmentNumber options.sackBlocks else c₁ with hc₂
  have hview₂ : c₂.view = c₁.view := by
    rw [hc₂]
    split_ifs
    · exact applySackBlocks_view _ _ _
    · rfl
  have hview₃ : (c₂.updateSendWindow segment).view = c₁.view :=
    (updateSendWindow_view c₂ segment).trans hview₂
  have hrcv : (c₂.updateSendWindow segment).rcvNxt = c.rcvNxt :=
    congrArg (·.receive.rcvNxt) (hview₃.trans hretire)
  have hquiet : ∀ {outcome}, Quiet (c₂.updateSendWindow segment) outcome →
      outcome.1.view = { c.view with send := c.view.send.retire segment.acknowledgmentNumber } ∧
      ∀ resent, outcome.2 = some resent →
        ∃ e ∈ (c.view.send.retire segment.acknowledgmentNumber).queue,
          e.IsSentAs c.rcvNxt resent := by
    intro outcome h
    have hsegment := h.segment
    rw [hview₃, hretire, hrcv] at hsegment
    exact ⟨h.view.trans (hview₃.trans hretire), hsegment⟩
  split_ifs
  · exact hquiet (onAdvancingAck_quiet ..)
  · exact hquiet (onStandingAck_quiet ..)

end

end Wirestack
