import Wirestack.Tcp.View

set_option autoImplicit false

/-! # What the segment handlers can do

Inversion lemmas for the handlers of `Input`: one disjunct for each way a call can end, with the
guards that lead there. The invariants of the following modules are proved from these cases and
never unfold a handler. -/

namespace Wirestack

open Connection

/-! ## The receive side of `handleSynchronized` -/

/-- What the receive side of one call produces. -/
structure Received where
  connection : Connection
  accepted : List Byte := []
  peerClosed : Bool := false
  mostRecent : Option SeqNum := none

/-- Whether any part of the segment lies in the receive window. -/
def Connection.acceptsPart (c : Connection) (segment : TcpSegment) : Bool :=
  !(segment.payload.isEmpty && !segment.flags.fin) &&
    (c.anyPayloadInWindow segment || c.finInWindow segment)

/-- Store, release and consume, as far as the segment is acceptable. -/
def receivePart (memory : ℕ → Byte) (c : Connection) (segment : TcpSegment) (now : TimePoint) :
    Received :=
  if c.acceptsPart segment then
    let (stored, mostRecent) := storeSegment memory c segment
    let (released, accepted) := releaseContiguous stored
    let (consumed, peerClosed) := consumeFin released now
    { connection := consumed
      accepted := accepted
      peerClosed := peerClosed
      mostRecent := mostRecent }
  else { connection := c }

/-- How the result of `receiveSegment` is put together. -/
structure ReceiveOutcome (key : TcpConnectionKey) (c : Connection) (segment : TcpSegment)
    (fastRetransmit : Option TcpSegment) (part : Received) (now : TimePoint)
    (outcome : Connection × TcpReceiveResult) : Prop where
  connection : outcome.1 = (scheduleIfSendable key part.connection now).1
  scheduled : outcome.2.scheduled = (scheduleIfSendable key part.connection now).2
  accepted : outcome.2.acceptedPayload = part.accepted
  peerClosed : outcome.2.peerClosed = part.peerClosed
  fastRetransmit : outcome.2.fastRetransmit = fastRetransmit
  reset : outcome.2.connectionReset = false
  established : outcome.2.connectionEstablished = false
  closed : outcome.2.connectionClosed =
    (segment.payload.isEmpty && !segment.flags.fin && c.pendingRemoval)
  reply : ∀ reply, outcome.2.reply = some reply → reply = makePureAck key outcome.1 part.mostRecent
  replies : c.acceptsPart segment = true → outcome.2.reply.isSome =
    (outcome.2.acceptedPayload.isEmpty && outcome.2.scheduled.isEmpty || outcome.1.hasSackToReport)

section

variable (memory : ℕ → Byte) (key : TcpConnectionKey) (c : Connection) (segment : TcpSegment)
  (fastRetransmit : Option TcpSegment) (now : TimePoint)

theorem receiveSegment_outcome :
    ReceiveOutcome key c segment fastRetransmit (receivePart memory c segment now) now
      (receiveSegment memory key c segment fastRetransmit now) := by
  have hreply : ∀ {p : Prop} [Decidable p] {s reply : TcpSegment},
      (if p then some s else none) = some reply → s = reply := by
    intro p _ s reply h
    split_ifs at h
    exact Option.some.inj h
  by_cases hempty : (segment.payload.isEmpty && !segment.flags.fin) = true
  · have hnot : c.acceptsPart segment = false := by simp [acceptsPart, hempty]
    have hpart : receivePart memory c segment now = { connection := c } := by
      rw [receivePart, hnot, if_neg Bool.false_ne_true]
    rw [hpart, receiveSegment, if_pos hempty]
    constructor
    any_goals rfl
    · rw [hempty]
      rfl
    · exact fun reply h => (hreply h).symm
    · exact fun haccepts => nomatch hnot.symm.trans haccepts
  · have hclosed : (segment.payload.isEmpty && !segment.flags.fin && c.pendingRemoval) = false := by
      rw [Bool.not_eq_true] at hempty
      rw [hempty, Bool.false_and]
    by_cases hwindow : (!c.anyPayloadInWindow segment && !c.finInWindow segment) = true
    · have hnot : c.acceptsPart segment = false := by
        simp only [Bool.and_eq_true, Bool.not_eq_true'] at hwindow
        simp [acceptsPart, hwindow.1, hwindow.2]
      have hpart : receivePart memory c segment now = { connection := c } := by
        rw [receivePart, hnot, if_neg Bool.false_ne_true]
      rw [hpart, receiveSegment, if_neg hempty, if_pos hwindow]
      constructor
      any_goals rfl
      · exact hclosed.symm
      · exact fun reply h => (hreply h).symm
      · exact fun haccepts => nomatch hnot.symm.trans haccepts
    · have haccepts : c.acceptsPart segment = true := by
        unfold acceptsPart
        simp only [Bool.not_eq_true] at hempty hwindow
        rw [hempty]
        cases hany : c.anyPayloadInWindow segment <;> simp_all
      unfold receivePart receiveSegment
      rw [if_pos haccepts, if_neg hempty, if_neg hwindow]
      constructor
      any_goals rfl
      · exact hclosed.symm
      · exact fun reply h => (hreply h).symm
      · intro _
        dsimp only
        split_ifs with hreplies
        · exact hreplies.symm
        · simpa using hreplies

/-! ## `handleSynchronized` -/

/-- The segment reaches acknowledgment processing. -/
structure Processes (c : Connection) (segment : TcpSegment) (options : TcpParsedOptions) : Prop where
  syn : segment.flags.syn = false
  rst : segment.flags.rst = false
  ack : segment.flags.ack = true
  options : parseTcpOptions segment.options = .ok options
  inSent : sequenceLessOrEqual segment.acknowledgmentNumber c.sndNxt = true

/-- The connection after acknowledgment processing and the close transitions it drives. -/
def afterAck (key : TcpConnectionKey) (c : Connection) (segment : TcpSegment)
    (options : TcpParsedOptions) (now : TimePoint) : Connection :=
  (processAck key c segment options now).1.advanceClose now

/-- How the result of a segment that is processed is put together. -/
abbrev ProcessedOutcome (memory : ℕ → Byte) (key : TcpConnectionKey) (c : Connection)
    (segment : TcpSegment) (options : TcpParsedOptions) (fastRetransmit : Option TcpSegment)
    (now : TimePoint) (outcome : Connection × TcpReceiveResult) : Prop :=
  ReceiveOutcome key (afterAck key c segment options now) segment fastRetransmit
    (receivePart memory (afterAck key c segment options now) segment now) now outcome

/-- The three ways a call of `handleSynchronized` ends. -/
inductive SynchronizedCases (memory : ℕ → Byte) (key : TcpConnectionKey) (c : Connection)
    (segment : TcpSegment) (now : TimePoint) : Connection × TcpReceiveResult → Prop where
  | dropped (reply : Option TcpSegment) :
      (∀ r, reply = some r → segment.flags.syn = true ∧ r = makePureAck key c) →
      (segment.flags.rst = true → segment.flags.syn = false →
        (∃ options, parseTcpOptions segment.options = .ok options) →
        segment.sequenceNumber ≠ c.rcvNxt) →
      (∀ options, ¬ Processes c segment options) →
      SynchronizedCases memory key c segment now (c, { reply := reply })
  | reset (options : TcpParsedOptions) : segment.flags.syn = false → segment.flags.rst = true →
      parseTcpOptions segment.options = .ok options → segment.sequenceNumber = c.rcvNxt →
      SynchronizedCases memory key c segment now
        ({ c with pendingRemoval := true }, { connectionReset := true })
  | processed (options : TcpParsedOptions) (outcome : Connection × TcpReceiveResult) :
      Processes c segment options →
      ReceiveOutcome key (afterAck key c segment options now) segment
        (processAck key c segment options now).2
        (receivePart memory (afterAck key c segment options now) segment now) now outcome →
      SynchronizedCases memory key c segment now outcome

theorem handleSynchronized_cases :
    SynchronizedCases memory key c segment now (handleSynchronized memory key c segment now) := by
  unfold handleSynchronized
  by_cases hsyn : segment.flags.syn = true
  · rw [if_pos hsyn]
    have hnot : ∀ options, ¬ Processes c segment options := by
      intro options h
      rw [h.syn] at hsyn
      cases hsyn
    split_ifs
    · refine .dropped (some _) ?_ ?_ hnot
      · rintro r ⟨rfl⟩
        exact ⟨hsyn, rfl⟩
      · intro _ hsyn' _
        rw [hsyn'] at hsyn
        cases hsyn
    · refine .dropped none (by simp) ?_ hnot
      intro _ hsyn' _
      rw [hsyn'] at hsyn
      cases hsyn
  · rw [if_neg hsyn]
    rw [Bool.not_eq_true] at hsyn
    cases hoptions : parseTcpOptions segment.options with
    | error err =>
      refine .dropped none (by simp) ?_ ?_
      · rintro _ _ ⟨options, hok⟩
        simp [hoptions] at hok
      · intro options h
        have := h.options
        simp [hoptions] at this
    | ok options =>
      dsimp only
      by_cases hrst : segment.flags.rst = true
      · rw [if_pos hrst]
        by_cases hseq : segment.sequenceNumber = c.rcvNxt
        · rw [if_pos hseq]
          exact .reset options hsyn hrst hoptions hseq
        · rw [if_neg hseq]
          refine .dropped none (by simp) (fun _ _ _ => hseq) ?_
          intro options h
          rw [h.rst] at hrst
          cases hrst
      · rw [if_neg hrst]
        have hkeep : segment.flags.rst = true → segment.flags.syn = false →
            (∃ options, parseTcpOptions segment.options = .ok options) →
            segment.sequenceNumber ≠ c.rcvNxt :=
          fun h => absurd h hrst
        rw [Bool.not_eq_true] at hrst
        by_cases hack : segment.flags.ack = true
        · rw [if_neg (by simp [hack])]
          by_cases hle : sequenceLessOrEqual segment.acknowledgmentNumber c.sndNxt = true
          · rw [if_neg (by simp [hle])]
            exact .processed options _ ⟨hsyn, hrst, hack, hoptions, hle⟩ (receiveSegment_outcome ..)
          · rw [if_pos (by simpa using hle)]
            exact .dropped none (by simp) hkeep fun options h => hle h.inSent
        · rw [if_pos (by simpa using hack)]
          exact .dropped none (by simp) hkeep fun options h => hack h.ack

theorem handleSynchronized_processed {c : Connection} {segment : TcpSegment}
    {options : TcpParsedOptions} (hproc : Processes c segment options) (now : TimePoint) :
    ReceiveOutcome key (afterAck key c segment options now) segment
      (processAck key c segment options now).2
      (receivePart memory (afterAck key c segment options now) segment now) now
      (handleSynchronized memory key c segment now) := by
  have hcases := handleSynchronized_cases memory key c segment now
  generalize handleSynchronized memory key c segment now = outcome at hcases ⊢
  cases hcases with
  | dropped reply _ _ hnot => exact absurd hproc (hnot options)
  | reset _ _ hrst =>
    simp [hproc.rst] at hrst
  | processed options' outcome hproc' hout =>
    have hsame : options' = options := Except.ok.inj (hproc'.options.symm.trans hproc.options)
    rwa [← hsame]

/-! ## The other handlers -/

/-- The connection a valid SYN-ACK leaves behind. -/
def establishedWith (c : Connection) (segment : TcpSegment) (options : TcpParsedOptions)
    (now : TimePoint) : Connection :=
  let c :=
    { c with
      remoteIsn := segment.sequenceNumber
      remoteIsnKnown := true
      rcvNxt := segment.sequenceNumber + 1 }
  let c := { c.negotiate options with state := .established }
  { (retireAcknowledged c segment.acknowledgmentNumber now).1 with
    sndWnd := segment.windowSize.toNat
    sndWl1 := segment.sequenceNumber
    sndWl2 := segment.acknowledgmentNumber }

/-- The three ways a call of `handleSynSent` ends. -/
inductive SynSentCases (key : TcpConnectionKey) (c : Connection) (segment : TcpSegment)
    (now : TimePoint) : Connection × TcpReceiveResult → Prop where
  | dropped : SynSentCases key c segment now (c, {})
  | reset : segment.flags.rst = true → segment.acknowledgmentNumber = c.sndNxt →
      SynSentCases key c segment now ({ c with pendingRemoval := true }, { connectionReset := true })
  | established (options : TcpParsedOptions) (reply : TcpSegment) :
      parseTcpOptions segment.options = .ok options →
      segment.flags.rst = false → segment.flags.syn = true → segment.flags.ack = true →
      segment.flags.fin = false → segment.payload = [] → segment.acknowledgmentNumber = c.sndNxt →
      reply.flags = { ack := true } → reply.payload = [] →
      reply.sequenceNumber = (establishedWith c segment options now).sndNxt →
      reply.acknowledgmentNumber = (establishedWith c segment options now).rcvNxt →
      SynSentCases key c segment now
        (establishedWith c segment options now,
          { reply := some reply, connectionEstablished := true })

theorem handleSynSent_cases : SynSentCases key c segment now (handleSynSent key c segment now) := by
  unfold handleSynSent
  cases hoptions : parseTcpOptions segment.options with
  | error err => exact .dropped
  | ok options =>
    split_ifs with hrst hreset hsyn hack hfin hnum
    · simp only [Bool.and_eq_true, beq_iff_eq] at hreset
      exact .reset hrst hreset.2
    · exact .dropped
    · exact .dropped
    · exact .dropped
    · exact .dropped
    · exact .dropped
    · simp only [Bool.not_eq_true, Bool.not_eq_true', Bool.not_eq_false, Bool.or_eq_true,
        not_or, List.isEmpty_iff, ne_eq, not_not] at hrst hsyn hack hfin hnum
      exact .established options _ hoptions hrst hsyn hack hfin.1 hfin.2 hnum rfl rfl rfl rfl

/-- The ways a call of `handleTimeWait` ends. -/
inductive TimeWaitCases (key : TcpConnectionKey) (c : Connection) (segment : TcpSegment)
    (now : TimePoint) : Connection × TcpReceiveResult → Prop where
  | dropped : ¬ (segment.flags.rst = true ∧ segment.sequenceNumber = c.rcvNxt) →
      TimeWaitCases key c segment now (c, {})
  | reset : segment.flags.rst = true → segment.sequenceNumber = c.rcvNxt →
      TimeWaitCases key c segment now ({ c with pendingRemoval := true }, {})
  | restarted (deadline : TimePoint) : segment.flags.rst = false →
      TimeWaitCases key c segment now
        ({ c with timeWaitDeadline := some deadline },
          { reply := some (makePureAck key { c with timeWaitDeadline := some deadline }) })

theorem handleTimeWait_cases :
    TimeWaitCases key c segment now (handleTimeWait key c segment now) := by
  unfold handleTimeWait
  split_ifs with hrst hseq hdrop hfin
  · exact .reset hrst hseq
  · exact .dropped fun h => hseq h.2
  · exact .dropped fun h => hrst h.1
  · exact .restarted _ (by simpa using hrst)
  · exact .dropped fun h => hrst h.1

/-- The ways a segment is handled in SYN-RECEIVED. -/
inductive SynReceivedCases (key : TcpConnectionKey) (c : Connection) (segment : TcpSegment)
    (now : TimePoint) : Option Connection × TcpReceiveResult → Prop where
  | dropped : ¬ (segment.flags.rst = true ∧ segment.sequenceNumber = c.remoteIsn + 1) →
      SynReceivedCases key c segment now (some c, {})
  | reset : segment.flags.rst = true → segment.sequenceNumber = c.remoteIsn + 1 →
      SynReceivedCases key c segment now (none, {})
  | resent (c' : Connection) : segment.flags.rst = false → c'.view = c.view →
      SynReceivedCases key c segment now (some c', { reply := some (makeSynAck key c') })
  | completed : segment.flags.rst = false → segment.flags.syn = false → segment.flags.ack = true →
      segment.acknowledgmentNumber = c.localIsn + 1 → segment.sequenceNumber = c.remoteIsn + 1 →
      SynReceivedCases key c segment now (some (completeHandshake c segment now), {})

theorem handleSynReceived_cases :
    SynReceivedCases key c segment now (handleSynReceived key c segment now) := by
  unfold handleSynReceived
  split_ifs with hrst hseq hsyn hdup hack hdone
  · exact .reset hrst hseq
  · exact .dropped fun h => hseq h.2
  · refine .resent _ (by simpa using hrst) ?_
    apply view_of_pending
    apply map_modifyHead_unchanged
    intro e
    rfl
  · exact .dropped fun h => hrst h.1
  · simp only [Bool.and_eq_true, Bool.not_eq_true', Bool.not_eq_true] at hack hrst
    exact .completed hrst hack.2 hack.1 hdone.1 hdone.2
  · exact .dropped fun h => hrst h.1
  · exact .dropped fun h => hrst h.1

end

end Wirestack
