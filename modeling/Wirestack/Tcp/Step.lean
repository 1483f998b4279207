import Wirestack.Tcp.Run
import Wirestack.Tcp.Synchronized

set_option autoImplicit false

/-! # One call on a synchronized connection

`SyncedStep` collects what a call can do to a connection that satisfies `Synced`: which segments it
hands out, which bytes it takes in, where the state can go, and that the invariant holds again
afterwards. `Synced.step` proves it for every call. -/

namespace Wirestack

open SerialNumber List Connection Option

variable {S : List Byte} {u : ℕ} {v : SendView} {ack : SeqNum} {s₁ s₂ : TcpState}
  {outcome : Connection × TcpReceiveResult} {listenPort : UInt16} {key : TcpConnectionKey}
  {after : Option Connection}

variable {segment : TcpSegment} {s t : TcpState} {e : Event}

/-! ## What is handed out -/

/-- The payload is the slice of the stream `S` at the segment's sequence number, counted from the
    initial sequence number `isn`, and a FIN marks the end of the stream. -/
structure Slice (S : List Byte) (isn : SeqNum) (segment : TcpSegment) : Prop where
  data : segment.payload ≠ [] →
    ∃ k, segment.sequenceNumber = pos (isn + 1) k ∧ segment.payload <+: S.drop k
  fin : segment.flags.fin = true →
    segment.sequenceNumber = pos (isn + 1) S.length ∧ segment.payload = []

/-- A segment of a synchronized connection. -/
structure Transmission (S : List Byte) (isn : SeqNum) (segment : TcpSegment) : Prop
    extends Slice S isn segment where
  syn : segment.flags.syn = false
  rst : segment.flags.rst = false
  ack : segment.flags.ack = true

theorem SendInv.transmission (h : SendInv S u v) {e : Outstanding} (he : e ∈ v.queue)
    (hsent : e.IsSentAs ack segment) : Transmission S v.localIsn segment := by
  have hdata := h.data_slice he
  have hfin := h.fin_slice he
  rw [← hsent.payload, ← hsent.sequenceNumber] at hdata hfin
  have hflags := hsent.flags
  cases h.sent e he with
  | data start psh payload hne =>
    refine ⟨⟨hdata, fun h => ?_⟩, ?_, ?_, ?_⟩
    · simp [hflags] at h
    · rw [hflags]
    · rw [hflags]
    · rw [hflags]
  | fin start =>
    refine ⟨⟨hdata, fun _ => ⟨(hfin rfl).1, (hfin rfl).2.1⟩⟩, ?_, ?_, ?_⟩
    · rw [hflags]
    · rw [hflags]
    · rw [hflags]

theorem SendInv.isSome_of_fin (h : SendInv S u v) {e : Outstanding} (he : e ∈ v.queue)
    (hsent : e.IsSentAs ack segment) (hfin : segment.flags.fin = true) :
    v.localFinSeq.isSome = true := by
  have hslice := h.fin_slice he
  rw [hsent.flags] at hfin
  cases h.sent e he with
  | data start psh payload hne => cases hfin
  | fin start => exact (hslice rfl).2.2

theorem makePureAck_transmission (S : List Byte) (isn : SeqNum) (key : TcpConnectionKey)
    (c : Connection) (mostRecent : Option SeqNum) :
    Transmission S isn (makePureAck key c mostRecent) :=
  ⟨⟨fun h => absurd rfl h, fun h => absurd h (by simp [makePureAck])⟩, rfl, rfl, rfl⟩

/-! ## Where the state can go -/

/-- The edges of the state diagram between synchronized states. -/
inductive Edge : TcpState → TcpState → Prop where
  | localClose : Edge .established .finWait1
  | finAcked : Edge .finWait1 .finWait2
  | peerFin : Edge .finWait2 .timeWait
  | peerFinFirst : Edge .finWait1 .closing
  | closingAcked : Edge .closing .timeWait
  | peerClose : Edge .established .closeWait
  | lastFin : Edge .closeWait .lastAck

/-- At most two consecutive edges. -/
inductive Path : TcpState → TcpState → Prop where
  | stay (s : TcpState) : Path s s
  | one {s t : TcpState} : Edge s t → Path s t
  | two {s m t : TcpState} : Edge s m → Edge m t → Path s t

theorem Path.finSequenced (h : Path s t) (hs : s.finSequenced = true) : t.finSequenced = true := by
  have hedge : ∀ {s t : TcpState}, Edge s t → s.finSequenced = true → t.finSequenced = true := by
    intro s t h hs
    cases h <;> first | rfl | exact absurd hs (by simp [TcpState.finSequenced])
  cases h with
  | stay => exact hs
  | one h => exact hedge h hs
  | two h₁ h₂ => exact hedge h₂ (hedge h₁ hs)

theorem CloseMove.path (h : CloseMove s t) : Path s t := by
  cases h with
  | stay => exact .stay _
  | finWait1 => exact .one .localClose
  | lastAck => exact .one .lastFin

theorem CloseMove.peerFinConsumed (h : CloseMove s t) : t.peerFinConsumed = s.peerFinConsumed := by
  cases h <;> rfl

/-! ## The step -/

variable {S : List Byte} {u : ℕ} {c : Connection}

/-- What holds of the connection after the call. -/
structure Continues (S : List Byte) (u : ℕ) (c : Connection) (e : Event) (c' : Connection) :
    Prop where
  synced : ∃ u', (u ≤ u' ∧ (u' = u ∨ ∃ segment ∈ e.received, segment.flags.syn = false ∧
    segment.acknowledgmentNumber = pos (c.localIsn + 1) u')) ∧ Synced (S ++ e.accepted) u' c'
  localIsn : c'.localIsn = c.localIsn
  path : Path c.state c'.state
  peerFin : c'.state.peerFinConsumed = (c.state.peerFinConsumed || e.peerClosed)

/-- The segments that take a synchronized connection out of the table: an acceptable RST, and the
    final acknowledgment in LAST-ACK. -/
inductive Connection.RemovedBy (c : Connection) (segment : TcpSegment) : Prop where
  | reset : segment.flags.rst = true → segment.sequenceNumber = c.rcvNxt → c.RemovedBy segment
  | lastAcked : segment.flags.rst = false → c.state = .lastAck →
      segment.acknowledgmentNumber = c.sndNxt → c.RemovedBy segment

structure SyncedStep (S : List Byte) (u : ℕ) (c : Connection) (e : Event)
    (after : Option Connection) : Prop where
  emitted : ∀ segment ∈ e.emittedInSequence, Transmission (S ++ e.accepted) c.localIsn segment
  acks : ∀ segment ∈ e.emittedInSequence, segment.acknowledgmentNumber = c.rcvNxt ∨
    ∀ c', after = some c' → segment.acknowledgmentNumber = c'.rcvNxt
  fins : ∀ segment ∈ e.emittedInSequence, segment.flags.fin = true →
    ∀ c', after = some c' → c'.state.finSequenced = true
  accepted : c.state.finSequenced = true → e.accepted = []
  closed : e.peerClosed = true → c.finEventsOpen = true ∧ after.isSome = true
  continues : ∀ c', after = some c' → Continues S u c e c'
  removed : after = none →
    (∃ segment result, e = .handle segment result ∧ c.RemovedBy segment) ∨
    ∃ segment, e = .pollRetransmissions segment

theorem SyncedStep.gone (hemitted : e.emittedInSequence = []) (haccepted : e.accepted = [])
    (hclosed : e.peerClosed = false)
    (hremoved : (∃ segment result, e = .handle segment result ∧ c.RemovedBy segment) ∨
      ∃ segment, e = .pollRetransmissions segment) : SyncedStep S u c e none where
  emitted := by simp [hemitted]
  acks := by simp [hemitted]
  fins := by simp [hemitted]
  accepted := fun _ => haccepted
  closed := by
    rw [hclosed]
    exact nofun
  continues := fun c' h => absurd h (by simp)
  removed := fun _ => hremoved

theorem Synced.quiet (h : Synced S u c) {c' : Connection} (hview : c'.view = c.view)
    (haccepted : e.accepted = []) (hclosed : e.peerClosed = false)
    (hemitted : ∀ segment ∈ e.emittedInSequence, Transmission S c.localIsn segment ∧
      segment.acknowledgmentNumber = c.rcvNxt ∧
      (segment.flags.fin = true → c.state.finSequenced = true)) :
    SyncedStep S u c e (some c') where
  emitted := by
    rw [haccepted, append_nil]
    exact fun segment hmem => (hemitted segment hmem).1
  acks := fun segment hmem => .inl (hemitted segment hmem).2.1
  fins := by
    rintro segment hmem hfin c'' ⟨rfl⟩
    rw [show c'.state = c.state from congrArg (·.control.state) hview]
    exact (hemitted segment hmem).2.2 hfin
  accepted := fun _ => haccepted
  closed := by
    rw [hclosed]
    exact nofun
  continues := by
    rintro c'' ⟨rfl⟩
    have hstate : c'.state = c.state := congrArg (·.control.state) hview
    refine ⟨⟨u, ⟨le_rfl, .inl rfl⟩, ?_⟩, congrArg (·.send.localIsn) hview, ?_, ?_⟩
    · rw [haccepted, append_nil]
      exact h.of_view hview
    · rw [hstate]
      exact .stay _
    · rw [hstate, hclosed, Bool.or_false]
  removed := nofun

theorem Synced.sends (h : Synced S u c) (hsendable : c.isSendable = true) {c₀ : Connection}
    {outcome : Connection × List TcpSegment} {S' : List Byte} (hstage : SendStage S' u c₀ outcome)
    (hcontrol : c₀.view.control = c.view.control) (hreceive : c₀.view.receive = c.view.receive)
    (hisn : c₀.localIsn = c.localIsn) (hfin : c₀.localFinSeq = none) (hS : S ++ e.accepted = S')
    (hclosed : e.peerClosed = false)
    (hemitted : ∀ segment ∈ e.emittedInSequence, segment ∈ outcome.2) :
    SyncedStep S u c e (some outcome.1) where
  emitted := by
    intro segment hmem
    rw [hS]
    obtain ⟨o, ho, hsent⟩ := hstage.segments segment (hemitted segment hmem)
    have := hstage.send.transmission ho hsent
    rwa [show outcome.1.view.send.localIsn = c.localIsn from hstage.localIsn.trans hisn] at this
  acks := by
    intro segment hmem
    obtain ⟨o, ho, hsent⟩ := hstage.segments segment (hemitted segment hmem)
    exact .inl (hsent.acknowledgmentNumber.trans (congrArg ReceiveView.rcvNxt hreceive))
  fins := by
    rintro segment hmem hfinFlag c'' ⟨rfl⟩
    obtain ⟨o, ho, hsent⟩ := hstage.segments segment (hemitted segment hmem)
    rw [← (h.sendStage hsendable hcontrol hreceive hfin hstage).sequenced]
    exact hstage.send.isSome_of_fin ho hsent hfinFlag
  accepted := by
    intro hseq
    have := h.sequenced
    simp [hseq, h.localFinSeq_of_sendable hsendable] at this
  closed := by
    rw [hclosed]
    exact nofun
  continues := by
    rintro c'' ⟨rfl⟩
    have hstate : c₀.state = c.state := congrArg ControlView.state hcontrol
    have hsendable₀ : c₀.isSendable = true := by
      unfold isSendable at hsendable ⊢
      rwa [hstate]
    have hmove := hstage.closeMove hsendable₀
    rw [hstate] at hmove
    rw [← hS] at hstage
    refine ⟨⟨u, ⟨le_rfl, .inl rfl⟩, h.sendStage hsendable hcontrol hreceive hfin hstage⟩,
      hstage.localIsn.trans hisn, hmove.path, ?_⟩
    rw [hclosed, Bool.or_false]
    exact hmove.peerFinConsumed
  removed := nofun

/-! ## The operations -/

theorem appOwnedBytes_eq (h : SendInv S u c.view.send) :
    c.appOwnedBytes = c.view.send.ownedBytes := by
  have hsum : ∀ pending : List PendingTransmission,
      (∀ e ∈ pending.map PendingTransmission.outstanding, e.Sent) →
      ((pending.filter fun e => !e.isSyn && !e.isFin).map (·.payload.length)).sum =
        ((pending.map PendingTransmission.outstanding).map (·.payload.length)).sum := by
    intro pending hsent
    induction pending with
    | nil => rfl
    | cons e rest ih =>
      obtain ⟨he, hrest⟩ := forall_mem_cons.1 hsent
      have hone : (!e.isSyn && !e.isFin) = true ∨ e.payload = [] := by
        have hkind : ∀ o : Outstanding, o.Sent →
            (!o.isSyn && !o.isFin) = true ∨ o.payload = [] := by
          intro o ho
          cases ho with
          | data => exact .inl rfl
          | fin => exact .inr rfl
        exact hkind e.outstanding he
      have hpayload : e.outstanding.payload = e.payload := rfl
      rw [map_cons, map_cons, sum_cons, ← ih hrest, hpayload, filter_cons]
      split_ifs with hdata
      · rw [map_cons, sum_cons]
      · rw [hone.resolve_left hdata, length_nil, Nat.zero_add]
  unfold appOwnedBytes SendView.ownedBytes
  rw [hsum c.pending h.sent]
  rfl

theorem enqueueData_cases (key : TcpConnectionKey) (c : Connection) (payload : List Byte)
    (now : TimePoint) :
    (∃ error, enqueueData key c payload now = (c, { error := some error })) ∨
    c.isSendable = true ∧ c.closeRequested = false ∧
      payload.length ≤ kTcpSendBufferCapacity - c.appOwnedBytes ∧
      enqueueData key c payload now =
        ((scheduleQueuedData key { c with unsent := c.unsent ++ payload } now).1,
          { segments := (scheduleQueuedData key { c with unsent := c.unsent ++ payload } now).2
            bytesAccepted := payload.length }) := by
  unfold enqueueData
  split_ifs with hnot
  · exact .inl ⟨_, rfl⟩
  · by_cases hfull : payload.length > if c.appOwnedBytes ≥ kTcpSendBufferCapacity then 0
        else kTcpSendBufferCapacity - c.appOwnedBytes
    · rw [if_pos hfull]
      exact .inl ⟨_, rfl⟩
    · rw [if_neg hfull]
      simp only [Bool.or_eq_true, Bool.not_eq_true', not_or, Bool.not_eq_false,
        Bool.not_eq_true] at hnot
      refine .inr ⟨hnot.1, hnot.2, ?_, rfl⟩
      split_ifs at hfull <;> omega

theorem Synced.enqueued_stage (h : Synced S u c) (hsendable : c.isSendable = true)
    {payload : List Byte} (hroom : payload.length ≤ kTcpSendBufferCapacity - c.appOwnedBytes)
    (key : TcpConnectionKey) (now : TimePoint) :
    SendStage (S ++ payload) u { c with unsent := c.unsent ++ payload }
      (scheduleQueuedData key { c with unsent := c.unsent ++ payload } now) := by
  have hfin := h.localFinSeq_of_sendable hsendable
  have hcap := h.send.capacity
  rw [appOwnedBytes_eq h.send] at hroom
  exact scheduleQueuedData_stage key now (h.send.enqueue hfin (by omega)) hfin

theorem Synced.closing_stage (h : Synced S u c) (hsendable : c.isSendable = true)
    (key : TcpConnectionKey) (now : TimePoint) :
    SendStage S u { c with closeRequested := true }
      ((maybeSequenceFin key { c with closeRequested := true } now []).1.updatePersistState now,
        (maybeSequenceFin key { c with closeRequested := true } now []).2) := by
  have hidle := SendStage.idle (c := { c with closeRequested := true }) h.send.requestClose rfl
  exact (maybeSequenceFin_stage key now hidle rfl (h.localFinSeq_of_sendable hsendable)).persist now

theorem Synced.enqueueData (h : Synced S u c) (key : TcpConnectionKey) (payload : List Byte)
    (now : TimePoint) :
    SyncedStep S u c (.makeOutgoingData payload (enqueueData key c payload now).2)
      (some (enqueueData key c payload now).1) := by
  rcases enqueueData_cases key c payload now with ⟨error, heq⟩ | ⟨hsendable, -, hroom, heq⟩
  · rw [heq]
    exact h.quiet rfl rfl rfl (by simp [Event.emittedInSequence])
  · rw [heq]
    have hfin := h.localFinSeq_of_sendable hsendable
    have hstage := h.enqueued_stage hsendable hroom key now
    generalize scheduleQueuedData key { c with unsent := c.unsent ++ payload } now = sent at hstage ⊢
    refine h.sends hsendable hstage rfl rfl rfl hfin ?_ ?_ ?_
    · rfl
    · rfl
    · exact fun segment hmem => hmem

theorem Synced.closeConnection (h : Synced S u c) (key : TcpConnectionKey) (now : TimePoint) :
    SyncedStep S u c (.beginClose (closeConnection key c now).2)
      (some (closeConnection key c now).1) := by
  unfold Wirestack.closeConnection
  by_cases hsendable : c.isSendable = true
  · rw [if_neg (by simp [hsendable])]
    have hfin := h.localFinSeq_of_sendable hsendable
    have hstage := h.closing_stage hsendable key now
    generalize maybeSequenceFin key { c with closeRequested := true } now [] = outcome at hstage ⊢
    obtain ⟨c', segments⟩ := outcome
    dsimp only at hstage ⊢
    refine h.sends hsendable hstage rfl rfl rfl hfin ?_ ?_ ?_
    · exact append_nil S
    · rfl
    · intro segment hmem
      exact mem_of_mem_head? (by simpa [Event.emittedInSequence] using hmem)
  · rw [if_pos (by simpa using hsendable)]
    exact h.quiet rfl rfl rfl (by simp [Event.emittedInSequence])

theorem pollPersistProbe_view (key : TcpConnectionKey) (c : Connection) (now : TimePoint) :
    (pollPersistProbe key c now).1.view = c.view := by
  unfold pollPersistProbe
  split
  · rfl
  · split_ifs <;> rfl

theorem pollConnection_cases (key : TcpConnectionKey) (c : Connection) (now : TimePoint) :
    ((pollConnection key c now).kept c = none ∧ (pollConnection key c now).segment? = none) ∨
    ((pollConnection key c now).kept c = some c ∧ (pollConnection key c now).segment? = none) ∨
    ∃ c' oldest rest, c.pending = oldest :: rest ∧ c'.view = c.view ∧
      (pollConnection key c now).kept c = some c' ∧
      ∃ c₁, c₁.view = c.view ∧
        (pollConnection key c now).segment? = some (timeoutSegment key c₁ oldest) := by
  unfold pollConnection
  split_ifs with hwait
  · split
    · split_ifs
      · exact .inl ⟨rfl, rfl⟩
      · exact .inr (.inl ⟨rfl, rfl⟩)
    · exact .inr (.inl ⟨rfl, rfl⟩)
  · split
    · exact .inr (.inl ⟨rfl, rfl⟩)
    · next oldest rest hpending =>
      split
      · exact .inr (.inl ⟨rfl, rfl⟩)
      · split
        · exact .inl ⟨rfl, rfl⟩
        · right
          right
          set c₁ := if !oldest.isSyn && !oldest.isFin then c.applyTimeoutCongestionCollapse else c
            with hc₁
          have hview : c₁.view = c.view := by
            rw [hc₁]
            split_ifs
            · exact applyTimeoutCongestionCollapse_view c
            · rfl
          refine ⟨_, oldest, rest, hpending, ?_, rfl, c₁, hview, rfl⟩
          rw [← hview]
          apply view_of_pending
          apply map_modifyHead_unchanged
          intro e
          rfl

theorem Synced.pollConnection (h : Synced S u c) (key : TcpConnectionKey) (now : TimePoint) :
    SyncedStep S u c (.pollRetransmissions (pollConnection key c now).segment?)
      ((pollConnection key c now).kept c) := by
  rcases pollConnection_cases key c now with
    ⟨hkept, hsegment⟩ | ⟨hkept, hsegment⟩ |
    ⟨c', oldest, rest, hpending, hview, hkept, c₁, hview₁, hsegment⟩
  · rw [hkept, hsegment]
    exact SyncedStep.gone (by simp [Event.emittedInSequence]) rfl rfl (.inr ⟨none, rfl⟩)
  · rw [hkept, hsegment]
    exact h.quiet rfl rfl rfl (by simp [Event.emittedInSequence])
  · rw [hkept, hsegment]
    refine h.quiet hview rfl rfl fun segment hmem => ?_
    have hmem : segment = timeoutSegment key c₁ oldest := by
      simpa [Event.emittedInSequence] using hmem
    have hqueue : oldest.outstanding ∈ c.view.send.queue := by
      simp only [view, hpending, map_cons]
      exact mem_cons_self ..
    have hsyn : oldest.isSyn = false ∧ oldest.isActiveSyn = false := by
      have hkind : ∀ o : Outstanding, o.Sent → o.isSyn = false ∧ o.isActiveSyn = false := by
        intro o ho
        cases ho <;> exact ⟨rfl, rfl⟩
      exact hkind _ (h.send.sent _ hqueue)
    have hrcv : c₁.rcvNxt = c.rcvNxt := congrArg (·.receive.rcvNxt) hview₁
    have hsent : oldest.outstanding.IsSentAs c.rcvNxt segment := by
      rw [hmem]
      refine ⟨rfl, ?_, rfl, rfl⟩
      simp [timeoutSegment, hsyn.1, hsyn.2, hrcv]
    refine ⟨h.send.transmission hqueue hsent, hsent.acknowledgmentNumber, fun hfin => ?_⟩
    rw [← h.sequenced]
    exact h.send.isSome_of_fin hqueue hsent hfin

/-! ## Segment arrival -/

/-- Where the acknowledgment of the local FIN can take the state. -/
inductive AckMove : TcpState → TcpState → Prop where
  | stay (s : TcpState) : AckMove s s
  | finWait2 : AckMove .finWait1 .finWait2
  | timeWait : AckMove .closing .timeWait

theorem advanceClose_move (c : Connection) (now : TimePoint) :
    AckMove c.state (c.advanceClose now).state := by
  have hcases := advanceClose_cases c now
  generalize c.advanceClose now = c' at hcases ⊢
  cases hcases with
  | stay => exact .stay _
  | finWait2 h => rw [h]; exact .finWait2
  | timeWait h => rw [h]; exact .timeWait
  | remove h => exact .stay _

/-- Where the receive side can take the state, and whether the peer's FIN was consumed. -/
inductive ReceiveMove : TcpState → Bool → TcpState → Prop where
  | stay (s : TcpState) : ReceiveMove s false s
  | closeWait : ReceiveMove .established true .closeWait
  | closing : ReceiveMove .finWait1 true .closing
  | timeWait : ReceiveMove .finWait2 true .timeWait

theorem peerFinTransition_move {c : Connection} (hopen : c.finEventsOpen = true) (now : TimePoint) :
    ReceiveMove c.state true (c.peerFinTransition now).state := by
  unfold peerFinTransition
  cases hstate : c.state with
  | established => exact .closeWait
  | finWait1 => exact .closing
  | finWait2 => exact .timeWait
  | synSent | synReceived | closeWait | closing | lastAck | timeWait =>
    simp [finEventsOpen, hstate] at hopen

theorem receivePart_move (memory : ℕ → Byte) {c : Connection} (segment : TcpSegment)
    (now : TimePoint) (hretained : c.pendingFinSeq.isSome = true → c.finEventsOpen = true) :
    ReceiveMove c.state (receivePart memory c segment now).peerClosed
      (receivePart memory c segment now).connection.state := by
  have hcases := receivePart_cases memory c segment now
  have hcontrol := receivedWith_control memory c segment
  have hopen := receivedWith_retained (c := c) memory segment hretained
  rw [← finEventsOpen_congr hcontrol] at hopen
  have hstate := receivedWith_state memory c segment
  rw [← hstate]
  generalize receivePart memory c segment now = part at hcases ⊢
  generalize receivedWith memory c segment = received at hcases hopen hstate ⊢
  cases hcases with
  | ignored => rw [hstate]; exact .stay _
  | stored => exact .stay _
  | consumed _ _ hfin =>
    have hopen : received.finEventsOpen = true := hopen (by rw [hfin]; rfl)
    exact peerFinTransition_move
      (c := { received with rcvNxt := received.rcvNxt + 1, pendingFinSeq := none }) hopen now

theorem receivePart_pendingRemoval (memory : ℕ → Byte) (c : Connection) (segment : TcpSegment)
    (now : TimePoint) :
    (receivePart memory c segment now).connection.pendingRemoval = c.pendingRemoval := by
  rw [receivePart_shape]

theorem moves_compose {s₀ s₃ : TcpState} {closed : Bool} (h₁ : AckMove s₀ s₁)
    (h₂ : ReceiveMove s₁ closed s₂) (h₃ : CloseMove s₂ s₃) :
    Path s₀ s₃ ∧ s₃.peerFinConsumed = (s₀.peerFinConsumed || closed) := by
  cases h₁ with
  | stay =>
    cases h₂ with
    | stay => exact ⟨h₃.path, by rw [h₃.peerFinConsumed, Bool.or_false]⟩
    | closeWait =>
      cases h₃ with
      | stay => exact ⟨.one .peerClose, rfl⟩
      | lastAck => exact ⟨.two .peerClose .lastFin, rfl⟩
    | closing =>
      cases h₃ with
      | stay => exact ⟨.one .peerFinFirst, rfl⟩
    | timeWait =>
      cases h₃ with
      | stay => exact ⟨.one .peerFin, rfl⟩
  | finWait2 =>
    cases h₂ with
    | stay =>
      cases h₃ with
      | stay => exact ⟨.one .finAcked, rfl⟩
    | timeWait =>
      cases h₃ with
      | stay => exact ⟨.two .finAcked .peerFin, rfl⟩
  | timeWait =>
    cases h₂ with
    | stay =>
      cases h₃ with
      | stay => exact ⟨.one .closingAcked, rfl⟩

theorem finEventsOpen_of_moves {c : Connection} (h₁ : AckMove c.state s₁)
    (h₂ : ReceiveMove s₁ true s₂) : c.finEventsOpen = true := by
  unfold finEventsOpen
  generalize c.state = s at h₁ ⊢
  cases h₁ <;> cases h₂ <;> rfl

@[simp]
theorem eraseIfRemoved_result (outcome : Connection × TcpReceiveResult) :
    (eraseIfRemoved outcome).2 = outcome.2 := rfl

theorem eraseIfRemoved_of_kept (h : outcome.1.pendingRemoval = false) :
    (eraseIfRemoved outcome).1 = some outcome.1 := by
  rw [eraseIfRemoved, h]
  rfl

theorem eraseIfRemoved_of_removed (h : outcome.1.pendingRemoval = true) :
    (eraseIfRemoved outcome).1 = none := by
  rw [eraseIfRemoved, h]
  rfl

theorem scheduleIfSendable_of_removal (key : TcpConnectionKey) {c : Connection} (now : TimePoint)
    (h : c.pendingRemoval = true) :
    scheduleIfSendable key c now = (c.updatePersistState now, []) := by
  rw [scheduleIfSendable, h]
  rfl

section Processed

variable {memory : ℕ → Byte} {key : TcpConnectionKey} {segment : TcpSegment}
  {options : TcpParsedOptions} {now : TimePoint} {outcome : Connection × TcpReceiveResult}

theorem ReceiveOutcome.mem_emitted {c₂ : Connection} {fast : Option TcpSegment} {part : Received}
    (h : ReceiveOutcome key c₂ segment fast part now outcome) {sent : TcpSegment}
    (hmem : sent ∈ Event.emittedInSequence (.handle segment outcome.2)) :
    sent = makePureAck key outcome.1 part.mostRecent ∨ fast = some sent ∨
      sent ∈ (scheduleIfSendable key part.connection now).2 := by
  simp only [Event.emittedInSequence, mem_append, mem_toList] at hmem
  rcases hmem with (hmem | hmem) | hmem
  · exact .inl (h.reply sent hmem)
  · rw [h.fastRetransmit] at hmem
    exact .inr (.inl hmem)
  · rw [h.scheduled] at hmem
    exact .inr (.inr hmem)

theorem processAck_transmission (h : Synced S u c) (hproc : Processes c segment options)
    {resent : TcpSegment} (hresent : (processAck key c segment options now).2 = some resent) :
    Transmission S c.localIsn resent ∧ resent.acknowledgmentNumber = c.rcvNxt ∧
      (resent.flags.fin = true → c.localFinSeq.isSome = true) := by
  obtain ⟨o, ho, hsent⟩ := (processAck_spec key c segment options now).2 resent hresent
  obtain ⟨u', -, hsend⟩ := h.send.retire hproc.inSent
  have htrans := hsend.transmission ho hsent
  have hfin := hsend.isSome_of_fin ho hsent
  have hisn : (c.view.send.retire segment.acknowledgmentNumber).localIsn = c.localIsn ∧
      (c.view.send.retire segment.acknowledgmentNumber).localFinSeq = c.localFinSeq := by
    unfold SendView.retire
    split_ifs <;> exact ⟨rfl, rfl⟩
  rw [hisn.1] at htrans
  rw [hisn.2] at hfin
  exact ⟨htrans, hsent.acknowledgmentNumber, hfin⟩

section

variable (memory : ℕ → Byte) (key : TcpConnectionKey) (c : Connection) (segment : TcpSegment)
  (options : TcpParsedOptions) (now : TimePoint)

theorem afterAck_localIsn : (afterAck key c segment options now).localIsn = c.localIsn := by
  have hview := congrArg (·.send.localIsn) (processAck_spec key c segment options now).1
  have hack : (processAck key c segment options now).1.localIsn = c.localIsn := by
    refine hview.trans ?_
    simp only [SendView.retire]
    split_ifs <;> rfl
  refine Eq.trans ?_ hack
  unfold afterAck
  have hcases := advanceClose_cases (processAck key c segment options now).1 now
  generalize (processAck key c segment options now).1 = c₁ at hcases ⊢
  generalize c₁.advanceClose now = c₂ at hcases ⊢
  cases hcases <;> rfl

theorem processAck_state : (processAck key c segment options now).1.state = c.state :=
  congrArg (·.control.state) (processAck_spec key c segment options now).1

theorem receivePart_localIsn :
    (receivePart memory c segment now).connection.localIsn = c.localIsn := by
  rw [receivePart_shape]

end

theorem processed_removed (h : Synced S u c) (hproc : Processes c segment options)
    (hlast : (afterAck key c segment options now).state = .lastAck)
    (hremove : (afterAck key c segment options now).pendingRemoval = true)
    (hfin : (afterAck key c segment options now).pendingFinSeq = none) (hstate : c.state = .lastAck)
    (hack : segment.acknowledgmentNumber = c.sndNxt)
    (hout : ProcessedOutcome memory key c segment options (processAck key c segment options now).2
      now outcome) :
    SyncedStep S u c (.handle segment outcome.2) (eraseIfRemoved outcome).1 := by
  have hmove := receivePart_move memory segment now
    (c := afterAck key c segment options now) (by rw [hfin]; exact nofun)
  have hremove' := receivePart_pendingRemoval memory (afterAck key c segment options now) segment now
  have hsched := scheduleIfSendable_of_removal key now (hremove'.trans hremove)
  have hkept : outcome.1.pendingRemoval = true := by
    rw [hout.connection, hsched]
    exact (congrArg (·.control.pendingRemoval) (updatePersistState_view _ now)).trans
      (hremove'.trans hremove)
  rw [eraseIfRemoved_of_removed hkept]
  refine ⟨fun sent hmem => ?_, fun sent _ => .inr fun c' h => absurd h (by simp),
    fun sent _ _ c' h => absurd h (by simp), fun _ => rfl, fun hclosed => ?_,
    fun c' h => absurd h (by simp), fun _ => ?_⟩
  · rw [show Event.accepted (.handle segment outcome.2) = [] from rfl, append_nil]
    rcases hout.mem_emitted hmem with rfl | hfast | hmem
    · exact makePureAck_transmission ..
    · exact (processAck_transmission h hproc hfast).1
    · simp [hsched] at hmem
  · have hpeer : (receivePart memory (afterAck key c segment options now) segment now).peerClosed =
        true := hout.peerClosed.symm.trans hclosed
    rw [hlast, hpeer] at hmove
    exact nomatch hmove
  · exact .inl ⟨segment, outcome.2, rfl, .lastAcked hproc.rst hstate hack⟩

theorem processed_kept (h : Synced S u c) {u' : ℕ}
    (hu : u ≤ u' ∧ (u' = u ∨ segment.acknowledgmentNumber = pos (c.localIsn + 1) u'))
    (hproc : Processes c segment options)
    (hsynced : Synced S u' (afterAck key c segment options now))
    (hout : ProcessedOutcome memory key c segment options (processAck key c segment options now).2
      now outcome) :
    SyncedStep S u c (.handle segment outcome.2) (eraseIfRemoved outcome).1 := by
  have hmove₁ : AckMove c.state (afterAck key c segment options now).state := by
    have := advanceClose_move (processAck key c segment options now).1 now
    rwa [processAck_state] at this
  have hmove₂ := receivePart_move memory segment now hsynced.retained
  have hisn := (receivePart_localIsn memory (afterAck key c segment options now) segment now).trans
    (afterAck_localIsn key c segment options now)
  have hpart := hsynced.receivePart memory segment now
  obtain ⟨hstage, hsynced', hmove₃⟩ := hpart.scheduleIfSendable key now
  have hrcv : outcome.1.rcvNxt = (receivePart memory (afterAck key c segment options now) segment
      now).connection.rcvNxt := by
    rw [hout.connection]
    exact congrArg ReceiveView.rcvNxt hstage.receive
  rw [← hout.connection] at hsynced' hmove₃
  rw [eraseIfRemoved_of_kept hsynced'.removal]
  obtain ⟨hpath, hpeer⟩ := moves_compose hmove₁ hmove₂ hmove₃
  have hscheduled : ∀ sent ∈ (scheduleIfSendable key (receivePart memory
      (afterAck key c segment options now) segment now).connection now).2,
      Transmission S c.localIsn sent ∧ sent.acknowledgmentNumber = outcome.1.rcvNxt ∧
        (sent.flags.fin = true → outcome.1.state.finSequenced = true) := by
    intro sent hmem
    obtain ⟨o, ho, hsent⟩ := hstage.segments sent hmem
    have htrans := hstage.send.transmission ho hsent
    rw [hrcv]
    refine ⟨(hstage.localIsn.trans hisn) ▸ htrans, hsent.acknowledgmentNumber, fun hfin => ?_⟩
    rw [← hsynced'.sequenced, hout.connection]
    exact hstage.send.isSome_of_fin ho hsent hfin
  refine ⟨fun sent hmem => ?_, fun sent hmem => ?_, ?_, fun _ => rfl, fun hclosed => ?_, ?_, nofun⟩
  · rw [show Event.accepted (.handle segment outcome.2) = [] from rfl, append_nil]
    rcases hout.mem_emitted hmem with rfl | hfast | hmem
    · exact makePureAck_transmission ..
    · exact (processAck_transmission h hproc hfast).1
    · exact (hscheduled sent hmem).1
  · rcases hout.mem_emitted hmem with rfl | hfast | hmem
    · right
      rintro c' ⟨rfl⟩
      rfl
    · exact .inl (processAck_transmission h hproc hfast).2.1
    · right
      rintro c' ⟨rfl⟩
      exact (hscheduled sent hmem).2.1
  · rintro sent hmem hfin c' ⟨rfl⟩
    rcases hout.mem_emitted hmem with rfl | hfast | hmem
    · exact absurd hfin (by simp [makePureAck])
    · have hsome := (processAck_transmission h hproc hfast).2.2 hfin
      exact hpath.finSequenced (h.sequenced.symm.trans hsome)
    · exact (hscheduled sent hmem).2.2 hfin
  · have hpeer' : (receivePart memory (afterAck key c segment options now) segment
        now).peerClosed = true := hout.peerClosed.symm.trans hclosed
    rw [hpeer'] at hmove₂
    exact ⟨finEventsOpen_of_moves hmove₁ hmove₂, rfl⟩
  · rintro c' ⟨rfl⟩
    refine ⟨⟨u', ⟨hu.1, hu.2.imp_right fun hack =>
      ⟨segment, mem_singleton_self _, hproc.syn, hack⟩⟩, ?_⟩, ?_, hpath, ?_⟩
    · rwa [show Event.accepted (.handle segment outcome.2) = [] from rfl, append_nil]
    · rw [hout.connection]
      exact hstage.localIsn.trans hisn
    · rw [hpeer, ← hout.peerClosed]
      rfl

end Processed

theorem Synced.handleSynchronized (h : Synced S u c) (memory : ℕ → Byte) (key : TcpConnectionKey)
    (segment : TcpSegment) (now : TimePoint) :
    SyncedStep S u c (.handle segment (handleSynchronized memory key c segment now).2)
      (eraseIfRemoved (handleSynchronized memory key c segment now)).1 := by
  have hcases := handleSynchronized_cases memory key c segment now
  generalize Wirestack.handleSynchronized memory key c segment now = outcome at hcases ⊢
  cases hcases with
  | dropped reply hreply =>
    rw [eraseIfRemoved_of_kept h.removal]
    refine h.quiet rfl rfl rfl fun sent hmem => ?_
    simp only [Event.emittedInSequence, toList_none, append_nil, mem_toList] at hmem
    rw [(hreply sent hmem).2]
    exact ⟨makePureAck_transmission .., rfl, fun h => absurd h (by simp [makePureAck])⟩
  | reset options _ hrst _ hseq =>
    rw [eraseIfRemoved_of_removed rfl]
    exact SyncedStep.gone rfl rfl rfl (.inl ⟨segment, _, rfl, .reset hrst hseq⟩)
  | processed options outcome hproc hout =>
    obtain ⟨u', hu, hjoined⟩ := h.toJoined.processAck key options now hproc.inSent
    have hstate := processAck_state key c segment options now
    rcases hjoined.advanceClose now with ⟨hlast, rfl, hremoved⟩ | hsynced
    · have hlast' : c.state = .lastAck := hstate.symm.trans hlast
      have hack : segment.acknowledgmentNumber = c.sndNxt := by
        have hsend := hjoined.send
        rw [(processAck_spec key c segment options now).1] at hsend
        refine h.send.ack_eq_nxt ?_ ?_ hsend
        · exact h.sequenced.trans (by rw [hlast']; rfl)
        · exact h.unacked (by rw [hlast']; rfl) (by rw [hlast']; rfl)
      have hafter : afterAck key c segment options now =
          { (processAck key c segment options now).1 with pendingRemoval := true } := hremoved
      refine processed_removed h hproc ?_ ?_ ?_ hlast' hack hout
      · rwa [hafter]
      · rw [hafter]
      · rw [hafter]
        by_contra hne
        have := hjoined.retained (isSome_iff_ne_none.2 hne)
        simp [finEventsOpen, hlast] at this
    · exact processed_kept h hu hproc hsynced hout

theorem Synced.handleTimeWait (h : Synced S u c) (hwait : c.state = .timeWait)
    (key : TcpConnectionKey) (segment : TcpSegment) (now : TimePoint) :
    SyncedStep S u c (.handle segment (handleTimeWait key c segment now).2)
      (eraseIfRemoved (handleTimeWait key c segment now)).1 := by
  have hcases := handleTimeWait_cases key c segment now
  generalize Wirestack.handleTimeWait key c segment now = outcome at hcases ⊢
  cases hcases with
  | dropped =>
    rw [eraseIfRemoved_of_kept h.removal]
    exact h.quiet rfl rfl rfl (by simp [Event.emittedInSequence])
  | reset hrst hseq =>
    rw [eraseIfRemoved_of_removed rfl]
    exact SyncedStep.gone rfl rfl rfl (.inl ⟨segment, _, rfl, .reset hrst hseq⟩)
  | restarted deadline =>
    rw [eraseIfRemoved_of_kept h.removal]
    have hsynced : Synced S u { c with timeWaitDeadline := some deadline } :=
      ⟨⟨h.send, h.synchronized, h.sequenced, h.acked, by simp [hwait], h.retained, h.removal⟩,
        h.unacked⟩
    refine ⟨fun sent hmem => ?_, fun sent hmem => .inl ?_, ?_, fun _ => rfl,
      fun h => absurd h (by simp [Event.peerClosed]), ?_, nofun⟩
    · simp only [Event.emittedInSequence, toList_some, toList_none,
        append_nil, mem_singleton] at hmem
      rw [hmem]
      exact makePureAck_transmission ..
    · simp only [Event.emittedInSequence, toList_some, toList_none,
        append_nil, mem_singleton] at hmem
      rw [hmem]
      rfl
    · rintro sent _ _ c' ⟨rfl⟩
      exact (congrArg TcpState.finSequenced hwait).trans rfl
    · rintro c' ⟨rfl⟩
      refine ⟨⟨u, ⟨le_rfl, .inl rfl⟩, ?_⟩, rfl, .stay _, ?_⟩
      · rwa [show S ++ Event.accepted (.handle segment _) = S from append_nil S]
      · exact (Bool.or_false _).symm

section

variable (memory : ℕ → Byte) (key : TcpConnectionKey) (segment : TcpSegment) (now : TimePoint)

theorem handleExisting_of_synchronized {c : Connection} (hsync : c.state.synchronized = true)
    (hwait : c.state ≠ .timeWait) :
    handleExisting memory key c segment now =
      eraseIfRemoved (handleSynchronized memory key c segment now) := by
  unfold handleExisting
  cases hstate : c.state <;> simp_all [TcpState.synchronized]

theorem handleExisting_of_timeWait {c : Connection} (hwait : c.state = .timeWait) :
    handleExisting memory key c segment now = eraseIfRemoved (handleTimeWait key c segment now) := by
  rw [handleExisting, hwait]

theorem handleExisting_of_synSent {c : Connection} (hstate : c.state = .synSent) :
    handleExisting memory key c segment now = eraseIfRemoved (handleSynSent key c segment now) := by
  rw [handleExisting, hstate]

theorem handleExisting_of_synReceived {c : Connection} (hstate : c.state = .synReceived) :
    handleExisting memory key c segment now = handleSynReceived key c segment now := by
  rw [handleExisting, hstate]

end

theorem Synced.step (h : Synced S u c) (hstep : KeyStep listenPort key (some c) e after) :
    SyncedStep S u c e after := by
  cases hstep with
  | reconnect _ error => exact h.quiet rfl rfl rfl (by simp [Event.emittedInSequence])
  | handle memory _ segment now =>
    by_cases hwait : c.state = .timeWait
    · rw [handleExisting_of_timeWait memory key segment now hwait]
      exact h.handleTimeWait hwait key segment now
    · rw [handleExisting_of_synchronized memory key segment now h.synchronized hwait]
      exact h.handleSynchronized ..
  | rejectData _ payload error => exact h.quiet rfl rfl rfl (by simp [Event.emittedInSequence])
  | sendData _ payload now => exact h.enqueueData key payload now
  | close _ now => exact h.closeConnection key now
  | probe _ now =>
    exact h.quiet (pollPersistProbe_view key c now) rfl rfl (by simp [Event.emittedInSequence])
  | timeout _ now => exact h.pollConnection key now

/-- A persist probe: at most one byte, under the sequence number before the first that is not
    acknowledged. -/
structure IsProbe (u : ℕ) (c : Connection) (segment : TcpSegment) : Prop where
  flags : segment.flags = { ack := true }
  sequenceNumber : segment.sequenceNumber = pos c.localIsn u
  acknowledgmentNumber : segment.acknowledgmentNumber = c.rcvNxt
  payload : segment.payload.length ≤ 1

theorem pollPersistProbe_probe (h : Synced S u c) (key : TcpConnectionKey) (now : TimePoint)
    (hprobe : (pollPersistProbe key c now).2 = some segment) : IsProbe u c segment := by
  unfold pollPersistProbe at hprobe
  split at hprobe
  · cases hprobe
  · split_ifs at hprobe with hdue heligible
    simp only [Bool.not_eq_true', Bool.not_eq_false, persistEligible,
      Bool.and_eq_true, beq_iff_eq] at heligible
    cases hprobe
    refine ⟨rfl, ?_, rfl, by simp⟩
    -- Nothing is outstanding, so the number before `sndNxt` is the one before `sndUna`.
    change c.sndNxt - 1 = pos c.localIsn u
    rw [heligible.1.2, show c.sndUna = pos (c.localIsn + 1) u from h.send.una, ← pos_one, pos_pos,
      Nat.add_comm, ← pos_add_one, BitVec.add_sub_cancel]

theorem Synced.probes (h : Synced S u c) (hstep : KeyStep listenPort key (some c) e after) :
    ∀ segment ∈ e.probes, IsProbe u c segment := by
  intro segment hmem
  cases hstep with
  | probe _ now => exact pollPersistProbe_probe h key now (mem_toList.1 hmem)
  | _ => exact absurd hmem (by simp [Event.probes])

theorem Synced.handle_kept (h : Synced S u c) (hrst : segment.flags.rst = false)
    (hlast : c.state ≠ .lastAck) (memory : ℕ → Byte) (key : TcpConnectionKey) (now : TimePoint) :
    ∃ c', (handleExisting memory key c segment now).1 = some c' := by
  have hstep := h.step (@KeyStep.handle 0 key memory c segment now)
  refine ne_none_iff_exists'.1 fun hgone => ?_
  rcases hstep.removed hgone with ⟨segment', result, heq, hby⟩ | ⟨_, heq⟩
  · cases heq
    cases hby with
    | reset hrst' =>
      simp [hrst] at hrst'
    | lastAcked _ hlast' => exact hlast hlast'
  · cases heq

end Wirestack
