import Wirestack.Tcp.Step

set_option autoImplicit false

/-! # The handshake

The two half-open forms of a connection, and the established connection that either of them turns
into. A half-open connection has exactly one entry in its queue, the SYN or SYN-ACK, and nothing on
the receive side. -/

namespace Wirestack

open SerialNumber List Connection Option

variable {mss : UInt16} {c' : Connection} {e : Event}

variable {c : Connection} {options : TcpParsedOptions}

/-- The receive side of a connection that has not received anything yet. -/
structure NothingReceived (c : Connection) : Prop where
  outOfOrder : c.outOfOrder = []
  pendingFinSeq : c.pendingFinSeq = none
  scale : c.windowScalingEnabled = true → c.localWindowScale = kLocalWindowScaleShift

structure SynSentOk (c : Connection) : Prop where
  send : c.view.send =
    { localIsn := c.localIsn
      sndUna := c.localIsn
      sndNxt := c.localIsn + 1
      queue := [⟨c.localIsn, true, true, false, { syn := true }, []⟩]
      localFinSeq := none
      unsent := []
      closeRequested := false
      effectiveSendMss := 1460 }
  received : NothingReceived c
  control : c.view.control = ⟨.synSent, none, false⟩

structure SynReceivedOk (c : Connection) : Prop where
  send : ∃ mss : UInt16, 0 < mss.toNat ∧ c.view.send =
    { localIsn := c.localIsn
      sndUna := 0
      sndNxt := 0
      queue := [⟨c.localIsn, true, false, false, { syn := true, ack := true }, []⟩]
      localFinSeq := none
      unsent := []
      closeRequested := false
      effectiveSendMss := mss }
  received : NothingReceived c
  control : c.view.control = ⟨.synReceived, none, false⟩

/-- A connection right after its handshake. -/
structure FreshlyEstablished (c : Connection) : Prop where
  synced : Synced [] 0 c
  received : NothingReceived c
  established : c.state = .established
  rcvNxt : c.rcvNxt = c.remoteIsn + 1

theorem FreshlyEstablished.pending (h : FreshlyEstablished c) : c.pending = [] := by
  have hsend := h.synced.send
  have hfin : c.localFinSeq = none := by
    refine h.synced.toJoined.localFinSeq_eq_none ?_
    rw [h.established]
    rfl
  have hlength := hsend.length_eq
  rw [show c.view.send.localFinSeq = none from hfin] at hlength
  have hcells : (cells c.view.send.queue).length = 0 := by
    simp only [isSome_none, Bool.false_eq_true, if_false, length_nil] at hlength
    omega
  exact map_eq_nil_iff.1 (hsend.queue_eq_nil hcells)

/-! ## Negotiation -/

section

variable (c : Connection) (options : TcpParsedOptions)

theorem negotiate_send : (c.negotiate options).view.send = { c.view.send with
        effectiveSendMss := min (UInt16.ofNat kTcpMss)
          (options.maximumSegmentSize.getD kDefaultPeerMss) } := by
  unfold negotiate
  cases options.windowScale <;> rfl

theorem negotiate_control : (c.negotiate options).view.control = c.view.control := by
  unfold negotiate
  cases options.windowScale <;> rfl

theorem negotiate_receive : (c.negotiate options).view.receive = { c.view.receive with
        windowScalingEnabled := options.windowScale.isSome || c.windowScalingEnabled
        localWindowScale := if options.windowScale.isSome then kLocalWindowScaleShift
          else c.localWindowScale } := by
  unfold negotiate
  cases options.windowScale <;> rfl

end

theorem negotiated_mss_pos {data : List Byte} (h : parseTcpOptions data = .ok options) :
    0 < (min (UInt16.ofNat kTcpMss) (options.maximumSegmentSize.getD kDefaultPeerMss)).toNat := by
  have hpeer : 0 < (options.maximumSegmentSize.getD kDefaultPeerMss).toNat := by
    cases hmss : options.maximumSegmentSize with
    | none => decide
    | some mss =>
      rw [getD_some]
      refine Nat.pos_of_ne_zero fun hzero => parseTcpOptions_mss_ne_zero h mss hmss ?_
      exact UInt16.toNat_inj.1 hzero
  have hchoice : min (UInt16.ofNat kTcpMss) (options.maximumSegmentSize.getD kDefaultPeerMss) =
      UInt16.ofNat kTcpMss ∨
      min (UInt16.ofNat kTcpMss) (options.maximumSegmentSize.getD kDefaultPeerMss) =
      options.maximumSegmentSize.getD kDefaultPeerMss := Std.min_eq_or
  rcases hchoice with hmin | hmin
  · rw [hmin]
    decide
  · rwa [hmin]

theorem NothingReceived.negotiate (h : NothingReceived c) (options : TcpParsedOptions) :
    NothingReceived (c.negotiate options) := by
  have hview := negotiate_receive c options
  constructor
  · exact (congrArg ReceiveView.outOfOrder hview).trans h.outOfOrder
  · exact (congrArg ReceiveView.pendingFinSeq hview).trans h.pendingFinSeq
  · have hscale : (c.negotiate options).localWindowScale =
        if options.windowScale.isSome then kLocalWindowScaleShift else c.localWindowScale :=
      congrArg ReceiveView.localWindowScale hview
    have henabled : (c.negotiate options).windowScalingEnabled =
        (options.windowScale.isSome || c.windowScalingEnabled) :=
      congrArg ReceiveView.windowScalingEnabled hview
    rw [hscale, henabled]
    split_ifs with hsome
    · exact fun _ => rfl
    · intro hon
      rw [Bool.not_eq_true] at hsome
      rw [hsome, Bool.false_or] at hon
      exact h.scale hon

/-! ## Creation -/

theorem connectedWith_ok (isn : SeqNum) (now : TimePoint) : SynSentOk (connectedWith isn now) :=
  ⟨rfl, ⟨rfl, rfl, fun h => absurd h (by simp [connectedWith, activeConnection])⟩, rfl⟩

theorem acceptedWith_ok (segment : TcpSegment) (isn : SeqNum) (now : TimePoint)
    (hoptions : parseTcpOptions segment.options = .ok options) :
    SynReceivedOk (acceptedWith segment options isn now) := by
  set c₀ : Connection :=
    { state := .synReceived, remoteIsn := segment.sequenceNumber, localIsn := isn } with hc₀
  have hsend := negotiate_send c₀ options
  have hcontrol := negotiate_control c₀ options
  have hreceived : NothingReceived (c₀.negotiate options) :=
    NothingReceived.negotiate ⟨rfl, rfl, fun h => absurd h (by simp [hc₀])⟩ options
  have heq : acceptedWith segment options isn now = { c₀.negotiate options with
        pending := [synEntry (c₀.negotiate options) false { syn := true, ack := true } now] } := rfl
  rw [heq]
  generalize c₀.negotiate options = c₁ at hsend hcontrol hreceived
  refine ⟨⟨_, negotiated_mss_pos hoptions, ?_⟩, ⟨hreceived.1, hreceived.2, hreceived.3⟩, hcontrol⟩
  have hfields := hsend
  simp only [view, hc₀, SendView.mk.injEq] at hfields
  obtain ⟨-, huna, hnxt, -, hfin, hunsent, hclose, hmss⟩ := hfields
  simp only [view, huna, hnxt, hfin, hunsent, hclose, hmss, map_cons, map_nil]
  rfl

theorem acceptedWith_remoteIsn (segment : TcpSegment) (options : TcpParsedOptions) (isn : SeqNum)
    (now : TimePoint) :
    (acceptedWith segment options isn now).remoteIsn = segment.sequenceNumber :=
  congrArg ReceiveView.remoteIsn (negotiate_receive
    { state := .synReceived, remoteIsn := segment.sequenceNumber, localIsn := isn } options)

/-! ## Completion -/

theorem view_setSendWindow (c : Connection) (sndWnd : ℕ) (sndWl1 sndWl2 : SeqNum) :
    view { c with sndWnd := sndWnd, sndWl1 := sndWl1, sndWl2 := sndWl2 } = c.view := rfl

theorem retire_syn {v : SendView} {e : Outstanding} (hqueue : v.queue = [e]) (hsyn : e.isSyn = true)
    (hfin : e.isFin = false) (hpayload : e.payload = []) (hstart : e.sequenceStart = v.sndUna) :
    v.retire (v.sndUna + 1) = { v with sndUna := v.sndUna + 1, queue := [] } := by
  have hgreater : sequenceGreater (v.sndUna + 1) v.sndUna = true := by
    have := sequenceGreater_pos v.sndUna (i := 1) (j := 0) (by omega) (by omega)
    rwa [pos_zero, pos_one] at this
  have hend : e.sequenceEnd = v.sndUna + 1 := by
    simp [Outstanding.sequenceEnd, Outstanding.span, hsyn, hfin, hpayload, hstart]
  have hle : sequenceLessOrEqual (v.sndUna + 1) (v.sndUna + 1) = true := by
    rw [sequenceLessOrEqual_iff, ahead_self]
    norm_num
  rw [SendView.retire, if_pos hgreater, hqueue, retireQueue, hend, if_pos hle]
  rfl

theorem SendInv.start (isn : SeqNum) (hmss : 0 < mss.toNat) :
    SendInv [] 0 ⟨isn, isn + 1, isn + 1, [], none, [], false, mss⟩ where
  una := (pos_zero _).symm
  tiled := rfl
  sent := by simp
  acked := Nat.zero_le _
  stream := rfl
  fin := by simp
  capacity := Nat.zero_le _
  mss := hmss

theorem FreshlyEstablished.of_view {isn : SeqNum} (hmss : 0 < mss.toNat)
    (hsend : c.view.send = ⟨isn, isn + 1, isn + 1, [], none, [], false, mss⟩)
    (hcontrol : c.view.control = ⟨.established, none, false⟩) (hreceived : NothingReceived c)
    (hrcv : c.rcvNxt = c.remoteIsn + 1) : FreshlyEstablished c := by
  have hstate : c.state = .established := congrArg ControlView.state hcontrol
  refine ⟨⟨⟨?_, ?_, ?_, ?_, ?_, ?_, ?_⟩, ?_⟩, hreceived, hstate, hrcv⟩
  · rw [hsend]
    exact SendInv.start isn hmss
  · rw [hstate]; rfl
  · rw [hstate, show c.localFinSeq = none from congrArg SendView.localFinSeq hsend]; rfl
  · rw [hstate]; exact fun h => absurd h (by simp [TcpState.finAcked])
  · rw [hstate, show c.timeWaitDeadline = none from congrArg ControlView.timeWaitDeadline hcontrol]
    rfl
  · simp [hreceived.pendingFinSeq]
  · exact congrArg ControlView.pendingRemoval hcontrol
  · rw [hstate]; exact fun h => absurd h (by simp [TcpState.finSequenced])

theorem establishedWith_fresh (h : SynSentOk c) {segment : TcpSegment} (now : TimePoint)
    (hoptions : parseTcpOptions segment.options = .ok options)
    (hack : segment.acknowledgmentNumber = c.sndNxt) :
    FreshlyEstablished (establishedWith c segment options now) ∧
      (establishedWith c segment options now).localIsn = c.localIsn ∧
      (establishedWith c segment options now).remoteIsn = segment.sequenceNumber ∧
      (establishedWith c segment options now).sndNxt = c.localIsn + 1 := by
  set c₁ : Connection := { c with
      remoteIsn := segment.sequenceNumber
      remoteIsnKnown := true
      rcvNxt := segment.sequenceNumber + 1 } with hc₁
  have hnxt : c.sndNxt = c.localIsn + 1 := congrArg SendView.sndNxt h.send
  have hnegSend := negotiate_send c₁ options
  have hnegControl := negotiate_control c₁ options
  have hnegReceive := negotiate_receive c₁ options
  have hreceived₁ : NothingReceived c₁ := ⟨h.received.1, h.received.2, h.received.3⟩
  have hnegReceived := hreceived₁.negotiate options
  have heq : (establishedWith c segment options now).view =
      (retireAcknowledged { c₁.negotiate options with state := .established }
        segment.acknowledgmentNumber now).1.view := by
    unfold establishedWith
    exact view_setSendWindow ..
  rw [retireAcknowledged_view, hack, hnxt] at heq
  rw [show c₁.view.send = c.view.send from rfl, h.send] at hnegSend
  rw [show c₁.view.control = c.view.control from rfl, h.control] at hnegControl
  generalize c₁.negotiate options = c₂ at hnegSend hnegControl hnegReceive hnegReceived heq
  -- The acknowledgment of the SYN is all there is to retire.
  have hsend : (establishedWith c segment options now).view.send =
      ⟨c.localIsn, c.localIsn + 1, c.localIsn + 1, [], none, [], false,
        min (UInt16.ofNat kTcpMss) (options.maximumSegmentSize.getD kDefaultPeerMss)⟩ := by
    rw [heq]
    rw [show view { c₂ with state := .established } =
      { c₂.view with control := { c₂.view.control with state := .established } } from rfl]
    rw [hnegSend]
    exact retire_syn rfl rfl rfl rfl rfl
  have hreceive : (establishedWith c segment options now).view.receive = c₂.view.receive := by
    rw [heq]
    rfl
  have hcontrol : (establishedWith c segment options now).view.control =
      ⟨.established, none, false⟩ := by
    rw [heq]
    rw [show view { c₂ with state := .established } =
      { c₂.view with control := { c₂.view.control with state := .established } } from rfl]
    rw [hnegControl]
  rw [hnegReceive] at hreceive
  have hremote : (establishedWith c segment options now).remoteIsn = segment.sequenceNumber :=
    congrArg ReceiveView.remoteIsn hreceive
  have hrcv : (establishedWith c segment options now).rcvNxt = segment.sequenceNumber + 1 :=
    congrArg ReceiveView.rcvNxt hreceive
  refine ⟨FreshlyEstablished.of_view (negotiated_mss_pos hoptions) hsend hcontrol ⟨?_, ?_, ?_⟩ ?_,
    congrArg SendView.localIsn hsend, hremote, congrArg SendView.sndNxt hsend⟩
  · exact (congrArg ReceiveView.outOfOrder hreceive).trans h.received.outOfOrder
  · exact (congrArg ReceiveView.pendingFinSeq hreceive).trans h.received.pendingFinSeq
  · rw [show (establishedWith c segment options now).windowScalingEnabled = _ from
      (congrArg ReceiveView.windowScalingEnabled (hreceive.trans hnegReceive.symm)),
      show (establishedWith c segment options now).localWindowScale = _ from
      (congrArg ReceiveView.localWindowScale (hreceive.trans hnegReceive.symm))]
    exact hnegReceived.scale
  · rw [hrcv, hremote]

theorem completeHandshake_fresh (h : SynReceivedOk c) (segment : TcpSegment) (now : TimePoint) :
    FreshlyEstablished (completeHandshake c segment now) ∧
      (completeHandshake c segment now).localIsn = c.localIsn ∧
      (completeHandshake c segment now).remoteIsn = c.remoteIsn := by
  obtain ⟨mss, hmss, hsend₀⟩ := h.send
  have heq : (completeHandshake c segment now).view = (retireAcknowledged { c with
          state := .established
          rcvNxt := c.remoteIsn + 1
          sndUna := c.localIsn
          sndNxt := c.localIsn + 1 } (c.localIsn + 1) now).1.view := by
    unfold completeHandshake
    exact view_setSendWindow ..
  rw [retireAcknowledged_view] at heq
  have hsend : (completeHandshake c segment now).view.send =
      ⟨c.localIsn, c.localIsn + 1, c.localIsn + 1, [], none, [], false, mss⟩ := by
    rw [heq]
    rw [show (view { c with
          state := .established
          rcvNxt := c.remoteIsn + 1
          sndUna := c.localIsn
          sndNxt := c.localIsn + 1 }).send =
      { c.view.send with sndUna := c.localIsn, sndNxt := c.localIsn + 1 } from rfl, hsend₀]
    exact retire_syn rfl rfl rfl rfl rfl
  have hcontrol : (completeHandshake c segment now).view.control = ⟨.established, none, false⟩ := by
    have hdeadline : c.timeWaitDeadline = none := congrArg ControlView.timeWaitDeadline h.control
    have hremoval : c.pendingRemoval = false := congrArg ControlView.pendingRemoval h.control
    rw [heq]
    simp only [view, hdeadline, hremoval]
  have hreceive : (completeHandshake c segment now).view.receive =
      { c.view.receive with rcvNxt := c.remoteIsn + 1 } := by
    rw [heq]
    rfl
  -- The three parts of the view say all that is needed about the new connection.
  clear heq
  generalize completeHandshake c segment now = c' at hsend hcontrol hreceive ⊢
  have hremote : c'.remoteIsn = c.remoteIsn := congrArg ReceiveView.remoteIsn hreceive
  have hrcv : c'.rcvNxt = c.remoteIsn + 1 := congrArg ReceiveView.rcvNxt hreceive
  refine ⟨FreshlyEstablished.of_view hmss hsend hcontrol ⟨?_, ?_, ?_⟩ ?_,
    congrArg SendView.localIsn hsend, hremote⟩
  · exact (congrArg ReceiveView.outOfOrder hreceive).trans h.received.outOfOrder
  · exact (congrArg ReceiveView.pendingFinSeq hreceive).trans h.received.pendingFinSeq
  · rw [show c'.windowScalingEnabled = _ from congrArg ReceiveView.windowScalingEnabled hreceive,
      show c'.localWindowScale = _ from congrArg ReceiveView.localWindowScale hreceive]
    exact h.received.scale
  · rw [hrcv, hremote]

/-! ## One call on a half-open connection -/

def HalfOpen (c : Connection) : Prop := SynSentOk c ∨ SynReceivedOk c

/-- The SYN or SYN-ACK of the connection. -/
structure OpensWith (c : Connection) (segment : TcpSegment) : Prop where
  sequenceNumber : segment.sequenceNumber = c.localIsn
  flags : segment.flags = { syn := true, ack := decide (c.state = .synReceived) }
  payload : segment.payload = []
  acknowledges : c.state = .synReceived → segment.acknowledgmentNumber = c.remoteIsn + 1

/-- The segment that completed the handshake, with the connection that resulted. -/
structure EstablishedBy (c : Connection) (segment : TcpSegment) (c' : Connection) : Prop where
  fresh : FreshlyEstablished c'
  localIsn : c'.localIsn = c.localIsn
  rst : segment.flags.rst = false
  ack : segment.acknowledgmentNumber = c.localIsn + 1
  active : c.state = .synSent → segment.flags.syn = true ∧ segment.flags.ack = true ∧
    c'.remoteIsn = segment.sequenceNumber
  passive : c.state = .synReceived → segment.flags.syn = false ∧ segment.flags.ack = true ∧
    segment.sequenceNumber = c.remoteIsn + 1 ∧ c'.remoteIsn = c.remoteIsn

/-- The acknowledgment that completes an active open. -/
structure CompletingAck (c' : Connection) (segment : TcpSegment) : Prop where
  flags : segment.flags = { ack := true }
  payload : segment.payload = []
  sequenceNumber : segment.sequenceNumber = c'.localIsn + 1
  acknowledgmentNumber : segment.acknowledgmentNumber = c'.rcvNxt

structure HalfOpenStep (c : Connection) (e : Event) (after : Option Connection) : Prop where
  accepted : e.accepted = []
  delivered : e.delivered = []
  peerClosed : e.peerClosed = false
  probes : e.probes = []
  emitted : ∀ segment ∈ e.emittedInSequence, OpensWith c segment ∨
    ∃ c', after = some c' ∧ FreshlyEstablished c' ∧ CompletingAck c' segment
  continues : ∀ c', after = some c' → c'.view = c.view ∨
    ∃ segment result, e = .handle segment result ∧ EstablishedBy c segment c'
  removed : after = none →
    (∃ segment result, e = .handle segment result ∧ segment.flags.rst = true) ∨
    ∃ segment, e = .pollRetransmissions segment

namespace HalfOpen

variable {c : Connection}

theorem state (h : HalfOpen c) : c.state = .synSent ∨ c.state = .synReceived := by
  rcases h with h | h
  · exact .inl (congrArg ControlView.state h.control)
  · exact .inr (congrArg ControlView.state h.control)

theorem synSentOk (h : HalfOpen c) (hstate : c.state = .synSent) : SynSentOk c := by
  refine h.resolve_right fun hreceived => ?_
  simp [show c.state = .synReceived from congrArg ControlView.state hreceived.control] at hstate

theorem synReceivedOk (h : HalfOpen c) (hstate : c.state = .synReceived) : SynReceivedOk c := by
  refine h.resolve_left fun hsent => ?_
  simp [show c.state = .synSent from congrArg ControlView.state hsent.control] at hstate

theorem not_synchronized (h : HalfOpen c) : c.state.synchronized = false := by
  rcases h.state with h | h <;> rw [h] <;> rfl

theorem not_peerFinConsumed (h : HalfOpen c) : c.state.peerFinConsumed = false := by
  rcases h.state with h | h <;> rw [h] <;> rfl

theorem not_sendable (h : HalfOpen c) : c.isSendable = false := by
  rcases h.state with h | h <;> simp [isSendable, h]

theorem not_persistEligible (h : HalfOpen c) : c.persistEligible = false := by
  rcases h.state with h | h <;> simp [persistEligible, h]

theorem pending_eq (h : HalfOpen c) : ∃ e, c.pending = [e] ∧ e.outstanding =
    ⟨c.localIsn, true, decide (c.state = .synSent), false,
      { syn := true, ack := decide (c.state = .synReceived) }, []⟩ := by
  rcases h with h | h
  · have hstate : c.state = .synSent := congrArg ControlView.state h.control
    rw [hstate]
    exact map_eq_singleton_iff.1 (congrArg SendView.queue h.send)
  · have hstate : c.state = .synReceived := congrArg ControlView.state h.control
    obtain ⟨mss, -, hsend⟩ := h.send
    rw [hstate]
    exact map_eq_singleton_iff.1 (congrArg SendView.queue hsend)

theorem of_view (h : HalfOpen c) (hview : c'.view = c.view) : HalfOpen c' := by
  have hisn : c'.localIsn = c.localIsn := congrArg (·.send.localIsn) hview
  have hreceived : ∀ {c : Connection}, c'.view = c.view → NothingReceived c →
      NothingReceived c' := by
    intro c hview h
    have hreceive := congrArg View.receive hview
    refine ⟨(congrArg ReceiveView.outOfOrder hreceive).trans h.outOfOrder,
      (congrArg ReceiveView.pendingFinSeq hreceive).trans h.pendingFinSeq, ?_⟩
    rw [show c'.windowScalingEnabled = _ from congrArg ReceiveView.windowScalingEnabled hreceive,
      show c'.localWindowScale = _ from congrArg ReceiveView.localWindowScale hreceive]
    exact h.scale
  rcases h with h | ⟨⟨mss, hmss, hsend⟩, hrec, hcontrol⟩
  · exact .inl ⟨by rw [hview, hisn]; exact h.send, hreceived hview h.received,
      by rw [hview]; exact h.control⟩
  · exact .inr ⟨⟨mss, hmss, by rw [hview, hisn]; exact hsend⟩, hreceived hview hrec,
      by rw [hview]; exact hcontrol⟩

theorem quiet (hview : c'.view = c.view)
    (hsilent : e.accepted = [] ∧ e.delivered = [] ∧ e.peerClosed = false ∧ e.probes = [])
    (hemitted : ∀ segment ∈ e.emittedInSequence, OpensWith c segment) :
    HalfOpenStep c e (some c') where
  accepted := hsilent.1
  delivered := hsilent.2.1
  peerClosed := hsilent.2.2.1
  probes := hsilent.2.2.2
  emitted := fun segment hmem => .inl (hemitted segment hmem)
  continues := by
    rintro c'' ⟨rfl⟩
    exact .inl hview
  removed := nofun

theorem handleSynSent (h : SynSentOk c) (key : TcpConnectionKey) (segment : TcpSegment)
    (now : TimePoint) :
    HalfOpenStep c (.handle segment (handleSynSent key c segment now).2)
      (eraseIfRemoved (handleSynSent key c segment now)).1 := by
  have hstate : c.state = .synSent := congrArg ControlView.state h.control
  have hremoval : c.pendingRemoval = false := congrArg ControlView.pendingRemoval h.control
  have hcases := handleSynSent_cases key c segment now
  generalize Wirestack.handleSynSent key c segment now = outcome at hcases ⊢
  cases hcases with
  | dropped =>
    rw [eraseIfRemoved_of_kept hremoval]
    exact quiet rfl ⟨rfl, rfl, rfl, rfl⟩ (by simp [Event.emittedInSequence])
  | reset hrst =>
    rw [eraseIfRemoved_of_removed rfl]
    refine ⟨rfl, rfl, rfl, rfl, by simp [Event.emittedInSequence], fun c' h => absurd h (by simp),
      fun _ => .inl ⟨segment, _, rfl, hrst⟩⟩
  | established options reply hoptions hrst hsyn hackFlag _ _ hack hflags hpayload hseq hnum =>
    obtain ⟨hfresh, hisn, hremote, hnxt⟩ := establishedWith_fresh h now hoptions hack
    generalize establishedWith c segment options now = c' at hfresh hisn hremote hnxt hseq hnum ⊢
    rw [eraseIfRemoved_of_kept hfresh.synced.removal]
    have hsnd : c.sndNxt = c.localIsn + 1 := congrArg SendView.sndNxt h.send
    refine ⟨rfl, rfl, rfl, rfl, fun sent hmem => .inr ?_, ?_, by simp⟩
    · simp only [Event.emittedInSequence, toList_some, toList_none,
        append_nil, mem_singleton] at hmem
      subst hmem
      exact ⟨c', rfl, hfresh, hflags, hpayload, by rw [hseq, hnxt, hisn], hnum⟩
    · rintro c'' ⟨rfl⟩
      refine .inr ⟨segment, _, rfl, hfresh, hisn, hrst, hack.trans hsnd, ?_, ?_⟩
      · exact fun _ => ⟨hsyn, hackFlag, hremote⟩
      · simp [hstate]

theorem handleSynReceived (h : SynReceivedOk c) (key : TcpConnectionKey) (segment : TcpSegment)
    (now : TimePoint) :
    HalfOpenStep c (.handle segment (handleSynReceived key c segment now).2)
      (handleSynReceived key c segment now).1 := by
  have hstate : c.state = .synReceived := congrArg ControlView.state h.control
  have hcases := handleSynReceived_cases key c segment now
  generalize Wirestack.handleSynReceived key c segment now = outcome at hcases ⊢
  cases hcases with
  | dropped => exact quiet rfl ⟨rfl, rfl, rfl, rfl⟩ (by simp [Event.emittedInSequence])
  | reset hrst =>
    exact ⟨rfl, rfl, rfl, rfl, by simp [Event.emittedInSequence], fun c' h => absurd h (by simp),
      fun _ => .inl ⟨segment, _, rfl, hrst⟩⟩
  | resent c' _ hview =>
    refine quiet hview ⟨rfl, rfl, rfl, rfl⟩ fun sent hmem => ?_
    simp only [Event.emittedInSequence, toList_some, toList_none, append_nil, mem_singleton] at hmem
    subst hmem
    have hisn : c'.localIsn = c.localIsn := congrArg (·.send.localIsn) hview
    have hremote : c'.remoteIsn = c.remoteIsn := congrArg (·.receive.remoteIsn) hview
    exact ⟨hisn, by simp [makeSynAck, hstate], rfl, fun _ => by simp [makeSynAck, hremote]⟩
  | completed hrst hsyn hackFlag hack hseq =>
    obtain ⟨hfresh, hisn, hremote⟩ := completeHandshake_fresh h segment now
    generalize completeHandshake c segment now = c' at hfresh hisn hremote ⊢
    refine ⟨rfl, rfl, rfl, rfl, by simp [Event.emittedInSequence], ?_, by simp⟩
    rintro c'' ⟨rfl⟩
    refine .inr ⟨segment, _, rfl, hfresh, hisn, hrst, hack, ?_, ?_⟩
    · simp [hstate]
    · exact fun _ => ⟨hsyn, hackFlag, hseq, hremote⟩

theorem pollConnection (h : HalfOpen c) (key : TcpConnectionKey) (now : TimePoint) :
    HalfOpenStep c (.pollRetransmissions (pollConnection key c now).segment?)
      ((pollConnection key c now).kept c) := by
  rcases pollConnection_cases key c now with
    ⟨hkept, hsegment⟩ | ⟨hkept, hsegment⟩ |
    ⟨c', oldest, rest, hpending, hview, hkept, c₁, hview₁, hsegment⟩
  · rw [hkept, hsegment]
    exact ⟨rfl, rfl, rfl, rfl, by simp [Event.emittedInSequence], fun c' h => absurd h (by simp),
      fun _ => .inr ⟨none, rfl⟩⟩
  · rw [hkept, hsegment]
    exact quiet rfl ⟨rfl, rfl, rfl, rfl⟩ (by simp [Event.emittedInSequence])
  · rw [hkept, hsegment]
    refine quiet hview ⟨rfl, rfl, rfl, rfl⟩ fun sent hmem => ?_
    have hmem : sent = timeoutSegment key c₁ oldest := by simpa [Event.emittedInSequence] using hmem
    subst hmem
    have hremote : c₁.remoteIsn = c.remoteIsn := congrArg (·.receive.remoteIsn) hview₁
    obtain ⟨e, he, hentry⟩ := h.pending_eq
    obtain ⟨rfl, -⟩ := cons.inj (hpending.symm.trans he)
    simp only [PendingTransmission.outstanding, Outstanding.mk.injEq] at hentry
    obtain ⟨hstart, hsyn, hactive, -, hflags, hpayload⟩ := hentry
    refine ⟨hstart, hflags, hpayload, fun hstate => ?_⟩
    simp [timeoutSegment, hactive, hsyn, hremote, hstate]

theorem step (h : HalfOpen c) {listenPort : UInt16} {key : TcpConnectionKey}
    {after : Option Connection} (hstep : KeyStep listenPort key (some c) e after) :
    HalfOpenStep c e after := by
  cases hstep with
  | reconnect _ error => exact quiet rfl ⟨rfl, rfl, rfl, rfl⟩ (by simp [Event.emittedInSequence])
  | handle memory _ segment now =>
    unfold handleExisting
    rcases h with h | h
    · rw [show c.state = .synSent from congrArg ControlView.state h.control]
      exact handleSynSent h key segment now
    · rw [show c.state = .synReceived from congrArg ControlView.state h.control]
      exact handleSynReceived h key segment now
  | rejectData _ payload error =>
    exact quiet rfl ⟨rfl, rfl, rfl, rfl⟩ (by simp [Event.emittedInSequence])
  | sendData _ payload now =>
    rcases enqueueData_cases key c payload now with ⟨error, heq⟩ | ⟨hsendable, -⟩
    · rw [heq]
      exact quiet rfl ⟨rfl, rfl, rfl, rfl⟩ (by simp [Event.emittedInSequence])
    · simp [h.not_sendable] at hsendable
  | close _ now =>
    rw [closeConnection, h.not_sendable]
    exact quiet rfl ⟨rfl, rfl, rfl, rfl⟩ (by simp [Event.emittedInSequence])
  | probe _ now =>
    have hprobe : (pollPersistProbe key c now).2 = none := by
      rw [pollPersistProbe, h.not_persistEligible]
      split
      · rfl
      · split_ifs with hearly hnot
        · rfl
        · rfl
        · exact absurd rfl hnot
    rw [hprobe]
    exact quiet (pollPersistProbe_view key c now) ⟨rfl, rfl, rfl, rfl⟩
      (by simp [Event.emittedInSequence])
  | timeout _ now => exact h.pollConnection key now

end HalfOpen

end Wirestack
