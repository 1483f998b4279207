import Wirestack.Tcp.Handler
import Wirestack.Tcp.Scheduling

set_option autoImplicit false

/-! # The invariant of a synchronized connection

`Synced S u c` ties the control state to the send stream: the FIN is sequenced in exactly the states
that follow a local close, it is acknowledged in exactly FIN-WAIT-2 and TIME-WAIT, and a retained
peer FIN waits only where one can still be consumed. This module shows that each stage of a call
keeps it. -/

namespace Wirestack

open SerialNumber Connection

variable {outcome : Connection × List TcpSegment}

/-! ## Classes of states -/

def TcpState.synchronized : TcpState → Bool
  | .synSent | .synReceived => false
  | _ => true

/-- The states in which the local FIN has been sequenced. -/
def TcpState.finSequenced : TcpState → Bool
  | .finWait1 | .finWait2 | .closing | .lastAck | .timeWait => true
  | _ => false

/-- The states in which the local FIN has been acknowledged. -/
def TcpState.finAcked : TcpState → Bool
  | .finWait2 | .timeWait => true
  | _ => false

/-- The states in which the peer's FIN has been consumed. -/
def TcpState.peerFinConsumed : TcpState → Bool
  | .closeWait | .closing | .lastAck | .timeWait => true
  | _ => false

/-! ## The invariant -/

/-- What holds of a synchronized connection at any point of a call. `u` cells of the stream `S` are
    acknowledged. -/
structure Joined (S : List Byte) (u : ℕ) (c : Connection) : Prop where
  send : SendInv S u c.view.send
  synchronized : c.state.synchronized = true
  sequenced : c.localFinSeq.isSome = c.state.finSequenced
  acked : c.state.finAcked = true → u = S.length + 1
  deadline : c.timeWaitDeadline.isSome = decide (c.state = .timeWait)
  retained : c.pendingFinSeq.isSome = true → c.finEventsOpen = true
  removal : c.pendingRemoval = false

/-- What holds between calls: the transitions that an acknowledged FIN drives have been taken. -/
structure Synced (S : List Byte) (u : ℕ) (c : Connection) : Prop extends Joined S u c where
  unacked : c.state.finSequenced = true → c.state.finAcked = false → u ≤ S.length

variable {S : List Byte} {u : ℕ} {c c' : Connection}

theorem Joined.of_control (h : Joined S u c) {u' : ℕ} (hsend : SendInv S u' c'.view.send)
    (hfin : c'.localFinSeq = c.localFinSeq) (hcontrol : c'.view.control = c.view.control)
    (hu : u ≤ u') (hretained : c'.pendingFinSeq.isSome = true → c'.finEventsOpen = true) :
    Joined S u' c' := by
  have hstate : c'.state = c.state := congrArg ControlView.state hcontrol
  constructor
  · exact hsend
  · rw [hstate]; exact h.synchronized
  · rw [hstate, hfin]; exact h.sequenced
  · intro hacked
    rw [hstate] at hacked
    have hall := h.acked hacked
    have hlen := hsend.acked
    rw [length_streamCells] at hlen
    split_ifs at hlen <;> omega
  · rw [hstate, show c'.timeWaitDeadline = c.timeWaitDeadline from
      congrArg ControlView.timeWaitDeadline hcontrol]
    exact h.deadline
  · exact hretained
  · exact (congrArg ControlView.pendingRemoval hcontrol).trans h.removal

theorem finEventsOpen_congr (h : c'.view.control = c.view.control) :
    c'.finEventsOpen = c.finEventsOpen := by
  have hstate : c'.state = c.state := congrArg ControlView.state h
  simp only [finEventsOpen, hstate]

theorem Synced.of_receive (h : Synced S u c) (hsend : c'.view.send = c.view.send)
    (hcontrol : c'.view.control = c.view.control)
    (hretained : c'.pendingFinSeq.isSome = true → c'.finEventsOpen = true) : Synced S u c' := by
  have hstate : c'.state = c.state := congrArg ControlView.state hcontrol
  refine ⟨h.toJoined.of_control ?_ ?_ hcontrol le_rfl hretained, ?_⟩
  · rw [hsend]; exact h.send
  · exact congrArg SendView.localFinSeq hsend
  · rw [hstate]; exact h.unacked

theorem Synced.of_view (h : Synced S u c) (hview : c'.view = c.view) : Synced S u c' := by
  have hcontrol : c'.view.control = c.view.control := by rw [hview]
  refine h.of_receive (by rw [hview]) hcontrol ?_
  rw [show c'.pendingFinSeq = c.pendingFinSeq from
    congrArg (·.receive.pendingFinSeq) hview, finEventsOpen_congr hcontrol]
  exact h.retained

theorem Joined.localFinSeq_eq_none (h : Joined S u c) (hstate : c.state.finSequenced = false) :
    c.localFinSeq = none := by
  have := h.sequenced
  rw [hstate] at this
  simpa using this

theorem Joined.localFinAcked_iff (h : Joined S u c) :
    c.localFinAcked = true ↔ c.state.finSequenced = true ∧ u = S.length + 1 := by
  rw [← h.sequenced]
  unfold localFinAcked
  cases hfin : c.localFinSeq with
  | none => simp
  | some fin =>
    have hpos := (h.send.fin fin hfin).1
    have hlen := h.send.length_eq
    have hspan := h.send.span_lt
    have hlocal : c.view.send.localFinSeq = some fin := hfin
    rw [(h.send.fin fin hfin).2.1, hlocal] at hlen
    simp only [List.length_nil, Option.isSome_some, if_true] at hlen
    have huna : c.sndUna = pos (c.view.send.localIsn + 1) u := h.send.una
    dsimp only
    rw [huna, hpos, pos_add_one, sequenceLessOrEqual_pos _ (by omega) (by omega)]
    simp only [decide_eq_true_eq, Option.isSome_some, true_and]
    omega

/-! ## Close transitions -/

theorem view_startTimeWait (c : Connection) (now : TimePoint) (hqueue : c.view.send.queue = []) :
    (c.startTimeWait now).view = { c.view with
        control := { c.view.control with
            state := .timeWait
            timeWaitDeadline := some (now + kTimeWaitDuration) } } := by
  have hpending : c.pending.map PendingTransmission.outstanding = [] := hqueue
  simp only [Connection.startTimeWait, view, hpending, List.map_nil]

theorem Joined.startTimeWait (h : Joined S u c) (hacked : u = S.length + 1)
    (hseq : c.state.finSequenced = true) (hfin : c.pendingFinSeq = none) (now : TimePoint) :
    Synced S u (c.startTimeWait now) := by
  have hsome : c.view.send.localFinSeq.isSome = true := h.sequenced.trans hseq
  have hview := view_startTimeWait c now (h.send.all_acked hsome hacked).1
  constructor
  · constructor
    · rw [hview]; exact h.send
    · rfl
    · exact hsome
    · exact fun _ => hacked
    · rfl
    · intro hsome'
      have : c.pendingFinSeq.isSome = true := hsome'
      simp [hfin] at this
    · exact h.removal
  · intro _ hnot
    exact absurd hnot (by simp [Connection.startTimeWait, TcpState.finAcked])

/-- The transitions that an acknowledged FIN drives, and no other change. -/
inductive CloseAdvance (c : Connection) (now : TimePoint) : Connection → Prop where
  | stay : CloseAdvance c now c
  | finWait2 : c.state = .finWait1 → CloseAdvance c now { c with state := .finWait2 }
  | timeWait : c.state = .closing → CloseAdvance c now (c.startTimeWait now)
  | remove : c.state = .lastAck → CloseAdvance c now { c with pendingRemoval := true }

theorem advanceClose_cases (c : Connection) (now : TimePoint) :
    CloseAdvance c now (c.advanceClose now) := by
  unfold Connection.advanceClose
  split_ifs with h₁ h₂ h₃
  · exact .finWait2 h₁.1
  · exact .timeWait h₂.1
  · exact .remove h₃.1
  · exact .stay

theorem Joined.advanceClose (h : Joined S u c) (now : TimePoint) :
    (c.state = .lastAck ∧ u = S.length + 1 ∧
      c.advanceClose now = { c with pendingRemoval := true }) ∨
    Synced S u (c.advanceClose now) := by
  have hacked := h.localFinAcked_iff
  unfold Connection.advanceClose
  split_ifs with h₁ h₂ h₃
  · right
    obtain ⟨hstate, hfin⟩ := h₁
    have hu := (hacked.1 hfin).2
    refine ⟨⟨h.send, rfl, ?_, fun _ => hu, ?_, ?_, h.removal⟩, fun _ hnot => ?_⟩
    · exact h.sequenced.trans (by rw [hstate]; rfl)
    · exact h.deadline.trans (by rw [hstate]; rfl)
    · intro _
      simp [finEventsOpen]
    · exact absurd hnot (by simp [TcpState.finAcked])
  · right
    obtain ⟨hstate, hfin⟩ := h₂
    refine h.startTimeWait (hacked.1 hfin).2 (hacked.1 hfin).1 ?_ now
    by_contra hne
    have := h.retained (Option.isSome_iff_ne_none.2 hne)
    simp [finEventsOpen, hstate] at this
  · exact .inl ⟨h₃.1, (hacked.1 h₃.2).2, rfl⟩
  · right
    refine ⟨h, fun hseq hnot => ?_⟩
    have hnotAcked : ¬ c.localFinAcked = true := by
      intro hfin
      cases hstate : c.state <;> simp_all [TcpState.finSequenced, TcpState.finAcked]
    rw [hacked] at hnotAcked
    have hlen := h.send.acked
    rw [length_streamCells] at hlen
    split_ifs at hlen
    · by_contra hlt
      exact hnotAcked ⟨hseq, by omega⟩
    · omega

/-! ## Acknowledgment processing -/

theorem Joined.processAck (h : Joined S u c) (key : TcpConnectionKey) {segment : TcpSegment}
    (options : TcpParsedOptions) (now : TimePoint)
    (hle : sequenceLessOrEqual segment.acknowledgmentNumber c.sndNxt = true) :
    ∃ u', (u ≤ u' ∧ (u' = u ∨ segment.acknowledgmentNumber = pos (c.localIsn + 1) u')) ∧
      Joined S u' (processAck key c segment options now).1 := by
  obtain ⟨u', hu, hsend⟩ := h.send.retire hle
  have hview := (processAck_spec key c segment options now).1
  refine ⟨u', hu, ?_⟩
  have hcontrol : (Wirestack.processAck key c segment options now).1.view.control =
      c.view.control := by rw [hview]
  refine h.of_control (by rw [hview]; exact hsend) ?_ hcontrol hu.1 ?_
  · have hlocal := congrArg (·.send.localFinSeq) hview
    refine hlocal.trans ?_
    simp only [SendView.retire]
    split_ifs <;> rfl
  · rw [finEventsOpen_congr hcontrol, show (Wirestack.processAck key c segment options
      now).1.pendingFinSeq = c.pendingFinSeq from
      congrArg (·.receive.pendingFinSeq) hview]
    exact h.retained

/-! ## The receive side -/

section

variable (memory : ℕ → Byte) (c : Connection) (now : TimePoint) (segment : TcpSegment)

theorem storeSegment_eq : (storeSegment memory c segment).1 = { c with
        outOfOrder := if c.anyPayloadInWindow segment then
          (insertReassemblyFragment c (c.usableStart segment)
            (usablePayload memory c segment)).outOfOrder else c.outOfOrder
        pendingFinSeq := if c.finInWindow segment then some segment.segmentEnd
          else c.pendingFinSeq } := by
  obtain ⟨outOfOrder, hinsert⟩ : ∃ outOfOrder, insertReassemblyFragment c (c.usableStart segment)
      (usablePayload memory c segment) = { c with outOfOrder := outOfOrder } := ⟨_, rfl⟩
  unfold storeSegment
  simp only [hinsert]
  split_ifs <;> rfl

/-- The transition that consuming the peer's FIN drives. -/
def Connection.peerFinTransition (c : Connection) (now : TimePoint) : Connection :=
  match c.state with
  | .established => { c with state := .closeWait }
  | .finWait1 => { c with state := .closing }
  | .finWait2 => c.startTimeWait now
  | _ => c

/-- The connection once the segment is stored and what became contiguous is released. -/
def receivedWith (memory : ℕ → Byte) (c : Connection) (segment : TcpSegment) : Connection :=
  (releaseContiguous (storeSegment memory c segment).1).1

theorem receivedWith_eq : ∃ rcvNxt outOfOrder, receivedWith memory c segment = { c with
        rcvNxt := rcvNxt
        outOfOrder := outOfOrder
        pendingFinSeq := if c.finInWindow segment then some segment.segmentEnd
          else c.pendingFinSeq } := by
  have hrelease : ∀ c : Connection, (releaseContiguous c).1 = { c with
        rcvNxt := (releaseFragments c.rcvNxt c.outOfOrder).2.1
        outOfOrder := (releaseFragments c.rcvNxt c.outOfOrder).2.2 } := fun _ => rfl
  rw [receivedWith, storeSegment_eq, hrelease]
  exact ⟨_, _, rfl⟩

theorem receivedWith_send : (receivedWith memory c segment).view.send = c.view.send := by
  obtain ⟨rcvNxt, outOfOrder, heq⟩ := receivedWith_eq memory c segment
  rw [heq]
  rfl

theorem receivedWith_control : (receivedWith memory c segment).view.control = c.view.control := by
  obtain ⟨rcvNxt, outOfOrder, heq⟩ := receivedWith_eq memory c segment
  rw [heq]
  rfl

theorem receivedWith_state : (receivedWith memory c segment).state = c.state := by
  obtain ⟨rcvNxt, outOfOrder, heq⟩ := receivedWith_eq memory c segment
  rw [heq]

theorem receivedWith_pendingFinSeq : (receivedWith memory c segment).pendingFinSeq =
      if c.finInWindow segment then some segment.segmentEnd else c.pendingFinSeq := by
  obtain ⟨rcvNxt, outOfOrder, heq⟩ := receivedWith_eq memory c segment
  rw [heq]

/-- The bytes handed out by that release. -/
def releasedBy (memory : ℕ → Byte) (c : Connection) (segment : TcpSegment) : List Byte :=
  (releaseContiguous (storeSegment memory c segment).1).2

/-- The three ways the receive side ends, given the connection after the release and the bytes that
    it handed out. -/
inductive ReceiveCases (c : Connection) (segment : TcpSegment) (now : TimePoint)
    (received : Connection) (released : List Byte) : Received → Prop where
  | ignored : c.acceptsPart segment = false →
      ReceiveCases c segment now received released { connection := c }
  | stored (mostRecent : Option SeqNum) : c.acceptsPart segment = true →
      received.pendingFinSeq ≠ some received.rcvNxt →
      ReceiveCases c segment now received released
        { connection := received
          accepted := released
          mostRecent := mostRecent }
  | consumed (mostRecent : Option SeqNum) : c.acceptsPart segment = true →
      received.pendingFinSeq = some received.rcvNxt →
      ReceiveCases c segment now received released
        { connection := Connection.peerFinTransition
            { received with rcvNxt := received.rcvNxt + 1, pendingFinSeq := none } now
          accepted := released
          peerClosed := true
          mostRecent := mostRecent }

theorem consumeFin_eq : consumeFin c now = if c.pendingFinSeq = some c.rcvNxt then
        (Connection.peerFinTransition { c with rcvNxt := c.rcvNxt + 1, pendingFinSeq := none } now,
          true)
      else (c, false) := rfl

theorem receivePart_cases (now : TimePoint) :
    ReceiveCases c segment now (receivedWith memory c segment) (releasedBy memory c segment)
      (receivePart memory c segment now) := by
  unfold receivePart receivedWith releasedBy
  split_ifs with haccept
  · obtain ⟨stored, mostRecent⟩ := storeSegment memory c segment
    dsimp only
    obtain ⟨received, released⟩ := releaseContiguous stored
    rw [consumeFin_eq]
    by_cases hfin : received.pendingFinSeq = some received.rcvNxt
    · rw [if_pos hfin]
      exact .consumed _ haccept hfin
    · rw [if_neg hfin]
      exact .stored _ haccept hfin
  · exact .ignored (by simpa using haccept)

theorem receivePart_accepted (now : TimePoint) : (receivePart memory c segment now).accepted =
      if c.acceptsPart segment then releasedBy memory c segment else [] := by
  have hcases := receivePart_cases memory c segment now
  generalize receivePart memory c segment now = part at hcases ⊢
  generalize releasedBy memory c segment = released at hcases ⊢
  cases hcases with
  | ignored haccept | stored _ haccept _ | consumed _ haccept _ => rw [haccept]; rfl

/-- `c` with what the receive side writes taken from `d`: its own fields and, through the peer's FIN,
    the state. -/
abbrev Connection.receivedAs (c d : Connection) : Connection :=
  { c with
    rcvNxt := d.rcvNxt
    outOfOrder := d.outOfOrder
    pendingFinSeq := d.pendingFinSeq
    state := d.state
    timeWaitDeadline := d.timeWaitDeadline
    pending := d.pending }

theorem receivePart_shape (now : TimePoint) : (receivePart memory c segment now).connection =
      c.receivedAs (receivePart memory c segment now).connection := by
  have hcases := receivePart_cases memory c segment now
  obtain ⟨rcvNxt, outOfOrder, hreceived⟩ := receivedWith_eq memory c segment
  generalize receivePart memory c segment now = part at hcases ⊢
  generalize releasedBy memory c segment = released at hcases
  rw [hreceived] at hcases
  cases hcases with
  | ignored | stored => rfl
  | consumed =>
    unfold Connection.peerFinTransition Connection.startTimeWait
    split <;> rfl

end

theorem receivedWith_retained (memory : ℕ → Byte) (segment : TcpSegment)
    (h : c.pendingFinSeq.isSome = true → c.finEventsOpen = true)
    (hsome : (receivedWith memory c segment).pendingFinSeq.isSome = true) :
    c.finEventsOpen = true := by
  rw [receivedWith_pendingFinSeq] at hsome
  split_ifs at hsome with hwindow
  · simp only [finInWindow, Bool.and_eq_true] at hwindow
    exact hwindow.1.1.1
  · exact h hsome

theorem Synced.peerFinTransition (h : Synced S u c) (hopen : c.finEventsOpen = true)
    (hfin : c.pendingFinSeq = none) (now : TimePoint) :
    Synced S u (c.peerFinTransition now) := by
  have hretained : ∀ {p : Prop}, c.pendingFinSeq.isSome = true → p := by
    intro p hsome
    simp [hfin] at hsome
  have hseq := h.sequenced
  have hdeadline := h.deadline
  unfold Connection.peerFinTransition
  cases hstate : c.state with
  | established =>
    rw [hstate] at hseq hdeadline
    refine ⟨⟨h.send, rfl, hseq, ?_, hdeadline, hretained, h.removal⟩, ?_⟩
    · exact fun hacked => absurd hacked (by simp [TcpState.finAcked])
    · exact fun hseq => absurd hseq (by simp [TcpState.finSequenced])
  | finWait1 =>
    rw [hstate] at hseq hdeadline
    refine ⟨⟨h.send, rfl, hseq, ?_, hdeadline, hretained, h.removal⟩, ?_⟩
    · exact fun hacked => absurd hacked (by simp [TcpState.finAcked])
    · exact fun _ _ => h.unacked (by rw [hstate]; rfl) (by rw [hstate]; rfl)
  | finWait2 =>
    exact h.toJoined.startTimeWait (h.acked (by rw [hstate]; rfl)) (by rw [hstate]; rfl) hfin now
  | synSent | synReceived | closeWait | closing | lastAck | timeWait =>
    simp [finEventsOpen, hstate] at hopen

theorem Synced.receivePart (h : Synced S u c) (memory : ℕ → Byte) (segment : TcpSegment)
    (now : TimePoint) : Synced S u (receivePart memory c segment now).connection := by
  have hcontrol := receivedWith_control memory c segment
  have hretained : (receivedWith memory c segment).pendingFinSeq.isSome = true →
      (receivedWith memory c segment).finEventsOpen = true := by
    intro hsome
    rw [finEventsOpen_congr hcontrol]
    exact receivedWith_retained memory segment h.retained hsome
  have hstored := h.of_receive (receivedWith_send memory c segment) hcontrol hretained
  have hcases := receivePart_cases memory c segment now
  generalize Wirestack.receivePart memory c segment now = part at hcases ⊢
  generalize receivedWith memory c segment = r at hcases hstored hretained
  cases hcases with
  | ignored => exact h
  | stored => exact hstored
  | consumed _ _ hfin =>
    refine Synced.peerFinTransition ?_ ?_ rfl now
    · exact hstored.of_receive rfl rfl nofun
    · exact hretained (by rw [hfin]; rfl)

/-! ## Sending stages -/

theorem Synced.sendStage (h : Synced S u c) {S' : List Byte} {c₀ : Connection}
    (hsendable : c.isSendable = true) (hcontrol : c₀.view.control = c.view.control)
    (hreceive : c₀.view.receive = c.view.receive) (hfin : c₀.localFinSeq = none)
    (hstage : SendStage S' u c₀ outcome) : Synced S' u outcome.1 := by
  have hstate : c₀.state = c.state := congrArg ControlView.state hcontrol
  have hest : c.state = .established ∨ c.state = .closeWait := by simpa [isSendable] using hsendable
  have hpending : outcome.1.pendingFinSeq = c.pendingFinSeq :=
    (congrArg ReceiveView.pendingFinSeq hstage.receive).trans
      (congrArg ReceiveView.pendingFinSeq hreceive)
  have hdeadline := h.deadline
  rcases hstage.control with ⟨hsame, hlocal⟩ | ⟨hmoved, hsome, -, hu⟩
  · have hview := hsame.trans hcontrol
    have hstate' : outcome.1.state = c.state := congrArg ControlView.state hview
    have hnot : c.state.finSequenced = false := by rcases hest with h | h <;> rw [h] <;> rfl
    refine ⟨⟨hstage.send, ?_, ?_, ?_, ?_, ?_, ?_⟩, ?_⟩
    · rw [hstate']; exact h.synchronized
    · rw [hlocal, hfin, hstate', hnot]; rfl
    · intro hacked
      rcases hest with h | h <;> rw [hstate', h] at hacked <;>
        exact absurd hacked (by simp [TcpState.finAcked])
    · rw [hstate', show outcome.1.timeWaitDeadline = c.timeWaitDeadline from
        congrArg ControlView.timeWaitDeadline hview]
      exact hdeadline
    · rw [hpending, finEventsOpen_congr hview]
      exact h.retained
    · exact (congrArg ControlView.pendingRemoval hview).trans h.removal
    · intro hseq
      simp [hstate', hnot] at hseq
  · have hstate' : outcome.1.state = if c.state = .established then .finWait1 else .lastAck := by
      rw [← hstate]
      exact congrArg ControlView.state hmoved
    have hwait : outcome.1.timeWaitDeadline = c.timeWaitDeadline :=
      (congrArg ControlView.timeWaitDeadline hmoved).trans
        (congrArg ControlView.timeWaitDeadline hcontrol)
    have hremoval : outcome.1.pendingRemoval = c.pendingRemoval :=
      (congrArg ControlView.pendingRemoval hmoved).trans
        (congrArg ControlView.pendingRemoval hcontrol)
    have hretained := h.retained
    rcases hest with hest | hest
    · rw [hest, if_pos rfl] at hstate'
      rw [hest] at hdeadline
      refine ⟨⟨hstage.send, ?_, ?_, ?_, ?_, ?_, hremoval.trans h.removal⟩, fun _ _ => hu⟩
      · rw [hstate']; rfl
      · rw [hsome, hstate']; rfl
      · rw [hstate']; exact fun hacked => absurd hacked (by simp [TcpState.finAcked])
      · rw [hwait, hstate']; exact hdeadline
      · intro _
        simp [finEventsOpen, hstate']
    · rw [hest, if_neg (by simp)] at hstate'
      rw [hest] at hdeadline
      refine ⟨⟨hstage.send, ?_, ?_, ?_, ?_, ?_, hremoval.trans h.removal⟩, fun _ _ => hu⟩
      · rw [hstate']; rfl
      · rw [hsome, hstate']; rfl
      · rw [hstate']; exact fun hacked => absurd hacked (by simp [TcpState.finAcked])
      · rw [hwait, hstate']; exact hdeadline
      · rw [hpending]
        intro hsome'
        have := hretained hsome'
        simp [finEventsOpen, hest] at this

theorem Synced.localFinSeq_of_sendable (h : Synced S u c) (hsendable : c.isSendable = true) :
    c.localFinSeq = none := by
  apply h.localFinSeq_eq_none
  have : c.state = .established ∨ c.state = .closeWait := by simpa [isSendable] using hsendable
  rcases this with h | h <;> rw [h] <;> rfl

/-- Where a sending stage can take the state. -/
inductive CloseMove : TcpState → TcpState → Prop where
  | stay (s : TcpState) : CloseMove s s
  | finWait1 : CloseMove .established .finWait1
  | lastAck : CloseMove .closeWait .lastAck

theorem SendStage.closeMove (hstage : SendStage S u c outcome) (hsendable : c.isSendable = true) :
    CloseMove c.state outcome.1.state := by
  have hest : c.state = .established ∨ c.state = .closeWait := by simpa [isSendable] using hsendable
  rcases hstage.control with ⟨hsame, -⟩ | ⟨hmoved, -⟩
  · rw [show outcome.1.state = c.state from congrArg ControlView.state hsame]
    exact .stay _
  · rw [show outcome.1.state = if c.state = .established then .finWait1 else .lastAck from
      congrArg ControlView.state hmoved]
    rcases hest with h | h <;> rw [h]
    · exact .finWait1
    · exact .lastAck

theorem Synced.scheduleIfSendable (h : Synced S u c) (key : TcpConnectionKey) (now : TimePoint) :
    SendStage S u c (scheduleIfSendable key c now) ∧ Synced S u (scheduleIfSendable key c now).1 ∧
      CloseMove c.state (scheduleIfSendable key c now).1.state := by
  have hguard : (!c.pendingRemoval && (c.state == .established || c.state == .closeWait)) =
      c.isSendable := by
    rw [h.removal]
    rfl
  rw [Wirestack.scheduleIfSendable, hguard]
  split_ifs with hsendable
  · have hfin := h.localFinSeq_of_sendable hsendable
    have hstage := scheduleQueuedData_stage key now h.send hfin
    exact ⟨hstage, h.sendStage hsendable rfl rfl hfin hstage, hstage.closeMove hsendable⟩
  · have hview := updatePersistState_view c now
    refine ⟨SendStage.idle h.send hview, h.of_view hview, ?_⟩
    rw [show (c.updatePersistState now).state = c.state from congrArg (·.control.state) hview]
    exact .stay _

end Wirestack
