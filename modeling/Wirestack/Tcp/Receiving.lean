import Wirestack.Tcp.Replay
import Wirestack.Tcp.ReassemblyBuffer
import Wirestack.Tcp.WindowTest

set_option autoImplicit false

/-! # The receive side of a call

What a call does to the reassembly buffer, in terms of the partial map from offsets to bytes that the
buffer stands for, and what of it survives arbitrary incoming segments (`ReceiveInv`). `ReceiveStep`
says once how a call can touch the receive side at all: not, or by way of `receivePart` with an
arriving segment. -/

namespace Wirestack

open SerialNumber Chunks Intervals Connection

variable {o : ℕ} {segment : TcpSegment} {after : Option Connection} {s : Traced}

variable {c c' : Connection} {b : Byte} {e : Event} {key : TcpConnectionKey}

/-! ## Storing and releasing -/

/-- The offsets and bytes that are buffered. -/
abbrev Connection.buffered (c : Connection) : List (Chunk Byte) := buffer c.rcvNxt c.outOfOrder

theorem bufferOk_congr (h : c'.view.receive = c.view.receive) :
    c'.rcvNxt = c.rcvNxt ∧ c'.outOfOrder = c.outOfOrder ∧ c'.pendingFinSeq = c.pendingFinSeq ∧
      c'.remoteIsn = c.remoteIsn :=
  ⟨congrArg ReceiveView.rcvNxt h, congrArg ReceiveView.outOfOrder h,
    congrArg ReceiveView.pendingFinSeq h, congrArg ReceiveView.remoteIsn h⟩

/-- The ranges of offsets from `rcvNxt` at which the segment adds bytes: what of its in-window
    payload is not buffered yet, as far as the fragment limit goes. -/
def Connection.newRanges (c : Connection) (segment : TcpSegment) : List (ℕ × ℕ) :=
  let first := ahead c.rcvNxt (c.usableStart segment)
  if c.anyPayloadInWindow segment then
    (subtractAll (c.outOfOrder.map (fragmentRange c.rcvNxt))
      [(first, first + ahead (c.usableStart segment) (c.usableEnd segment))]).take
      (kMaxReassemblyFragments - c.outOfOrder.length)
  else []

section Stored

variable {c : Connection} (hok : BufferOk c.rcvNxt c.outOfOrder) (memory : ℕ → Byte)
  (segment : TcpSegment)

include hok

theorem fragmentRanges_eq :
    c.outOfOrder.map (fragmentRange c.rcvNxt) = c.buffered.map Chunk.range := by
  rw [buffered, buffer, List.map_map]
  exact List.map_congr_left fun f hf => fragmentRange_eq (hok.below _ (List.mem_map_of_mem hf))

theorem newRanges_eq (hany : c.anyPayloadInWindow segment = true) :
    c.newRanges segment = (missing c.buffered (ahead c.rcvNxt (c.usableStart segment))
      (usablePayload memory c segment)).take (kMaxReassemblyFragments - c.buffered.length) := by
  unfold newRanges
  rw [if_pos hany, fragmentRanges_eq hok, missing, length_usablePayload, length_buffer]

theorem holds_stored_iff (o : ℕ) (b : Byte) :
    Holds (buffer c.rcvNxt (storeSegment memory c segment).1.outOfOrder) o b ↔
      Holds c.buffered o b ∨ (∃ r ∈ c.newRanges segment, Within r o) ∧
        (usablePayload memory c segment)[o - ahead c.rcvNxt (c.usableStart segment)]? = some b := by
  rw [storeSegment_eq]
  by_cases hany : c.anyPayloadInWindow segment = true
  · simp only [hany, if_true]
    obtain ⟨hne, hend⟩ := usablePayload_fits memory hany
    rw [buffer_insertReassemblyFragment hok hne hend, holds_insert hok.canonical hne,
      newRanges_eq hok memory segment hany]
  · simp [newRanges, hany]

/-- The buffer after the segment is stored: old bytes stay, and a new byte is one of the copied
    bytes, at an offset that was free. -/
structure Stored (memory : ℕ → Byte) (c : Connection) (segment : TcpSegment)
    (stored : List TcpReassemblyFragment) : Prop where
  ok : BufferOk c.rcvNxt stored
  old : ∀ o b, Holds c.buffered o b → Holds (buffer c.rcvNxt stored) o b
  new : ∀ o b, Holds (buffer c.rcvNxt stored) o b → Holds c.buffered o b ∨
    c.anyPayloadInWindow segment = true ∧ ¬ Covers c.buffered o ∧
      ahead c.rcvNxt (c.usableStart segment) ≤ o ∧
      (usablePayload memory c segment)[o - ahead c.rcvNxt (c.usableStart segment)]? = some b

theorem storeSegment_stored :
    Stored memory c segment (storeSegment memory c segment).1.outOfOrder := by
  rw [storeSegment_eq]
  by_cases hany : c.anyPayloadInWindow segment = true
  · simp only [hany, if_true]
    obtain ⟨hne, hend⟩ := usablePayload_fits memory hany
    have hinsert := buffer_insertReassemblyFragment hok hne hend
    refine ⟨hok.insertReassemblyFragment hne hend, fun o b hb => ?_, fun o b hb => ?_⟩
    · rw [hinsert]
      exact holds_insert_of_holds hok.canonical hne _ hb
    · rw [hinsert] at hb
      exact (holds_of_holds_insert hok.canonical hne hb).imp id fun h => ⟨hany, h⟩
  · simp only [hany, Bool.false_eq_true, if_false]
    exact ⟨hok, fun o b hb => hb, fun o b hb => .inl hb⟩

theorem storeSegment_new_exact (hscale : c.ScaleOk) (hlen : segment.payload.length ≤ 2 ^ 30)
    (hexact : c.WindowTestExact segment)
    (hb : Holds (buffer c.rcvNxt (storeSegment memory c segment).1.outOfOrder) o b) :
    Holds c.buffered o b ∨ o < c.advertisedLogicalWindowFor ∧
      ∃ j, segment.payload[j]? = some b ∧ pos segment.sequenceNumber j = pos c.rcvNxt o := by
  rcases (storeSegment_stored hok memory segment).new o b hb with h | ⟨hany, -, hstart, hget⟩
  · exact .inl h
  · right
    have hwindow := advertisedLogicalWindowFor_le_capacity hscale
    simp only [kTcpReceiveCapacity] at hwindow
    obtain ⟨skip, len, hrange⟩ := usable_exact memory (by omega) hlen hexact hany
    rw [hrange.payload, List.getElem?_take] at hget
    split_ifs at hget with hi
    rw [List.getElem?_drop] at hget
    have hin := hrange.inWindow
    refine ⟨by omega, _, hget, ?_⟩
    rw [← pos_pos, ← hrange.start]
    nth_rewrite 1 [← pos_ahead c.rcvNxt (c.usableStart segment)]
    rw [pos_pos]
    congr 1
    omega

theorem storeSegment_full (hfull : kMaxReassemblyFragments ≤ c.outOfOrder.length)
    (hb : Holds (buffer c.rcvNxt (storeSegment memory c segment).1.outOfOrder) o b) :
    Holds c.buffered o b := by
  refine ((holds_stored_iff hok memory segment o b).1 hb).resolve_right ?_
  rintro ⟨⟨r, hr, -⟩, -⟩
  simp [newRanges, Nat.sub_eq_zero_of_le hfull] at hr

theorem storeSegment_first (hroom : c.outOfOrder.length < kMaxReassemblyFragments)
    (hany : c.anyPayloadInWindow segment = true)
    (hfree : ¬ Covers c.buffered (ahead c.rcvNxt (c.usableStart segment)))
    (hb : (usablePayload memory c segment)[0]? = some b) :
    Holds (buffer c.rcvNxt (storeSegment memory c segment).1.outOfOrder)
      (ahead c.rcvNxt (c.usableStart segment)) b := by
  obtain ⟨hne, hend⟩ := usablePayload_fits memory hany
  rw [storeSegment_eq]
  simp only [hany, if_true]
  rw [buffer_insertReassemblyFragment hok hne hend]
  exact holds_insert_first hok.canonical hne (by rwa [length_buffer]) hfree hb

/-- What the release hands out and what it leaves, seen from the new `rcvNxt`. -/
structure ReceivedSpec (memory : ℕ → Byte) (c : Connection) (segment : TcpSegment)
    (stored : List TcpReassemblyFragment) (released : List Byte) (received : Connection) :
    Prop where
  rcvNxt : received.rcvNxt = pos c.rcvNxt released.length
  ok : BufferOk received.rcvNxt received.outOfOrder
  ahead : ∀ d ∈ received.buffered, 0 < d.start
  handedOut : ∀ i b, released[i]? = some b → Holds (buffer c.rcvNxt stored) i b
  kept : ∀ o b, Holds received.buffered o b →
    Holds (buffer c.rcvNxt stored) (released.length + o) b
  gap : ¬ Covers (buffer c.rcvNxt stored) released.length

theorem receivedWith_release : ∃ kept,
    receivedWith memory c segment = { (storeSegment memory c segment).1 with
      rcvNxt := pos c.rcvNxt (releasedBy memory c segment).length, outOfOrder := kept } ∧
    Release c.rcvNxt (storeSegment memory c segment).1.outOfOrder (releasedBy memory c segment)
      (pos c.rcvNxt (releasedBy memory c segment).length) kept := by
  have hstored := (storeSegment_stored hok memory segment).ok
  have hrcv : (storeSegment memory c segment).1.rcvNxt = c.rcvNxt := by rw [storeSegment_eq]
  unfold releasedBy receivedWith
  generalize (storeSegment memory c segment).1 = stored at hstored hrcv ⊢
  obtain ⟨released, kept, heq, hrel⟩ := releaseFragments_spec hstored
  have hrelease : releaseContiguous stored =
      ({ stored with rcvNxt := pos c.rcvNxt released.length, outOfOrder := kept }, released) := by
    rw [releaseContiguous, hrcv, heq]
  rw [hrelease]
  exact ⟨kept, rfl, hrel⟩

theorem receivedWith_spec :
    ReceivedSpec memory c segment (storeSegment memory c segment).1.outOfOrder
      (releasedBy memory c segment) (receivedWith memory c segment) := by
  have hstored := (storeSegment_stored hok memory segment).ok
  obtain ⟨kept, heq, hrel⟩ := receivedWith_release hok memory segment
  rw [heq]
  generalize releasedBy memory c segment = released at hrel ⊢
  have hbeyond : ∀ d ∈ buffer c.rcvNxt kept, released.length ≤ d.start :=
    fun d hd => (hrel.beyond d hd).le
  refine ⟨rfl, (hstored.sublist hrel.sublist).rebase hbeyond, fun d hd => ?_, hrel.holds,
    fun o b hb => ?_, hrel.gap⟩
  · change d ∈ buffer (pos c.rcvNxt released.length) kept at hd
    rw [buffer_pos hbeyond] at hd
    obtain ⟨d', hd', rfl⟩ := List.mem_map.1 hd
    have := hrel.beyond d' hd'
    simp only [Chunk.shift]
    omega
  · change Holds (buffer (pos c.rcvNxt released.length) kept) o b at hb
    rw [holds_rebase hbeyond] at hb
    obtain ⟨d, hd, hhas⟩ := hb
    exact ⟨d, (hrel.sublist.map _).subset hd, hhas⟩

end Stored

/-! ## The invariant under arbitrary segments -/

/-- What holds of the receive side whatever arrives. -/
structure ReceiveInv (c : Connection) : Prop where
  ok : BufferOk c.rcvNxt c.outOfOrder
  ahead : c.state.peerFinConsumed = false → ∀ d ∈ c.buffered, 0 < d.start
  scale : c.ScaleOk

theorem ReceiveInv.of_receive (h : ReceiveInv c) (hreceive : c'.view.receive = c.view.receive)
    (hstate : c'.state.peerFinConsumed = c.state.peerFinConsumed) : ReceiveInv c' := by
  obtain ⟨hrcv, hout, -⟩ := bufferOk_congr hreceive
  refine ⟨?_, ?_, ?_⟩
  · rw [hrcv, hout]
    exact h.ok
  · rw [hstate, buffered, hrcv, hout]
    exact h.ahead
  · rw [ScaleOk, show c'.windowScalingEnabled = _ from congrArg ReceiveView.windowScalingEnabled hreceive,
      show c'.localWindowScale = _ from congrArg ReceiveView.localWindowScale hreceive]
    exact h.scale

theorem NothingReceived.receiveInv (h : NothingReceived c) : ReceiveInv c := by
  refine ⟨?_, ?_, h.scale⟩
  · rw [h.outOfOrder]
    exact BufferOk.nil _
  · intro _ d hd
    rw [buffered, h.outOfOrder] at hd
    exact absurd hd (by simp [buffer])

theorem receivedWith_scale (memory : ℕ → Byte) (segment : TcpSegment) (h : c.ScaleOk) :
    (receivedWith memory c segment).ScaleOk := by
  obtain ⟨rcvNxt, outOfOrder, heq⟩ := receivedWith_eq memory c segment
  rwa [heq]

theorem peerFinTransition_receive (c : Connection) (now : TimePoint) :
    (c.peerFinTransition now).view.receive = c.view.receive := by
  unfold peerFinTransition
  split <;> rfl

theorem peerFinTransition_peerFinConsumed (hopen : c.finEventsOpen = true) (now : TimePoint) :
    (c.peerFinTransition now).state.peerFinConsumed = true := by
  have hmove := peerFinTransition_move hopen now
  generalize c.state = s at hmove
  generalize (c.peerFinTransition now).state = t at hmove ⊢
  cases hmove <;> rfl

theorem receivePart_rcvNxt (hok : BufferOk c.rcvNxt c.outOfOrder) (memory : ℕ → Byte)
    (segment : TcpSegment) (now : TimePoint) :
    (receivePart memory c segment now).connection.rcvNxt =
      pos c.rcvNxt ((receivePart memory c segment now).accepted.length +
        if (receivePart memory c segment now).peerClosed then 1 else 0) := by
  have hspec := receivedWith_spec hok memory segment
  have hcases := receivePart_cases memory c segment now
  generalize receivePart memory c segment now = part at hcases ⊢
  cases hcases with
  | ignored => simp
  | stored => simpa using hspec.rcvNxt
  | consumed =>
    refine (congrArg ReceiveView.rcvNxt (peerFinTransition_receive _ now)).trans ?_
    simp only [view, if_true]
    rw [hspec.rcvNxt, pos_add_one]

theorem BufferOk.consume (hok : BufferOk c.rcvNxt c.outOfOrder)
    (hahead : ∀ d ∈ c.buffered, 0 < d.start) : BufferOk (c.rcvNxt + 1) c.outOfOrder := by
  have := hok.rebase (n := 1) hahead
  rwa [pos_one] at this

theorem receivePart_forall (hok : BufferOk c.rcvNxt c.outOfOrder) (memory : ℕ → Byte)
    (segment : TcpSegment) (now : TimePoint) {Q : ℕ → Byte → Prop}
    (hold : ∀ o b, Holds c.buffered o b → Q o b)
    (hnew : c.acceptsPart segment = true → ∀ o b,
      Holds (buffer c.rcvNxt (storeSegment memory c segment).1.outOfOrder) o b → Q o b) :
    (∀ i b, (receivePart memory c segment now).accepted[i]? = some b → Q i b) ∧
    ∀ o b, Holds (receivePart memory c segment now).connection.buffered o b →
      Q ((receivePart memory c segment now).accepted.length +
        (if (receivePart memory c segment now).peerClosed then 1 else 0) + o) b := by
  have hspec := receivedWith_spec hok memory segment
  have hcases := receivePart_cases memory c segment now
  generalize receivePart memory c segment now = part at hcases ⊢
  generalize receivedWith memory c segment = received at hcases hspec
  cases hcases with
  | ignored => exact ⟨by simp, fun o b hb => by simpa using hold o b hb⟩
  | stored _ haccept =>
    refine ⟨fun i b hb => hnew haccept i b (hspec.handedOut i b hb), fun o b hb => ?_⟩
    simpa using hnew haccept _ b (hspec.kept o b hb)
  | consumed _ haccept =>
    refine ⟨fun i b hb => hnew haccept i b (hspec.handedOut i b hb), fun o b hb => ?_⟩
    obtain ⟨hrcv, hout, -⟩ := bufferOk_congr (peerFinTransition_receive
      { received with rcvNxt := received.rcvNxt + 1, pendingFinSeq := none } now)
    rw [buffered, hrcv, hout, ← pos_one, holds_rebase hspec.ahead] at hb
    have := hnew haccept _ b (hspec.kept _ b hb)
    simpa [Nat.add_assoc] using this

theorem receivePart_fin (hok : BufferOk c.rcvNxt c.outOfOrder) (memory : ℕ → Byte)
    (segment : TcpSegment) (now : TimePoint) {Q : SeqNum → Prop}
    (hold : ∀ f, c.pendingFinSeq = some f → Q f)
    (hnew : segment.flags.fin = true → Q segment.segmentEnd) :
    ((receivePart memory c segment now).peerClosed = true →
      Q (pos c.rcvNxt (receivePart memory c segment now).accepted.length)) ∧
    ∀ f, (receivePart memory c segment now).connection.pendingFinSeq = some f → Q f := by
  have hspec := receivedWith_spec hok memory segment
  have hpending : ∀ f, (receivedWith memory c segment).pendingFinSeq = some f → Q f := by
    intro f hf
    rw [receivedWith_pendingFinSeq] at hf
    split_ifs at hf with hin
    · cases hf
      simp only [finInWindow, Bool.and_eq_true] at hin
      exact hnew hin.1.1.2
    · exact hold f hf
  have hcases := receivePart_cases memory c segment now
  generalize receivePart memory c segment now = part at hcases ⊢
  generalize receivedWith memory c segment = received at hcases hspec hpending
  cases hcases with
  | ignored => exact ⟨by simp, hold⟩
  | stored => exact ⟨by simp, hpending⟩
  | consumed _ _ hfin =>
    refine ⟨fun _ => ?_, fun f hf => ?_⟩
    · rw [← hspec.rcvNxt]
      exact hpending _ hfin
    · simp [(bufferOk_congr (peerFinTransition_receive _ now)).2.2.1] at hf

theorem receivePart_remoteIsn (memory : ℕ → Byte) (c : Connection) (segment : TcpSegment)
    (now : TimePoint) : (receivePart memory c segment now).connection.remoteIsn = c.remoteIsn := by
  rw [receivePart_shape]

theorem finEventsOpen_not_consumed (h : c.finEventsOpen = true) :
    c.state.peerFinConsumed = false := by
  unfold Connection.finEventsOpen at h
  cases hstate : c.state <;> simp_all [TcpState.peerFinConsumed]

theorem receivePart_peerFinConsumed
    (hretained : c.pendingFinSeq.isSome = true → c.finEventsOpen = true) (memory : ℕ → Byte)
    (segment : TcpSegment) (now : TimePoint) :
    if (receivePart memory c segment now).peerClosed then
      c.state.peerFinConsumed = false ∧
        (receivePart memory c segment now).connection.state.peerFinConsumed = true
    else
      (receivePart memory c segment now).connection.state.peerFinConsumed =
        c.state.peerFinConsumed := by
  have hcontrol := receivedWith_control memory c segment
  have hopen := receivedWith_retained (c := c) memory segment hretained
  have hstate := receivedWith_state memory c segment
  have hcases := receivePart_cases memory c segment now
  generalize receivePart memory c segment now = part at hcases ⊢
  generalize receivedWith memory c segment = received at hcases hopen hcontrol hstate
  cases hcases with
  | ignored => exact rfl
  | stored => exact congrArg TcpState.peerFinConsumed hstate
  | consumed _ _ hfin =>
    have hopen := hopen (by rw [hfin]; rfl)
    rw [← finEventsOpen_congr hcontrol] at hopen
    exact ⟨hstate ▸ finEventsOpen_not_consumed hopen,
      peerFinTransition_peerFinConsumed (c := { received with
        rcvNxt := received.rcvNxt + 1, pendingFinSeq := none }) hopen now⟩

theorem ReceiveInv.receivePart (h : ReceiveInv c)
    (hretained : c.pendingFinSeq.isSome = true → c.finEventsOpen = true) (memory : ℕ → Byte)
    (segment : TcpSegment) (now : TimePoint) :
    ReceiveInv (receivePart memory c segment now).connection := by
  have hspec := receivedWith_spec h.ok memory segment
  have hscale := receivedWith_scale memory segment h.scale
  have hcontrol := receivedWith_control memory c segment
  have hopen := receivedWith_retained (c := c) memory segment hretained
  rw [← finEventsOpen_congr hcontrol] at hopen
  have hcases := receivePart_cases memory c segment now
  generalize Wirestack.receivePart memory c segment now = part at hcases ⊢
  generalize receivedWith memory c segment = received at hcases hspec hscale hopen
  cases hcases with
  | ignored => exact h
  | stored => exact ⟨hspec.ok, fun _ => hspec.ahead, hscale⟩
  | consumed _ _ hfin =>
    have hopen' : Connection.finEventsOpen
        { received with rcvNxt := received.rcvNxt + 1, pendingFinSeq := none } = true :=
      hopen (by rw [hfin]; rfl)
    have hreceive := peerFinTransition_receive
      { received with rcvNxt := received.rcvNxt + 1, pendingFinSeq := none } now
    have hconsumed := peerFinTransition_peerFinConsumed hopen' now
    generalize peerFinTransition
      { received with rcvNxt := received.rcvNxt + 1, pendingFinSeq := none } now = c'
      at hreceive hconsumed
    obtain ⟨hrcv, hout, -⟩ := bufferOk_congr hreceive
    refine ⟨?_, fun hnot => ?_, ?_⟩
    · rw [hrcv, hout]
      exact hspec.ok.consume hspec.ahead
    · simp [hconsumed] at hnot
    · rw [ScaleOk, show c'.windowScalingEnabled = _ from
          congrArg ReceiveView.windowScalingEnabled hreceive,
        show c'.localWindowScale = _ from congrArg ReceiveView.localWindowScale hreceive]
      exact hscale

/-! ## How a call can touch the receive side -/

/-- The segment gets as far as the receive window: it is processed and carries something. -/
structure ReachesWindow (c : Connection) (segment : TcpSegment) : Prop where
  synchronized : c.state.synchronized = true
  notTimeWait : c.state ≠ .timeWait
  processes : ∃ options, Processes c segment options
  carries : segment.payload ≠ [] ∨ segment.flags.fin = true

/-- The connection `c₀` that the receive side sees when `segment` arrives at `c`: acknowledgment
    processing has left the receive side alone. -/
structure Arrives (c : Connection) (segment : TcpSegment) (c₀ : Connection) : Prop where
  synchronized : c.state.synchronized = true
  processes : ∃ options, Processes c segment options
  notTimeWait : c.state ≠ .timeWait
  receive : c₀.view.receive = c.view.receive
  move : AckMove c.state c₀.state
  retained : c₀.pendingFinSeq.isSome = true → c₀.finEventsOpen = true

theorem Arrives.reachesWindow {c c₀ : Connection} (h : Arrives c segment c₀)
    (haccepts : c₀.acceptsPart segment = true) : ReachesWindow c segment := by
  refine ⟨h.synchronized, h.notTimeWait, h.processes, ?_⟩
  by_contra hnot
  rw [not_or, not_ne_iff, Bool.not_eq_true] at hnot
  simp [acceptsPart, hnot.1, hnot.2] at haccepts

theorem AckMove.peerFinConsumed {s t : TcpState} (h : AckMove s t) :
    t.peerFinConsumed = s.peerFinConsumed := by
  cases h <;> rfl

theorem AckMove.finEventsOpen (h : AckMove c.state c'.state) :
    c'.finEventsOpen = c.finEventsOpen := by
  unfold Connection.finEventsOpen
  generalize c.state = s at h ⊢
  generalize c'.state = t at h ⊢
  cases h <;> rfl

inductive ReceiveStep (c : Connection) (e : Event) (after : Option Connection) : Prop where
  | still : e.delivered = [] → e.peerClosed = false →
      (∀ c', after = some c' → c'.view.receive = c.view.receive ∧
        c'.state.peerFinConsumed = c.state.peerFinConsumed) →
      ReceiveStep c e after
  | arrival (memory : ℕ → Byte) (segment : TcpSegment) (result : TcpReceiveResult)
      (now : TimePoint) (c₀ : Connection) (part : Received) :
      e = .handle segment result → Arrives c segment c₀ →
      part = receivePart memory c₀ segment now →
      e.delivered = part.accepted → e.peerClosed = part.peerClosed →
      (∀ c', after = some c' → c'.view.receive = part.connection.view.receive ∧
        c'.state.peerFinConsumed = part.connection.state.peerFinConsumed) →
      ReceiveStep c e after

theorem ReceiveStep.remoteIsn (h : ReceiveStep c e (some c')) : c'.remoteIsn = c.remoteIsn := by
  cases h with
  | still _ _ hkeep => exact (bufferOk_congr (hkeep c' rfl).1).2.2.2
  | arrival memory segment result now c₀ part _ harrives hpart _ _ hkeep =>
    rw [(bufferOk_congr (hkeep c' rfl).1).2.2.2, hpart, receivePart_remoteIsn,
      (bufferOk_congr harrives.receive).2.2.2]

theorem afterAck_receive (key : TcpConnectionKey) (c : Connection) (segment : TcpSegment)
    (options : TcpParsedOptions) (now : TimePoint) :
    (afterAck key c segment options now).view.receive = c.view.receive := by
  have hview := congrArg View.receive (processAck_spec key c segment options now).1
  refine Eq.trans ?_ hview
  unfold afterAck
  have hcases := advanceClose_cases (processAck key c segment options now).1 now
  generalize (processAck key c segment options now).1 = c₁ at hcases ⊢
  generalize c₁.advanceClose now = c₂ at hcases ⊢
  cases hcases <;> rfl

section Handle

variable {S : List Byte} {u : ℕ} {c : Connection}

theorem Synced.arrives (h : Synced S u c) (hwait : c.state ≠ .timeWait) (key : TcpConnectionKey)
    {options : TcpParsedOptions} (hproc : Processes c segment options) (now : TimePoint) :
    Arrives c segment (afterAck key c segment options now) := by
  have hmove : AckMove c.state (afterAck key c segment options now).state := by
    have := advanceClose_move (processAck key c segment options now).1 now
    rwa [processAck_state] at this
  have hreceive := afterAck_receive key c segment options now
  refine ⟨h.synchronized, ⟨options, hproc⟩, hwait, hreceive, hmove, ?_⟩
  rw [(bufferOk_congr hreceive).2.2.1, hmove.finEventsOpen]
  exact h.retained

section Processed

variable {memory : ℕ → Byte} {key : TcpConnectionKey} {segment : TcpSegment}
  {options : TcpParsedOptions} {now : TimePoint} {outcome : Connection × TcpReceiveResult}
  (hproc : Processes c segment options)
  (hout : ProcessedOutcome memory key c segment options (processAck key c segment options now).2
    now outcome)

include hproc hout

theorem processed_outcome (h : Synced S u c) :
    (afterAck key c segment options now).pendingRemoval = true ∧ outcome.1.pendingRemoval = true ∨
    (afterAck key c segment options now).pendingRemoval = false ∧ outcome.1.pendingRemoval = false ∧
      outcome.1.view.receive = (receivePart memory (afterAck key c segment options now) segment
        now).connection.view.receive ∧
      outcome.1.state.peerFinConsumed = (receivePart memory (afterAck key c segment options now)
        segment now).connection.state.peerFinConsumed := by
  obtain ⟨u', -, hjoined⟩ := h.toJoined.processAck key options now hproc.inSent
  rcases hjoined.advanceClose now with ⟨-, -, hremoved⟩ | hsynced
  · left
    have hafter : (afterAck key c segment options now).pendingRemoval = true := by
      rw [afterAck, hremoved]
    have hremove := (receivePart_pendingRemoval memory (afterAck key c segment options now)
      segment now).trans hafter
    refine ⟨hafter, ?_⟩
    rw [hout.connection, scheduleIfSendable_of_removal key now hremove]
    exact (congrArg (·.control.pendingRemoval) (updatePersistState_view _ now)).trans hremove
  · right
    have hpart : Synced S u' (receivePart memory (afterAck key c segment options now) segment
        now).connection := Synced.receivePart hsynced memory segment now
    obtain ⟨hstage, hsynced', hmove⟩ := hpart.scheduleIfSendable key now
    rw [hout.connection]
    exact ⟨hsynced.removal, hsynced'.removal, hstage.receive, hmove.peerFinConsumed⟩

theorem processed_receive (h : Synced S u c) : ∀ c', (eraseIfRemoved outcome).1 = some c' →
      c'.view.receive = (receivePart memory (afterAck key c segment options now) segment
        now).connection.view.receive ∧
      c'.state.peerFinConsumed = (receivePart memory (afterAck key c segment options now) segment
        now).connection.state.peerFinConsumed := by
  intro c' hc'
  rcases processed_outcome hproc hout h with ⟨-, hremoved⟩ | ⟨-, hkept, hreceive⟩
  · simp [eraseIfRemoved_of_removed hremoved] at hc'
  · rw [eraseIfRemoved_of_kept hkept, Option.some.injEq] at hc'
    rwa [← hc']

end Processed

theorem enqueueData_receive (h : Synced S u c) (key : TcpConnectionKey) (payload : List Byte)
    (now : TimePoint) : (enqueueData key c payload now).1.view.receive = c.view.receive := by
  rcases enqueueData_cases key c payload now with ⟨error, heq⟩ | ⟨hsendable, -, hroom, heq⟩
  · rw [heq]
  · rw [heq]
    exact (h.enqueued_stage hsendable hroom key now).receive

theorem closeConnection_receive (h : Synced S u c) (key : TcpConnectionKey) (now : TimePoint) :
    (closeConnection key c now).1.view.receive = c.view.receive := by
  unfold closeConnection
  by_cases hsendable : c.isSendable = true
  · rw [if_neg (by simp [hsendable])]
    exact (h.closing_stage hsendable key now).receive
  · rw [if_pos (by simpa using hsendable)]

theorem ReceiveStep.of_still (hstep : SyncedStep S u c e after) (hdelivered : e.delivered = [])
    (hclosed : e.peerClosed = false)
    (hreceive : ∀ c', after = some c' → c'.view.receive = c.view.receive) :
    ReceiveStep c e after := by
  refine .still hdelivered hclosed fun c' hc' => ⟨hreceive c' hc', ?_⟩
  have := (hstep.continues c' hc').peerFin
  rwa [hclosed, Bool.or_false] at this

theorem receiveStep_of_keyStep (h : Synced S u c) {listenPort : UInt16}
    (hstep : KeyStep listenPort key (some c) e after) : ReceiveStep c e after := by
  have hsync := h.step hstep
  cases hstep with
  | reconnect _ error | rejectData _ payload error =>
    exact .of_still hsync rfl rfl (by rintro c' ⟨rfl⟩; rfl)
  | sendData _ payload now =>
    exact .of_still hsync rfl rfl (by rintro c' ⟨rfl⟩; exact enqueueData_receive h key payload now)
  | close _ now =>
    exact .of_still hsync rfl rfl (by rintro c' ⟨rfl⟩; exact closeConnection_receive h key now)
  | probe _ now =>
    refine .of_still hsync rfl rfl ?_
    rintro c' ⟨rfl⟩
    exact congrArg View.receive (pollPersistProbe_view key c now)
  | timeout _ now =>
    refine .of_still hsync rfl rfl fun c' hc' => ?_
    rcases pollConnection_cases key c now with
      ⟨hkept, -⟩ | ⟨hkept, -⟩ | ⟨c₁, oldest, rest, -, hview, hkept, -⟩
    · simp [hkept] at hc'
    · rw [hkept] at hc'
      cases hc'
      rfl
    · rw [hkept] at hc'
      cases hc'
      exact congrArg View.receive hview
  | handle memory _ segment now =>
    by_cases hwait : c.state = .timeWait
    · rw [handleExisting_of_timeWait memory key segment now hwait] at hsync ⊢
      have hcases := handleTimeWait_cases key c segment now
      generalize handleTimeWait key c segment now = outcome at hcases hsync ⊢
      cases hcases with
      | dropped =>
        refine .of_still hsync rfl rfl ?_
        rw [eraseIfRemoved_of_kept h.removal]
        rintro c' ⟨rfl⟩
        rfl
      | reset =>
        refine .of_still hsync rfl rfl ?_
        rw [eraseIfRemoved_of_removed rfl]
        exact fun c' hc' => absurd hc' (by simp)
      | restarted deadline =>
        refine .of_still hsync rfl rfl ?_
        rw [eraseIfRemoved_of_kept h.removal]
        rintro c' ⟨rfl⟩
        rfl
    · rw [handleExisting_of_synchronized memory key segment now h.synchronized hwait] at hsync ⊢
      have hcases := handleSynchronized_cases memory key c segment now
      generalize handleSynchronized memory key c segment now = outcome at hcases hsync ⊢
      cases hcases with
      | dropped reply =>
        refine .of_still hsync rfl rfl ?_
        rw [eraseIfRemoved_of_kept h.removal]
        rintro c' ⟨rfl⟩
        rfl
      | reset options =>
        refine .of_still hsync rfl rfl ?_
        rw [eraseIfRemoved_of_removed rfl]
        exact fun c' hc' => absurd hc' (by simp)
      | processed options outcome hproc hout =>
        exact .arrival memory segment outcome.2 now (afterAck key c segment options now) _ rfl
          (h.arrives hwait key hproc now) rfl hout.accepted hout.peerClosed
          (processed_receive hproc hout h)

end Handle

/-! ## The receive side in every run -/

theorem HalfOpen.received (h : HalfOpen c) : NothingReceived c := by
  rcases h with h | h
  · exact h.received
  · exact h.received

/-- The peer's stream has not begun to arrive. -/
structure Unreceived (h : History) (c : Connection) : Prop where
  nothing : NothingReceived c
  delivered : h.delivered = []
  closed : h.peerClosedCount = 0
  peerFin : c.state.peerFinConsumed = false
  rcvNxt : c.state.synchronized = true → c.rcvNxt = c.remoteIsn + 1

/-- A synchronized connection before and after a call that keeps it. -/
structure Receives (s : Traced) (key : TcpConnectionKey) (c : Connection) (e : Event)
    (c' : Connection) : Prop where
  reachable : Reachable s
  found : s.table.find? key = some c
  synced : ∃ u, Synced (s.history key).accepted u c
  step : ReceiveStep c e (some c')

theorem Run.receive_invariant {ok : Traced → Op → Prop} (P : History → Connection → Prop)
    (hfresh : ∀ h c, Unreceived h c → P h c)
    (hstep : ∀ s op e c c', ok s op → s.table.eventFor key op = some e → Receives s key c e c' → P
      (s.history key) c → P (s.history key ++ [e]) c') (hs : Run ok s)
    (hc : s.table.find? key = some c) : P (s.history key) c := by
  -- Half-open connections have received nothing, so `P` is only carried once synchronized.
  have hinv := Run.key_invariant key (fun h c => ∀ c', c = some c' →
    (c'.state.synchronized = false → h.delivered = []) ∧ P h c') ?_ ?_ hs
  · exact (hinv c hc).2
  · exact fun c' h => absurd h (by simp)
  · intro s op e after hrun hok hevent hkey ih
    cases hc : s.table.find? key with
    | none =>
      rw [hc] at hkey
      have hopened : ∀ c', HalfOpen c' → e.delivered = [] → e.peerClosed = false →
          History.delivered [e] = [] ∧ P [e] c' := by
        intro c' hopen hdelivered hclosed
        refine ⟨by simpa using hdelivered, hfresh _ _ ⟨hopen.received, by simpa using hdelivered,
          by simp [hclosed], hopen.not_peerFinConsumed, fun h => ?_⟩⟩
        simp [hopen.not_synchronized] at h
      cases hkey with
      | refused => exact fun c' h => absurd h (by simp)
      | connect isn now =>
        rintro c' ⟨rfl⟩
        have := hopened _ (.inl (connectedWith_ok isn now)) rfl rfl
        exact ⟨fun _ => this.1, this.2⟩
      | accept segment options isn now _ _ _ hoptions =>
        rintro c' ⟨rfl⟩
        have := hopened _ (.inr (acceptedWith_ok segment isn now hoptions)) rfl rfl
        exact ⟨fun _ => this.1, this.2⟩
    | some c =>
      rw [hc] at hkey
      obtain ⟨isn, hconn, -⟩ := (Run.keyInv hrun.reachable key).conn
      intro c' hc'
      cases (hconn c hc).ok with
      | halfOpen hopen =>
        have hhalf := hopen.step hkey
        have hdelivered : History.delivered (s.history key ++ [e]) = [] := by
          rw [History.delivered_append, (ih c hc).1 hopen.not_synchronized, hhalf.delivered]
          rfl
        have hclosed : History.peerClosedCount (s.history key ++ [e]) = 0 := by
          rw [History.peerClosedCount_append, (hconn c hc).peerClosed, hhalf.peerClosed,
            hopen.not_peerFinConsumed]
          rfl
        refine ⟨fun _ => hdelivered, hfresh _ _ ?_⟩
        rcases hhalf.continues c' hc' with hview | ⟨segment, result, -, hest⟩
        · have hopen' := hopen.of_view hview
          refine ⟨hopen'.received, hdelivered, hclosed, hopen'.not_peerFinConsumed, fun h => ?_⟩
          simp [hopen'.not_synchronized] at h
        · refine ⟨hest.fresh.received, hdelivered, hclosed, ?_, fun _ => hest.fresh.rcvNxt⟩
          rw [hest.fresh.established]
          rfl
      | synced u hsynced =>
        have hcont := (hsynced.step hkey).continues c' hc'
        obtain ⟨u', -, hsynced'⟩ := hcont.synced
        refine ⟨fun h => ?_, hstep s op e c c' hok hevent ⟨hrun.reachable, hc, ⟨u, hsynced⟩, ?_⟩
          (ih c hc).2⟩
        · simp [hsynced'.synchronized] at h
        · rw [← hc']
          exact receiveStep_of_keyStep hsynced hkey

theorem Run.receiveInv (hs : Reachable s) (hc : s.table.find? key = some c) : ReceiveInv c := by
  refine Run.receive_invariant (fun _ c => ReceiveInv c) (fun h c hun => hun.nothing.receiveInv) ?_
    hs hc
  intro s op e c c' _ _ hreceives hinv
  cases hreceives.step with
  | still _ _ hkeep => exact hinv.of_receive (hkeep c' rfl).1 (hkeep c' rfl).2
  | arrival memory segment result now c₀ part _ harrives hpart _ _ hkeep =>
    have hinv₀ := hinv.of_receive harrives.receive harrives.move.peerFinConsumed
    have := hinv₀.receivePart harrives.retained memory segment now
    rw [← hpart] at this
    exact this.of_receive (hkeep c' rfl).1 (hkeep c' rfl).2

end Wirestack
