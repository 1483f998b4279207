import Wirestack.Tcp.Receiving

set_option autoImplicit false

/-! # What the receive window admits

When the next expected byte is accepted, against any peer and whatever is buffered
(`nextByte_accepted_iff`). The byte at `rcvNxt` always lies in an open window, but the fragment limit
and the granularity of a scaled window each refuse it in some states. -/

namespace Wirestack

open SerialNumber Chunks List TcpConnectionTable Connection

variable {a : ℕ} {key : TcpConnectionKey} {isn rcvNxt : SeqNum}
  {fragments : List TcpReassemblyFragment}

variable {c : Connection} {segment : TcpSegment} {s : Traced} {scaled : Bool} {shape : List (ℕ × ℕ)}

/-! ## The next expected byte -/

/-- The segment's first byte is delivered first, and `rcvNxt` advances over what is delivered. -/
structure NextByteAccepted (c : Connection) (segment : TcpSegment) (after : Option Connection)
    (result : TcpReceiveResult) : Prop where
  first : ∃ b, segment.payload.head? = some b ∧ result.acceptedPayload.head? = some b
  advances : ∃ c', after = some c' ∧
    c'.rcvNxt = c.rcvNxt + BitVec.ofNat 32
      (result.acceptedPayload.length + if result.peerClosed then 1 else 0)

/-- The smallest window that can be advertised: one unit of the window scale. -/
def Connection.windowUnit (c : Connection) : ℕ := if c.windowScalingEnabled then 4 else 1

theorem advertisedLogicalWindowFor_pos_iff (hscale : c.ScaleOk) : 0 < c.advertisedLogicalWindowFor ↔
      c.bufferedReceiveBytes + c.windowUnit ≤ kTcpReceiveCapacity := by
  rw [advertisedLogicalWindowFor_eq hscale, windowUnit, availableReceive]
  simp only [kTcpReceiveCapacity]
  split_ifs <;> omega

theorem receivePart_full (hinv : ReceiveInv c)
    (hfull : kMaxReassemblyFragments ≤ c.outOfOrder.length)
    (hstate : c.state.peerFinConsumed = false) (memory : ℕ → Byte) (segment : TcpSegment)
    (now : TimePoint) : (receivePart memory c segment now).accepted = [] := by
  have hreleased : releasedBy memory c segment = [] := by
    have hspec := receivedWith_spec hinv.ok memory segment
    by_contra hsome
    obtain ⟨b, rest, heq⟩ := exists_cons_of_ne_nil hsome
    have hold := storeSegment_full hinv.ok memory segment hfull
      (hspec.handedOut 0 b (by rw [heq]; rfl))
    obtain ⟨d, hd, hhas⟩ := hold
    have := hinv.ahead hstate d hd
    exact absurd hhas.1 (by omega)
  rw [receivePart_accepted, hreleased, ite_self]

section InOrder

variable {c : Connection} (hinv : ReceiveInv c) {segment : TcpSegment}
  (hseq : segment.sequenceNumber = c.rcvNxt) (hne : segment.payload ≠ [])
  (hlen : segment.payload.length ≤ kMaxParsedPayload)

include hinv hseq hlen

theorem anyPayloadInWindow_inOrder :
    c.anyPayloadInWindow segment = decide (0 < min segment.payload.length
      c.advertisedLogicalWindowFor) := by
  have hwindow := advertisedLogicalWindowFor_le_capacity hinv.scale
  simp only [kTcpReceiveCapacity, kMaxParsedPayload] at hwindow hlen
  have hdist : ahead c.rcvNxt segment.sequenceNumber = 0 := by rw [hseq, ahead_self]
  rw [(usable_ahead (by omega) (by omega) (by omega)).2.2, hdist, Nat.zero_add]

include hne

theorem receivePart_closedWindow (hclosed : c.advertisedLogicalWindowFor = 0) (memory : ℕ → Byte)
    (now : TimePoint) : (receivePart memory c segment now).accepted = [] := by
  have hany : c.anyPayloadInWindow segment = false := by
    rw [anyPayloadInWindow_inOrder hinv hseq hlen, hclosed]
    simp
  have hfin : c.finInWindow segment = false := by
    have hnot : sequenceGreater c.windowEnd segment.segmentEnd = false := by
      rw [Bool.eq_false_iff, ne_eq, sequenceGreater_iff]
      have hpos := length_pos_iff.2 hne
      have hend : segment.segmentEnd = pos c.rcvNxt segment.payload.length := by
        rw [← hseq]
        rfl
      have hwin : c.windowEnd = c.rcvNxt := by
        rw [windowEnd, hclosed]
        simp
      simp only [kMaxParsedPayload] at hlen
      have hdist : ahead c.rcvNxt segment.segmentEnd = segment.payload.length := by
        rw [hend, ahead_pos _ (by omega)]
      rw [hwin, ahead_swap (by omega), hdist]
      omega
    simp [finInWindow, hnot]
  unfold receivePart acceptsPart
  rw [hany, hfin]
  simp

theorem receivePart_open (hopen : 0 < c.advertisedLogicalWindowFor)
    (hroom : c.outOfOrder.length < kMaxReassemblyFragments)
    (hstate : c.state.peerFinConsumed = false) (memory : ℕ → Byte) (now : TimePoint) :
    (receivePart memory c segment now).accepted.head? = segment.payload.head? := by
  have hpos := length_pos_iff.2 hne
  have hwindow := advertisedLogicalWindowFor_le_capacity hinv.scale
  have hlen' := hlen
  simp only [kTcpReceiveCapacity, kMaxParsedPayload] at hwindow hlen'
  have hany : c.anyPayloadInWindow segment = true := by
    rw [anyPayloadInWindow_inOrder hinv hseq hlen, decide_eq_true_eq]
    omega
  have hdist : ahead c.rcvNxt segment.sequenceNumber = 0 := by rw [hseq, ahead_self]
  have hstart : ahead c.rcvNxt (c.usableStart segment) = 0 := by
    rw [usableStart_eq, hdist, if_pos (by omega), hdist]
  have hexact : c.WindowTestExact segment := by
    unfold WindowTestExact
    omega
  have hspec := receivedWith_spec hinv.ok memory segment
  have hstored := (storeSegment_stored hinv.ok memory segment).ok
  obtain ⟨b, hb⟩ : ∃ b, segment.payload.head? = some b := by
    obtain ⟨b, rest, heq⟩ := exists_cons_of_ne_nil hne
    exact ⟨b, by rw [heq]; rfl⟩
  have hfirst : Holds (buffer c.rcvNxt (storeSegment memory c segment).1.outOfOrder) 0 b := by
    obtain ⟨skip, len, hrange⟩ := usable_exact memory (by omega) (by omega) hexact hany
    have hskip : skip = 0 := by
      have hin := hrange.inPayload
      have hpos' := congrArg (ahead segment.sequenceNumber) hrange.start
      rw [ahead_pos _ (by omega), usableStart_eq, hdist, if_pos (by omega), ahead_self] at hpos'
      exact hpos'.symm
    have hnonempty := hrange.nonempty
    rw [← hstart]
    refine storeSegment_first hinv.ok memory segment hroom hany ?_ ?_
    · rintro ⟨d, hd, hlo, -⟩
      have := hinv.ahead hstate d hd
      simp only [Chunk.range] at hlo
      omega
    · rw [hrange.payload, hskip, drop_zero, getElem?_take, if_pos (by omega),
        ← head?_eq_getElem?, hb]
  have hreleased : (releasedBy memory c segment).head? = some b := by
    cases hrel : releasedBy memory c segment with
    | nil =>
      have hgap := hspec.gap
      rw [hrel] at hgap
      exact absurd (covers_iff_holds.2 ⟨b, hfirst⟩) hgap
    | cons b' rest =>
      have := hspec.handedOut 0 b' (by rw [hrel]; rfl)
      rw [hstored.canonical.holds_unique this hfirst]
      rfl
  rw [hb]
  have haccepts : c.acceptsPart segment = true := by
    rw [acceptsPart, hany]
    simp [hne]
  rw [receivePart_accepted, if_pos haccepts, hreleased]

end InOrder

/-- **When the next expected byte is accepted.** An in-order segment with payload is refused exactly
    when the buffer is at its fragment limit or the window has shrunk below one unit of its scale. -/
theorem nextByte_accepted_iff {s : Traced} (hs : Reachable s) {key : TcpConnectionKey}
    {c : Connection} (hc : s.table.find? key = some c)
    (hstate : c.state = .established ∨ c.state = .finWait1 ∨ c.state = .finWait2)
    {segment : TcpSegment} (hack : segment.flags.ack = true) (hsyn : segment.flags.syn = false)
    (hrst : segment.flags.rst = false)
    {options : TcpParsedOptions} (hoptions : parseTcpOptions segment.options = .ok options)
    (hsent : sequenceLessOrEqual segment.acknowledgmentNumber c.sndNxt = true)
    (hne : segment.payload ≠ []) (hlen : segment.payload.length ≤ kMaxParsedPayload)
    (hseq : segment.sequenceNumber = c.rcvNxt) (memory : ℕ → Byte) (now : TimePoint) :
    NextByteAccepted c segment ((s.table.handle memory key segment now).1.find? key)
        (s.table.handle memory key segment now).2 ↔
      c.outOfOrder.length < kMaxReassemblyFragments ∧
      c.bufferedReceiveBytes + c.windowUnit ≤ kTcpReceiveCapacity := by
  have hsync : c.state.synchronized = true := by rcases hstate with h | h | h <;> rw [h] <;> rfl
  have hwait : c.state ≠ .timeWait := by rcases hstate with h | h | h <;> rw [h] <;> simp
  have hnot : c.state.peerFinConsumed = false := by rcases hstate with h | h | h <;> rw [h] <;> rfl
  obtain ⟨u, hsynced⟩ := Run.synced hs hc hsync
  have hinv := Run.receiveInv hs hc
  have hproc : Processes c segment options := ⟨hsyn, hrst, hack, hoptions, hsent⟩
  have harrives := hsynced.arrives hwait key hproc now
  have hout := handleSynchronized_processed memory key hproc now
  have hreceive := processed_receive hproc hout hsynced
  have hexisting := handleExisting_of_synchronized memory key segment now hsync hwait
  have hkept := hsynced.handle_kept hrst (by rcases hstate with h | h | h <;> rw [h] <;> simp)
    memory key now
  rw [hexisting] at hkept
  rw [handle_of_some hc, find?_put, if_pos rfl, hexisting]
  have hinv₀ := hinv.of_receive harrives.receive harrives.move.peerFinConsumed
  have hnot₀ := harrives.move.peerFinConsumed.trans hnot
  obtain ⟨hrcv, hfragments, -⟩ := bufferOk_congr harrives.receive
  have hwindow := advertisedLogicalWindowFor_congr harrives.receive
  have hseq₀ := hseq.trans hrcv.symm
  have haccepted := hout.accepted
  have hclosed := hout.peerClosed
  rw [← advertisedLogicalWindowFor_pos_iff hinv.scale, ← hwindow, ← hfragments]
  generalize afterAck key c segment options now = c₀ at *
  generalize handleSynchronized memory key c segment now = outcome at *
  constructor
  · rintro ⟨⟨b, -, hb⟩, -⟩
    change outcome.2.acceptedPayload.head? = some b at hb
    rw [haccepted] at hb
    refine ⟨?_, ?_⟩
    · by_contra hfull
      simp [receivePart_full hinv₀ (by omega) hnot₀] at hb
    · by_contra hshut
      simp [receivePart_closedWindow hinv₀ hseq₀ hne hlen (by omega)] at hb
  · rintro ⟨hroom, hopen⟩
    have hhead := receivePart_open hinv₀ hseq₀ hne hlen hopen hroom hnot₀ memory now
    obtain ⟨b, rest, heq⟩ := exists_cons_of_ne_nil hne
    obtain ⟨c', hc'⟩ := hkept
    refine ⟨⟨b, by rw [heq]; rfl, ?_⟩, c', hc', ?_⟩
    · change outcome.2.acceptedPayload.head? = some b
      rw [haccepted, hhead, heq]
      rfl
    · change c'.rcvNxt = c.rcvNxt + BitVec.ofNat 32 (outcome.2.acceptedPayload.length + _)
      rw [(bufferOk_congr (hreceive c' hc').1).1, receivePart_rcvNxt hinv₀.ok, hrcv, haccepted]
      change pos c.rcvNxt _ = pos c.rcvNxt _
      rw [← hclosed]
      rfl

/-- With Window Scale on, two bytes beyond the next one are buffered. -/
def exampleHoles : Traced :=
  exampleRun [3, 3, 7] [.handle noMemory exampleKey (exampleSegment 5003 [0xcc]) 0,
    .handle noMemory exampleKey (exampleSegment 5006 [0xdd]) 0]

theorem nextByte_accepted_example :
    ∃ c, exampleHoles.table.find? exampleKey = some c ∧ c.windowScalingEnabled = true ∧
      c.outOfOrder = [⟨5003, [0xcc]⟩, ⟨5006, [0xdd]⟩] ∧
      NextByteAccepted c (exampleSegment 5001 [0xbb])
        ((exampleHoles.table.handle noMemory exampleKey (exampleSegment 5001 [0xbb]) 0).1.find?
          exampleKey)
        (exampleHoles.table.handle noMemory exampleKey (exampleSegment 5001 [0xbb]) 0).2 := by
  obtain ⟨c, hc, hstate, hrcv, hnxt, hout, hfin, hscaled⟩ := exampleRun_at [3, 3, 7]
    [.handle noMemory exampleKey (exampleSegment 5003 [0xcc]) 0,
      .handle noMemory exampleKey (exampleSegment 5006 [0xdd]) 0]
    (fun _ c => c.state = .established ∧ c.rcvNxt = 5001 ∧ c.sndNxt = 1001 ∧
      c.outOfOrder = [⟨5003, [0xcc]⟩, ⟨5006, [0xdd]⟩] ∧ c.pendingFinSeq = none ∧
      c.windowScalingEnabled = true) (by decide +kernel)
  have hsent : sequenceLessOrEqual (exampleSegment 5001 [0xbb]).acknowledgmentNumber c.sndNxt =
      true := by
    rw [hnxt]
    decide
  have hoptions : parseTcpOptions (exampleSegment 5001 [0xbb]).options = .ok {} := rfl
  have hroom : c.outOfOrder.length < kMaxReassemblyFragments ∧
      c.bufferedReceiveBytes + c.windowUnit ≤ kTcpReceiveCapacity := by
    rw [bufferedReceiveBytes, windowUnit, hout, hfin, hscaled]
    decide
  exact ⟨c, hc, hscaled, hout, (nextByte_accepted_iff (exampleRun_reachable _ _) hc (.inl hstate)
    rfl rfl rfl hoptions hsent (by simp [exampleSegment]) (by simp [exampleSegment, kMaxParsedPayload])
    hrcv.symm noMemory 0).2 hroom⟩

/-! ## Filling the buffer from behind

A peer that sends its segments in descending order, with holes between them, puts one fragment after
the other in front of the buffer. -/

theorem processAck_closeRequested (key : TcpConnectionKey) (c : Connection) (segment : TcpSegment)
    (options : TcpParsedOptions) (now : TimePoint) :
    (processAck key c segment options now).1.closeRequested = c.closeRequested := by
  refine (congrArg (·.send.closeRequested) (processAck_spec key c segment options now).1).trans ?_
  simp only [SendView.retire]
  split_ifs <;> rfl

theorem receivePart_beyond (hnofin : c.pendingFinSeq = none) (hfin : segment.flags.fin = false)
    (hany : c.anyPayloadInWindow segment = true) (hne : segment.payload ≠ []) {memory : ℕ → Byte}
    (hbeyond : ∀ d ∈ buffer c.rcvNxt (storeSegment memory c segment).1.outOfOrder, 0 < d.start)
    (now : TimePoint) :
    (receivePart memory c segment now).connection = (storeSegment memory c segment).1 := by
  have hfinWindow : c.finInWindow segment = false := by simp [finInWindow, hfin]
  have hpending : (storeSegment memory c segment).1.pendingFinSeq = none := by
    rwa [storeSegment_eq, hfinWindow]
  have hrcv : (storeSegment memory c segment).1.rcvNxt = c.rcvNxt := by rw [storeSegment_eq]
  have hreceived : receivedWith memory c segment = (storeSegment memory c segment).1 := by
    unfold receivedWith releaseContiguous
    rw [hrcv, (release_of_beyond hbeyond).1, ← hrcv]
  have haccepts : c.acceptsPart segment = true := by
    rw [acceptsPart, hany]
    simp [hne]
  have hcases := receivePart_cases memory c segment now
  rw [hreceived] at hcases
  generalize receivePart memory c segment now = part at hcases ⊢
  cases hcases with
  | ignored hnot =>
    simp [haccepts] at hnot
  | stored => rfl
  | consumed _ _ hsome =>
    simp [hpending] at hsome

theorem receivePart_front (hinv : ReceiveInv c) (hstate : c.state.peerFinConsumed = false)
    (hnofin : c.pendingFinSeq = none) (hfin : segment.flags.fin = false)
    (hne : segment.payload ≠ []) (hseq : segment.sequenceNumber = pos c.rcvNxt a) (hpos : 0 < a)
    (hin : a + segment.payload.length ≤ c.advertisedLogicalWindowFor)
    (hbefore : ∀ d ∈ c.buffered, a + segment.payload.length < d.start)
    (hroom : c.outOfOrder.length < kMaxReassemblyFragments) (memory : ℕ → Byte) (now : TimePoint) :
    (receivePart memory c segment now).connection =
      { c with outOfOrder := ⟨segment.sequenceNumber, segment.payload⟩ :: c.outOfOrder } := by
  have hlen := length_pos_iff.2 hne
  have hwindow := advertisedLogicalWindowFor_le_capacity hinv.scale
  simp only [kTcpReceiveCapacity] at hwindow
  have hdist : ahead c.rcvNxt segment.sequenceNumber = a := by rw [hseq, ahead_pos _ (by omega)]
  have hend : ahead c.rcvNxt segment.sequenceNumber + segment.payload.length <
      2 ^ 31 + c.advertisedLogicalWindowFor := by omega
  obtain ⟨hfrom, hto, htest⟩ := usable_ahead (by omega) (by omega) hend
  have hany : c.anyPayloadInWindow segment = true := by
    rw [htest, decide_eq_true_eq]
    omega
  have hpayload : usablePayload memory c segment = segment.payload := by
    rw [usablePayload, hto, hfrom, BitVec.sub_self, BitVec.toNat_zero, hdist, Nat.min_eq_left hin]
    rw [hseq, toNat_pos_sub_pos _ (by omega) (by omega), Nat.add_sub_cancel_left,
      readRange_eq (by omega), drop_zero, take_length]
  have hinsert : (insertReassemblyFragment c (c.usableStart segment)
      (usablePayload memory c segment)).outOfOrder =
      ⟨segment.sequenceNumber, segment.payload⟩ :: c.outOfOrder := by
    rw [hpayload, hfrom]
    refine insertReassemblyFragment_front hinv.ok hne (by omega) hroom ?_
    rwa [hdist]
  have hfinWindow : c.finInWindow segment = false := by simp [finInWindow, hfin]
  have hstored : (storeSegment memory c segment).1 =
      { c with outOfOrder := ⟨segment.sequenceNumber, segment.payload⟩ :: c.outOfOrder } := by
    rw [storeSegment_eq, hany, hfinWindow, hinsert]
    simp
  rw [← hstored]
  refine receivePart_beyond hnofin hfin hany hne ?_ now
  rw [hstored]
  change ∀ d ∈ buffer c.rcvNxt (⟨segment.sequenceNumber, segment.payload⟩ :: c.outOfOrder), 0 < d.start
  rw [buffer_cons, forall_mem_cons]
  refine ⟨?_, hinv.ahead hstate⟩
  change 0 < ahead c.rcvNxt segment.sequenceNumber
  omega

/-- An established connection whose user has neither sent nor closed, with the given fragments. -/
structure Filled (s : Traced) (key : TcpConnectionKey) (isn rcvNxt : SeqNum) (scaled : Bool)
    (fragments : List TcpReassemblyFragment) (c : Connection) : Prop where
  reachable : Reachable s
  found : s.table.find? key = some c
  established : c.state = .established
  idle : c.closeRequested = false
  silent : (s.history key).accepted = []
  localIsn : c.localIsn = isn
  rcvNxt : c.rcvNxt = rcvNxt
  scaling : c.windowScalingEnabled = scaled
  outOfOrder : c.outOfOrder = fragments
  noFin : c.pendingFinSeq = none

theorem Filled.sndNxt (h : Filled s key isn rcvNxt scaled fragments c) : c.sndNxt = isn + 1 := by
  obtain ⟨u, hsynced⟩ := Run.synced h.reachable h.found (by rw [h.established]; rfl)
  rw [h.silent] at hsynced
  have hnone : c.localFinSeq = none := hsynced.localFinSeq_eq_none (by rw [h.established]; rfl)
  have hlen := hsynced.send.length_eq
  rw [show c.view.send.localFinSeq = none from hnone] at hlen
  simp only [Option.isSome_none, Bool.false_eq_true, if_false, length_nil] at hlen
  have hnxt := hsynced.send.nxt
  rw [show u + (cells c.view.send.queue).length = 0 by omega, pos_zero] at hnxt
  rwa [← h.localIsn]

theorem Filled.front (h : Filled s key isn rcvNxt scaled fragments c)
    (hflags : segment.flags = { ack := true }) (hoptions : segment.options = [])
    (hack : segment.acknowledgmentNumber = isn + 1) (hne : segment.payload ≠ [])
    (hseq : segment.sequenceNumber = pos rcvNxt a) (hpos : 0 < a)
    (hin : a + segment.payload.length ≤ c.advertisedLogicalWindowFor)
    (hbefore : ∀ f ∈ fragments, a + segment.payload.length < ahead rcvNxt f.sequenceStart)
    (hroom : fragments.length < kMaxReassemblyFragments) (memory : ℕ → Byte) (now : TimePoint) :
    ∃ c', Filled (s.step (.handle memory key segment now)) key isn rcvNxt scaled
      (⟨segment.sequenceNumber, segment.payload⟩ :: fragments) c' := by
  obtain ⟨u, hsynced⟩ := Run.synced h.reachable h.found (by rw [h.established]; rfl)
  have hinv := Run.receiveInv h.reachable h.found
  have hproc : Processes c segment {} := by
    refine ⟨by rw [hflags], by rw [hflags], by rw [hflags], by rw [hoptions]; rfl, ?_⟩
    rw [hack, h.sndNxt, sequenceLessOrEqual_iff, ahead_self]
    norm_num
  have hwait : c.state ≠ .timeWait := by rw [h.established]; simp
  have harrives := hsynced.arrives hwait key hproc now
  have hout := handleSynchronized_processed memory key hproc now
  have hafter : afterAck key c segment {} now = (processAck key c segment {} now).1 := by
    have hstate := (processAck_state key c segment {} now).trans h.established
    simp [afterAck, advanceClose, hstate]
  obtain ⟨u', -, hjoined⟩ := hsynced.toJoined.processAck key {} now hproc.inSent
  have hsynced₀ : Synced (s.history key).accepted u' (afterAck key c segment {} now) := by
    rcases hjoined.advanceClose now with ⟨hlast, -⟩ | hsynced
    · simp [processAck_state, h.established] at hlast
    · exact hsynced
  have hclose₀ : (afterAck key c segment {} now).closeRequested = false := by
    rw [hafter, processAck_closeRequested, h.idle]
  have hscaling₀ : (afterAck key c segment {} now).windowScalingEnabled = scaled :=
    (congrArg ReceiveView.windowScalingEnabled harrives.receive).trans h.scaling
  have hisn₀ := (afterAck_localIsn key c segment {} now).trans h.localIsn
  have hest₀ : (afterAck key c segment {} now).state = .established := by
    rw [hafter, processAck_state, h.established]
  obtain ⟨hrcv, hfragments, hfin, -⟩ := bufferOk_congr harrives.receive
  have hinv₀ := hinv.of_receive harrives.receive harrives.move.peerFinConsumed
  have hwindow := advertisedLogicalWindowFor_congr harrives.receive
  have hstate₀ := harrives.move.peerFinConsumed.trans
    (congrArg TcpState.peerFinConsumed h.established)
  generalize afterAck key c segment {} now = c₀ at *
  rw [h.rcvNxt] at hrcv
  rw [h.outOfOrder] at hfragments
  rw [h.noFin] at hfin
  have hpart := receivePart_front hinv₀ hstate₀ hfin (by rw [hflags]) hne (hrcv ▸ hseq) hpos
    (by rw [hwindow]; exact hin) (by
      rw [buffered, hrcv, hfragments]
      intro d hd
      obtain ⟨f, hf, rfl⟩ := mem_map.1 hd
      exact hbefore f hf) (by rw [hfragments]; exact hroom) memory now
  have hsynced₁ : Synced (s.history key).accepted u' (receivePart memory c₀ segment now).connection :=
    Synced.receivePart hsynced₀ memory segment now
  obtain ⟨hstage, hsynced', hmove⟩ := hsynced₁.scheduleIfSendable key now
  have hclose : (handleSynchronized memory key c segment now).1.closeRequested = false := by
    rwa [hout.connection, hstage.closeRequested, hpart]
  have hisn : (handleSynchronized memory key c segment now).1.localIsn = isn := by
    rwa [hout.connection, hstage.localIsn, hpart]
  have hreceive : (handleSynchronized memory key c segment now).1.view.receive =
      (receivePart memory c₀ segment now).connection.view.receive := by
    rw [hout.connection]
    exact hstage.receive
  rw [hpart] at hreceive
  -- Without a request to close no FIN is sequenced, so scheduling cannot leave ESTABLISHED.
  have hcontrol : (handleSynchronized memory key c segment now).1.state = .established := by
    rw [hout.connection] at hclose ⊢
    have hest : (receivePart memory c₀ segment now).connection.state = .established := by
      rwa [hpart]
    rw [hest] at hmove
    have hseq' := hsynced'.sequenced
    generalize (scheduleIfSendable key (receivePart memory c₀ segment now).connection now).1.state =
      state at hmove hseq' ⊢
    cases hmove with
    | stay => rfl
    | finWait1 =>
      obtain ⟨f, hf⟩ := Option.isSome_iff_exists.1 hseq'
      exact absurd (hclose.symm.trans (hsynced'.send.fin f hf).2.2) (by simp)
  have hat : s.at key = (s.history key, some c) := by rw [Traced.at, h.found]
  have hstep := Traced.step_at hat
    (show performAt key c (.handle memory key segment now) = some _ from if_pos rfl)
  rw [handleExisting_of_synchronized memory key segment now (by rw [h.established]; rfl) hwait,
    eraseIfRemoved_of_kept (by rw [hout.connection]; exact hsynced'.removal)] at hstep
  obtain ⟨hhist, hfound⟩ := Prod.mk.inj hstep
  refine ⟨_, .step s _ h.reachable trivial, hfound, hcontrol, hclose, ?_, hisn, ?_, ?_, ?_, ?_⟩
  · rw [hhist, History.accepted_append, h.silent]
    rfl
  · exact (congrArg ReceiveView.rcvNxt hreceive).trans hrcv
  · exact (congrArg ReceiveView.windowScalingEnabled hreceive).trans hscaling₀
  · refine (congrArg ReceiveView.outOfOrder hreceive).trans ?_
    exact congrArg _ hfragments
  · exact (congrArg ReceiveView.pendingFinSeq hreceive).trans hfin

/-- A fragment of `n` equal bytes at offset `a`, given as the pair `(a, n)`. -/
def exampleFragment (p : ℕ × ℕ) : TcpReassemblyFragment :=
  ⟨pos 5001 p.1, replicate p.2 0xaa⟩

/-- The segments that put the given fragments into the buffer, the last one first. -/
def exampleFill (shape : List (ℕ × ℕ)) : List Op :=
  shape.reverse.map fun p =>
    .handle noMemory exampleKey
      (exampleSegment (exampleFragment p).sequenceStart (exampleFragment p).payload) 0

/-- The window that the given fragments leave. -/
def windowBeside (scaled : Bool) (shape : List (ℕ × ℕ)) : ℕ :=
  if scaled then (kTcpReceiveCapacity - (shape.map Prod.snd).sum) / 4 * 4
  else min (kTcpReceiveCapacity - (shape.map Prod.snd).sum) 65535

/-- Each fragment fits into the window that those behind it leave, in front of them. -/
def fits (scaled : Bool) : List (ℕ × ℕ) → Bool
  | [] => true
  | (a, n) :: rest =>
    fits scaled rest && decide (0 < a) && decide (0 < n) &&
      decide (a + n ≤ windowBeside scaled rest) &&
      rest.all (fun q => decide (a + n < q.1)) && decide (rest.length < kMaxReassemblyFragments)

theorem fits_offset (h : fits scaled shape = true) : ∀ q ∈ shape, q.1 < 2 ^ 32 := by
  induction shape with
  | nil => simp
  | cons p rest ih =>
    obtain ⟨a, n⟩ := p
    simp only [fits, Bool.and_eq_true, decide_eq_true_eq] at h
    obtain ⟨⟨⟨⟨⟨hrest, -⟩, -⟩, hin⟩, -⟩, -⟩ := h
    rw [forall_mem_cons]
    refine ⟨?_, ih hrest⟩
    simp only [windowBeside, kTcpReceiveCapacity] at hin
    split at hin <;> omega

theorem Filled.window (h : Filled s exampleKey 1000 5001 scaled (shape.map exampleFragment) c) :
    c.advertisedLogicalWindowFor = windowBeside scaled shape := by
  rw [advertisedLogicalWindowFor_eq (Run.receiveInv h.reachable h.found).scale, h.scaling,
    availableReceive, bufferedReceiveBytes, h.outOfOrder, h.noFin]
  simp [windowBeside, exampleFragment, Function.comp_def]

theorem exampleFill_filled {options : List Byte}
    (hstart : ∃ c, Filled (exampleRun options []) exampleKey 1000 5001 scaled [] c)
    (h : fits scaled shape = true) :
    ∃ c, Filled (exampleRun options (exampleFill shape)) exampleKey 1000 5001 scaled
      (shape.map exampleFragment) c := by
  induction shape with
  | nil => exact hstart
  | cons p rest ih =>
    obtain ⟨a, n⟩ := p
    have hoffset := fits_offset h
    simp only [fits, Bool.and_eq_true, decide_eq_true_eq, all_eq_true] at h
    obtain ⟨⟨⟨⟨⟨hrest, hpos⟩, hlen⟩, hin⟩, hbefore⟩, hroom⟩ := h
    obtain ⟨c, hc⟩ := ih hrest
    have hrun : exampleRun options (exampleFill ((a, n) :: rest)) =
        (exampleRun options (exampleFill rest)).step (.handle noMemory exampleKey
          (exampleSegment (pos 5001 a) (replicate n 0xaa)) 0) := by
      simp [exampleRun, exampleFill, Traced.replay, exampleFragment]
    rw [hrun]
    refine hc.front rfl rfl rfl ?_ rfl hpos ?_ ?_ ?_ noMemory 0
    · simp only [exampleSegment, ne_eq, replicate_eq_nil_iff]
      omega
    · rw [hc.window]
      simpa [exampleSegment] using hin
    · intro f hf
      obtain ⟨q, hq, rfl⟩ := mem_map.1 hf
      have := hbefore q hq
      simpa [exampleFragment, exampleSegment, ahead_pos _ (hoffset q (by simp [hq]))] using this
    · simpa using hroom

/-- The option bytes of a SYN-ACK with or without Window Scale. -/
def exampleOptions (scaled : Bool) : List Byte := if scaled then [3, 3, 7] else []

theorem exampleStart_filled (scaled : Bool) :
    ∃ c, Filled (exampleRun (exampleOptions scaled) []) exampleKey 1000 5001 scaled [] c := by
  obtain ⟨c, hc, hstate, hclose, haccepted, hisn, hrcv, hscaling, hout, hfin⟩ := exampleRun_at
    (exampleOptions scaled) [] (fun h c => c.state = .established ∧ c.closeRequested = false ∧
      h.accepted = [] ∧ c.localIsn = 1000 ∧ c.rcvNxt = 5001 ∧ c.windowScalingEnabled = scaled ∧
      c.outOfOrder = [] ∧ c.pendingFinSeq = none) (by cases scaled <;> decide +kernel)
  exact ⟨c, exampleRun_reachable _ _, hc, hstate, hclose, haccepted, hisn, hrcv, hscaling, hout,
    hfin⟩

/-- One byte each at the offsets 2, 4, ..., 256. -/
def exampleFull : List (ℕ × ℕ) := (range 128).map fun i => (2 + 2 * i, 1)

/-- A buffer at the fragment limit refuses the byte at `rcvNxt` although it lies in the window. -/
theorem nextByte_refused_at_limit :
    ∃ c, (exampleRun (exampleOptions false) (exampleFill exampleFull)).table.find? exampleKey =
        some c ∧
      c.state = .established ∧ c.pendingFinSeq = none ∧ c.rcvNxt = 5001 ∧ c.sndNxt = 1001 ∧
      c.advertisedLogicalWindowFor = 65535 ∧
      ((exampleRun (exampleOptions false) (exampleFill exampleFull)).table.handle noMemory
        exampleKey (exampleSegment 5001 [0xbb]) 0).2.acceptedPayload = [] := by
  have hfits : fits false exampleFull = true := by decide +kernel
  obtain ⟨c, hc⟩ := exampleFill_filled (exampleStart_filled false) hfits
  refine ⟨c, hc.found, hc.established, hc.noFin, hc.rcvNxt, hc.sndNxt,
    hc.window.trans (by decide +kernel), ?_⟩
  have hinv := Run.receiveInv hc.reachable hc.found
  obtain ⟨u, hsynced⟩ := Run.synced hc.reachable hc.found (by rw [hc.established]; rfl)
  have hwait : c.state ≠ .timeWait := by rw [hc.established]; simp
  have hproc : Processes c (exampleSegment 5001 [0xbb]) {} := by
    refine ⟨rfl, rfl, rfl, rfl, ?_⟩
    rw [hc.sndNxt]
    decide
  have harrives := hsynced.arrives hwait exampleKey hproc 0
  rw [handle_of_some hc.found,
    handleExisting_of_synchronized _ _ _ _ (by rw [hc.established]; rfl) hwait]
  refine (handleSynchronized_processed noMemory exampleKey hproc 0).accepted.trans ?_
  refine receivePart_full (hinv.of_receive harrives.receive harrives.move.peerFinConsumed) ?_ ?_ ..
  · rw [(bufferOk_congr harrives.receive).2.1, hc.outOfOrder]
    simp [exampleFull, kMaxReassemblyFragments]
  · rw [harrives.move.peerFinConsumed, hc.established]
    rfl

end Wirestack
