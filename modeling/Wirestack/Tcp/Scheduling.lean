import Wirestack.Tcp.SendStream

set_option autoImplicit false

/-! # Scheduling moves the window over the send stream

What the scheduler, the deferred FIN and the persist timer do to the view of a connection, stated
over the stream invariant: a scheduling pass cuts a prefix of `unsent` into queue entries without
losing, repeating or reordering a byte, and sequences the FIN only behind the last of them. -/

namespace Wirestack

open SerialNumber List Connection

variable {S : List Byte} {u : ℕ}

theorem updatePersistState_view (c : Connection) (now : TimePoint) :
    (c.updatePersistState now).view = c.view := by
  unfold updatePersistState
  split_ifs <;> rfl

/-! ## Cutting -/

/-- The queue entry that `sendQueued` registers for a segment. -/
def TcpSegment.outstanding (segment : TcpSegment) : Outstanding :=
  ⟨segment.sequenceNumber, false, false, false, segment.flags, segment.payload⟩

theorem outstanding_dataEntry (c : Connection) (now : TimePoint) (segments : List TcpSegment) :
    (segments.map (dataEntry c now)).map PendingTransmission.outstanding =
      segments.map TcpSegment.outstanding := by
  rw [map_map]
  rfl

theorem cutSegments_spec (key : TcpConnectionKey) (c : Connection) (draining : Bool)
    (hmss : 0 < c.effectiveSendMss.toNat) :
    ∀ (fuel : ℕ) (seq : SeqNum) (bytes : List Byte), bytes.length ≤ fuel →
    let cut := (cutSegments key c draining fuel seq bytes).map TcpSegment.outstanding
    Tiled seq cut (pos seq bytes.length) ∧ (∀ e ∈ cut, e.Sent) ∧ cells cut = bytes.map some := by
  intro fuel
  induction fuel with
  | zero =>
    intro seq bytes hfuel
    obtain rfl : bytes = [] := eq_nil_of_length_eq_zero (by omega)
    exact ⟨by simp [cutSegments, Tiled], by simp [cutSegments], rfl⟩
  | succ fuel ih =>
    intro seq bytes hfuel
    cases bytes with
    | nil => exact ⟨by simp [cutSegments, Tiled], by simp [cutSegments], rfl⟩
    | cons b bytes =>
      rw [cutSegments, if_neg (by simp)]
      set all := b :: bytes with hall
      have hlen : 0 < all.length := by simp [hall]
      set chunk := min c.effectiveSendMss.toNat all.length with hchunk
      have hpos : 0 < chunk := by omega
      have hle : chunk ≤ all.length := by omega
      have htake : (all.take chunk).length = chunk := by rw [length_take]; omega
      obtain ⟨htiled, hsent, hcells⟩ := ih (seq + BitVec.ofNat 32 chunk) (all.drop chunk)
        (by rw [length_drop]; omega)
      rw [length_drop] at htiled
      refine ⟨⟨rfl, ?_⟩, ?_, ?_⟩
      · have hend : (dataSegment key c seq (chunk == all.length && draining)
            (all.take chunk)).outstanding.sequenceEnd = seq + BitVec.ofNat 32 chunk := by
          simp [Outstanding.sequenceEnd, TcpSegment.outstanding, Outstanding.span, dataSegment,
            htake]
        have hstop : pos (seq + BitVec.ofNat 32 chunk) (all.length - chunk) =
            pos seq all.length := by
          have := pos_pos seq chunk (all.length - chunk)
          rwa [Nat.add_sub_cancel' hle] at this
        rwa [hend, ← hstop]
      · refine forall_mem_cons.2 ⟨?_, hsent⟩
        refine .data seq _ (all.take chunk) ?_
        rwa [← length_pos_iff, htake]
      · rw [map_cons, cells_cons, hcells]
        simp only [TcpSegment.outstanding, Outstanding.cells, dataSegment, Bool.false_eq_true,
          if_false, nil_append, append_nil]
        rw [← map_append, take_append_drop]

theorem mem_cutSegments {key : TcpConnectionKey} {c : Connection} {draining : Bool} {fuel : ℕ}
    {segment : TcpSegment} :
    ∀ {seq : SeqNum} {bytes : List Byte}, segment ∈ cutSegments key c draining fuel seq bytes →
    ∃ start psh chunk, segment = dataSegment key c start psh chunk := by
  induction fuel with
  | zero => intro seq bytes h; simp [cutSegments] at h
  | succ fuel ih =>
    intro seq bytes h
    rw [cutSegments] at h
    split_ifs at h
    · simp at h
    · rcases mem_cons.1 h with rfl | h
      · exact ⟨_, _, _, rfl⟩
      · exact ih h

theorem sendAllowance_le (c : Connection) : c.sendAllowance ≤ c.unsent.length := by
  unfold sendAllowance
  omega

/-! ## Sending stages -/

/-- What a stage that only sends does to a connection whose stream is `S`: the window moves over the
    same stream, the receive side stays, and the state changes only if the FIN was sequenced. Each
    segment it hands out is now outstanding. -/
structure SendStage (S : List Byte) (u : ℕ) (c : Connection)
    (outcome : Connection × List TcpSegment) : Prop where
  send : SendInv S u outcome.1.view.send
  localIsn : outcome.1.localIsn = c.localIsn
  closeRequested : outcome.1.closeRequested = c.closeRequested
  receive : outcome.1.view.receive = c.view.receive
  control :
    outcome.1.view.control = c.view.control ∧ outcome.1.localFinSeq = c.localFinSeq ∨
    outcome.1.view.control =
        { c.view.control with state := if c.state = .established then .finWait1 else .lastAck } ∧
      outcome.1.localFinSeq.isSome = true ∧ c.localFinSeq = none ∧ u ≤ S.length
  segments : ∀ segment ∈ outcome.2,
    ∃ e ∈ outcome.1.view.send.queue, e.IsSentAs c.rcvNxt segment

namespace SendStage

variable {S : List Byte} {u : ℕ} {c : Connection}

theorem idle {c' : Connection} (h : SendInv S u c.view.send) (hview : c'.view = c.view) :
    SendStage S u c (c', []) where
  send := by rw [hview]; exact h
  localIsn := congrArg (·.send.localIsn) hview
  closeRequested := congrArg (·.send.closeRequested) hview
  receive := by rw [hview]
  control := .inl ⟨by rw [hview], congrArg (·.send.localFinSeq) hview⟩
  segments := by simp

theorem persist {outcome : Connection × List TcpSegment} (h : SendStage S u c outcome)
    (now : TimePoint) : SendStage S u c (outcome.1.updatePersistState now, outcome.2) := by
  have hview := updatePersistState_view outcome.1 now
  constructor
  · rw [hview]; exact h.send
  · exact (congrArg (·.send.localIsn) hview).trans h.localIsn
  · exact (congrArg (·.send.closeRequested) hview).trans h.closeRequested
  · rw [hview]; exact h.receive
  · have hfin : (outcome.1.updatePersistState now).localFinSeq = outcome.1.localFinSeq :=
      congrArg (·.send.localFinSeq) hview
    rw [hview, hfin]
    exact h.control
  · rw [hview]; exact h.segments

end SendStage

section

variable (key : TcpConnectionKey) (c : Connection) (now : TimePoint) (segments : List TcpSegment)

theorem sendQueued_stage {c : Connection} (h : SendInv S u c.view.send)
    (hfin : c.localFinSeq = none) : SendStage S u c (sendQueued key c now) := by
  unfold sendQueued
  dsimp only
  split_ifs with hsend
  · set draining := c.sendAllowance == c.unsent.length && decide (c.sendAllowance > 0)
    set segments := cutSegments key c draining c.sendAllowance c.sndNxt
      (c.unsent.take c.sendAllowance) with hsegments
    have hlen : (c.unsent.take c.sendAllowance).length = c.sendAllowance := by
      have := sendAllowance_le c
      rw [length_take]
      omega
    obtain ⟨htiled, hsent, hcells⟩ := cutSegments_spec key c draining h.mss c.sendAllowance c.sndNxt
      (c.unsent.take c.sendAllowance) hlen.le
    rw [hlen] at htiled
    have hqueue := outstanding_dataEntry c now segments
    constructor
    · have := h.transmit hfin htiled hsent hcells
      simp only [view, map_append, hqueue] at this ⊢
      exact this
    · rfl
    · rfl
    · rfl
    · exact .inl ⟨rfl, rfl⟩
    · intro segment hmem
      have hack : segment.acknowledgmentNumber = c.rcvNxt := by
        obtain ⟨_, _, _, rfl⟩ := mem_cutSegments hmem
        rfl
      refine ⟨segment.outstanding, ?_, rfl, hack, rfl, rfl⟩
      simp only [view, map_append, hqueue]
      exact mem_append_right _ (mem_map_of_mem hmem)
  · exact SendStage.idle h rfl

theorem maybeSequenceFin_cases : maybeSequenceFin key c now segments = (c, segments) ∨
    c.closeRequested = true ∧ c.localFinSeq = none ∧ c.unsent = [] ∧ ∃ entry : PendingTransmission,
        entry.outstanding = ⟨c.sndNxt, false, false, true, { fin := true, ack := true }, []⟩ ∧
        maybeSequenceFin key c now segments = ({ c with
              pending := c.pending ++ [entry]
              localFinSeq := some c.sndNxt
              sndNxt := c.sndNxt + 1
              state := if c.state = .established then .finWait1 else .lastAck },
            segments ++ [makeFin key c]) := by
  unfold maybeSequenceFin
  by_cases hclose : c.closeRequested = true
  · by_cases hfin : c.localFinSeq.isSome = true
    · left
      simp [hfin]
    · by_cases hunsent : c.unsent = []
      · by_cases hwindow : c.availableSendWindow < 1
        · left
          simp [hwindow]
        · right
          have hnone : c.localFinSeq = none := by simpa using hfin
          refine ⟨hclose, hnone, hunsent, ?_⟩
          rw [if_neg (by simp [hclose]), if_neg hfin, if_neg (by simp [hunsent]), if_neg hwindow]
          exact ⟨_, rfl, rfl⟩
      · left
        simp [hunsent]
  · left
    simp [hclose]

theorem maybeSequenceFin_stage {c₀ c : Connection} {segments : List TcpSegment}
    (h : SendStage S u c₀ (c, segments)) (hcontrol : c.view.control = c₀.view.control)
    (hfin : c₀.localFinSeq = none) : SendStage S u c₀ (maybeSequenceFin key c now segments) := by
  rcases maybeSequenceFin_cases key c now segments with
    heq | ⟨hclose, hnone, hunsent, entry, hentry, heq⟩
  · rwa [heq]
  · rw [heq]
    have hstate : c.state = c₀.state := congrArg ControlView.state hcontrol
    constructor
    · have := h.send.sequenceFin hnone hunsent hclose
      simp only [view, map_append, map_cons, map_nil, hentry] at this ⊢
      exact this
    · exact h.localIsn
    · exact h.closeRequested
    · exact h.receive
    · refine .inr ⟨?_, rfl, hfin, ?_⟩
      · rw [← hcontrol, ← hstate]
        rfl
      · have hacked := h.send.acked
        rw [show c.view.send.localFinSeq = none from hnone, length_streamCells] at hacked
        simpa using hacked
    · intro segment hmem
      simp only [view, map_append, map_cons, map_nil, hentry]
      rcases mem_append.1 hmem with hmem | hmem
      · obtain ⟨e, he, hsent⟩ := h.segments segment hmem
        exact ⟨e, mem_append_left _ he, hsent⟩
      · rw [mem_singleton.1 hmem]
        refine ⟨_, mem_append_right _ (mem_singleton.2 rfl), rfl, ?_, rfl, rfl⟩
        exact congrArg ReceiveView.rcvNxt h.receive

theorem scheduleQueuedData_stage {c : Connection} (h : SendInv S u c.view.send)
    (hfin : c.localFinSeq = none) : SendStage S u c (scheduleQueuedData key c now) := by
  have hsent := sendQueued_stage key now h hfin
  have hcontrol : (sendQueued key c now).1.view.control = c.view.control := by
    unfold sendQueued
    dsimp only
    split_ifs <;> rfl
  unfold scheduleQueuedData
  generalize sendQueued key c now = sent at hsent hcontrol
  obtain ⟨c', segments⟩ := sent
  dsimp only at hcontrol ⊢
  split
  · exact (maybeSequenceFin_stage key now hsent hcontrol hfin).persist now
  · exact hsent.persist now

end

end Wirestack
