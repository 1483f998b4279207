import Wirestack.Tcp.Frames
import Wirestack.Tcp.StaleAck

set_option autoImplicit false

/-! # What goes out behind a segment

A segment that carries payload or a FIN has its acknowledgment processed first, and then the scheduler
runs on what that left of the queue and the windows. `Connection.acked` is that connection, written
down from the one before the segment; `Connection.sends` says whether a scheduling pass hands out
anything. -/

namespace Wirestack

open SerialNumber List Connection

variable {S : List Byte} {u : ℕ} {c c' : Connection} {key : TcpConnectionKey} {segment : TcpSegment}
  {options : TcpParsedOptions} {now : TimePoint}

/-! ## The windows after an acknowledgment -/

/-- `cwnd` after an advancing acknowledgment of `space` sequence numbers, `data` of them bytes. -/
def Connection.cwndAfter (c : Connection) (ack : SeqNum) (space data : ℕ) : ℕ :=
  if c.inFastRecovery then
    if sequenceLessOrEqual c.recoveryPoint ack then c.ssthresh
    else
      let smss := c.effectiveSendMss.toNat
      let deflated := max (if c.cwnd > space then c.cwnd - space else 0) smss
      clampCwnd (if space ≥ smss then deflated + smss else deflated)
  else (c.applyCongestionGrowth data).cwnd

/-- The queue and the windows that the segment's acknowledgment leaves, if it is not a duplicate. -/
def Connection.acked (c : Connection) (segment : TcpSegment) : Connection :=
  let ack := segment.acknowledgmentNumber
  let loop := retireEntries ack c.pending 0 none
  let retired := if sequenceGreater ack c.sndUna then
      { c with
        sndUna := ack
        pending := loop.pending
        cwnd := c.cwndAfter ack (ack - c.sndUna).toNat loop.dataBytes }
    else c
  { retired with
    sndWnd := if c.newerWindow segment then c.decodePeerWindow segment.windowSize else c.sndWnd }

theorem acked_view (c : Connection) (segment : TcpSegment) : (c.acked segment).view =
      { c.view with send := c.view.send.retire segment.acknowledgmentNumber } := by
  have hqueue := map_outstanding_retireEntries segment.acknowledgmentNumber c.pending 0 none
  have huna : c.view.send.sndUna = c.sndUna := rfl
  simp only [acked, SendView.retire, huna]
  cases sequenceGreater segment.acknowledgmentNumber c.sndUna with
  | false => rfl
  | true => simp only [view, if_true, hqueue]

theorem onAdvancingAck_cwnd (key : TcpConnectionKey) (c : Connection) (ack : SeqNum)
    (retired : TcpAckRetirementResult) (now : TimePoint) :
    (onAdvancingAck key c ack retired now).1.cwnd =
      c.cwndAfter ack retired.newlyAckedSequenceSpace retired.newlyAckedDataBytes := by
  unfold onAdvancingAck cwndAfter
  by_cases hrecovery : c.inFastRecovery = true
  · rw [if_pos hrecovery, if_pos hrecovery]
    by_cases hfull : sequenceLessOrEqual c.recoveryPoint ack = true
    · rw [if_pos hfull, if_pos hfull]
    · rw [if_neg hfull, if_neg hfull, retransmitForRecovery_shape]
  · rw [if_neg hrecovery, if_neg hrecovery]
    unfold applyCongestionGrowth
    split_ifs <;> rfl

theorem retireAcknowledged_counts (hgt : sequenceGreater segment.acknowledgmentNumber c.sndUna = true)
    (now : TimePoint) :
    (retireAcknowledged c segment.acknowledgmentNumber now).2.newlyAckedSequenceSpace =
        (segment.acknowledgmentNumber - c.sndUna).toNat ∧
      (retireAcknowledged c segment.acknowledgmentNumber now).2.newlyAckedDataBytes =
        (retireEntries segment.acknowledgmentNumber c.pending 0 none).dataBytes := by
  rw [retireAcknowledged, hgt]
  simp only [Bool.not_true, Bool.false_eq_true, if_false]
  split
  · split <;> exact ⟨rfl, rfl⟩
  · exact ⟨rfl, rfl⟩

theorem processAck_windows (key : TcpConnectionKey) (c : Connection)
    (hcarries : (segment.payload.isEmpty && !segment.flags.fin) = false)
    (options : TcpParsedOptions) (now : TimePoint) :
    (processAck key c segment options now).1.sndWnd = (c.acked segment).sndWnd ∧
      (processAck key c segment options now).1.cwnd = (c.acked segment).cwnd := by
  have hwindow : ((afterRetire c segment options now).updateSendWindow segment).sndWnd =
      (c.acked segment).sndWnd := by
    rw [afterRetire_shape, updateSendWindow]
    unfold acked newerWindow
    split_ifs <;> rfl
  rw [processAck_eq, retireAcknowledged_advanced]
  by_cases hgt : sequenceGreater segment.acknowledgmentNumber c.sndUna = true
  · obtain ⟨hspace, hdata⟩ := retireAcknowledged_counts hgt now
    rw [if_pos hgt, onAdvancingAck_cwnd, hspace, hdata]
    constructor
    · rw [onAdvancingAck_shape, ← hwindow]
      rfl
    · rw [updateSendWindow_shape, afterRetire_shape, acked]
      simp only [hgt, if_true, cwndAfter, applyCongestionGrowth]
      split_ifs <;> rfl
  · obtain ⟨_, hstanding⟩ := onStandingAck_of_carries key
      ((afterRetire c segment options now).updateSendWindow segment) hcarries _ now
    rw [if_neg hgt, hstanding]
    refine ⟨hwindow, ?_⟩
    rw [updateSendWindow_shape, afterRetire_shape]
    simp only [acked, hgt]
    rfl

theorem processAck_isSendable (key : TcpConnectionKey) (c : Connection) (segment : TcpSegment)
    (options : TcpParsedOptions) (now : TimePoint) :
    (processAck key c segment options now).1.isSendable = c.isSendable := by
  unfold Connection.isSendable
  rw [processAck_state]

/-- Two connections that cannot send, or that have the same to send and the same windows. -/
structure SendsLike (c c' : Connection) : Prop where
  sendable : c'.isSendable = c.isSendable
  send : c.isSendable = true → c'.view.send = c.view.send
  sndWnd : c.isSendable = true → c'.sndWnd = c.sndWnd
  cwnd : c.isSendable = true → c'.cwnd = c.cwnd

section Part

variable (h : Synced S u c) (hproc : Processes c segment options)
  (hkept : (afterAck key c segment options now).pendingRemoval = false) (memory : ℕ → Byte)

include h hproc hkept

theorem afterAck_synced : ∃ u', Synced S u' (afterAck key c segment options now) := by
  obtain ⟨u', -, hjoined⟩ := h.toJoined.processAck key options now hproc.inSent
  rcases hjoined.advanceClose now with ⟨-, -, hremoved⟩ | hsynced
  · simp [afterAck, hremoved] at hkept
  · exact ⟨u', hsynced⟩

theorem part_isSendable :
    (receivePart memory (afterAck key c segment options now) segment now).connection.isSendable =
      c.isSendable := by
  obtain ⟨u', hsynced⟩ := afterAck_synced h hproc hkept
  have hmove := advanceClose_move (processAck key c segment options now).1 now
  rw [receivePart_isSendable hsynced, Connection.isSendable, Connection.isSendable]
  rw [processAck_state] at hmove
  change AckMove c.state (afterAck key c segment options now).state at hmove
  generalize c.state = before at hmove
  generalize (afterAck key c segment options now).state = after at hmove
  cases hmove <;> rfl

theorem acked_part (hcarries : (segment.payload.isEmpty && !segment.flags.fin) = false) :
    SendsLike (c.acked segment)
      (receivePart memory (afterAck key c segment options now) segment now).connection := by
  obtain ⟨u', hsynced⟩ := afterAck_synced h hproc hkept
  obtain ⟨hwnd, hcwnd⟩ := processAck_windows key c hcarries options now
  have hsame : (c.acked segment).isSendable = c.isSendable := congrArg (fun v : View =>
    v.control.state == .established || v.control.state == .closeWait) (acked_view c segment)
  have hclose : c.isSendable = true →
      afterAck key c segment options now = (processAck key c segment options now).1 := by
    have hstate := processAck_state key c segment options now
    unfold afterAck advanceClose
    cases hold : c.state <;> simp_all [Connection.isSendable]
  rw [← hsame] at hclose
  refine ⟨?_, fun hsendable => ?_, fun hsendable => ?_, fun hsendable => ?_⟩
  · rw [part_isSendable h hproc hkept memory, hsame]
  · rw [receivePart_send hsynced, hclose hsendable, (processAck_spec key c segment options now).1,
      acked_view]
  · rw [receivePart_shape, hclose hsendable, hwnd]
  · rw [receivePart_shape, hclose hsendable, hcwnd]

end Part

/-! ## Whether something goes out -/

/-- A scheduling pass hands something out: data, or the FIN when all data is out. -/
def Connection.sends (c : Connection) : Bool :=
  c.isSendable && if c.unsent.isEmpty then c.closeRequested && decide (0 < c.availableSendWindow)
    else decide (0 < c.sendAllowance)

/-- The connection with more to send. -/
def Connection.queue (c : Connection) (payload : List Byte) (close : Bool) : Connection :=
  { c with unsent := c.unsent ++ payload, closeRequested := c.closeRequested || close }

theorem SendsLike.queue (h : SendsLike c c') (payload : List Byte) (close : Bool) :
    SendsLike (c.queue payload close) (c'.queue payload close) where
  sendable := h.sendable
  send := by
    have hsend : ∀ d : Connection, (d.queue payload close).view.send = { d.view.send with
        unsent := d.view.send.unsent ++ payload
        closeRequested := d.view.send.closeRequested || close } := fun _ => rfl
    intro hsendable
    rw [hsend, hsend, h.send hsendable]
  sndWnd := h.sndWnd
  cwnd := h.cwnd

theorem SendsLike.sends (h : SendsLike c c') : c'.sends = c.sends := by
  rw [Connection.sends, h.sendable, Connection.sends]
  cases hsendable : c.isSendable with
  | false => rfl
  | true =>
    have hsend := h.send hsendable
    have hunsent : c'.unsent = c.unsent := congrArg SendView.unsent hsend
    have hclose : c'.closeRequested = c.closeRequested := congrArg SendView.closeRequested hsend
    rw [hunsent, hclose, availableSendWindow_congr hsend (h.sndWnd hsendable),
      sendAllowance_congr hsend (h.sndWnd hsendable) (h.cwnd hsendable)]

theorem SendsLike.persist {d : Connection} (h : SendsLike c d) (now : TimePoint) :
    SendsLike c (d.updatePersistState now) := by
  rw [updatePersistState_shape]
  exact ⟨h.sendable, h.send, h.sndWnd, h.cwnd⟩

/-- The send buffer takes the payload: the checks of `makeOutgoingData` and `enqueueData`. -/
def Connection.takes (c : Connection) (payload : List Byte) : Bool :=
  !payload.isEmpty && decide (payload.length ≤ kMaxApplicationSendSize) && c.isSendable &&
    !c.closeRequested && decide (payload.length ≤ kTcpSendBufferCapacity - c.appOwnedBytes)

theorem SendsLike.takes (h : SendsLike c c') : c'.takes = c.takes := by
  funext payload
  rw [Connection.takes, h.sendable, Connection.takes]
  cases hsendable : c.isSendable with
  | false => simp
  | true =>
    have hsend := h.send hsendable
    have hunsent : c'.unsent = c.unsent := congrArg SendView.unsent hsend
    have hclose : c'.closeRequested = c.closeRequested := congrArg SendView.closeRequested hsend
    have hsum : ∀ d : Connection,
        (d.pending.filter fun e => !e.isSyn && !e.isFin).map (·.payload.length) =
          (d.view.send.queue.filter fun e => !e.isSyn && !e.isFin).map (·.payload.length) := by
      intro d
      change _ = ((d.pending.map PendingTransmission.outstanding).filter _).map _
      rw [filter_map, map_map]
      rfl
    have howned : c'.appOwnedBytes = c.appOwnedBytes := by
      rw [appOwnedBytes, hsum, hsend, hunsent, ← hsum, appOwnedBytes]
    rw [hclose, howned]

/-- The connection once the HTTP layer has queued a response, if there is one and it is taken, and
    requested the close. -/
def Connection.answered (c : Connection) (response : Option (List Byte)) (close : Bool) :
    Connection :=
  let queued := (response.filter c.takes).getD []
  c.queue queued (!queued.isEmpty || close)

theorem SendsLike.answered (h : SendsLike c c') (response : Option (List Byte)) (close : Bool) :
    SendsLike (c.answered response close) (c'.answered response close) := by
  unfold Connection.answered
  rw [h.takes]
  exact h.queue _ _

theorem Connection.sends_queue {payload : List Byte} (h : c.sends = true)
    (hpayload : payload = [] ∨ c.closeRequested = false) (close : Bool) :
    (c.queue payload close).sends = true := by
  rw [sends, Bool.and_eq_true] at h ⊢
  refine ⟨h.1, ?_⟩
  have hsends := h.2
  by_cases hunsent : c.unsent = []
  · simp only [hunsent, isEmpty_nil, if_true, Bool.and_eq_true] at hsends
    rcases hpayload with rfl | hopen
    · simp only [queue, hunsent, append_nil, isEmpty_nil, if_true, hsends.1, Bool.true_or,
        Bool.true_and]
      exact hsends.2
    · rw [hopen] at hsends
      cases hsends.1
  · have hne : (c.queue payload close).unsent.isEmpty = false := by simp [queue, hunsent]
    have hmore : c.sendAllowance ≤ (c.queue payload close).sendAllowance :=
      min_le_min_right _ (min_le_min_left _ (by simp [queue]))
    simp only [hunsent, List.isEmpty_iff, if_false, decide_eq_true_eq] at hsends
    rw [hne]
    exact decide_eq_true (hsends.trans_le hmore)

theorem Connection.queue_sends_congr {payload : List Byte} (hne : payload ≠ []) (close : Bool) :
    (c.queue payload close).sends = (c.queue payload false).sends := by
  have hunsent : ∀ b, (c.queue payload b).unsent.isEmpty = false := fun b => by simp [queue, hne]
  simp only [sends, hunsent]
  rfl

theorem Connection.queue_nil_sends_iff (hsilent : c.sends = false)
    (hfin : c.isSendable = true → c.localFinSeq = none) (close : Bool) :
    (c.queue [] close).sends = true ↔ close = true ∧ c.isSendable = true ∧ c.localFinSeq = none ∧
      c.unsent = [] ∧ 0 < c.availableSendWindow := by
  have hqueue : c.queue [] close = { c with closeRequested := c.closeRequested || close } := by
    rw [queue, append_nil]
  have hallow : (c.queue [] close).sendAllowance = c.sendAllowance := by
    rw [hqueue]
    rfl
  have hwindow : (c.queue [] close).availableSendWindow = c.availableSendWindow := rfl
  have hsame : (c.queue [] close).isSendable = c.isSendable := rfl
  rw [sends] at hsilent ⊢
  rw [hallow, hwindow, hsame, hqueue]
  by_cases hsendable : c.isSendable = true
  · rw [hsendable, Bool.true_and] at hsilent
    by_cases hunsent : c.unsent = []
    · have hidle : c.closeRequested = true → c.availableSendWindow = 0 := by
        simpa [hunsent] using hsilent
      simp only [hsendable, hunsent, hfin hsendable, isEmpty_nil, if_true, Bool.true_and,
        Bool.and_eq_true, Bool.or_eq_true, decide_eq_true_eq, true_and]
      constructor
      · rintro ⟨hclose | hclose, hpos⟩
        · exact absurd (hidle hclose) hpos.ne'
        · exact ⟨hclose, hpos⟩
      · exact fun ⟨hclose, hpos⟩ => ⟨.inr hclose, hpos⟩
    · have hidle : c.sendAllowance = 0 := by simpa [hunsent] using hsilent
      simp [hunsent, hidle]
  · simp [hsendable]

theorem Connection.answered_sends (h : c.sends = true) (response : Option (List Byte))
    (close : Bool) : (c.answered response close).sends = true := by
  refine sends_queue h ?_ _
  rcases hqueued : response.filter c.takes with _ | payload
  · exact .inl rfl
  · have htakes := (Option.filter_eq_some_iff.1 hqueued).2
    simp only [takes, Bool.and_eq_true, Bool.not_eq_true'] at htakes
    exact .inr htakes.1.2

section Pass

variable (key : TcpConnectionKey) (now : TimePoint)

theorem scheduleQueuedData_silent (hsendable : c.isSendable = true) (h : c.sends = false) :
    scheduleQueuedData key c now = (c.updatePersistState now, []) := by
  rw [Connection.sends, hsendable, Bool.true_and] at h
  by_cases hunsent : c.unsent = []
  · refine scheduleQueuedData_idle key now ?_ fun hclose _ => .inr ?_
    · exact Nat.le_zero.1 ((sendAllowance_le c).trans (by rw [hunsent]; rfl))
    · simpa [hunsent, hclose] using h
  · refine scheduleQueuedData_idle key now ?_ fun _ _ => .inl hunsent
    simpa [hunsent] using h

theorem maybeSequenceFin_sends_iff (c : Connection) : (maybeSequenceFin key c now []).2 ≠ [] ↔
    c.closeRequested = true ∧ c.localFinSeq = none ∧ c.unsent = [] ∧ 0 < c.availableSendWindow := by
  unfold maybeSequenceFin
  by_cases hclose : c.closeRequested = true
  · by_cases hfin : c.localFinSeq = none
    · by_cases hunsent : c.unsent = []
      · rcases Nat.eq_zero_or_pos c.availableSendWindow with hwindow | hwindow
        · simp [hclose, hfin, hunsent, hwindow]
        · simp [hclose, hfin, hunsent, hwindow, hwindow.ne']
      · simp [hclose, hfin, hunsent]
    · simp [hclose, hfin, Option.isSome_iff_ne_none]
  · simp [hclose]

theorem scheduleQueuedData_sends (hfin : c.localFinSeq = none) (h : c.sends = true) :
    (scheduleQueuedData key c now).2 ≠ [] := by
  intro hnil
  have hallow := sendAllowance_of_scheduled key now hnil
  obtain ⟨hsendable, hsends⟩ := Bool.and_eq_true_iff.1 h
  by_cases hunsent : c.unsent = []
  · rw [scheduleQueuedData_eq, sendQueued_of_zero key now hallow] at hnil
    simp [hunsent] at hsends
    exact (maybeSequenceFin_sends_iff key now c).2 ⟨hsends.1, hfin, hunsent, hsends.2⟩ hnil
  · simp [hunsent, hallow] at hsends

theorem closeConnection_fin_iff (c : Connection) : (closeConnection key c now).2.fin ≠ none ↔
    c.isSendable = true ∧ c.localFinSeq = none ∧ c.unsent = [] ∧ 0 < c.availableSendWindow := by
  have hsends := maybeSequenceFin_sends_iff key now { c with closeRequested := true }
  unfold closeConnection
  cases c.isSendable with
  | false => simp
  | true =>
    rw [if_neg (by decide), ne_eq, head?_eq_none_iff]
    exact hsends.trans ⟨fun h => ⟨rfl, h.2⟩, fun h => ⟨rfl, h.2⟩⟩

theorem closeConnection_unsent (c : Connection) :
    (closeConnection key c now).1.unsent = c.unsent := by
  unfold closeConnection
  split
  · rfl
  · obtain ⟨_, hclosed⟩ := closed_shape key c now
    dsimp only
    rw [hclosed]

theorem scheduleIfSendable_sends_iff (hremoval : c.pendingRemoval = false)
    (hfin : c.isSendable = true → c.localFinSeq = none) :
    (scheduleIfSendable key c now).2 ≠ [] ↔ c.sends = true := by
  rw [scheduleIfSendable, hremoval]
  by_cases hsendable : c.isSendable = true
  · rw [if_pos (by simpa [Connection.isSendable] using hsendable)]
    refine ⟨fun hne => ?_, scheduleQueuedData_sends key now (hfin hsendable)⟩
    by_contra hsilent
    rw [scheduleQueuedData_silent key now hsendable (by simpa using hsilent)] at hne
    exact hne rfl
  · rw [if_neg (by simpa [Connection.isSendable] using hsendable)]
    simp [Connection.sends, hsendable]

theorem scheduleIfSendable_silent (h : c.sends = false) :
    scheduleIfSendable key c now = (c.updatePersistState now, []) := by
  unfold scheduleIfSendable
  split_ifs with hsendable
  · refine scheduleQueuedData_silent key now ?_ h
    exact (Bool.and_eq_true_iff.1 hsendable).2
  · rfl

end Pass

section Outcome

variable {memory : ℕ → Byte} {outcome : Connection × TcpReceiveResult} (h : Synced S u c)
  (hproc : Processes c segment options)
  (hout : ProcessedOutcome memory key c segment options (processAck key c segment options now).2
    now outcome)
  (hkept : outcome.1.pendingRemoval = false)
  (hcarries : (segment.payload.isEmpty && !segment.flags.fin) = false)

include h hproc hout hkept hcarries

theorem scheduled_ne_nil_iff : outcome.2.scheduled ≠ [] ↔ (c.acked segment).sends = true := by
  rcases processed_outcome hproc hout h with ⟨-, hremoved⟩ | ⟨hafter, -⟩
  · simp [hkept] at hremoved
  obtain ⟨u', hsynced⟩ := afterAck_synced h hproc hafter
  have hpart := Synced.receivePart hsynced memory segment now
  rw [hout.scheduled, scheduleIfSendable_sends_iff key now hpart.removal
    hpart.localFinSeq_of_sendable, (acked_part h hproc hafter memory hcarries).sends]

theorem outcome_sendsLike (hsilent : (c.acked segment).sends = false) :
    SendsLike (c.acked segment) outcome.1 ∧
      (outcome.1.isSendable = true → outcome.1.localFinSeq = none) := by
  rcases processed_outcome hproc hout h with ⟨-, hremoved⟩ | ⟨hafter, -⟩
  · simp [hkept] at hremoved
  have hlike := acked_part h hproc hafter memory hcarries
  obtain ⟨u', hsynced⟩ := afterAck_synced h hproc hafter
  have hpart := Synced.receivePart hsynced memory segment now
  have hleft := hpart.of_view (updatePersistState_view _ now)
  rw [← hlike.sends] at hsilent
  rw [hout.connection, scheduleIfSendable_silent key now hsilent]
  exact ⟨hlike.persist now, hleft.localFinSeq_of_sendable⟩

end Outcome

end Wirestack
