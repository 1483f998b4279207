import Wirestack.Tcp.Receiving

set_option autoImplicit false

/-! # The end of a stream and of a connection

Two promises of `TcpReceiveResult` to its caller, against any peer. `peerClosed` ends the stream: it
is reported at most once, and in the runs in which nobody sends data beyond a FIN nothing is
delivered after it (`endOfStream_final`). `connectionReset` and `connectionClosed` tell that `handle`
has removed the connection: `removal_signalled_iff` lists the segments for which they do not. -/

namespace Wirestack

open SerialNumber Chunks TcpConnectionTable Connection Option

variable {c' : Connection} {result : TcpReceiveResult} {options : TcpParsedOptions}

variable {h : History} {e : Event} {c : Connection} {segment : TcpSegment}

/-! ## The end of the stream -/

/-- Nothing is delivered after the end of the stream was reported. -/
def EndIsFinal (h : History) : Prop :=
  ∀ h₁ h₂ : History, h = h₁ ++ h₂ → 0 < h₁.peerClosedCount → h₂.delivered = []

/-- Once the peer's FIN is consumed, no segment passes the window test for payload. -/
def DataEndsWithFin (s : Traced) : Op → Prop
  | .handle _ key segment _ => ∀ c, s.table.find? key = some c →
    c.state = .closeWait ∨ c.state = .closing ∨ c.state = .lastAck →
    ReachesWindow c segment → c.anyPayloadInWindow segment = false
  | _ => True

theorem EndIsFinal.nil : EndIsFinal [] := by
  intro h₁ h₂ heq _
  obtain ⟨rfl, rfl⟩ := List.append_eq_nil_iff.1 heq.symm
  rfl

theorem EndIsFinal.snoc (hfinal : EndIsFinal h) (he : 0 < h.peerClosedCount → e.delivered = []) :
    EndIsFinal (h ++ [e]) := by
  refine final_snoc (p := fun h => 0 < h.peerClosedCount) (f := Event.delivered) ?_ hfinal he
  intro h₁ h₂ hpos
  rw [History.peerClosedCount, List.countP_append]
  exact Nat.add_pos_left hpos _

theorem anyPayloadInWindow_congr (h : c'.view.receive = c.view.receive) (segment : TcpSegment) :
    c'.anyPayloadInWindow segment = c.anyPayloadInWindow segment := by
  simp only [anyPayloadInWindow, usableStart, usableEnd,
    windowEnd, (bufferOk_congr h).1, advertisedLogicalWindowFor_congr h]

theorem receivePart_afterFin (hconsumed : c.state.peerFinConsumed = true)
    (hno : c.acceptsPart segment = true → c.anyPayloadInWindow segment = false)
    (memory : ℕ → Byte) (now : TimePoint) : (receivePart memory c segment now).accepted = [] := by
  have hopen : c.finEventsOpen = false := by
    rw [Bool.eq_false_iff]
    intro hopen
    simp [finEventsOpen_not_consumed hopen] at hconsumed
  have hnot : ¬ c.acceptsPart segment = true := by
    intro haccepts
    have hany := hno haccepts
    simp [acceptsPart, finInWindow, hany, hopen] at haccepts
  rw [receivePart, if_neg hnot]

theorem delivered_afterFin {s : Traced} (hs : Reachable s) {key : TcpConnectionKey}
    (hc : s.table.find? key = some c) (hclosed : 0 < (s.history key).peerClosedCount) {op : Op}
    (hok : DataEndsWithFin s op) (hevent : s.table.eventFor key op = some e) :
    e.delivered = [] := by
  have hcount := (Run.connInv hs hc).peerClosed
  have hconsumed : c.state.peerFinConsumed = true := by
    by_contra hnot
    rw [if_neg hnot] at hcount
    omega
  have hsync : c.state.synchronized = true := by
    cases hstate : c.state <;> simp_all [TcpState.peerFinConsumed, TcpState.synchronized]
  obtain ⟨u, hsynced⟩ := Run.synced hs hc hsync
  cases receiveStep_of_keyStep hsynced (Traced.step_of_event hc hevent) with
  | still hdelivered => exact hdelivered
  | arrival memory segment result now c₀ part heq harrives hpart hdelivered =>
    have hclosing : c.state = .closeWait ∨ c.state = .closing ∨ c.state = .lastAck := by
      have hwait := harrives.notTimeWait
      cases hstate : c.state <;> simp_all [TcpState.peerFinConsumed]
    rw [hdelivered, hpart]
    refine receivePart_afterFin ?_ (fun haccepts => ?_) memory now
    · rw [harrives.move.peerFinConsumed, hconsumed]
    · obtain ⟨memory, now, rfl⟩ := op_of_handle (heq ▸ hevent)
      rw [anyPayloadInWindow_congr harrives.receive]
      exact hok c hc hclosing (harrives.reachesWindow haccepts)

/-- **The end of the stream is final**, and reported once, in every run in which no data follows a
    consumed FIN. -/
theorem endOfStream_final {s : Traced} (hs : Run DataEndsWithFin s) (key : TcpConnectionKey) :
    (s.history key).peerClosedCount ≤ 1 ∧
      ∀ h₁ e h₂, s.history key = h₁ ++ e :: h₂ → e.peerClosed = true → History.delivered h₂ = [] := by
  have hfinal : EndIsFinal (s.history key) := by
    refine Run.key_invariant key (fun h _ => EndIsFinal h) EndIsFinal.nil ?_ hs
    intro s op e after hrun hok hevent hstep ih
    cases hc : s.table.find? key with
    | none =>
        rw [hc] at hstep
        cases hstep with
        | refused _ href =>
            rw [extendHistory_none]
            exact ih.snoc fun _ => href.delivered
        | connect isn now | accept segment options isn now _ _ _ _ =>
            rw [extendHistory_new]
            exact EndIsFinal.nil.snoc (h := []) fun _ => rfl
    | some c =>
        rw [extendHistory_some]
        exact ih.snoc fun hpos => delivered_afterFin hrun.reachable hc hpos hok hevent
  refine ⟨(Run.keyInv hs.reachable key).closedOnce, fun h₁ e h₂ heq hclosed => ?_⟩
  refine hfinal (h₁ ++ [e]) h₂ (by simpa using heq) ?_
  simp [hclosed]

theorem split_of_getElem? {i : ℕ} (he : h[i]? = some e) : h = h.take i ++ e :: h.drop (i + 1) := by
  obtain ⟨hi, rfl⟩ := List.getElem?_eq_some_iff.1 he
  rw [← List.drop_eq_getElem_cons hi, List.take_append_drop]

/-- A FIN of the peer at the given sequence number. -/
def exampleFin (sequenceNumber : SeqNum) : TcpSegment :=
  { exampleSegment sequenceNumber [] with flags := { ack := true, fin := true } }

/-- The peer closes, and an old segment of it arrives once more. -/
def exampleClosed : List Op :=
  [.handle noMemory exampleKey (exampleFin 5001) 0,
    .handle noMemory exampleKey (exampleSegment 4990 [7]) 0]

theorem endOfStream_final_example :
    ∃ h₁ e h₂, (exampleRun [] exampleClosed).history exampleKey = h₁ ++ e :: h₂ ∧
      e.peerClosed = true ∧ h₂ ≠ [] ∧ History.delivered h₂ = [] := by
  obtain ⟨c₀, hc₀, hstate⟩ := exampleRun_at [] [] (fun _ c => c.state = .established)
    (by decide +kernel)
  obtain ⟨c₁, hc₁, hany⟩ := exampleRun_at [] [.handle noMemory exampleKey (exampleFin 5001) 0]
    (fun _ c => c.anyPayloadInWindow (exampleSegment 4990 [7]) = false) (by decide +kernel)
  obtain ⟨c₂, -, hlen, hclosed⟩ := exampleRun_at [] exampleClosed
    (fun h _ => h.length = 4 ∧ h[2]?.map Event.peerClosed = some true) (by decide +kernel)
  have hbare : ∀ s : Traced, DataEndsWithFin s (.beginConnect exampleKey 0) ∧
      DataEndsWithFin s (.handle noMemory exampleKey (exampleSynAck []) 0) := fun s =>
    ⟨trivial, fun c _ _ hreaches => by simpa [exampleSynAck] using hreaches.carries⟩
  have hfin : DataEndsWithFin (exampleRun [] [])
      (.handle noMemory exampleKey (exampleFin 5001) 0) := by
    intro c hc hclosing _
    rw [hc₀, some.injEq] at hc
    rw [← hc, hstate] at hclosing
    simp at hclosing
  have hold : DataEndsWithFin (exampleRun [] [.handle noMemory exampleKey (exampleFin 5001) 0])
      (.handle noMemory exampleKey (exampleSegment 4990 [7]) 0) := by
    intro c hc _ _
    rw [hc₁, some.injEq] at hc
    rw [← hc]
    exact hany
  have hrun : Run DataEndsWithFin (exampleRun [] exampleClosed) :=
    .step _ _ (.step _ _ (.step _ _ (.step _ _ (.start exampleTable rfl) (hbare _).1) (hbare _).2)
      hfin) hold
  obtain ⟨e, he, hpeer⟩ := map_eq_some_iff.1 hclosed
  have hsplit := split_of_getElem? he
  refine ⟨_, e, _, hsplit, hpeer, ?_, (endOfStream_final hrun exampleKey).2 _ e _ hsplit hpeer⟩
  rw [← List.length_pos_iff, List.length_drop, hlen]
  decide

/-- Both sides close at the same time, and the peer sends a byte beyond its FIN. -/
def exampleBeyondFin : List Op :=
  [.beginClose exampleKey 0, .handle noMemory exampleKey (exampleFin 5001) 0,
    .handle noMemory exampleKey (exampleSegment 5002 [0xbb]) 0]

theorem endOfStream_followed_by_data :
    ∃ c h₁ e h₂, (exampleRun [] exampleBeyondFin).table.find? exampleKey = some c ∧
      c.state = .closing ∧
      (exampleRun [] exampleBeyondFin).history exampleKey = h₁ ++ e :: h₂ ∧
      e.peerClosed = true ∧ History.delivered h₂ = [0xbb] := by
  obtain ⟨c, hc, hstate, hclosed, hdelivered⟩ := exampleRun_at [] exampleBeyondFin
    (fun h c => c.state = .closing ∧ h[3]?.map Event.peerClosed = some true ∧
      History.delivered (h.drop 4) = [0xbb]) (by decide +kernel)
  obtain ⟨e, he, hpeer⟩ := map_eq_some_iff.1 hclosed
  exact ⟨c, _, e, _, hc, hstate, split_of_getElem? he, hpeer, hdelivered⟩

/-! ## The end of the connection -/

/-- A removal is reported: as a reset when a RST caused it and as a close when an acknowledgment did.
    Without a removal neither is reported. -/
structure RemovalSignalled (segment : TcpSegment) (after : Option Connection)
    (result : TcpReceiveResult) : Prop where
  reset : after = none → segment.flags.rst = true → result.connectionReset = true
  closed : after = none → segment.flags.rst = false → result.connectionClosed = true
  present : after ≠ none → result.connectionReset = false ∧ result.connectionClosed = false

/-- The segments that remove a connection without a word: a RST in SYN-RECEIVED or TIME-WAIT, and a
    final acknowledgment in LAST-ACK that also carries payload or a FIN. -/
def Connection.SilentlyRemovedBy (c : Connection) (segment : TcpSegment) : Prop :=
  c.state = .synReceived ∧ segment.flags.rst = true ∧
      segment.sequenceNumber = c.remoteIsn + 1 ∨
    c.state = .timeWait ∧ segment.flags.rst = true ∧ segment.sequenceNumber = c.rcvNxt ∨
    c.state = .lastAck ∧ (∃ options, Processes c segment options) ∧
      segment.acknowledgmentNumber = c.sndNxt ∧
      (segment.payload ≠ [] ∨ segment.flags.fin = true)

theorem RemovalSignalled.of_kept (hreset : result.connectionReset = false)
    (hclosed : result.connectionClosed = false) : RemovalSignalled segment (some c') result :=
  ⟨nofun, nofun, fun _ => ⟨hreset, hclosed⟩⟩

theorem removalSignalled_of_reset (hrst : segment.flags.rst = true) :
    RemovalSignalled segment none result ↔ result.connectionReset = true := by
  refine ⟨fun h => h.reset rfl hrst,
    fun h => ⟨fun _ _ => h, fun _ hnot => ?_, fun hne => absurd rfl hne⟩⟩
  simp [hrst] at hnot

theorem afterAck_pendingRemoval {S : List Byte} {u : ℕ} (h : Synced S u c) (key : TcpConnectionKey)
    (hproc : Processes c segment options) (now : TimePoint) :
    (afterAck key c segment options now).pendingRemoval = true ↔
      c.state = .lastAck ∧ segment.acknowledgmentNumber = c.sndNxt := by
  obtain ⟨u', -, hjoined⟩ := h.toJoined.processAck key options now hproc.inSent
  have hstate := processAck_state key c segment options now
  have hsend := hjoined.send
  rw [(processAck_spec key c segment options now).1] at hsend
  have hfin : c.state = .lastAck → c.view.send.localFinSeq.isSome = true ∧ u ≤ S.length :=
    fun hlast => ⟨h.sequenced.trans (by rw [hlast]; rfl),
      h.unacked (by rw [hlast]; rfl) (by rw [hlast]; rfl)⟩
  constructor
  · intro hremoval
    rcases hjoined.advanceClose now with ⟨hlast, rfl, -⟩ | hsynced
    · rw [hstate] at hlast
      exact ⟨hlast, h.send.ack_eq_nxt (hfin hlast).1 (hfin hlast).2 hsend⟩
    · exact absurd (hsynced.removal.symm.trans hremoval) (by simp)
  · rintro ⟨hlast, hack⟩
    rw [hack] at hsend
    have hall := h.send.eq_of_retire_nxt (hfin hlast).1 (hfin hlast).2 hsend
    have hacked : (processAck key c segment options now).1.localFinAcked = true :=
      hjoined.localFinAcked_iff.2 ⟨by rw [hstate, hlast]; rfl, hall⟩
    simp [afterAck, advanceClose, hstate, hlast, hacked]

section Signals

variable {S : List Byte} {u : ℕ} {c : Connection} {key : TcpConnectionKey} {segment : TcpSegment}
  {now : TimePoint}

theorem removalSignalled_processed (h : Synced S u c) (hwait : c.state ≠ .timeWait)
    {memory : ℕ → Byte} {outcome : Connection × TcpReceiveResult}
    (hproc : Processes c segment options)
    (hout : ProcessedOutcome memory key c segment options (processAck key c segment options now).2
      now outcome) : RemovalSignalled segment (eraseIfRemoved outcome).1 outcome.2 ↔
      ¬ c.SilentlyRemovedBy segment := by
  have hremoval := afterAck_pendingRemoval h key hproc now
  have hclosed := hout.closed
  rcases processed_outcome hproc hout h with ⟨hafter, hgone⟩ | ⟨hafter, hkept, -⟩
  · -- The final acknowledgment: the flag is only set when nothing else is carried.
    rw [eraseIfRemoved_of_removed hgone]
    obtain ⟨hlast, hack⟩ := hremoval.1 hafter
    rw [hafter, Bool.and_true] at hclosed
    have hsilent : c.SilentlyRemovedBy segment ↔
        segment.payload ≠ [] ∨ segment.flags.fin = true := by
      simp only [SilentlyRemovedBy, hlast, hack, reduceCtorEq, false_and, false_or, true_and]
      exact ⟨fun h => h.2, fun h => ⟨⟨options, hproc⟩, h⟩⟩
    rw [hsilent]
    constructor
    · intro hsignal
      have := hsignal.closed rfl hproc.rst
      rw [hclosed] at this
      simpa using this
    · intro hbare
      refine ⟨fun _ hrst => ?_, fun _ _ => ?_, fun hne => absurd rfl hne⟩
      · simp [hproc.rst] at hrst
      · rw [hclosed]
        simpa using hbare
  · rw [eraseIfRemoved_of_kept hkept]
    rw [hafter, Bool.and_false] at hclosed
    refine iff_of_true (.of_kept hout.reset hclosed) ?_
    rintro (⟨-, hrst, -⟩ | ⟨hstate, -⟩ | ⟨hlast, -, hack, -⟩)
    · simp [hproc.rst] at hrst
    · exact hwait hstate
    · exact absurd ((hremoval.2 ⟨hlast, hack⟩).symm.trans hafter) (by simp)

theorem removalSignalled_synchronized (h : Synced S u c) (hwait : c.state ≠ .timeWait)
    (memory : ℕ → Byte) :
    RemovalSignalled segment (eraseIfRemoved (handleSynchronized memory key c segment now)).1
        (handleSynchronized memory key c segment now).2 ↔
      ¬ c.SilentlyRemovedBy segment := by
  have hsync := h.synchronized
  have hnotSyn : c.state ≠ .synReceived := by
    rintro hstate
    rw [hstate] at hsync
    exact absurd hsync (by simp [TcpState.synchronized])
  have hcases := handleSynchronized_cases memory key c segment now
  generalize handleSynchronized memory key c segment now = outcome at hcases ⊢
  cases hcases with
  | dropped reply _ _ hnot =>
    rw [eraseIfRemoved_of_kept h.removal]
    refine iff_of_true (.of_kept rfl rfl) ?_
    rintro (⟨hstate, -⟩ | ⟨hstate, -⟩ | ⟨-, ⟨options, hproc⟩, -⟩)
    · exact hnotSyn hstate
    · exact hwait hstate
    · exact hnot options hproc
  | reset options _ hrst =>
    rw [eraseIfRemoved_of_removed rfl]
    refine iff_of_true ((removalSignalled_of_reset hrst).2 rfl) ?_
    rintro (⟨hstate, -⟩ | ⟨hstate, -⟩ | ⟨-, ⟨options, hproc⟩, -⟩)
    · exact hnotSyn hstate
    · exact hwait hstate
    · simp [hproc.rst] at hrst
  | processed options outcome hproc hout => exact removalSignalled_processed h hwait hproc hout

theorem removalSignalled_timeWait (h : Synced S u c) (hwait : c.state = .timeWait) :
    RemovalSignalled segment (eraseIfRemoved (handleTimeWait key c segment now)).1
        (handleTimeWait key c segment now).2 ↔
      ¬ c.SilentlyRemovedBy segment := by
  have hsilent : c.SilentlyRemovedBy segment ↔
      segment.flags.rst = true ∧ segment.sequenceNumber = c.rcvNxt := by
    simp [SilentlyRemovedBy, hwait]
  rw [hsilent]
  have hcases := handleTimeWait_cases key c segment now
  generalize handleTimeWait key c segment now = outcome at hcases ⊢
  cases hcases with
  | dropped hnot =>
    rw [eraseIfRemoved_of_kept h.removal]
    exact iff_of_true (.of_kept rfl rfl) hnot
  | reset hrst hseq =>
    rw [eraseIfRemoved_of_removed rfl, removalSignalled_of_reset hrst]
    exact iff_of_false (by simp) fun hnot => hnot ⟨hrst, hseq⟩
  | restarted deadline hrst =>
    rw [eraseIfRemoved_of_kept h.removal]
    refine iff_of_true (.of_kept rfl rfl) ?_
    rw [hrst]
    exact fun h => absurd h.1 (by simp)

theorem removalSignalled_synSent (h : SynSentOk c) :
    RemovalSignalled segment (eraseIfRemoved (handleSynSent key c segment now)).1
        (handleSynSent key c segment now).2 ↔
      ¬ c.SilentlyRemovedBy segment := by
  have hstate : c.state = .synSent := congrArg ControlView.state h.control
  have hnot : ¬ c.SilentlyRemovedBy segment := by simp [SilentlyRemovedBy, hstate]
  refine iff_of_true ?_ hnot
  have hcases := handleSynSent_cases key c segment now
  generalize handleSynSent key c segment now = outcome at hcases ⊢
  cases hcases with
  | dropped =>
    rw [eraseIfRemoved_of_kept (congrArg ControlView.pendingRemoval h.control)]
    exact .of_kept rfl rfl
  | reset hrst =>
    rw [eraseIfRemoved_of_removed rfl]
    exact (removalSignalled_of_reset hrst).2 rfl
  | established options reply hoptions _ _ _ _ _ hack =>
    obtain ⟨hfresh, -⟩ := establishedWith_fresh h now hoptions hack
    rw [eraseIfRemoved_of_kept hfresh.synced.removal]
    exact .of_kept rfl rfl

theorem removalSignalled_synReceived (h : SynReceivedOk c) :
    RemovalSignalled segment (handleSynReceived key c segment now).1
        (handleSynReceived key c segment now).2 ↔
      ¬ c.SilentlyRemovedBy segment := by
  have hstate : c.state = .synReceived := congrArg ControlView.state h.control
  have hsilent : c.SilentlyRemovedBy segment ↔
      segment.flags.rst = true ∧ segment.sequenceNumber = c.remoteIsn + 1 := by
    simp [SilentlyRemovedBy, hstate]
  rw [hsilent]
  have hcases := handleSynReceived_cases key c segment now
  generalize handleSynReceived key c segment now = outcome at hcases ⊢
  cases hcases with
  | dropped hnot => exact iff_of_true (.of_kept rfl rfl) hnot
  | reset hrst hseq =>
    rw [removalSignalled_of_reset hrst]
    exact iff_of_false (by simp) fun hnot => hnot ⟨hrst, hseq⟩
  | resent c' hrst _ | completed hrst _ _ _ _ =>
    refine iff_of_true (.of_kept rfl rfl) ?_
    rw [hrst]
    exact fun h => absurd h.1 (by simp)

theorem handleExisting_closed (hok : ConnOk h c) (memory : ℕ → Byte)
    (hclosed : (handleExisting memory key c segment now).2.connectionClosed = true) :
    c.state = .lastAck ∧ segment.flags.syn = false ∧ segment.acknowledgmentNumber = c.sndNxt := by
  cases hok with
  | halfOpen hopen =>
    rcases hopen with hsent | hreceived
    · rw [handleExisting_of_synSent memory key segment now
        (congrArg ControlView.state hsent.control)] at hclosed
      have hcases := handleSynSent_cases key c segment now
      generalize handleSynSent key c segment now = outcome at hcases hclosed
      cases hcases <;> cases hclosed
    · rw [handleExisting_of_synReceived memory key segment now
        (congrArg ControlView.state hreceived.control)] at hclosed
      have hcases := handleSynReceived_cases key c segment now
      generalize handleSynReceived key c segment now = outcome at hcases hclosed
      cases hcases <;> cases hclosed
  | synced u hsynced =>
    by_cases hwait : c.state = .timeWait
    · rw [handleExisting_of_timeWait memory key segment now hwait] at hclosed
      have hcases := handleTimeWait_cases key c segment now
      generalize handleTimeWait key c segment now = outcome at hcases hclosed
      cases hcases <;> cases hclosed
    · rw [handleExisting_of_synchronized memory key segment now hsynced.synchronized hwait]
        at hclosed
      have hcases := handleSynchronized_cases memory key c segment now
      generalize handleSynchronized memory key c segment now = outcome at hcases hclosed
      cases hcases with
      | dropped reply _ _ _ | reset options _ _ _ _ => exact absurd hclosed (by simp)
      | processed options outcome hproc hout =>
        have hremoval : (afterAck key c segment options now).pendingRemoval = true := by
          have := hout.closed.symm.trans hclosed
          simp only [Bool.and_eq_true] at this
          exact this.2
        obtain ⟨hlast, hack⟩ := (afterAck_pendingRemoval hsynced key hproc now).1 hremoval
        exact ⟨hlast, hproc.syn, hack⟩

end Signals

/-- **Which removals are signalled.** -/
theorem removal_signalled_iff {s : Traced} (hs : Reachable s) {key : TcpConnectionKey}
    {c : Connection} (hc : s.table.find? key = some c) (memory : ℕ → Byte) (segment : TcpSegment)
    (now : TimePoint) :
    RemovalSignalled segment ((s.table.handle memory key segment now).1.find? key)
        (s.table.handle memory key segment now).2 ↔
      ¬ c.SilentlyRemovedBy segment := by
  rw [handle_of_some hc, find?_put, if_pos rfl]
  cases (Run.connInv hs hc).ok with
  | halfOpen hopen =>
      rcases hopen with hsent | hreceived
      · have hstate : c.state = .synSent := congrArg ControlView.state hsent.control
        rw [handleExisting_of_synSent memory key segment now hstate]
        exact removalSignalled_synSent hsent
      · have hstate : c.state = .synReceived := congrArg ControlView.state hreceived.control
        rw [handleExisting_of_synReceived memory key segment now hstate]
        exact removalSignalled_synReceived hreceived
  | synced u hsynced =>
      by_cases hwait : c.state = .timeWait
      · rw [handleExisting_of_timeWait memory key segment now hwait]
        exact removalSignalled_timeWait hsynced hwait
      · rw [handleExisting_of_synchronized memory key segment now hsynced.synchronized hwait]
        exact removalSignalled_synchronized hsynced hwait memory

/-- The peer closes first, then this side: LAST-ACK. -/
def exampleLastAck : List Op :=
  [.handle noMemory exampleKey (exampleFin 5001) 0, .beginClose exampleKey 0]

/-- A bare final acknowledgment removes the connection and says so. -/
theorem removal_signalled_example : ((exampleRun [] exampleLastAck).table.handle noMemory exampleKey
        { exampleSegment 5002 [] with acknowledgmentNumber := 1002 } 0).1.find? exampleKey = none ∧
      RemovalSignalled { exampleSegment 5002 [] with acknowledgmentNumber := 1002 }
        (((exampleRun [] exampleLastAck).table.handle noMemory exampleKey
          { exampleSegment 5002 [] with acknowledgmentNumber := 1002 } 0).1.find? exampleKey)
        ((exampleRun [] exampleLastAck).table.handle noMemory exampleKey
          { exampleSegment 5002 [] with acknowledgmentNumber := 1002 } 0).2 := by
  obtain ⟨c, hc, hgone⟩ := exampleRun_at [] exampleLastAck
    (fun _ c => (handleExisting noMemory exampleKey c
      { exampleSegment 5002 [] with acknowledgmentNumber := 1002 } 0).1 = none) (by decide +kernel)
  refine ⟨?_, (removal_signalled_iff (exampleRun_reachable _ _) hc noMemory _ 0).2 ?_⟩
  · rw [handle_of_some hc, find?_put, if_pos rfl]
    exact hgone
  · rintro (⟨-, hrst, -⟩ | ⟨-, hrst, -⟩ | ⟨-, -, -, hne | hfin⟩)
    · exact absurd hrst (by decide)
    · exact absurd hrst (by decide)
    · exact hne rfl
    · exact absurd hfin (by decide)

/-- The same acknowledgment on a retransmitted FIN removes the connection without a word. -/
theorem removal_not_signalled :
    ∃ c, (exampleRun [] exampleLastAck).table.find? exampleKey = some c ∧ c.state = .lastAck ∧
      ((exampleRun [] exampleLastAck).table.handle noMemory exampleKey
        { exampleFin 5001 with acknowledgmentNumber := 1002 } 0).1.find? exampleKey = none ∧
      ((exampleRun [] exampleLastAck).table.handle noMemory exampleKey
        { exampleFin 5001 with acknowledgmentNumber := 1002 } 0).2.connectionClosed = false ∧
      ((exampleRun [] exampleLastAck).table.handle noMemory exampleKey
        { exampleFin 5001 with acknowledgmentNumber := 1002 } 0).2.connectionReset = false := by
  obtain ⟨c, hc, hval⟩ := exampleRun_at [] exampleLastAck (fun _ c =>
    let outcome := handleExisting noMemory exampleKey c
      { exampleFin 5001 with acknowledgmentNumber := 1002 } 0
    c.state = .lastAck ∧ outcome.1 = none ∧ outcome.2.connectionClosed = false ∧
      outcome.2.connectionReset = false) (by decide +kernel)
  rw [handle_of_some hc, find?_put, if_pos rfl]
  exact ⟨c, hc, hval⟩

end Wirestack
