import Wirestack.Tcp.Congestion
import Wirestack.Tcp.Replay

set_option autoImplicit false

/-! # Scheduling: no stall, no overrun

Two sides of the scheduler. `NoStall` says that queued bytes always have a timer that will move them:
either something is in flight, or the persist timer runs; and a requested close waits only for queued
bytes or for a closed window. `NewlySequenced` says what the segments that one call puts into
sequence space look like: consecutive from the old `sndNxt`, within the MSS, the number of segments
per pass and both windows. -/

namespace Wirestack

open List TcpConnectionTable Connection

variable {draining : Bool} {fuel : ℕ} {segments fin : List TcpSegment} {S : List Byte} {h : History}
  {stop : SeqNum}

variable {c c' : Connection} {key : TcpConnectionKey} {now : TimePoint} {u : ℕ}
  {segment : TcpSegment} {options : TcpParsedOptions} {memory : ℕ → Byte} {fast : Option TcpSegment}
  {outcome : Connection × TcpReceiveResult} {e : Event} {data : List TcpSegment}

/-! ## The persist timer -/

theorem persistEligible_updatePersistState (c : Connection) (now : TimePoint) :
    (c.updatePersistState now).persistEligible = c.persistEligible := by
  rw [updatePersistState_shape]
  rfl

theorem updatePersistState_armed (c : Connection) (now : TimePoint) :
    (c.updatePersistState now).persistDeadline.isSome =
      (c.updatePersistState now).persistEligible := by
  rw [persistEligible_updatePersistState]
  unfold updatePersistState
  split_ifs with heligible hdeadline
  · simpa using heligible
  · simpa using heligible
  · simp only [Bool.not_eq_true, Bool.not_eq_false'] at heligible
    rw [heligible]
    simpa [Option.isSome_iff_ne_none] using hdeadline

theorem persistEligible_iff (c : Connection) : c.persistEligible = true ↔
      c.isSendable = true ∧ c.unsent ≠ [] ∧ c.sndWnd = 0 ∧ c.sndNxt = c.sndUna ∧
        c.localFinSeq = none := by
  unfold persistEligible isSendable
  simp [and_assoc]

theorem synchronized_of_sendable (h : c.isSendable = true) : c.state.synchronized = true := by
  unfold isSendable at h
  cases hstate : c.state <;> simp [hstate] at h <;> rfl

/-! ## No silent stall -/

structure NoStall (c : Connection) : Prop where
  timer : c.isSendable = true → c.unsent ≠ [] → c.pending ≠ [] ∨ c.persistDeadline.isSome = true
  armed : c.persistDeadline.isSome = c.persistEligible
  fin : c.closeRequested = true → c.localFinSeq = none → c.isSendable = true →
    c.unsent ≠ [] ∨ c.availableSendWindow = 0

/-- What a scheduling pass needs to know about the connection it starts from. -/
structure Schedulable (c : Connection) : Prop where
  sendable : c.isSendable = true
  fin : c.localFinSeq = none
  mss : 0 < c.effectiveSendMss.toNat
  cwnd : 0 < c.cwnd
  empty : c.pending = [] → c.sndNxt = c.sndUna

theorem cutSegments_ne_nil {seq : SeqNum} {bytes : List Byte} (hfuel : 0 < fuel)
    (hbytes : bytes ≠ []) : cutSegments key c draining fuel seq bytes ≠ [] := by
  cases fuel with
  | zero => exact absurd hfuel (lt_irrefl 0)
  | succ fuel =>
    rw [cutSegments, if_neg (by simpa using hbytes)]
    exact cons_ne_nil _ _

theorem Schedulable.sndWnd_eq_zero (h : Schedulable c) (hpending : c.pending = [])
    (hunsent : c.unsent ≠ []) (hallow : c.sendAllowance = 0) : c.sndWnd = 0 := by
  have hflight : c.flight = 0 := by
    rw [flight, h.empty hpending, BitVec.sub_self]
    rfl
  have hmss := h.mss
  have hcwnd := h.cwnd
  have hlen : 0 < c.unsent.length := length_pos_iff.2 hunsent
  unfold sendAllowance availableSendWindow availableCongestionWindow kMaxSegmentsPerSend at hallow
  rw [hflight] at hallow
  split_ifs at hallow <;> omega

section

variable (key : TcpConnectionKey) (now : TimePoint)

theorem sendQueued_of_zero (h : c.sendAllowance = 0) : sendQueued key c now = (c, []) := by
  unfold sendQueued
  rw [if_neg (by omega)]

theorem sendQueued_segments_ne_nil (h : c.sendAllowance ≠ 0) : (sendQueued key c now).2 ≠ [] := by
  have hle := sendAllowance_le c
  unfold sendQueued
  rw [if_pos (by omega)]
  refine cutSegments_ne_nil (by omega) ?_
  rw [← length_pos_iff, length_take]
  omega

theorem sendQueued_pending_ne_nil (h : c.sendAllowance ≠ 0) :
    (sendQueued key c now).1.pending ≠ [] := by
  have hsegments := sendQueued_segments_ne_nil key now h
  unfold sendQueued at hsegments ⊢
  dsimp only at hsegments ⊢
  rw [if_pos (by omega)] at hsegments ⊢
  simpa using fun _ => hsegments

end

theorem maybeSequenceFin_waits (hclose : c.closeRequested = true) (hunsent : c.unsent = [])
    (hfin : (maybeSequenceFin key c now segments).1.localFinSeq = none) :
    (maybeSequenceFin key c now segments).1 = c ∧ c.availableSendWindow = 0 := by
  unfold maybeSequenceFin at hfin ⊢
  rw [if_neg (by simp [hclose])] at hfin ⊢
  split_ifs at hfin ⊢ with hsome hne hwindow
  · simp [show c.localFinSeq = none from hfin] at hsome
  · simp [hunsent] at hne
  · exact ⟨rfl, by omega⟩

theorem NoStall.of_update (now : TimePoint)
    (htimer : c.isSendable = true → c.unsent ≠ [] → c.pending ≠ [] ∨ c.persistEligible = true)
    (hfin : c.closeRequested = true → c.localFinSeq = none → c.isSendable = true →
      c.unsent ≠ [] ∨ c.availableSendWindow = 0) : NoStall (c.updatePersistState now) := by
  have harmed := updatePersistState_armed c now
  have heligible := persistEligible_updatePersistState c now
  rw [updatePersistState_shape] at harmed heligible ⊢
  refine ⟨fun hsendable hunsent => ?_, harmed, hfin⟩
  rw [harmed, heligible]
  exact htimer hsendable hunsent

theorem maybeSequenceFin_of_unsent (key : TcpConnectionKey) (now : TimePoint)
    (segments : List TcpSegment) (h : c.unsent ≠ []) :
    maybeSequenceFin key c now segments = (c, segments) := by
  unfold maybeSequenceFin
  split_ifs with _ _ hempty
  · rfl
  · rfl
  · rfl
  · simp [h] at hempty
  · simp [h] at hempty
  · simp [h] at hempty

theorem scheduleQueuedData_eq (key : TcpConnectionKey) (c : Connection) (now : TimePoint) :
    scheduleQueuedData key c now = ((maybeSequenceFin key (sendQueued key c now).1 now
          (sendQueued key c now).2).1.updatePersistState now,
        (maybeSequenceFin key (sendQueued key c now).1 now (sendQueued key c now).2).2) := by
  unfold scheduleQueuedData
  generalize sendQueued key c now = sent
  obtain ⟨c₁, segments⟩ := sent
  dsimp only
  by_cases hempty : c₁.unsent.isEmpty = true
  · rw [if_pos hempty]
  · rw [if_neg hempty, maybeSequenceFin_of_unsent key now segments (by simpa using hempty)]

section

variable (key : TcpConnectionKey) (now : TimePoint) (segments : List TcpSegment)

theorem maybeSequenceFin_noStall
    (htimer : c.unsent ≠ [] → c.pending ≠ [] ∨ c.persistEligible = true) :
    NoStall ((maybeSequenceFin key c now segments).1.updatePersistState now) := by
  by_cases hunsent : c.unsent = []
  · have hclose : (maybeSequenceFin key c now segments).1.closeRequested = c.closeRequested := by
      rw [maybeSequenceFin_shape]
    have hqueue : (maybeSequenceFin key c now segments).1.unsent = [] := by
      rwa [maybeSequenceFin_shape]
    refine NoStall.of_update now (fun _ hne => absurd hqueue hne) fun hrequested hfin _ => .inr ?_
    obtain ⟨hsame, hwindow⟩ := maybeSequenceFin_waits (hclose.symm.trans hrequested) hunsent hfin
    rwa [hsame]
  · rw [maybeSequenceFin_of_unsent key now segments hunsent]
    exact NoStall.of_update now (fun _ _ => htimer hunsent) fun _ _ _ => .inl hunsent

theorem scheduleQueuedData_noStall (h : Schedulable c) :
    NoStall (scheduleQueuedData key c now).1 := by
  rw [scheduleQueuedData_eq]
  refine maybeSequenceFin_noStall key now _ fun hunsent => ?_
  by_cases hallow : c.sendAllowance = 0
  · rw [sendQueued_of_zero key now hallow] at hunsent ⊢
    by_cases hnil : c.pending = []
    · exact .inr ((persistEligible_iff c).2 ⟨h.sendable, hunsent,
        h.sndWnd_eq_zero hnil hunsent hallow, h.empty hnil, h.fin⟩)
    · exact .inl hnil
  · exact .inl (sendQueued_pending_ne_nil key now hallow)

theorem Schedulable.of_synced (h : Synced S u c) (hsendable : c.isSendable = true)
    (hcwnd : CongestionOk c) : Schedulable c where
  sendable := hsendable
  fin := h.localFinSeq_of_sendable hsendable
  mss := hcwnd.mss_pos
  cwnd := hcwnd.mss_pos.trans_le hcwnd.cwnd_ge
  empty := by
    intro hpending
    have htiled := h.send.tiled
    have hqueue : c.view.send.queue = [] := by simp [view, hpending]
    rw [hqueue] at htiled
    exact htiled.symm

theorem scheduleIfSendable_noStall (hremoval : c.pendingRemoval = false)
    (h : c.isSendable = true → Schedulable c) :
    NoStall (scheduleIfSendable key c now).1 := by
  rw [scheduleIfSendable, hremoval]
  by_cases hsendable : c.isSendable = true
  · rw [if_pos (by simpa [isSendable] using hsendable)]
    exact scheduleQueuedData_noStall key now (h hsendable)
  · rw [if_neg (by simpa [isSendable] using hsendable)]
    exact NoStall.of_update now (fun hyes => absurd hyes hsendable)
      fun _ _ hyes => absurd hyes hsendable

end

theorem NoStall.of_not_sendable (hsendable : c.isSendable = false)
    (hdeadline : c.persistDeadline = none) : NoStall c where
  timer := fun hyes => absurd hyes (by simp [hsendable])
  armed := by
    have hnot : c.persistEligible = false := by
      by_contra heligible
      have := ((persistEligible_iff c).1 (by simpa using heligible)).1
      simp [hsendable] at this
    rw [hdeadline, hnot]
    rfl
  fin := fun _ _ hyes => absurd hyes (by simp [hsendable])

theorem NoStall.of_nothing_queued (hunsent : c.unsent = []) (hclose : c.closeRequested = false)
    (hdeadline : c.persistDeadline = none) : NoStall c where
  timer := fun _ hne => absurd hunsent hne
  armed := by
    have hnot : c.persistEligible = false := by
      by_contra heligible
      exact ((persistEligible_iff c).1 (by simpa using heligible)).2.1 hunsent
    rw [hdeadline, hnot]
    rfl
  fin := fun hyes => absurd hyes (by simp [hclose])

theorem NoStall.deadline_of_halfOpen (h : NoStall c) (hopen : HalfOpen c) :
    c.persistDeadline = none := by
  have harmed := h.armed
  rw [hopen.not_persistEligible] at harmed
  simpa using harmed

theorem SendInv.unsent_of_empty {v : SendView} (h : SendInv [] u v) : v.unsent = [] := by
  have hlen := h.length_eq
  cases hfin : v.localFinSeq with
  | some f => exact (h.fin f hfin).2.1
  | none =>
    rw [hfin] at hlen
    simp only [length_nil, Option.isSome_none, Bool.false_eq_true, if_false] at hlen
    exact eq_nil_of_length_eq_zero (by omega)

theorem HalfOpen.closeRequested (h : HalfOpen c) : c.closeRequested = false := by
  rcases h with h | h
  · exact congrArg SendView.closeRequested h.send
  · obtain ⟨mss, -, hsend⟩ := h.send
    exact congrArg SendView.closeRequested hsend

theorem establishedWith_noStall (h : SynSentOk c) (hstall : NoStall c) (now : TimePoint)
    (hoptions : parseTcpOptions segment.options = .ok options)
    (hack : segment.acknowledgmentNumber = c.sndNxt) :
    NoStall (establishedWith c segment options now) := by
  have hfresh := (establishedWith_fresh h now hoptions hack).1
  have hfields : (establishedWith c segment options now).closeRequested = c.closeRequested ∧
      (establishedWith c segment options now).persistDeadline = c.persistDeadline := by
    rw [establishedWith_shape]
    unfold negotiate
    cases options.windowScale <;> exact ⟨rfl, rfl⟩
  exact .of_nothing_queued hfresh.synced.send.unsent_of_empty
    (hfields.1.trans (HalfOpen.closeRequested (.inl h)))
    (hfields.2.trans (hstall.deadline_of_halfOpen (.inl h)))

theorem completeHandshake_noStall (h : SynReceivedOk c) (hstall : NoStall c) (segment : TcpSegment)
    (now : TimePoint) : NoStall (completeHandshake c segment now) := by
  have hfresh := (completeHandshake_fresh h segment now).1
  have hfields : (completeHandshake c segment now).closeRequested = c.closeRequested ∧
      (completeHandshake c segment now).persistDeadline = c.persistDeadline := by
    rw [completeHandshake_shape]
    exact ⟨rfl, rfl⟩
  exact .of_nothing_queued hfresh.synced.send.unsent_of_empty
    (hfields.1.trans (HalfOpen.closeRequested (.inr h)))
    (hfields.2.trans (hstall.deadline_of_halfOpen (.inr h)))

theorem NoStall.processed (hsynced : Synced S u c) (hcwnd : CongestionOk c)
    (hproc : Processes c segment options)
    (hout : ProcessedOutcome memory key c segment options fast now outcome)
    (hkept : outcome.1.pendingRemoval = false) : NoStall outcome.1 := by
  obtain ⟨u', hpart⟩ := synced_of_processed hsynced hproc hout hkept
  rw [hout.connection]
  refine scheduleIfSendable_noStall key now hpart.removal fun hsendable => ?_
  refine .of_synced hpart hsendable ?_
  -- Neither the close transitions nor the receive side touch the congestion state.
  rw [receivePart_shape, afterAck, advanceClose_shape]
  exact (hcwnd.processAck key segment options now).congr rfl rfl rfl

theorem timedOutWith_shape (c : Connection) (oldest : PendingTransmission) :
    c.timedOutWith oldest = c.congestionAs (c.timedOutWith oldest) := by
  unfold timedOutWith
  split_ifs <;> rfl

theorem NoStall.step (hcwnd : c.state ≠ .synSent → CongestionOk c) (hstep : ConnStep h c e c')
    (hcall : CallKept key c e c') (hstall : NoStall c) : NoStall c' := by
  have hsynced : c.isSendable = true → ∃ u, Synced h.accepted u c := by
    intro hsendable
    obtain ⟨u, -, hsynced, -⟩ := hstep.synchronized (synchronized_of_sendable hsendable)
    exact ⟨u, hsynced⟩
  have hnotSent : c.isSendable = true → c.state ≠ .synSent := by
    intro hsendable hsent
    simp [isSendable, hsent] at hsendable
  cases hcall with
  | idle => exact hstall
  | handle memory segment now _ result hkept =>
    cases hkept with
    | ignored reply hreply => exact hstall
    | established options hstate hoptions _ _ hack =>
      exact establishedWith_noStall (hstep.synSentOk hstate) hstall now hoptions hack
    | resent hstate =>
      refine .of_not_sendable (by simp [isSendable, hstate]) ?_
      exact hstall.deadline_of_halfOpen (.inr (hstep.synReceivedOk hstate))
    | completed hstate =>
      exact completeHandshake_noStall (hstep.synReceivedOk hstate) hstall segment now
    | restarted hstate => exact ⟨hstall.timer, hstall.armed, hstall.fin⟩
    | processed options outcome hsync _ hproc hout hkept =>
      obtain ⟨u, -, hsynced, -⟩ := hstep.synchronized hsync
      refine .processed hsynced (hcwnd fun hsent => ?_) hproc hout hkept
      rw [hsent] at hsync
      cases hsync
  | sent payload now hsendable hopen hroom =>
    obtain ⟨u, hsynced⟩ := hsynced hsendable
    have hready := Schedulable.of_synced hsynced hsendable (hcwnd (hnotSent hsendable))
    refine scheduleQueuedData_noStall key now ?_
    exact ⟨hready.sendable, hready.fin, hready.mss, hready.cwnd, hready.empty⟩
  | closed now hsendable =>
    refine maybeSequenceFin_noStall key now [] fun hunsent => ?_
    have htimer := hstall.timer hsendable hunsent
    rwa [hstall.armed] at htimer
  | disarmed hnot =>
    refine ⟨fun hsendable hunsent => .inl ?_, ?_, hstall.fin⟩
    · refine (hstall.timer hsendable hunsent).resolve_right ?_
      rw [hstall.armed, hnot]
      exact Bool.false_ne_true
    · exact hnot.symm
  | probed deadline now _ _ heligible => exact ⟨fun _ _ => .inr rfl, heligible.symm, hstall.fin⟩
  | resent oldest rest now _ hpending =>
    refine ⟨fun hsendable hunsent => .inl ?_, ?_, ?_⟩
    · unfold timedOutWith applyTimeoutCongestionCollapse
      split_ifs <;> simp [hpending]
    · rw [timedOutWith_shape]
      exact hstall.armed
    · rw [timedOutWith_shape]
      exact hstall.fin

theorem Run.noStall {ok : Traced → Op → Prop} {s : Traced} (hs : Run ok s)
    (hc : s.table.find? key = some c) : NoStall c := by
  refine Run.connection_invariant NoStall ?_ ?_ ?_ hs hc
  · exact fun isn now => .of_not_sendable rfl rfl
  · intro segment options isn now hoptions
    have hopen : HalfOpen (acceptedWith segment options isn now) :=
      .inr (acceptedWith_ok segment isn now hoptions)
    refine .of_not_sendable hopen.not_sendable ?_
    unfold acceptedWith passiveConnection negotiate
    cases options.windowScale <;> rfl
  · intro s c e c' hrun hfind hstep hcall hstall
    exact hstall.step (hrun.congestionOk hfind) hstep hcall

/-- **No silent send stall** in any reachable connection. -/
theorem no_silent_stall {s : Traced} (hs : Reachable s) {key : TcpConnectionKey} {c : Connection}
    (hc : s.table.find? key = some c) :
    (c.state = .established ∨ c.state = .closeWait → c.unsent ≠ [] →
      c.pending ≠ [] ∨ c.persistDeadline.isSome = true) ∧
    (c.persistDeadline.isSome = true ↔ c.persistEligible = true) ∧
    (c.state = .established ∨ c.state = .closeWait → c.closeRequested = true →
      c.localFinSeq = none → c.unsent ≠ [] ∨ c.availableSendWindow = 0) := by
  have hstall := hs.noStall hc
  have hsendable : c.state = .established ∨ c.state = .closeWait → c.isSendable = true := by
    rintro (hstate | hstate) <;> simp [isSendable, hstate]
  refine ⟨fun hstate => hstall.timer (hsendable hstate), by rw [hstall.armed], ?_⟩
  exact fun hstate hclose hfin => hstall.fin hclose hfin (hsendable hstate)

/-- The peer closes its window before there is anything to send. -/
def exampleZeroWindow : List Op :=
  [.handle noMemory exampleKey { exampleSegment 5001 [] with windowSize := 0 } 0,
    .makeOutgoingData exampleKey [1, 2, 3] 0]

/-- Three bytes are queued with nothing in flight: only the persist timer can move them. -/
theorem no_silent_stall_example :
    ∃ c, (exampleRun [] exampleZeroWindow).table.find? exampleKey = some c ∧
      c.unsent = [1, 2, 3] ∧ c.pending = [] ∧ c.persistDeadline.isSome = true := by
  obtain ⟨c, hc, hstate, hunsent, hpending⟩ := exampleRun_at [] exampleZeroWindow
    (fun _ c => c.state = .established ∧ c.unsent = [1, 2, 3] ∧ c.pending = []) (by decide +kernel)
  have htimer := (no_silent_stall (exampleRun_reachable _ _) hc).1 (.inl hstate)
    (by rw [hunsent]; simp)
  exact ⟨c, hc, hunsent, hpending, htimer.resolve_left fun hne => hne hpending⟩

/-! ## What one call puts into sequence space -/

/-- Segments that follow one another without a gap, from `start` up to `stop`. -/
def Consecutive (start : SeqNum) : List TcpSegment → SeqNum → Prop
  | [], stop => start = stop
  | segment :: rest, stop => segment.sequenceNumber = start ∧ Consecutive segment.segmentEnd rest stop

/-- The segments of an event that carry newly sequenced bytes or a newly sequenced FIN. -/
def Event.sequenced : Event → List TcpSegment
  | .handle _ result => result.scheduled
  | .makeOutgoingData _ result => result.segments
  | .beginClose result => result.fin.toList
  | _ => []

/-- A call that turned `c` into `c'` sequenced the data segments `data`, which end at `stop`, and after
    them at most one FIN. -/
structure NewlySequenced (c c' : Connection) (data fin : List TcpSegment) (stop : SeqNum) : Prop where
  consecutive : Consecutive c.sndNxt data stop
  count : data.length ≤ kMaxSegmentsPerSend
  size : ∀ segment ∈ data, segment.flags.fin = false ∧ 1 ≤ segment.payload.length ∧
    segment.payload.length ≤ c'.effectiveSendMss.toNat
  window : data ≠ [] → (stop - c'.sndUna).toNat ≤ min c'.sndWnd c'.cwnd
  single : fin.length ≤ 1
  fin : ∀ segment ∈ fin, segment.flags.fin = true ∧ segment.payload = [] ∧
    segment.sequenceNumber = stop ∧ c'.unsent = [] ∧ c'.sndNxt = stop + 1 ∧
    (c'.sndNxt - c'.sndUna).toNat ≤ c'.sndWnd

theorem NewlySequenced.nothing (c c' : Connection) : NewlySequenced c c' [] [] c.sndNxt where
  consecutive := rfl
  count := Nat.zero_le _
  size := by simp
  window := fun hne => absurd rfl hne
  single := Nat.zero_le _
  fin := by simp

theorem Consecutive.of_tiled :
    ∀ {start stop : SeqNum}, Tiled start (segments.map TcpSegment.outstanding) stop →
    Consecutive start segments stop := by
  induction segments with
  | nil => exact fun h => h
  | cons segment rest ih =>
    intro start stop h
    refine ⟨h.1, ih ?_⟩
    have hend : segment.outstanding.sequenceEnd = segment.segmentEnd := by
      simp [Outstanding.sequenceEnd, Outstanding.span, TcpSegment.outstanding,
        TcpSegment.segmentEnd]
    rw [← hend]
    exact h.2

theorem cutSegments_size {key : TcpConnectionKey} {c : Connection} {draining : Bool}
    (hmss : 0 < c.effectiveSendMss.toNat) {segment : TcpSegment} {fuel : ℕ} :
    ∀ {seq : SeqNum} {bytes : List Byte}, segment ∈ cutSegments key c draining fuel seq bytes →
    segment.flags.fin = false ∧ 1 ≤ segment.payload.length ∧
      segment.payload.length ≤ c.effectiveSendMss.toNat := by
  induction fuel with
  | zero =>
    intro seq bytes hmem
    cases hmem
  | succ fuel ih =>
    intro seq bytes hmem
    rw [cutSegments] at hmem
    split at hmem
    · cases hmem
    · next hne =>
      have hlen : 0 < bytes.length := by
        rw [length_pos_iff]
        simpa using hne
      rcases mem_cons.1 hmem with rfl | hmem
      · refine ⟨rfl, ?_⟩
        simp only [dataSegment, length_take]
        omega
      · exact ih hmem

theorem length_cutSegments_le :
    ∀ {k : ℕ} {seq : SeqNum} {bytes : List Byte}, bytes.length ≤ k * c.effectiveSendMss.toNat →
    (cutSegments key c draining fuel seq bytes).length ≤ k := by
  induction fuel with
  | zero => exact fun _ => Nat.zero_le _
  | succ fuel ih =>
    intro k seq bytes hlen
    rw [cutSegments]
    split
    · exact Nat.zero_le _
    · next hne =>
      have hpos : 0 < bytes.length := by
        rw [length_pos_iff]
        simpa using hne
      cases k with
      | zero => omega
      | succ k =>
        rw [length_cons]
        refine Nat.succ_le_succ (ih ?_)
        rw [Nat.succ_mul] at hlen
        rw [length_drop]
        omega

theorem toNat_add_sub_le (a b : SeqNum) (n : ℕ) :
    (a + BitVec.ofNat 32 n - b).toNat ≤ (a - b).toNat + n := by
  have hcomm : a + BitVec.ofNat 32 n - b = (a - b) + BitVec.ofNat 32 n := by
    rw [BitVec.sub_eq_add_neg, BitVec.sub_eq_add_neg, BitVec.add_assoc, BitVec.add_assoc,
      BitVec.add_comm (BitVec.ofNat 32 n)]
  rw [hcomm, BitVec.toNat_add, BitVec.toNat_ofNat]
  omega

theorem sendQueued_sequenced (key : TcpConnectionKey) (now : TimePoint)
    (hmss : 0 < c.effectiveSendMss.toNat) :
    NewlySequenced c (sendQueued key c now).1 (sendQueued key c now).2 []
      (sendQueued key c now).1.sndNxt := by
  by_cases hallow : c.sendAllowance = 0
  · rw [sendQueued_of_zero key now hallow]
    exact .nothing c c
  · have hle := sendAllowance_le c
    have hlen : (c.unsent.take c.sendAllowance).length = c.sendAllowance := by
      rw [length_take]
      omega
    unfold sendQueued
    rw [if_pos (by omega)]
    obtain ⟨htiled, -⟩ := cutSegments_spec key c
      (c.sendAllowance == c.unsent.length && decide (c.sendAllowance > 0)) hmss c.sendAllowance
      c.sndNxt (c.unsent.take c.sendAllowance) hlen.le
    rw [hlen] at htiled
    constructor
    · exact .of_tiled htiled
    · refine length_cutSegments_le ?_
      rw [hlen]
      unfold sendAllowance
      omega
    · exact fun segment hmem => cutSegments_size hmss hmem
    · intro _
      have hgrow := toNat_add_sub_le c.sndNxt c.sndUna c.sendAllowance
      have hwindow : c.flight + c.sendAllowance ≤ min c.sndWnd c.cwnd := by
        unfold sendAllowance availableSendWindow availableCongestionWindow at hallow ⊢
        split_ifs at hallow ⊢ <;> omega
      exact hgrow.trans hwindow
    · exact Nat.zero_le _
    · simp

theorem maybeSequenceFin_sequenced (key : TcpConnectionKey) (c : Connection) (now : TimePoint)
    (segments : List TcpSegment) :
    maybeSequenceFin key c now segments = (c, segments) ∨
    c.unsent = [] ∧ c.flight < c.sndWnd ∧
      (maybeSequenceFin key c now segments).1.sndNxt = c.sndNxt + 1 ∧
      (maybeSequenceFin key c now segments).2 = segments ++ [makeFin key c] := by
  unfold maybeSequenceFin
  split
  · exact .inl rfl
  split
  · exact .inl rfl
  split
  · exact .inl rfl
  split
  · exact .inl rfl
  · next hunsent hwindow =>
    refine .inr ⟨by simpa using hunsent, ?_, rfl, rfl⟩
    unfold availableSendWindow at hwindow
    split_ifs at hwindow <;> omega

theorem NewlySequenced.sequenceFin {c₁ : Connection} (h : NewlySequenced c c₁ data [] c₁.sndNxt)
    (key : TcpConnectionKey) (now : TimePoint) :
    ∃ fin, (maybeSequenceFin key c₁ now data).2 = data ++ fin ∧
      NewlySequenced c (maybeSequenceFin key c₁ now data).1 data fin c₁.sndNxt := by
  rcases maybeSequenceFin_sequenced key c₁ now data with hsame | ⟨hunsent, hwindow, hnxt, hsegments⟩
  · rw [hsame]
    exact ⟨[], (append_nil data).symm, h⟩
  · refine ⟨[makeFin key c₁], hsegments, ?_⟩
    rw [maybeSequenceFin_shape]
    refine ⟨h.consecutive, h.count, h.size, h.window, le_rfl, fun segment hmem => ?_⟩
    rw [mem_singleton.1 hmem]
    refine ⟨rfl, rfl, rfl, hunsent, hnxt, ?_⟩
    have hgrow := toNat_add_sub_le c₁.sndNxt c₁.sndUna 1
    dsimp only
    rw [hnxt]
    exact hgrow.trans hwindow

theorem NewlySequenced.persist (h : NewlySequenced c c' data fin stop) (now : TimePoint) :
    NewlySequenced c (c'.updatePersistState now) data fin stop := by
  rw [updatePersistState_shape]
  exact ⟨h.consecutive, h.count, h.size, h.window, h.single, h.fin⟩

theorem scheduleQueuedData_sequenced (key : TcpConnectionKey) (now : TimePoint)
    (hmss : 0 < c.effectiveSendMss.toNat) :
    ∃ data fin stop, (scheduleQueuedData key c now).2 = data ++ fin ∧
      NewlySequenced c (scheduleQueuedData key c now).1 data fin stop := by
  obtain ⟨fin, hsegments, hsequenced⟩ := (sendQueued_sequenced key now hmss).sequenceFin key now
  rw [scheduleQueuedData_eq]
  exact ⟨_, fin, _, hsegments, hsequenced.persist now⟩

theorem NewlySequenced.congr {c₀ : Connection} (h : NewlySequenced c₀ c' data fin stop)
    (hnxt : c₀.sndNxt = c.sndNxt) : NewlySequenced c c' data fin stop :=
  ⟨by rw [← hnxt]; exact h.consecutive, h.count, h.size, h.window, h.single, h.fin⟩

theorem receivePart_afterAck (memory : ℕ → Byte) (key : TcpConnectionKey) (c : Connection)
    (segment : TcpSegment) (options : TcpParsedOptions) (now : TimePoint) :
    (receivePart memory (afterAck key c segment options now) segment now).connection.sndNxt =
        c.sndNxt ∧
      (receivePart memory (afterAck key c segment options now) segment now).connection.effectiveSendMss
        = c.effectiveSendMss := by
  rw [receivePart_shape, afterAck, advanceClose_shape, processAck_shape]
  exact ⟨rfl, rfl⟩

theorem ReceiveOutcome.sequenced (hmss : 0 < c.effectiveSendMss.toNat)
    (hout : ProcessedOutcome memory key c segment options fast now outcome) :
    ∃ data fin stop, outcome.2.scheduled = data ++ fin ∧
      NewlySequenced c outcome.1 data fin stop := by
  have hpart := receivePart_afterAck memory key c segment options now
  rw [hout.connection, hout.scheduled]
  generalize (receivePart memory (afterAck key c segment options now) segment now).connection = part
    at hpart
  unfold scheduleIfSendable
  split
  · obtain ⟨data, fin, stop, hsegments, hsequenced⟩ :=
      scheduleQueuedData_sequenced key now (by rw [hpart.2]; exact hmss)
    exact ⟨data, fin, stop, hsegments, hsequenced.congr hpart.1⟩
  · exact ⟨[], [], c.sndNxt, rfl, .nothing c _⟩

theorem head?_toList_of_length_le_one {α : Type} {l : List α} (h : l.length ≤ 1) :
    l.head?.toList = l := by
  cases l with
  | nil => rfl
  | cons a rest =>
    obtain rfl : rest = [] := eq_nil_of_length_eq_zero (by simpa using h)
    rfl

theorem CallKept.sequenced (hstep : ConnStep h c e c') (hcall : CallKept key c e c') :
    ∃ data fin stop, e.sequenced = data ++ fin ∧ NewlySequenced c c' data fin stop := by
  have hmss : c.state.synchronized = true → 0 < c.effectiveSendMss.toNat := by
    intro hsync
    obtain ⟨u, -, hsynced, -⟩ := hstep.synchronized hsync
    exact hsynced.send.mss
  cases hcall with
  | idle _ hemitted _ hreceived =>
    have hnone : e.sequenced = [] := by
      cases e with
      | handle segment result => cases hreceived
      | makeOutgoingData payload result | beginClose result =>
        exact (append_eq_nil_iff.1 hemitted).1
      | beginConnect result | pollPersistProbes probe | pollRetransmissions segment => rfl
    rw [hnone]
    exact ⟨[], [], c.sndNxt, rfl, .nothing c c⟩
  | handle memory segment now _ result hkept =>
    cases hkept with
    | ignored reply hreply => exact ⟨[], [], c.sndNxt, rfl, .nothing c c⟩
    | established options _ _ _ _ _ | resent _ _ _ _ | completed _ _ _ _ _ | restarted _ _ =>
      exact ⟨[], [], c.sndNxt, rfl, .nothing c _⟩
    | processed options outcome hsync' _ _ hout => exact hout.sequenced (hmss hsync')
  | sent payload now hsendable =>
    have hscheduled := scheduleQueuedData_sequenced key
      (c := { c with unsent := c.unsent ++ payload }) now (hmss (synchronized_of_sendable hsendable))
    generalize scheduleQueuedData key { c with unsent := c.unsent ++ payload } now = scheduled
      at hscheduled ⊢
    obtain ⟨data, fin, stop, hsegments, hsequenced⟩ := hscheduled
    exact ⟨data, fin, stop, hsegments, hsequenced.congr rfl⟩
  | closed now hsendable =>
    have hnothing : NewlySequenced c { c with closeRequested := true } [] [] c.sndNxt :=
      NewlySequenced.nothing c _
    obtain ⟨fin, hsegments, hsequenced⟩ := hnothing.sequenceFin key now
    refine ⟨[], fin, c.sndNxt, ?_, hsequenced.persist now⟩
    -- `beginClose` returns the first segment, which is the only one there can be.
    show (maybeSequenceFin key { c with closeRequested := true } now []).2.head?.toList = fin
    rw [hsegments, nil_append]
    exact head?_toList_of_length_le_one hsequenced.single
  | disarmed _ | probed _ _ _ _ _ | resent _ _ _ _ _ _ _ =>
    exact ⟨[], [], c.sndNxt, rfl, .nothing c _⟩

theorem ReceiveOutcome.scheduled_of_removed {c₂ : Connection} {part : Received}
    (hout : ReceiveOutcome key c₂ segment fast part now outcome)
    (hremoved : outcome.1.pendingRemoval = true) : outcome.2.scheduled = [] := by
  have hpart : part.connection.pendingRemoval = true := by
    rwa [hout.connection, scheduleIfSendable_shape] at hremoved
  rw [hout.scheduled, scheduleIfSendable_of_removal key now hpart]

theorem handleExisting_removed (h : (handleExisting memory key c segment now).1 = none) :
    (handleExisting memory key c segment now).2.scheduled = [] := by
  have hsynchronized : (eraseIfRemoved (handleSynchronized memory key c segment now)).1 = none →
      (eraseIfRemoved (handleSynchronized memory key c segment now)).2.scheduled = [] := by
    intro hnone
    rw [eraseIfRemoved_result]
    have hcases := handleSynchronized_cases memory key c segment now
    generalize handleSynchronized memory key c segment now = outcome at hcases hnone
    cases hcases with
    | dropped _ _ _ _ | reset _ _ _ _ _ => rfl
    | processed options _ _ hout =>
      refine hout.scheduled_of_removed ?_
      by_contra hkept
      simp [eraseIfRemoved_of_kept (by simpa using hkept)] at hnone
  unfold handleExisting at h ⊢
  split at h
  · have hcases := handleTimeWait_cases key c segment now
    rw [eraseIfRemoved_result]
    generalize handleTimeWait key c segment now = outcome at hcases
    cases hcases <;> rfl
  · have hcases := handleSynSent_cases key c segment now
    rw [eraseIfRemoved_result]
    generalize handleSynSent key c segment now = outcome at hcases
    cases hcases <;> rfl
  · have hcases := handleSynReceived_cases key c segment now
    generalize handleSynReceived key c segment now = outcome at hcases
    cases hcases <;> rfl
  · exact hsynchronized h

theorem KeyStep.removed_sequenced {listenPort : UInt16} (h : KeyStep listenPort key (some c) e none) :
    e.sequenced = [] := by
  rcases h.of_removed with ⟨memory, segment, now, hremoved, rfl⟩ | rfl
  · exact handleExisting_removed hremoved
  · rfl

/-- **New data stays within both windows, the MSS and the cap of a pass**, and a new FIN within the
    peer's window and behind all data, whatever call sequences them. -/
theorem newData_within_windows {s : Traced} (hs : Reachable s) {key : TcpConnectionKey}
    {c : Connection} (hc : s.table.find? key = some c) {op : Op} {e : Event}
    (he : s.table.eventFor key op = some e) :
    (∀ c', (s.table.apply op).find? key = some c' →
      ∃ data fin stop, e.sequenced = data ++ fin ∧ NewlySequenced c c' data fin stop) ∧
    ((s.table.apply op).find? key = none → e.sequenced = []) := by
  have hok := (Run.connInv hs hc).ok
  have hstep : KeyStep s.table.listenPort key (some c) e ((s.table.apply op).find? key) :=
    Traced.step_of_event hc he
  generalize (s.table.apply op).find? key = after at hstep
  constructor
  · rintro c' rfl
    exact hstep.kept.sequenced (hok.step hstep)
  · rintro rfl
    exact hstep.removed_sequenced

/-- With an MSS of one byte ten of the fifteen bytes go out, and the close waits for the rest. -/
def exampleClosingBacklog : List Op :=
  [.makeOutgoingData exampleKey [1, 2, 3, 4, 5, 6, 7, 8, 9, 10, 11, 12, 13, 14, 15] 0,
    .beginClose exampleKey 0]

/-- The acknowledgment of all ten. -/
def exampleTenAcked : TcpSegment := { exampleSegment 5001 [] with acknowledgmentNumber := 1011 }

/-- It lets the last five bytes out, and the FIN behind them. -/
theorem newData_within_windows_example : ∃ c c' e data fin stop,
      (exampleRun [2, 4, 0, 1] exampleClosingBacklog).table.find? exampleKey = some c ∧
      (exampleRun [2, 4, 0, 1] exampleClosingBacklog).table.eventFor exampleKey
        (.handle noMemory exampleKey exampleTenAcked 0) = some e ∧
      ((exampleRun [2, 4, 0, 1] exampleClosingBacklog).table.apply
        (.handle noMemory exampleKey exampleTenAcked 0)).find? exampleKey = some c' ∧
      e.sequenced.length = 6 ∧ e.sequenced = data ++ fin ∧ NewlySequenced c c' data fin stop := by
  obtain ⟨c, hc, hval⟩ := exampleRun_at [2, 4, 0, 1] exampleClosingBacklog
    (fun _ c => (handleExisting noMemory exampleKey c exampleTenAcked 0).1.isSome = true ∧
      (handleExisting noMemory exampleKey c exampleTenAcked 0).2.scheduled.length = 6)
      (by decide +kernel)
  obtain ⟨c', hkept⟩ := Option.isSome_iff_exists.1 hval.1
  have hhandle := handle_of_some hc noMemory exampleTenAcked 0
  have hevent : (exampleRun [2, 4, 0, 1] exampleClosingBacklog).table.eventFor exampleKey
      (.handle noMemory exampleKey exampleTenAcked 0) =
      some (.handle exampleTenAcked (handleExisting noMemory exampleKey c exampleTenAcked 0).2) := by
    rw [eventFor, if_pos rfl, hhandle]
  have hc' : ((exampleRun [2, 4, 0, 1] exampleClosingBacklog).table.apply
      (.handle noMemory exampleKey exampleTenAcked 0)).find? exampleKey = some c' := by
    rw [apply, hhandle, find?_put, if_pos rfl, hkept]
  obtain ⟨data, fin, stop, hsplit, hsequenced⟩ :=
    (newData_within_windows (exampleRun_reachable _ _) hc hevent).1 c' hc'
  exact ⟨c, c', _, data, fin, stop, hc, hevent, hc', hval.2, hsplit, hsequenced⟩

end Wirestack
