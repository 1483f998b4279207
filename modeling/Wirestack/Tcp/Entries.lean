import Mathlib.Logic.Relation
import Wirestack.Tcp.Transitions

set_option autoImplicit false

/-! # How a call rewrites the retransmission queue

Every stage of every call takes the queue entries it finds, drops some, changes the bookkeeping of
others in one of a few ways (`EntryUpdate`), and may append fresh ones. `Rewrites` is that relation
between two queues, and `CallKept.rewrites` says that each call which keeps the connection is one.
A property of entries is then an invariant of the queue as soon as the updates keep it and fresh
entries have it (`Rewrites.all_of`).

The one change that is not an update is the SACK mark: it depends on what the peer reports, and
`afterRetire` is the point at which it is made. -/

namespace Wirestack

open List Connection

variable {g : PendingTransmission → PendingTransmission}

inductive EntryUpdate : PendingTransmission → PendingTransmission → Prop where
  | trimmed (e : PendingTransmission) (ack : SeqNum) : EntryUpdate e (e.trimTo ack)
  | sampled (e : PendingTransmission) : EntryUpdate e { e with rttSampleTaken := true }
  | sentAgain (e : PendingTransmission) (now : TimePoint) :
      EntryUpdate e { e with lastSentAt := now }
  | recovered (e : PendingTransmission) (now : TimePoint) :
      EntryUpdate e
        { e with wasRetransmitted := true, retransmittedInRecovery := true, lastSentAt := now }
  | cleared (e : PendingTransmission) : EntryUpdate e { e with retransmittedInRecovery := false }
  | collapsed (e : PendingTransmission) :
      EntryUpdate e { e with sacked := false, retransmittedInRecovery := false }
  | backedOff (e : PendingTransmission) (now : TimePoint) : EntryUpdate e (e.backOff now)

/-- An entry as it is queued: unmarked, and timed by the connection's retransmission timeout. -/
structure Fresh (rto : Duration) (e : PendingTransmission) : Prop where
  timeoutInterval : e.timeoutInterval = rto
  sacked : e.sacked = false

structure Rewrites (rto : Duration) (p q : List PendingTransmission) : Prop where
  source : ∀ e' ∈ q, ∃ e, (e ∈ p ∨ Fresh rto e) ∧ Relation.ReflTransGen EntryUpdate e e'

namespace Rewrites

variable {rto : Duration} {p q r : List PendingTransmission}

theorem of_subset (h : ∀ e ∈ q, e ∈ p) : Rewrites rto p q :=
  ⟨fun e he => ⟨e, .inl (h e he), .refl⟩⟩

theorem refl (p : List PendingTransmission) : Rewrites rto p p := of_subset fun _ he => he

theorem nil (p : List PendingTransmission) : Rewrites rto p [] := of_subset fun _ he => nomatch he

theorem trans (h : Rewrites rto p q) (h' : Rewrites rto q r) : Rewrites rto p r := by
  refine ⟨fun e'' he'' => ?_⟩
  obtain ⟨e', he' | hfresh, hafter⟩ := h'.source e'' he''
  · obtain ⟨e, he, hbefore⟩ := h.source e' he'
    exact ⟨e, he, hbefore.trans hafter⟩
  · exact ⟨e', .inr hfresh, hafter⟩

theorem append (h : Rewrites rto p q) (hnew : ∀ e ∈ r, Fresh rto e) : Rewrites rto p (q ++ r) := by
  refine ⟨fun e he => ?_⟩
  rcases mem_append.1 he with he | he
  · exact h.source e he
  · exact ⟨e, .inr (hnew e he), .refl⟩

theorem tail {e : PendingTransmission} (h : Rewrites rto p q) : Rewrites rto (e :: p) q :=
  (of_subset fun _ he => mem_cons_of_mem e he : Rewrites rto (e :: p) p).trans h

theorem of_mem (hg : ∀ e, EntryUpdate e (g e)) (hmem : ∀ e' ∈ q, e' ∈ p ∨ ∃ e ∈ p, e' = g e) :
    Rewrites rto p q := by
  refine ⟨fun e' he' => ?_⟩
  rcases hmem e' he' with he | ⟨e, he, rfl⟩
  · exact ⟨e', .inl he, .refl⟩
  · exact ⟨e, .inl he, .single (hg e)⟩

theorem map (hg : ∀ e, EntryUpdate e (g e)) : Rewrites rto p (p.map g) := by
  refine of_mem hg fun e' he' => .inr ?_
  obtain ⟨e, he, rfl⟩ := mem_map.1 he'
  exact ⟨e, he, rfl⟩

theorem modify (hg : ∀ e, EntryUpdate e (g e)) (i : ℕ) : Rewrites rto p (p.modify i g) := by
  refine of_mem hg fun e' he' => ?_
  obtain ⟨j, hj⟩ := mem_iff_getElem?.1 he'
  rw [getElem?_modify] at hj
  obtain ⟨e, he, rfl⟩ := Option.map_eq_some_iff.1 hj
  have hmem := mem_of_getElem? he
  split
  · exact .inr ⟨e, hmem, rfl⟩
  · exact .inl hmem

theorem modifyHead (hg : ∀ e, EntryUpdate e (g e)) : Rewrites rto p (p.modifyHead g) := by
  refine of_mem hg fun e' he' => ?_
  cases p with
  | nil => cases he'
  | cons e rest =>
    rcases mem_cons.1 he' with rfl | he'
    · exact .inr ⟨e, mem_cons_self .., rfl⟩
    · exact .inl (mem_cons_of_mem _ he')

theorem all_of {P : PendingTransmission → Prop} (h : Rewrites rto p q)
    (hupdate : ∀ e e', EntryUpdate e e' → P e → P e') (hfresh : ∀ e, Fresh rto e → P e)
    (hp : ∀ e ∈ p, P e) : ∀ e ∈ q, P e := by
  intro e' he'
  obtain ⟨e, hsource, hchain⟩ := h.source e' he'
  have hstart : P e := hsource.elim (hp e) (hfresh e)
  clear he'
  induction hchain with
  | refl => exact hstart
  | tail _ hstep ih => exact hupdate _ _ hstep ih

end Rewrites

/-! ## Acknowledgment processing -/

section Stages

variable {rto : Duration}

theorem retireEntries_rewrites (ack : SeqNum) (pending : List PendingTransmission) :
    ∀ (dataBytes : ℕ) (sample : Option TimePoint),
    Rewrites rto pending (retireEntries ack pending dataBytes sample).pending := by
  induction pending with
  | nil => exact fun _ _ => Rewrites.nil []
  | cons e rest ih =>
    intro dataBytes sample
    rw [retireEntries]
    generalize (if e.rttEligible then some e.firstSentAt else sample) = sample'
    split_ifs
    · exact (ih _ _).tail
    · exact Rewrites.modifyHead (p := e :: rest) fun e => .trimmed e ack
    · exact Rewrites.refl _

theorem markSampled_rewrites (pending : List PendingTransmission) :
    Rewrites rto pending (markSampled pending) := by
  cases pending with
  | nil => exact Rewrites.nil []
  | cons e rest => exact Rewrites.modifyHead (p := e :: rest) fun e => .sampled e

theorem retireAcknowledged_pending (c : Connection) (ack : SeqNum) (now : TimePoint) :
    (retireAcknowledged c ack now).1.pending = c.pending ∨
    (retireAcknowledged c ack now).1.pending = (retireEntries ack c.pending 0 none).pending ∨
    (retireAcknowledged c ack now).1.pending =
      markSampled (retireEntries ack c.pending 0 none).pending := by
  unfold retireAcknowledged
  generalize retireEntries ack c.pending 0 none = loop
  split_ifs with hgt
  · exact .inl rfl
  · right
    dsimp only
    cases loop.sampleFirstSent with
    | none => exact .inl rfl
    | some firstSent =>
      dsimp only
      by_cases hpast : firstSent ≤ now
      · rw [if_pos hpast]
        cases hsurvivor : loop.survivorSampled with
        | true => exact .inr rfl
        | false => exact .inl rfl
      · rw [if_neg hpast]
        exact .inl rfl

theorem retireAcknowledged_rewrites (rto : Duration) (c : Connection) (ack : SeqNum)
    (now : TimePoint) : Rewrites rto c.pending (retireAcknowledged c ack now).1.pending := by
  have hloop : Rewrites rto c.pending (retireEntries ack c.pending 0 none).pending :=
    retireEntries_rewrites ack c.pending 0 none
  rcases retireAcknowledged_pending c ack now with h | h | h
  · rw [h]
    exact Rewrites.refl _
  · rwa [h]
  · rw [h]
    exact hloop.trans (markSampled_rewrites _)

section

variable (memory : ℕ → Byte) (pending : List PendingTransmission) (key : TcpConnectionKey)
  (c : Connection) (ack : SeqNum) (retired : TcpAckRetirementResult) (segment : TcpSegment)
  (windowChanged : Bool) (options : TcpParsedOptions) (now : TimePoint)

theorem establishedWith_rewrites :
    Rewrites rto c.pending (establishedWith c segment options now).pending := by
  unfold establishedWith
  have hnegotiate : ∀ c₁ : Connection, (c₁.negotiate options).pending = c₁.pending := by
    intro c₁
    unfold negotiate
    split <;> rfl
  have hretire := retireAcknowledged_rewrites rto { negotiate { c with
          remoteIsn := segment.sequenceNumber
          remoteIsnKnown := true
          rcvNxt := segment.sequenceNumber + 1 } options with
      state := .established } segment.acknowledgmentNumber now
  rwa [hnegotiate] at hretire

theorem completeHandshake_rewrites :
    Rewrites rto c.pending (completeHandshake c segment now).pending :=
  retireAcknowledged_rewrites rto { c with
      state := .established
      rcvNxt := c.remoteIsn + 1
      sndUna := c.localIsn
      sndNxt := c.localIsn + 1 } (c.localIsn + 1) now

theorem retransmitForRecovery_rewrites {pending : List PendingTransmission}
    (h : c.pending = pending) :
    Rewrites rto pending (retransmitForRecovery key c now).1.pending := by
  rw [← h]
  unfold retransmitForRecovery
  split
  · exact Rewrites.refl _
  · next index entry _ => exact Rewrites.modify (fun e => .recovered e now) index

theorem clearRecoveryMarks_rewrites :
    Rewrites rto pending (clearRecoveryMarks pending) := Rewrites.map .cleared

theorem onAdvancingAck_rewrites :
    Rewrites rto c.pending (onAdvancingAck key c ack retired now).1.pending := by
  unfold onAdvancingAck
  by_cases hrecovery : c.inFastRecovery = true
  · rw [if_pos hrecovery]
    split
    · exact clearRecoveryMarks_rewrites ..
    · exact retransmitForRecovery_rewrites key _ now rfl
  · rw [if_neg hrecovery]
    unfold applyCongestionGrowth
    split_ifs
    · exact Rewrites.refl _
    · exact Rewrites.refl _
    · exact Rewrites.refl _

theorem onStandingAck_rewrites :
    Rewrites rto c.pending (onStandingAck key c segment windowChanged now).1.pending := by
  unfold onStandingAck
  dsimp only
  split
  · by_cases hrecovery : c.inFastRecovery = true
    · rw [if_pos hrecovery]
      split
      · exact retransmitForRecovery_rewrites key _ now rfl
      · exact Rewrites.refl _
    · rw [if_neg hrecovery]
      split
      · exact (clearRecoveryMarks_rewrites c.pending).trans
          (retransmitForRecovery_rewrites key _ now rfl)
      · exact Rewrites.refl _
  · split
    · exact Rewrites.refl _
    · exact Rewrites.refl _

theorem processAck_rewrites : Rewrites rto (afterRetire c segment options now).pending
      (processAck key c segment options now).1.pending := by
  have hwindow : ((afterRetire c segment options now).updateSendWindow segment).pending =
      (afterRetire c segment options now).pending := by
    rw [updateSendWindow_shape]
  rw [processAck_eq, ← hwindow]
  split
  · exact onAdvancingAck_rewrites ..
  · exact onStandingAck_rewrites ..

/-! ## The rest of a call -/

theorem advanceClose_pending_cases :
    (c.advanceClose now).pending = c.pending ∨ (c.advanceClose now).pending = [] := by
  have hcases := advanceClose_cases c now
  generalize c.advanceClose now = c' at hcases ⊢
  cases hcases with
  | stay | finWait2 _ => exact .inl rfl
  | timeWait => exact .inr rfl
  | remove => exact .inl rfl

theorem receivePart_pending_cases :
    (receivePart memory c segment now).connection.pending = c.pending ∨
      (receivePart memory c segment now).connection.pending = [] := by
  obtain ⟨_, _, hreceived⟩ := receivedWith_eq memory c segment
  have hcases := receivePart_cases memory c segment now
  generalize receivePart memory c segment now = part at hcases ⊢
  rw [hreceived] at hcases
  cases hcases with
  | ignored _ | stored _ _ _ => exact .inl rfl
  | consumed =>
    unfold peerFinTransition
    split
    · exact .inl rfl
    · exact .inl rfl
    · exact .inr rfl
    · exact .inl rfl

theorem advanceClose_rewrites : Rewrites rto c.pending (c.advanceClose now).pending := by
  rcases advanceClose_pending_cases c now with h | h
  · rw [h]
    exact Rewrites.refl _
  · rw [h]
    exact Rewrites.nil _

theorem receivePart_rewrites :
    Rewrites rto c.pending (receivePart memory c segment now).connection.pending := by
  rcases receivePart_pending_cases memory c segment now with h | h
  · rw [h]
    exact Rewrites.refl _
  · rw [h]
    exact Rewrites.nil _

theorem updatePersistState_pending : (c.updatePersistState now).pending = c.pending := by
  rw [updatePersistState_shape]

end

end Stages

section

variable (key : TcpConnectionKey) (c : Connection) (now : TimePoint) (segments : List TcpSegment)

theorem sendQueued_rewrites : Rewrites c.currentRto c.pending (sendQueued key c now).1.pending := by
  unfold sendQueued
  dsimp only
  split_ifs
  · refine (Rewrites.refl _).append fun e he => ?_
    obtain ⟨segment, -, rfl⟩ := mem_map.1 he
    exact ⟨rfl, rfl⟩
  · exact Rewrites.refl _

theorem maybeSequenceFin_rewrites :
    Rewrites c.currentRto c.pending (maybeSequenceFin key c now segments).1.pending := by
  unfold maybeSequenceFin
  split
  · exact Rewrites.refl _
  split
  · exact Rewrites.refl _
  split
  · exact Rewrites.refl _
  split
  · exact Rewrites.refl _
  refine (Rewrites.refl _).append fun e he => ?_
  rw [mem_singleton.1 he]
  exact ⟨rfl, rfl⟩

theorem scheduleQueuedData_rewrites :
    Rewrites c.currentRto c.pending (scheduleQueuedData key c now).1.pending := by
  have hsent := sendQueued_rewrites key c now
  have hrto : (sendQueued key c now).1.currentRto = c.currentRto := by rw [sendQueued_shape]
  unfold scheduleQueuedData
  rw [updatePersistState_pending]
  split
  · have hfin := maybeSequenceFin_rewrites key (sendQueued key c now).1 now (sendQueued key c now).2
    rw [hrto] at hfin
    exact hsent.trans hfin
  · exact hsent

theorem scheduleIfSendable_rewrites :
    Rewrites c.currentRto c.pending (scheduleIfSendable key c now).1.pending := by
  unfold scheduleIfSendable
  split
  · exact scheduleQueuedData_rewrites ..
  · dsimp only
    rw [updatePersistState_pending]
    exact Rewrites.refl _

end

theorem ReceiveOutcome.rewrites {memory : ℕ → Byte} {key : TcpConnectionKey} {c : Connection}
    {segment : TcpSegment} {options : TcpParsedOptions} {fast : Option TcpSegment} {now : TimePoint}
    {outcome : Connection × TcpReceiveResult}
    (hout : ProcessedOutcome memory key c segment options fast now outcome) :
    Rewrites outcome.1.currentRto (afterRetire c segment options now).pending
      outcome.1.pending := by
  have hrto : outcome.1.currentRto =
      (receivePart memory (afterAck key c segment options now) segment now).connection.currentRto := by
    rw [hout.connection, scheduleIfSendable_shape]
  rw [hrto, hout.connection]
  exact (processAck_rewrites ..).trans ((advanceClose_rewrites ..).trans
    ((receivePart_rewrites ..).trans (scheduleIfSendable_rewrites ..)))

theorem CallKept.rewrites {key : TcpConnectionKey} {c c' : Connection} {e : Event}
    (h : CallKept key c e c') :
    Rewrites c'.currentRto c.pending c'.pending ∨
    ∃ segment result options now, e = .handle segment result ∧ c.state.synchronized = true ∧
      Processes c segment options ∧
      Rewrites c'.currentRto (afterRetire c segment options now).pending c'.pending := by
  cases h with
  | idle => exact .inl (Rewrites.refl _)
  | handle memory segment now _ result hkept =>
    cases hkept with
    | ignored => exact .inl (Rewrites.refl _)
    | established options => exact .inl (establishedWith_rewrites ..)
    | resent => exact .inl (Rewrites.modifyHead fun e => .sentAgain e now)
    | completed => exact .inl (completeHandshake_rewrites ..)
    | restarted => exact .inl (Rewrites.refl _)
    | processed options outcome hsync _ hproc hout =>
      exact .inr ⟨segment, _, options, now, rfl, hsync, hproc, hout.rewrites⟩
  | sent payload now =>
    have hsent := scheduleQueuedData_rewrites key { c with unsent := c.unsent ++ payload } now
    have hrto : (scheduleQueuedData key { c with unsent := c.unsent ++ payload } now).1.currentRto =
        c.currentRto := by rw [scheduleQueuedData_shape]
    left
    rwa [hrto]
  | closed now =>
    have hfin := maybeSequenceFin_rewrites key { c with closeRequested := true } now []
    obtain ⟨_, hclosed⟩ := closed_shape key c now
    left
    rw [updatePersistState_pending]
    have hrto : ((maybeSequenceFin key { c with closeRequested := true } now
        []).1.updatePersistState now).currentRto = c.currentRto := by rw [hclosed]
    rwa [hrto]
  | disarmed _ | probed _ _ _ _ _ => exact .inl (Rewrites.refl _)
  | resent oldest rest now =>
    have hcollapse : ∀ rto, Rewrites rto c.pending (c.timedOutWith oldest).pending := by
      intro rto
      unfold timedOutWith
      split
      · exact Rewrites.map .collapsed
      · exact Rewrites.refl _
    exact .inl ((hcollapse _).trans (Rewrites.modifyHead fun e => .backedOff e now))

end Wirestack
