import Wirestack.Tcp.Karn
import Wirestack.Tcp.Recovery
import Wirestack.Tcp.Timers

set_option autoImplicit false

/-! # The retransmission timeout over whole runs

A `TimerLog` keeps, for the connection of one key, the RTT samples it has recorded and, for every
`sequenceEnd`, how often the entry with that end has timed out and which interval it was queued with.
`EntryTimer.Logged` ties the log to the counter and the interval that the entry itself carries: after
`k` timeouts the interval is `min (initial * 2 ^ k) kMaxRto`.

An entry's timer moves in one place only, the poll that resends it. Everything else that a call does
to the queue either leaves the timers alone or queues an entry with a fresh one (`TimersKept`). -/

namespace Wirestack

open List TcpConnectionTable Connection

variable {q : List PendingTransmission} {oldest : PendingTransmission} {expired : List SeqNum}
  {samples : List Duration} {smallest largest srtt r : ℤ}

variable {e : Event} {key : TcpConnectionKey} {s : Traced} {p : List PendingTransmission}
  {c c' : Connection} {op : Op}

/-! ## The log -/

structure TimerLog where
  samples : List Duration
  timeouts : SeqNum → ℕ
  initial : SeqNum → Duration

variable {L : TimerLog}

def TimerLog.empty : TimerLog := ⟨[], fun _ => 0, fun _ => 0⟩

/-- The segment that a call resent because a timer had expired. -/
def Event.timedOut : Event → List TcpSegment
  | .pollRetransmissions segment => segment.toList
  | _ => []

theorem Event.timedOut_of_silent (h : e.emitted = []) : e.timedOut = [] := by
  cases e with
  | pollRetransmissions segment => exact (append_eq_nil_iff.1 h).1
  | beginConnect _ | handle _ _ | makeOutgoingData _ _ | beginClose _ | pollPersistProbes _ => rfl

def Traced.timedOutEnds (s : Traced) (key : TcpConnectionKey) (op : Op) : List SeqNum :=
  occupiedEnds (((s.table.eventFor key op).map Event.timedOut).getD [])

/-- The interval of the entry that ends at `x`. -/
def queuedInterval (pending : List PendingTransmission) (x : SeqNum) : Duration :=
  ((pending.find? (·.sequenceEnd == x)).map (·.timeoutInterval)).getD 0

/-- The retransmission queue of `key`. -/
def Traced.queue (s : Traced) (key : TcpConnectionKey) : List PendingTransmission :=
  ((s.table.find? key).map (·.pending)).getD []

/-- One more call. What is known of an end that no queued entry had belongs to an entry that is gone;
    an entry that is queued now starts with the interval that it has after the call. -/
def TimerLog.step (L : TimerLog) (key : TcpConnectionKey) (s : Traced) (op : Op) : TimerLog :=
  { samples := (if (s.table.find? key).isSome then L.samples else []) ++
      ((s.sampleFor key op).map fun e => op.now - e.firstSentAt).toList
    timeouts := fun x =>
      if (ends (s.queue key)).contains x then L.timeouts x + (s.timedOutEnds key op).count x else 0
    initial := fun x =>
      if (ends (s.queue key)).contains x then L.initial x
      else queuedInterval ((s.step op).queue key) x }

/-- The runs of the table with the timer log of `key`. -/
inductive TimerRun (key : TcpConnectionKey) : Traced → TimerLog → Prop where
  | start (t : TcpConnectionTable) (h : t.connections = ∅) :
      TimerRun key ⟨t, fun _ => []⟩ .empty
  | step (s : Traced) (L : TimerLog) (op : Op) : TimerRun key s L →
      TimerRun key (s.step op) (L.step key s op)

theorem TimerRun.reachable (h : TimerRun key s L) : Reachable s := by
  induction h with
  | start t ht => exact .start t ht
  | step s L op _ ih => exact .step s op ih trivial

theorem Run.timerLog (hs : Reachable s) (key : TcpConnectionKey) : ∃ L, TimerRun key s L := by
  induction hs with
  | start t ht => exact ⟨_, .start t ht⟩
  | step s op _ _ ih =>
    obtain ⟨L, hL⟩ := ih
    exact ⟨_, .step s L op hL⟩

/-! ## Timers of the queue -/

/-- The fields of a queue entry that its timer uses, and the end that identifies it. -/
structure EntryTimer where
  sequenceEnd : SeqNum
  timeouts : ℕ
  interval : Duration

def PendingTransmission.timer (e : PendingTransmission) : EntryTimer :=
  { sequenceEnd := e.sequenceEnd
    timeouts := e.timeoutRetransmitCount
    interval := e.timeoutInterval }

@[simp] theorem PendingTransmission.timer_sequenceEnd (e : PendingTransmission) :
    e.timer.sequenceEnd = e.sequenceEnd := rfl

def timers (pending : List PendingTransmission) : List EntryTimer := pending.map (·.timer)

theorem mem_timers {e : PendingTransmission} (h : e ∈ p) : e.timer ∈ timers p := mem_map_of_mem h

theorem timers_of_erased (h : q.map PendingTransmission.erased = p.map PendingTransmission.erased) :
    timers q = timers p := by
  have herased : ∀ l : List PendingTransmission,
      timers l = (l.map PendingTransmission.erased).map (·.timer) := by
    intro l
    rw [map_map]
    rfl
  rw [herased, herased, h]

/-- An entry as it is queued: it has not timed out, and it is given the connection's timeout. -/
structure Unexpired (rto : Duration) (e : PendingTransmission) : Prop where
  timeouts : e.timeoutRetransmitCount = 0
  interval : e.timeoutInterval = rto

/-- The entries of `q` have the timers of entries of `p`, or they are new. -/
structure TimersKept (rto : Duration) (p q : List PendingTransmission) : Prop where
  source : ∀ e ∈ q, e.timer ∈ timers p ∨ Unexpired rto e ∧ e.sequenceEnd ∉ ends p

theorem TimersKept.of_subset {rto : Duration} (h : timers q ⊆ timers p) : TimersKept rto p q :=
  ⟨fun _ he => .inl (h (mem_timers he))⟩

theorem TimersKept.refl (rto : Duration) (p : List PendingTransmission) : TimersKept rto p p :=
  .of_subset (Subset.refl _)

section Stages

variable {S S' : List Byte} {u u' : ℕ} {c c' : Connection} {key : TcpConnectionKey}

theorem SendInv.retire_timers (h : SendInv S u c.view.send) (ack : SeqNum) (now : TimePoint) :
    timers (retireAcknowledged c ack now).1.pending ⊆ timers c.pending := by
  have hretired := retireAcknowledged_retirement c ack now
  generalize (retireAcknowledged c ack now).1.pending = after at hretired ⊢
  cases hretired with
  | whole retired _ hpending =>
    rw [hpending]
    exact map_subset _ (subset_append_right _ _)
  | trimmed retired rest e taken hpending hend hstart =>
    have hmem : e ∈ c.pending := by
      rw [hpending]
      exact mem_append_right _ (mem_cons_self ..)
    have hqueue : e.outstanding ∈ c.view.send.queue := mem_map_of_mem hmem
    have hends := PendingTransmission.trimTo_sequenceEnd (h.sent _ hqueue)
      (h.entry_span_lt hmem) hend hstart
    have htimer : ({ e.trimTo ack with rttSampleTaken := taken } : PendingTransmission).timer =
        e.timer := congrArg (EntryTimer.mk · _ _) hends
    have hsame : timers ({ e.trimTo ack with rttSampleTaken := taken } :: rest) =
        timers (e :: rest) := congrArg (· :: timers rest) htimer
    rw [hsame, hpending]
    exact map_subset _ (subset_append_right _ _)

theorem SendInv.processed_timers (h : SendInv S u c.view.send) (memory : ℕ → Byte)
    (key : TcpConnectionKey) (segment : TcpSegment) (options : TcpParsedOptions) (now : TimePoint) :
    timers (receivePart memory (afterAck key c segment options now) segment now).connection.pending
      ⊆ timers c.pending := by
  have hack : timers (processAck key c segment options now).1.pending ⊆ timers c.pending := by
    rw [timers_of_erased (processAck_erased key c segment options now)]
    exact h.retire_timers ..
  have hclose : timers (afterAck key c segment options now).pending ⊆ timers c.pending := by
    rcases advanceClose_pending_cases (processAck key c segment options now).1 now with heq | heq
    · rwa [afterAck, heq]
    · rw [afterAck, heq]
      exact nil_subset _
  rcases receivePart_pending_cases memory (afterAck key c segment options now) segment now with
    heq | heq
  · rwa [heq]
  · rw [heq]
    exact nil_subset _

section

variable (key : TcpConnectionKey) (c : Connection) (now : TimePoint) (segments : List TcpSegment)

theorem sendQueued_unexpired :
    ∀ e ∈ (sendQueued key c now).1.pending, e ∈ c.pending ∨ Unexpired c.currentRto e := by
  unfold sendQueued
  dsimp only
  split_ifs
  · intro e he
    rcases mem_append.1 he with he | he
    · exact .inl he
    · obtain ⟨segment, -, rfl⟩ := mem_map.1 he
      exact .inr ⟨rfl, rfl⟩
  · exact fun e he => .inl he

theorem maybeSequenceFin_unexpired : ∀ e ∈ (maybeSequenceFin key c now segments).1.pending,
      e ∈ c.pending ∨ Unexpired c.currentRto e := by
  unfold maybeSequenceFin
  split
  · exact fun e he => .inl he
  split
  · exact fun e he => .inl he
  split
  · exact fun e he => .inl he
  split
  · exact fun e he => .inl he
  intro e he
  rcases mem_append.1 he with he | he
  · exact .inl he
  · rw [mem_singleton.1 he]
    exact .inr ⟨rfl, rfl⟩

theorem scheduleQueuedData_unexpired :
    ∀ e ∈ (scheduleQueuedData key c now).1.pending, e ∈ c.pending ∨ Unexpired c.currentRto e := by
  have hrto : (sendQueued key c now).1.currentRto = c.currentRto := by rw [sendQueued_shape]
  have hfin := maybeSequenceFin_unexpired key (sendQueued key c now).1 now (sendQueued key c now).2
  rw [scheduleQueuedData_eq, updatePersistState_pending]
  intro e he
  rcases hfin e he with he | hnew
  · exact sendQueued_unexpired key c now e he
  · rw [hrto] at hnew
    exact .inr hnew

theorem scheduleIfSendable_unexpired :
    ∀ e ∈ (scheduleIfSendable key c now).1.pending, e ∈ c.pending ∨ Unexpired c.currentRto e := by
  unfold scheduleIfSendable
  split
  · exact scheduleQueuedData_unexpired key c now
  · dsimp only
    rw [updatePersistState_pending]
    exact fun e he => .inl he

end

theorem SendInv.sends_timers (h : SendInv S u c.view.send) {c₁ : Connection}
    {outcome : Connection × List TcpSegment} {new : List PendingTransmission}
    (hnew : Appends c₁ outcome new) (hnxt : c₁.sndNxt = c.sndNxt)
    (h' : SendInv S' u' outcome.1.view.send) (hkept : timers c₁.pending ⊆ timers c.pending)
    (hunexpired : ∀ e ∈ outcome.1.pending, e ∈ c₁.pending ∨ Unexpired c₁.currentRto e) :
    TimersKept c₁.currentRto c.pending outcome.1.pending := by
  have hdistinct := h.fresh_ends hnew hnxt h'
  rw [ends_append] at hdistinct
  refine ⟨fun e he => ?_⟩
  rcases hunexpired e he with hold | hfresh
  · exact .inl (hkept (mem_timers hold))
  · rw [hnew.pending] at he
    rcases mem_append.1 he with hold | he
    · exact .inl (hkept (mem_timers hold))
    · refine .inr ⟨hfresh, fun hmem => ?_⟩
      exact disjoint_of_nodup_append hdistinct hmem (mem_ends he)

/-- What a call does to the timers of the queue: the poll that resends the oldest entry backs it off,
    every other call keeps them. -/
inductive TimerStep (p : List PendingTransmission) (e : Event) (rto : Duration)
    (q : List PendingTransmission) : Prop where
  | kept : e.timedOut = [] → TimersKept rto p q → TimerStep p e rto q
  | backedOff (oldest : PendingTransmission) (rest : List PendingTransmission) (now : TimePoint) :
      p = oldest :: rest → oldest.timeoutRetransmitCount < kMaxRetransmits →
      occupiedEnds e.timedOut = [oldest.sequenceEnd] →
      timers q = (oldest.backOff now).timer :: timers rest → TimerStep p e rto q

theorem TimerStep.timeout (hdistinct : Distinct c.pending) {rest : List PendingTransmission}
    (hpending : c.pending = oldest :: rest)
    (hcount : oldest.timeoutRetransmitCount < kMaxRetransmits) (now : TimePoint) (rto : Duration) :
    TimerStep c.pending
      (.pollRetransmissions (some (timeoutSegment key (c.timedOutWith oldest) oldest))) rto
      ((c.timedOutWith oldest).pending.modifyHead (·.backOff now)) := by
  have hend := timeoutSegment_occupiedEnd key hdistinct hpending
  refine .backedOff oldest rest now hpending hcount ?_ ?_
  · exact filterMap_cons_some hend
  · unfold timedOutWith
    split
    · rw [applyTimeoutCongestionCollapse, hpending]
      show _ :: timers (rest.map _) = _ :: timers rest
      rw [timers, map_map]
      rfl
    · rw [hpending]
      rfl

theorem CallKept.timers_synced (hkept : CallKept key c e c') (hsynced : Synced S u c)
    (hsend' : SendInv S' u' c'.view.send) : TimerStep c.pending e c'.currentRto c'.pending := by
  have hsend := hsynced.send
  have hsync := hsynced.synchronized
  have hrefl := TimersKept.refl c'.currentRto c.pending
  cases hkept with
  | idle _ hemitted => exact .kept (Event.timedOut_of_silent hemitted) hrefl
  | handle memory segment now _ result hhandle =>
    refine .kept rfl ?_
    cases hhandle with
    | ignored => exact hrefl
    | established _ hstate | resent hstate | completed hstate =>
      rw [hstate] at hsync
      cases hsync
    | restarted => exact hrefl
    | processed options outcome _ _ hproc hout hremoval =>
      obtain ⟨u₁, hpart⟩ := synced_of_processed hsynced hproc hout hremoval
      have hprocessed := hsend.processed_timers memory key segment options now
      obtain ⟨hnxt, -⟩ := receivePart_afterAck memory key c segment options now
      rw [hout.connection] at hsend' ⊢
      generalize (receivePart memory (afterAck key c segment options now) segment
        now).connection = c₁ at *
      have hrto : (scheduleIfSendable key c₁ now).1.currentRto = c₁.currentRto := by
        rw [scheduleIfSendable_shape]
      obtain ⟨new, hnew⟩ := scheduleIfSendable_appends key now hpart.send.mss
      rw [hrto]
      exact hsend.sends_timers hnew hnxt hsend' hprocessed (scheduleIfSendable_unexpired key c₁ now)
  | sent payload now =>
    refine .kept rfl ?_
    obtain ⟨new, hnew⟩ := scheduleQueuedData_appends
      (c := { c with unsent := c.unsent ++ payload }) key now hsend.mss
    have hunexpired := scheduleQueuedData_unexpired key { c with unsent := c.unsent ++ payload } now
    have hrto : (scheduleQueuedData key { c with unsent := c.unsent ++ payload } now).1.currentRto
        = c.currentRto := by rw [scheduleQueuedData_shape]
    rw [hrto]
    generalize scheduleQueuedData key { c with unsent := c.unsent ++ payload } now = sent
      at hnew hsend' hunexpired ⊢
    have hsends := hsend.sends_timers hnew rfl hsend' (Subset.refl _) hunexpired
    exact hsends
  | closed now =>
    refine .kept rfl ?_
    obtain ⟨new, hnew⟩ := (Appends.nothing { c with closeRequested := true }).sequenceFin key now
    have hunexpired := maybeSequenceFin_unexpired key { c with closeRequested := true } now []
    obtain ⟨_, hclosed⟩ := closed_shape key c now
    have hrto : ((maybeSequenceFin key { c with closeRequested := true } now
        []).1.updatePersistState now).currentRto = c.currentRto := by rw [hclosed]
    rw [hrto]
    refine hsend.sends_timers (hnew.persist now) rfl hsend' (Subset.refl _) ?_
    rwa [updatePersistState_pending]
  | disarmed _ | probed _ _ _ _ _ => exact .kept rfl hrefl
  | resent oldest rest now _ hpending _ hcount =>
    exact .timeout hsend.distinct hpending hcount now _

theorem HalfOpen.timers_call (hopen : HalfOpen c) (hkept : CallKept key c e c') :
    TimerStep c.pending e c'.currentRto c'.pending := by
  have hrefl := TimersKept.refl c'.currentRto c.pending
  have hnot := hopen.not_sendable
  cases hkept with
  | idle _ hemitted => exact .kept (Event.timedOut_of_silent hemitted) hrefl
  | handle memory segment now _ result hhandle =>
    refine .kept rfl ?_
    cases hhandle with
    | ignored => exact hrefl
    | established options hstate hoptions _ _ hack =>
      rw [(establishedWith_fresh (hopen.synSentOk hstate) now hoptions hack).1.pending]
      exact .of_subset (nil_subset _)
    | resent =>
      refine .of_subset ?_
      cases c.pending with
      | nil | cons e rest => exact Subset.refl _
    | completed hstate =>
      rw [(completeHandshake_fresh (hopen.synReceivedOk hstate) segment now).1.pending]
      exact .of_subset (nil_subset _)
    | restarted hstate =>
      have hsync := hopen.not_synchronized
      rw [hstate] at hsync
      cases hsync
    | processed options outcome hsync =>
      simp [hopen.not_synchronized] at hsync
  | sent payload now hsendable _ _ | closed now hsendable =>
    simp [hnot] at hsendable
  | disarmed _ | probed _ _ _ _ _ => exact .kept rfl hrefl
  | resent oldest rest now _ hpending _ hcount =>
    exact .timeout hopen.distinct hpending hcount now _

end Stages

/-! ## What the log says about the queue -/

/-- The timer of an entry agrees with the log. -/
structure EntryTimer.Logged (L : TimerLog) (t : EntryTimer) : Prop where
  timeouts : t.timeouts = L.timeouts t.sequenceEnd
  limit : t.timeouts ≤ kMaxRetransmits
  initial : IsRto (L.initial t.sequenceEnd)
  interval : t.interval = min (L.initial t.sequenceEnd * 2 ^ t.timeouts) kMaxRto

theorem min_backOff (initial bound : ℤ) (k : ℕ) (hbound : 0 ≤ bound) :
    min (min (initial * 2 ^ k) bound * 2) bound = min (initial * 2 ^ (k + 1)) bound := by
  rw [pow_succ, ← mul_assoc]
  omega

theorem queuedInterval_eq {pending : List PendingTransmission} (hdistinct : (ends pending).Nodup)
    {e : PendingTransmission} (he : e ∈ pending) :
    queuedInterval pending e.sequenceEnd = e.timeoutInterval := by
  unfold queuedInterval
  cases hfind : pending.find? (·.sequenceEnd == e.sequenceEnd) with
  | none => exact absurd (find?_eq_none.1 hfind e he) (by simp)
  | some e' =>
    have hsame : e'.sequenceEnd = e.sequenceEnd := by simpa using find?_some hfind
    rw [inj_on_of_nodup_map hdistinct (mem_of_find?_eq_some hfind) he hsame]
    rfl

section Logged

variable {L L' : TimerLog} {p q : List PendingTransmission} {e : Event} {rto : Duration}

/-- The log after a call that found the queue `p`, left the queue `q` and timed out `expired`. -/
structure TimerLog.After (L : TimerLog) (p : List PendingTransmission) (expired : List SeqNum)
    (q : List PendingTransmission) (L' : TimerLog) : Prop where
  timeouts : ∀ x, L'.timeouts x = if x ∈ ends p then L.timeouts x + expired.count x else 0
  initial : ∀ x, L'.initial x = if x ∈ ends p then L.initial x else queuedInterval q x

theorem EntryTimer.Logged.carried {t : EntryTimer} (h : t.Logged L)
    (hafter : L.After p expired q L') (hmem : t ∈ timers p) (hnot : t.sequenceEnd ∉ expired) :
    t.Logged L' := by
  have hend : t.sequenceEnd ∈ ends p := by
    obtain ⟨e, he, rfl⟩ := mem_map.1 hmem
    exact mem_ends he
  have htimeouts : L'.timeouts t.sequenceEnd = L.timeouts t.sequenceEnd := by
    rw [hafter.timeouts, if_pos hend, count_eq_zero_of_not_mem hnot, Nat.add_zero]
  have hinitial : L'.initial t.sequenceEnd = L.initial t.sequenceEnd := by
    rw [hafter.initial, if_pos hend]
  refine ⟨?_, h.limit, ?_, ?_⟩
  · rw [htimeouts]
    exact h.timeouts
  · rw [hinitial]
    exact h.initial
  · rw [hinitial]
    exact h.interval

theorem Unexpired.logged {e : PendingTransmission} (h : Unexpired rto e) (hrto : IsRto rto)
    (hafter : L.After p expired q L') (hq : (ends q).Nodup) (he : e ∈ q)
    (hnew : e.sequenceEnd ∉ ends p) : e.timer.Logged L' := by
  have hinitial : L'.initial e.timer.sequenceEnd = rto := by
    rw [e.timer_sequenceEnd, hafter.initial, if_neg hnew]
    exact (queuedInterval_eq hq he).trans h.interval
  have hzero : e.timer.timeouts = 0 := h.timeouts
  refine ⟨?_, ?_, ?_, ?_⟩
  · rw [hzero, hafter.timeouts]
    exact (if_neg hnew).symm
  · rw [hzero]
    exact Nat.zero_le _
  · rwa [hinitial]
  · rw [hinitial, hzero, pow_zero, mul_one, min_eq_left hrto.2]
    exact h.interval

theorem EntryTimer.Logged.backedOff (h : oldest.timer.Logged L)
    (hafter : L.After p [oldest.sequenceEnd] q L') (hmem : oldest ∈ p)
    (hcount : oldest.timeoutRetransmitCount < kMaxRetransmits) (now : TimePoint) :
    (oldest.backOff now).timer.Logged L' := by
  have hend : (oldest.backOff now).timer.sequenceEnd = oldest.timer.sequenceEnd := rfl
  have htimeouts : (oldest.backOff now).timer.timeouts = oldest.timer.timeouts + 1 := rfl
  have hinitial : L'.initial oldest.timer.sequenceEnd = L.initial oldest.timer.sequenceEnd := by
    rw [hafter.initial]
    exact if_pos (mem_ends hmem)
  refine ⟨?_, hcount, ?_, ?_⟩
  · rw [htimeouts, hend, h.timeouts, oldest.timer_sequenceEnd, hafter.timeouts,
      if_pos (mem_ends hmem), count_singleton_self]
  · rw [hend, hinitial]
    exact h.initial
  · rw [hend, hinitial, htimeouts, ← min_backOff _ _ _ (by decide), ← h.interval]
    rfl

theorem TimerStep.logged (h : TimerStep p e rto q) (hrto : IsRto rto)
    (hafter : L.After p (occupiedEnds e.timedOut) q L') (hp : (ends p).Nodup) (hq : (ends q).Nodup)
    (hlogged : ∀ t ∈ timers p, t.Logged L) : ∀ t ∈ timers q, t.Logged L' := by
  cases h with
  | kept hquiet hkept =>
    rw [hquiet] at hafter
    intro t ht
    obtain ⟨e', he', rfl⟩ := mem_map.1 ht
    rcases hkept.source e' he' with hold | ⟨hfresh, hnew⟩
    · exact (hlogged _ hold).carried hafter hold not_mem_nil
    · exact hfresh.logged hrto hafter hq he' hnew
  | backedOff oldest rest now hpending hcount hexpired hqueue =>
    rw [hexpired] at hafter
    have hmem : oldest ∈ p := by simp [hpending]
    rw [hqueue]
    intro t ht
    rcases mem_cons.1 ht with rfl | ht
    · exact (hlogged _ (mem_timers hmem)).backedOff hafter hmem hcount now
    · have hold : t ∈ timers p := by
        rw [hpending]
        exact mem_cons_of_mem _ ht
      refine (hlogged t hold).carried hafter hold fun hsame => ?_
      -- The others have other ends.
      obtain ⟨e', he', rfl⟩ := mem_map.1 ht
      rw [hpending] at hp
      have hends : e'.sequenceEnd = oldest.sequenceEnd := mem_singleton.1 hsame
      have hdistinct : oldest.sequenceEnd ∉ ends rest := (nodup_cons.1 hp).1
      rw [← hends] at hdistinct
      exact hdistinct (mem_ends he')

end Logged

/-! ## The estimator -/

/-- The extremes of a list of samples. -/
structure SampleRange (samples : List Duration) (smallest largest : Duration) : Prop where
  smallest_mem : smallest ∈ samples
  largest_mem : largest ∈ samples
  bounds : ∀ r ∈ samples, smallest ≤ r ∧ r ≤ largest

theorem SampleRange.singleton (r : Duration) : SampleRange [r] r r where
  smallest_mem := mem_singleton_self r
  largest_mem := mem_singleton_self r
  bounds := fun x hx => by rw [mem_singleton.1 hx]; exact ⟨le_rfl, le_rfl⟩

theorem SampleRange.append {smallest largest : Duration} (h : SampleRange samples smallest largest)
    (r : Duration) : SampleRange (samples ++ [r]) (min smallest r) (max largest r) where
  smallest_mem := by
    rcases min_choice smallest r with heq | heq
    · rw [heq]
      exact mem_append_left _ h.smallest_mem
    · rw [heq]
      exact mem_append_right _ (mem_singleton_self r)
  largest_mem := by
    rcases max_choice largest r with heq | heq
    · rw [heq]
      exact mem_append_left _ h.largest_mem
    · rw [heq]
      exact mem_append_right _ (mem_singleton_self r)
  bounds := by
    intro x hx
    rcases mem_append.1 hx with hx | hx
    · obtain ⟨hlow, hhigh⟩ := h.bounds x hx
      exact ⟨(min_le_left _ _).trans hlow, hhigh.trans (le_max_left _ _)⟩
    · rw [mem_singleton.1 hx]
      exact ⟨min_le_right _ _, le_max_right _ _⟩

/-- The smoothed estimate lies among the samples, and the variation is at most the largest. -/
structure RttEstimate.Within (E : RttEstimate) (smallest largest : Duration) : Prop where
  nonneg : 0 ≤ smallest
  srtt : smallest ≤ E.srtt ∧ E.srtt ≤ largest
  rttvar : 0 ≤ E.rttvar ∧ E.rttvar ≤ largest

/-- What the estimator has made of the samples. -/
structure RttEstimate.Estimates (E : RttEstimate) (samples : List Duration) : Prop where
  taken : E.hasRttSample = true ↔ samples ≠ []
  within : samples ≠ [] → ∃ smallest largest, SampleRange samples smallest largest ∧
    E.Within smallest largest

theorem srtt_bounds (hnonneg : 0 ≤ smallest) (hlow : smallest ≤ srtt) (hhigh : srtt ≤ largest)
    (hr : 0 ≤ r) :
    min smallest r ≤ (srtt * 7 + r).tdiv 8 ∧ (srtt * 7 + r).tdiv 8 ≤ max largest r := by
  rw [Int.tdiv_eq_ediv_of_nonneg (by omega)]
  omega

theorem rttvar_bounds {rttvar : ℤ} (hnonneg : 0 ≤ smallest) (hlow : smallest ≤ srtt)
    (hhigh : srtt ≤ largest) (hvar : 0 ≤ rttvar) (hvarHigh : rttvar ≤ largest) (hr : 0 ≤ r) :
    0 ≤ (rttvar * 3 + |srtt - r|).tdiv 4 ∧ (rttvar * 3 + |srtt - r|).tdiv 4 ≤ max largest r := by
  have habs : 0 ≤ |srtt - r| ∧ |srtt - r| ≤ max largest r :=
    ⟨abs_nonneg _, abs_le'.2 ⟨by omega, by omega⟩⟩
  rw [Int.tdiv_eq_ediv_of_nonneg (by omega)]
  omega

theorem recordRttSample_estimates (h : c.estimate.Estimates samples) {r : Duration} (hr : 0 ≤ r) :
    (c.recordRttSample r).estimate.Estimates (samples ++ [r]) := by
  have hne : samples ++ [r] ≠ [] := by simp
  cases htaken : c.hasRttSample with
  | false =>
    have hnil : samples = [] := by
      by_contra hsome
      simp [show c.hasRttSample = true from h.taken.2 hsome] at htaken
    have hestimate : (c.recordRttSample r).estimate = ⟨true, r, r.tdiv 2⟩ := by
      unfold recordRttSample estimate
      rw [htaken]
      rfl
    rw [hestimate, hnil]
    refine ⟨⟨fun _ => by simp, fun _ => rfl⟩, fun _ => ⟨r, r, .singleton r, hr, ⟨le_rfl, le_rfl⟩, ?_⟩⟩
    have hhalf : ∀ d : ℤ, 0 ≤ d → 0 ≤ d.tdiv 2 ∧ d.tdiv 2 ≤ d := by
      intro d hd
      rw [Int.tdiv_eq_ediv_of_nonneg hd]
      omega
    exact hhalf r hr
  | true =>
    obtain ⟨smallest, largest, hrange, hwithin⟩ := h.within (h.taken.1 htaken)
    have hestimate : (c.recordRttSample r).estimate =
        ⟨true, (c.srtt * 7 + r).tdiv 8, (c.rttvar * 3 + |c.srtt - r|).tdiv 4⟩ := by
      unfold recordRttSample estimate
      rw [htaken]
      rfl
    rw [hestimate]
    refine ⟨⟨fun _ => hne, fun _ => rfl⟩, fun _ => ⟨_, _, hrange.append r, ?_, ?_, ?_⟩⟩
    · exact le_min hwithin.nonneg hr
    · exact srtt_bounds hwithin.nonneg hwithin.srtt.1 hwithin.srtt.2 hr
    · exact rttvar_bounds hwithin.nonneg hwithin.srtt.1 hwithin.srtt.2 hwithin.rttvar.1
        hwithin.rttvar.2 hr

/-! ## Runs -/

/-- What the log of a key says about its connection. -/
structure TimerInv (L : TimerLog) (c : Connection) : Prop where
  estimate : c.estimate.Estimates L.samples
  logged : ∀ t ∈ timers c.pending, t.Logged L

theorem Traced.queue_of_some (hc : s.table.find? key = some c) : s.queue key = c.pending := by
  rw [Traced.queue, hc]
  rfl

theorem TimerLog.step_after (L : TimerLog) (key : TcpConnectionKey) (s : Traced) (op : Op) :
    L.After (s.queue key) (s.timedOutEnds key op) ((s.step op).queue key) (L.step key s op) := by
  refine ⟨fun x => ?_, fun x => ?_⟩
  · simp only [TimerLog.step, contains_iff_mem]
  · simp only [TimerLog.step, contains_iff_mem]

theorem Traced.sampleFor_past {e : PendingTransmission} (h : s.sampleFor key op = some e) :
    e.firstSentAt ≤ op.now := by
  by_cases hop : ∀ memory segment now, op ≠ .handle memory key segment now
  · simp [s.sampleFor_eq_none hop] at h
  · simp only [ne_eq, not_forall, not_not] at hop
    obtain ⟨memory, segment, now, rfl⟩ := hop
    rw [Traced.sampleFor, if_pos rfl] at h
    obtain ⟨c, -, hsample⟩ := Option.bind_eq_some_iff.1 h
    obtain ⟨p, -, hretired⟩ := Option.bind_eq_some_iff.1 hsample
    unfold retirementSample at hretired
    split at hretired
    · exact of_decide_eq_true (Option.filter_eq_some_iff.1 hretired).2
    · cases hretired

theorem TimerInv.step_estimate (h : TimerInv L c) (hc : s.table.find? key = some c)
    (hc' : (s.step op).table.find? key = some c') :
    c'.estimate.Estimates (L.step key s op).samples := by
  have hsamples : (L.step key s op).samples =
      L.samples ++ ((s.sampleFor key op).map fun e => op.now - e.firstSentAt).toList := by
    simp only [TimerLog.step, hc, Option.isSome_some, if_true]
  rw [hsamples, Traced.step_estimate hc hc']
  cases hsample : s.sampleFor key op with
  | none =>
    rw [Option.map_none, Option.toList_none, append_nil]
    exact h.estimate
  | some e =>
    have hpast : 0 ≤ op.now - e.firstSentAt := Int.sub_nonneg_of_le (Traced.sampleFor_past hsample)
    exact recordRttSample_estimates h.estimate hpast

theorem KeyStep.timers_first {listenPort : UInt16} (hstep : KeyStep listenPort key none e (some c)) :
    TimerStep [] e c.currentRto c.pending ∧ c.hasRttSample = false := by
  have hsyn : ∀ entry : PendingTransmission, Unexpired c.currentRto entry →
      TimersKept c.currentRto [] [entry] := by
    intro entry hfresh
    refine ⟨fun x hx => .inr ⟨?_, not_mem_nil⟩⟩
    rwa [mem_singleton.1 hx]
  cases hstep with
  | connect isn now => exact ⟨.kept rfl (hsyn _ ⟨rfl, rfl⟩), rfl⟩
  | accept segment options isn now =>
    refine ⟨.kept rfl (hsyn _ ⟨rfl, rfl⟩), ?_⟩
    show (passiveConnection segment options isn).hasRttSample = false
    unfold passiveConnection negotiate
    cases options.windowScale <;> rfl

theorem TimerInv.of_none (hs : Reachable s) (L : TimerLog) (hnone : s.table.find? key = none)
    (hc' : (s.step op).table.find? key = some c') : TimerInv (L.step key s op) c' := by
  rcases s.step_key key op with ⟨hsame, -⟩ | ⟨e, hevent, hstep, -⟩
  · simp [hsame, hnone] at hc'
  · rw [hnone, hc'] at hstep
    obtain ⟨htimers, hunsampled⟩ := hstep.timers_first
    have hs' : Reachable (s.step op) := .step s op hs trivial
    have hqueue : s.queue key = [] := by
      rw [Traced.queue, hnone]
      rfl
    have hafter := L.step_after key s op
    rw [hqueue, Traced.queue_of_some hc', Traced.timedOutEnds, hevent] at hafter
    refine ⟨?_, htimers.logged (hs'.rtoOk hc').rto hafter nodup_nil (hs'.distinct hc').ends nofun⟩
    have hsamples : (L.step key s op).samples = [] := by
      simp only [TimerLog.step, hnone, Traced.sampleFor_of_none hnone]
      rfl
    rw [hsamples]
    refine ⟨⟨fun htaken => ?_, fun hne => absurd rfl hne⟩, fun hne => absurd rfl hne⟩
    simp [show c'.estimate.hasRttSample = false from hunsampled] at htaken

theorem TimerInv.step_of_some (hs : Reachable s) (hc : s.table.find? key = some c)
    (h : TimerInv L c) (hc' : (s.step op).table.find? key = some c') :
    TimerInv (L.step key s op) c' := by
  refine ⟨h.step_estimate hc hc', ?_⟩
  have hs' : Reachable (s.step op) := .step s op hs trivial
  have hafter := L.step_after key s op
  rw [Traced.queue_of_some hc, Traced.queue_of_some hc', Traced.timedOutEnds] at hafter
  rcases s.table.apply_key op key with ⟨hevent, hsame⟩ | ⟨e, hevent, -⟩
  · obtain rfl : c' = c := Option.some.inj (hc'.symm.trans (hsame.trans hc))
    rw [hevent] at hafter
    exact fun t ht => (h.logged t ht).carried hafter ht not_mem_nil
  · have hstep := Traced.step_of_event hc hevent
    rw [hc'] at hstep
    rw [hevent] at hafter
    have htimers : TimerStep c.pending e c'.currentRto c'.pending := by
      obtain ⟨isn, hconn, -⟩ := (hs.keyInv key).conn
      cases (hconn c hc).ok with
      | halfOpen hopen => exact hopen.timers_call hstep.kept
      | synced u hsynced =>
        obtain ⟨u', -, hsynced'⟩ := ((hsynced.step hstep).continues c' rfl).synced
        exact hstep.kept.timers_synced hsynced hsynced'.send
    exact htimers.logged (hs'.rtoOk hc').rto hafter (hs.distinct hc).ends (hs'.distinct hc').ends
      h.logged

theorem TimerRun.inv (h : TimerRun key s L) : ∀ c, s.table.find? key = some c → TimerInv L c := by
  induction h with
  | start t ht =>
    intro c hc
    simp [find?_empty ht] at hc
  | step s L op hrun ih =>
    intro c' hc'
    cases hc : s.table.find? key with
    | none => exact TimerInv.of_none hrun.reachable L hc hc'
    | some c => exact (ih c hc).step_of_some hrun.reachable hc hc'

/-! ## Polls -/

namespace TcpConnectionTable

variable {t : TcpConnectionTable} {now : TimePoint} {key : TcpConnectionKey}

theorem mem_timedOut_iff : key ∈ (t.pollRetransmissions now).2.timedOut ↔
      ∃ c, t.find? key = some c ∧ pollConnection key c now = .timedOut := by
  unfold pollRetransmissions
  rw [mem_filterMap]
  constructor
  · rintro ⟨⟨_, c⟩, hmem, hsome⟩
    dsimp only at hsome
    split at hsome
    · next hpoll =>
      cases hsome
      exact ⟨c, (t.mem_toList_iff key c).1 hmem, hpoll⟩
    · cases hsome
  · rintro ⟨c, hc, hpoll⟩
    refine ⟨(key, c), (t.mem_toList_iff key c).2 hc, ?_⟩
    rw [hpoll]

theorem timedOut_nodup : (t.pollRetransmissions now).2.timedOut.Nodup := by
  refine Pairwise.filterMap _ ?_ (pairwise_map.1 t.nodup_toList_keys)
  rintro ⟨k, c⟩ ⟨k', c'⟩ hne b hb b' hb'
  dsimp only at hb hb'
  split at hb
  · split at hb'
    · cases hb
      cases hb'
      exact hne
    · cases hb'
  · cases hb

theorem pollRetransmissions_timedOut (hc : t.find? key = some c)
    (hpoll : pollConnection key c now = .timedOut) :
    (t.pollRetransmissions now).1.find? key = none ∧
      (t.pollRetransmissions now).2.timedOut.count key = 1 ∧
      ∀ segment, (key, segment) ∉ (t.pollRetransmissions now).2.retransmissions := by
  refine ⟨?_, ?_, fun segment hmem => ?_⟩
  · rw [find?_pollRetransmissions, hc, Option.bind_some, hpoll]
    rfl
  · exact count_eq_one_of_mem timedOut_nodup (mem_timedOut_iff.2 ⟨c, hc, hpoll⟩)
  · unfold pollRetransmissions at hmem
    obtain ⟨⟨k, c'⟩, hentry, hsome⟩ := mem_filterMap.1 hmem
    obtain ⟨segment', hsegment, hpair⟩ := Option.map_eq_some_iff.1 hsome
    have hkey : k = key := congrArg Prod.fst hpair
    rw [hkey] at hentry hsegment
    obtain rfl : c' = c := Option.some.inj (((t.mem_toList_iff key c').1 hentry).symm.trans hc)
    rw [hpoll] at hsegment
    cases hsegment

end TcpConnectionTable

theorem Run.not_timeWait (hs : Reachable s) (hc : s.table.find? key = some c)
    (hpending : c.pending ≠ []) : c.state ≠ .timeWait := by
  obtain ⟨isn, hconn, -⟩ := (hs.keyInv key).conn
  intro hwait
  cases (hconn c hc).ok with
  | halfOpen hopen =>
    have hsync := hopen.not_synchronized
    rw [hwait] at hsync
    cases hsync
  | synced u hsynced =>
    have hacked := hsynced.acked (by rw [hwait]; rfl)
    exact hpending (hsynced.toJoined.pending_eq_nil (by rw [hwait]; rfl) hacked)

/-- **RTO bounds and backoff.** `L` is the log of a run that has reached `s`. -/
theorem rto_backoff_bounds {key : TcpConnectionKey} {s : Traced} {L : TimerLog}
    (h : TimerRun key s L) {c : Connection} (hc : s.table.find? key = some c) :
    (IsRto c.currentRto ∧ ∀ e ∈ c.pending, IsRto e.timeoutInterval) ∧
    (c.hasRttSample = true ↔ L.samples ≠ []) ∧
    (c.hasRttSample = true → ∃ smallest largest, SampleRange L.samples smallest largest ∧
      smallest ≤ c.srtt ∧ c.srtt ≤ largest ∧ 0 ≤ c.rttvar ∧ c.rttvar ≤ largest) ∧
    (ends c.pending).Nodup ∧
    (∀ e ∈ c.pending, e.timeoutRetransmitCount = L.timeouts e.sequenceEnd ∧
      L.timeouts e.sequenceEnd ≤ kMaxRetransmits ∧
      e.timeoutInterval = min (L.initial e.sequenceEnd * 2 ^ L.timeouts e.sequenceEnd) kMaxRto) ∧
    ∀ now, (∀ c', (s.step (.pollRetransmissions now)).table.find? key = some c' →
        c.currentRto ≤ c'.currentRto) ∧
      ∀ oldest rest, c.pending = oldest :: rest → L.timeouts oldest.sequenceEnd = kMaxRetransmits →
        oldest.lastSentAt + oldest.timeoutInterval ≤ now →
        (s.step (.pollRetransmissions now)).table.find? key = none ∧
        (s.table.pollRetransmissions now).2.timedOut.count key = 1 ∧
        (∀ segment, (key, segment) ∉ (s.table.pollRetransmissions now).2.retransmissions) ∧
        ∀ (t : TcpConnectionTable) (later : TimePoint), t.find? key = none →
          key ∉ (t.pollRetransmissions later).2.timedOut := by
  have hrange := h.reachable.rtoOk hc
  have hinv := h.inv c hc
  refine ⟨⟨hrange.rto, hrange.intervals⟩, hinv.estimate.taken, fun htaken => ?_,
    (h.reachable.distinct hc).ends, fun e he => ?_, fun now => ⟨fun c' hc' => ?_, ?_⟩⟩
  · obtain ⟨smallest, largest, hextremes, hwithin⟩ :=
      hinv.estimate.within (hinv.estimate.taken.1 htaken)
    exact ⟨smallest, largest, hextremes, hwithin.srtt.1, hwithin.srtt.2, hwithin.rttvar⟩
  · have hlogged := hinv.logged e.timer (mem_timers he)
    have hcount : e.timeoutRetransmitCount = L.timeouts e.sequenceEnd := hlogged.timeouts
    refine ⟨hcount, ?_, ?_⟩
    · rw [← hcount]
      exact hlogged.limit
    · rw [← hcount]
      exact hlogged.interval
  · have hkept : (s.table.pollRetransmissions now).1.find? key = some c' := hc'
    rw [find?_pollRetransmissions, hc, Option.bind_some] at hkept
    rcases pollConnection_kept hkept with ⟨-, rfl⟩ | ⟨oldest, rest, -, -, rfl⟩
    · exact le_rfl
    · dsimp only
      rw [timedOutWith_currentRto]
      exact le_max_left _ _
  · intro oldest rest hpending hcount hdue
    have hmem : oldest ∈ c.pending := by simp [hpending]
    have hwait : c.state ≠ .timeWait := by
      refine h.reachable.not_timeWait hc ?_
      rw [hpending]
      exact cons_ne_nil _ _
    have hlimit : kMaxRetransmits ≤ oldest.timeoutRetransmitCount := by
      rw [show oldest.timeoutRetransmitCount = L.timeouts oldest.sequenceEnd from
        (hinv.logged oldest.timer (mem_timers hmem)).timeouts, hcount]
    have hpoll : pollConnection key c now = .timedOut := by
      rw [pollConnection_of_pending hwait hpending, if_neg (not_lt.2 hdue), if_pos hlimit]
    obtain ⟨hgone, hreported, hsilent⟩ := pollRetransmissions_timedOut hc hpoll
    refine ⟨hgone, hreported, hsilent, fun t later habsent hmem => ?_⟩
    obtain ⟨c', hc', -⟩ := mem_timedOut_iff.1 hmem
    simp [habsent] at hc'

/-- Three bytes are sent and never acknowledged. -/
def exampleTimeouts : List Op :=
  [.makeOutgoingData exampleKey [1, 2, 3] 0,
    .pollRetransmissions (milliseconds 1000), .pollRetransmissions (milliseconds 3000),
    .pollRetransmissions (milliseconds 7000), .pollRetransmissions (milliseconds 15000),
    .pollRetransmissions (milliseconds 31000)]

/-- After five timeouts the interval is 32 s, and the poll at 63 s gives the connection up. -/
theorem rto_backoff_bounds_example :
    ∃ s L c oldest rest, TimerRun exampleKey s L ∧ s.table.find? exampleKey = some c ∧
      c.pending = oldest :: rest ∧ L.timeouts oldest.sequenceEnd = 5 ∧
      oldest.timeoutInterval = milliseconds 32000 ∧
      (s.step (.pollRetransmissions (milliseconds 63000))).table.find? exampleKey = none ∧
      (s.table.pollRetransmissions (milliseconds 63000)).2.timedOut.count exampleKey = 1 := by
  obtain ⟨c, hc, hval⟩ := exampleRun_at [] exampleTimeouts (fun _ c => (c.pending.map fun e =>
    (e.timeoutRetransmitCount, e.lastSentAt, e.timeoutInterval)) =
      [(5, milliseconds 31000, milliseconds 32000)]) (by decide +kernel)
  obtain ⟨oldest, rest, hpending, holdest, -⟩ := map_eq_cons_iff.1 hval
  simp only [Prod.mk.injEq] at holdest
  obtain ⟨hcount, hsent, hinterval⟩ := holdest
  obtain ⟨L, hL⟩ := (exampleRun_reachable [] exampleTimeouts).timerLog exampleKey
  obtain ⟨-, -, -, -, hentries, hpolls⟩ := rto_backoff_bounds hL hc
  have hmem : oldest ∈ c.pending := by
    rw [hpending]
    exact mem_cons_self ..
  have htimeouts : L.timeouts oldest.sequenceEnd = 5 := by rwa [← (hentries oldest hmem).1]
  have hdue : oldest.lastSentAt + oldest.timeoutInterval ≤ milliseconds 63000 := by
    rw [hsent, hinterval]
    decide
  obtain ⟨hgone, hreported, -⟩ :=
    (hpolls (milliseconds 63000)).2 oldest rest hpending htimeouts hdue
  exact ⟨_, L, c, oldest, rest, hL, hc, hpending, htimeouts, hinterval, hgone, hreported⟩

end Wirestack
