import Wirestack.Tcp.NetworkReplay
import Wirestack.Tcp.Survival

set_option autoImplicit false

/-! # Karn's rule over whole runs

A `Ledger` counts, for every `sequenceEnd`, the segments emitted up to it and the RTT samples taken
from its entry since that entry was queued. `Karn` ties the ledger to the two flags of the entries:
an entry that is not marked as retransmitted was sent once, with one exception. The SYN-ACK that
answers a duplicate SYN is not marked, so in SYN-RECEIVED the count is the number of SYN-ACKs
sent. -/

namespace Wirestack

open SerialNumber List Connection Option PendingTransmission

variable {key : TcpConnectionKey} {s : Traced} {c : Connection} {e : Event} {segment : TcpSegment}
  {memory : ℕ → Byte} {now : TimePoint}

/-! ## The ledger -/

/-- How often the entry with a given end was emitted and sampled since it was queued. -/
structure Ledger where
  emissions : SeqNum → ℕ
  samples : SeqNum → ℕ

variable {L : Ledger}

def Ledger.empty : Ledger := ⟨fun _ => 0, fun _ => 0⟩

/-- One more call. The counts of an end that no queued entry has belong to an entry that is gone. -/
def Ledger.record (L : Ledger) (queued emitted : List SeqNum) (sample : Option SeqNum) : Ledger :=
  { emissions := fun x => (if x ∈ queued then L.emissions x else 0) + emitted.count x
    samples := fun x => (if x ∈ queued then L.samples x else 0) + if sample = some x then 1 else 0 }

/-- The ends of the entries that are queued for `key`. -/
def Traced.queuedEnds (s : Traced) (key : TcpConnectionKey) : List SeqNum :=
  ((s.table.find? key).map fun c => ends c.pending).getD []

/-- The ends of the segments that a call emits for `key`. Persist probes carry no entry. -/
def Traced.emittedEnds (s : Traced) (key : TcpConnectionKey) (op : Op) : List SeqNum :=
  occupiedEnds (((s.table.eventFor key op).map Event.emittedInSequence).getD [])

def Ledger.step (L : Ledger) (key : TcpConnectionKey) (s : Traced) (op : Op) : Ledger :=
  L.record (s.queuedEnds key) (s.emittedEnds key op) ((s.sampleFor key op).map (·.sequenceEnd))

/-- The runs of the table with the ledger of `key`. -/
inductive LedgerRun (key : TcpConnectionKey) : Traced → Ledger → Prop where
  | start (t : TcpConnectionTable) (h : t.connections = ∅) :
      LedgerRun key ⟨t, fun _ => []⟩ .empty
  | step (s : Traced) (L : Ledger) (op : Op) : LedgerRun key s L →
      LedgerRun key (s.step op) (L.step key s op)

theorem LedgerRun.reachable (h : LedgerRun key s L) : Reachable s := by
  induction h with
  | start t ht => exact .start t ht
  | step s L op _ ih => exact .step s op ih trivial

theorem Run.ledger (hs : Reachable s) (key : TcpConnectionKey) : ∃ L, LedgerRun key s L := by
  induction hs with
  | start t ht => exact ⟨_, .start t ht⟩
  | step s op _ _ ih =>
    obtain ⟨L, hL⟩ := ih
    exact ⟨_, .step s L op hL⟩

/-! ## The invariant -/

/-- The flags of the queued entries agree with the ledger: an entry that is not marked was emitted
    `n` times. -/
structure Karn (n : ℕ) (L : Ledger) (pending : List PendingTransmission) : Prop where
  once : ∀ e ∈ pending, e.wasRetransmitted = false → L.emissions e.sequenceEnd = n
  sampled : ∀ e ∈ pending, L.samples e.sequenceEnd = if e.rttSampleTaken then 1 else 0

namespace Karn

variable {n : ℕ} {L : Ledger} {p q kept new : List PendingTransmission}
  {sample : Option PendingTransmission} {resent : List SeqNum}

theorem nil (n : ℕ) (L : Ledger) : Karn n L [] where
  once := fun _ h => nomatch h
  sampled := fun _ h => nomatch h

theorem append (hp : Karn n L p) (hq : Karn n L q) : Karn n L (p ++ q) where
  once := fun e he => (mem_append.1 he).elim (hp.once e) (hq.once e)
  sampled := fun e he => (mem_append.1 he).elim (hp.sampled e) (hq.sampled e)

theorem samples_le (h : Karn n L p) (hsample : ∀ e, sample = some e → e ∈ p ∧ e.rttEligible = true)
    (emitted : List SeqNum) (x : SeqNum) :
    (L.record (ends p) emitted (sample.map (·.sequenceEnd))).samples x ≤ 1 := by
  show (if x ∈ ends p then L.samples x else 0) +
    (if sample.map (·.sequenceEnd) = some x then 1 else 0) ≤ 1
  by_cases hsampled : sample.map (·.sequenceEnd) = some x
  · obtain ⟨e, he, rfl⟩ := map_eq_some_iff.1 hsampled
    obtain ⟨hmem, heligible⟩ := hsample e he
    have htaken : e.rttSampleTaken = false := by
      simp only [rttEligible, Bool.and_eq_true, Bool.not_eq_true'] at heligible
      exact heligible.2
    rw [if_pos (mem_ends hmem), h.sampled e hmem, htaken, if_pos hsampled]
    exact le_rfl
  · rw [if_neg hsampled]
    split
    · next hx =>
      obtain ⟨e, he, rfl⟩ := mem_map.1 hx
      rw [h.sampled e he]
      split <;> omega
    · omega

theorem survives (h : Karn n L p) (hkept : Survives sample resent p kept)
    (hdistinct : (ends (p ++ new)).Nodup)
    (hsample : ∀ e, sample = some e → e ∈ p ∧ e.rttEligible = true) :
    Karn n (L.record (ends p) (resent ++ ends new) (sample.map (·.sequenceEnd))) kept := by
  rw [ends_append] at hdistinct
  refine ⟨fun e' he' hmark' => ?_, fun e' he' => ?_⟩
  · obtain ⟨e, he, hend, -, honce⟩ := hkept.source e' he'
    obtain ⟨hmark, hnew⟩ := honce hmark'
    have hfresh : e.sequenceEnd ∉ ends new :=
      fun hmem => disjoint_of_nodup_append hdistinct (mem_ends he) hmem
    show (if e'.sequenceEnd ∈ ends p then L.emissions e'.sequenceEnd else 0) +
      (resent ++ ends new).count e'.sequenceEnd = n
    rw [hend, if_pos (mem_ends he), h.once e he hmark, count_append,
      count_eq_zero_of_not_mem hnew, count_eq_zero_of_not_mem hfresh, Nat.add_zero]
  · obtain ⟨e, he, hend, htaken, -⟩ := hkept.source e' he'
    have hsame : sample.map (·.sequenceEnd) = some e.sequenceEnd ↔ sample = some e := by
      refine ⟨fun hmap => ?_, fun hsome => by rw [hsome]; rfl⟩
      obtain ⟨e₀, he₀, hends⟩ := map_eq_some_iff.1 hmap
      rw [he₀]
      exact congrArg some (inj_on_of_nodup_map (Nodup.of_append_left hdistinct)
        (hsample e₀ he₀).1 he hends)
    show (if e'.sequenceEnd ∈ ends p then L.samples e'.sequenceEnd else 0) +
      (if sample.map (·.sequenceEnd) = some e'.sequenceEnd then 1 else 0) = _
    rw [hend, if_pos (mem_ends he), h.sampled e he, htaken]
    by_cases hsome : sample = some e
    · have heligible := (hsample e hsome).2
      simp only [rttEligible, Bool.and_eq_true, Bool.not_eq_true'] at heligible
      rw [if_pos (hsame.2 hsome), heligible.2]
      simp [hsome]
    · rw [if_neg fun hmap => hsome (hsame.1 hmap)]
      simp [hsome]

theorem queued (hknown : ∀ x ∈ resent, x ∈ ends p) (hdistinct : (ends (p ++ new)).Nodup)
    (hunsampled : ∀ e ∈ new, e.rttSampleTaken = false)
    (hsample : ∀ e, sample = some e → e ∈ p ∧ e.rttEligible = true) :
    Karn 1 (L.record (ends p) (resent ++ ends new) (sample.map (·.sequenceEnd))) new := by
  rw [ends_append] at hdistinct
  have hfresh : ∀ e ∈ new, e.sequenceEnd ∉ ends p :=
    fun e he hmem => disjoint_of_nodup_append hdistinct hmem (mem_ends he)
  refine ⟨fun e he _ => ?_, fun e he => ?_⟩
  · show (if e.sequenceEnd ∈ ends p then L.emissions e.sequenceEnd else 0) +
      (resent ++ ends new).count e.sequenceEnd = 1
    rw [if_neg (hfresh e he), count_append,
      count_eq_zero_of_not_mem fun hmem => hfresh e he (hknown _ hmem),
      count_eq_one_of_mem (Nodup.of_append_right hdistinct) (mem_ends he)]
  · show (if e.sequenceEnd ∈ ends p then L.samples e.sequenceEnd else 0) +
      (if sample.map (·.sequenceEnd) = some e.sequenceEnd then 1 else 0) = _
    have hother : sample.map (·.sequenceEnd) ≠ some e.sequenceEnd := by
      intro hmap
      obtain ⟨e₀, he₀, hends⟩ := map_eq_some_iff.1 hmap
      refine hfresh e he ?_
      rw [← hends]
      exact mem_ends (hsample e₀ he₀).1
    rw [if_neg (hfresh e he), if_neg hother, hunsampled e he]
    rfl

theorem resends (h : Karn n L p) (hdistinct : (ends p).Nodup) (hkept : Survives none resent p kept) :
    Karn n (L.record (ends p) resent none) kept := by
  rw [← append_nil p] at hdistinct
  rw [← append_nil resent]
  exact h.survives hkept hdistinct fun _ he => nomatch he

theorem sends {c₁ : Connection} (h : Karn 1 L c.pending) {outcome : Connection × List TcpSegment}
    (hnew : Appends c₁ outcome new) (hkept : Survives sample resent c.pending c₁.pending)
    (hnxt : c₁.sndNxt = c.sndNxt) {S S' : List Byte} {u u' : ℕ} (hsend : SendInv S u c.view.send)
    (hsend' : SendInv S' u' outcome.1.view.send)
    (hsample : ∀ e, sample = some e → e ∈ c.pending ∧ e.rttEligible = true) :
    Karn 1 (L.record (ends c.pending) (resent ++ occupiedEnds outcome.2)
      (sample.map (·.sequenceEnd))) outcome.1.pending := by
  have hdistinct := hsend.fresh_ends hnew hnxt hsend'
  rw [hnew.pending, hnew.ends]
  exact (h.survives hkept hdistinct hsample).append
    (Karn.queued hkept.known hdistinct hnew.unsampled hsample)

end Karn

/-! ## Calls on a synchronized connection -/

section Synchronized

variable {S S' : List Byte} {u u' : ℕ} {c c' : Connection} {L : Ledger} {key : TcpConnectionKey}

theorem maybeSequenceFin_head (key : TcpConnectionKey) (c : Connection) (now : TimePoint) :
    (maybeSequenceFin key c now []).2.head?.toList = (maybeSequenceFin key c now []).2 := by
  rcases maybeSequenceFin_cases key c now [] with heq | ⟨-, -, -, entry, -, heq⟩
  · rw [heq]
    rfl
  · rw [heq]
    rfl

theorem CallKept.karn_synced (hkept : CallKept key c e c') (hreceived : e.received = [])
    (hsend : SendInv S u c.view.send) (hsend' : SendInv S' u' c'.view.send) (h : Karn 1 L c.pending) :
    Karn 1 (L.record (ends c.pending) (occupiedEnds e.emittedInSequence) none) c'.pending := by
  have hdistinct := hsend.distinct
  have hrefl := Survives.refl c.pending
  have hnone : ∀ e, (none : Option PendingTransmission) = some e →
      e ∈ c.pending ∧ e.rttEligible = true := fun _ he => nomatch he
  cases hkept with
  | idle _ hemitted =>
    rw [(append_eq_nil_iff.1 hemitted).1]
    exact h.resends hdistinct.ends hrefl
  | handle memory segment now _ result => cases hreceived
  | sent payload now =>
    obtain ⟨new, hnew⟩ := scheduleQueuedData_appends (c := { c with unsent := c.unsent ++ payload })
      key now hsend.mss
    generalize scheduleQueuedData key { c with unsent := c.unsent ++ payload } now = sent
      at hnew hsend' ⊢
    exact h.sends hnew hrefl rfl hsend hsend' hnone
  | closed now =>
    obtain ⟨new, hnew⟩ := (Appends.nothing { c with closeRequested := true }).sequenceFin key now
    have hsends := h.sends (hnew.persist now) hrefl rfl hsend hsend' hnone
    simp only [Event.emittedInSequence, maybeSequenceFin_head]
    exact hsends
  | disarmed | probed => exact h.resends hdistinct.ends hrefl
  | resent oldest rest now _ hpending =>
    exact h.resends hdistinct.ends (timeout_survives key hdistinct hpending now)

theorem Processes.karn {options : TcpParsedOptions} (hproc : Processes c segment options)
    (hsynced : Synced S u c) {outcome : Connection × TcpReceiveResult}
    (hout : ProcessedOutcome memory key c segment options (processAck key c segment options now).2
      now outcome)
    (hremoval : outcome.1.pendingRemoval = false) (hsend' : SendInv S' u' outcome.1.view.send)
    (h : Karn 1 L c.pending) :
    Karn 1 (L.record (ends c.pending)
        (occupiedEnds (Event.emittedInSequence (.handle segment outcome.2)))
        ((retirementSample c segment.acknowledgmentNumber now).map (·.sequenceEnd)))
      outcome.1.pending := by
  obtain ⟨u₁, hpart⟩ := synced_of_processed hsynced hproc hout hremoval
  have hkept : Survives (retirementSample c segment.acknowledgmentNumber now)
      (occupiedEnds (processAck key c segment options now).2.toList) c.pending
      (receivePart memory (afterAck key c segment options now) segment now).connection.pending := by
    have hstages := (hsynced.send.processAck_survives key options now hproc.inSent).trans
      ((advanceClose_survives _ now).trans
        (receivePart_survives memory (afterAck key c segment options now) segment now))
    rw [append_nil, append_nil] at hstages
    exact hstages
  obtain ⟨hnxt, -⟩ := receivePart_afterAck memory key c segment options now
  have hemitted : occupiedEnds (Event.emittedInSequence (.handle segment outcome.2)) =
      occupiedEnds (processAck key c segment options now).2.toList ++
        occupiedEnds (scheduleIfSendable key
          (receivePart memory (afterAck key c segment options now) segment now).connection now).2 := by
    have hreply : occupiedEnds outcome.2.reply.toList = [] := by
      cases hr : outcome.2.reply with
      | none => rfl
      | some reply =>
        obtain rfl := hout.reply reply hr
        rfl
    unfold occupiedEnds at hreply ⊢
    rw [Event.emittedInSequence, filterMap_append, filterMap_append, hreply,
      hout.fastRetransmit, hout.scheduled, nil_append]
  obtain ⟨new, hnew⟩ := scheduleIfSendable_appends key now hpart.send.mss
  rw [hout.connection] at hsend' ⊢
  rw [hemitted]
  exact h.sends hnew hkept hnxt hsynced.send hsend' fun e he => mem_retirementSample he

theorem Synced.karn_handle (hsynced : Synced S u c)
    (hhandle : (handleExisting memory key c segment now).1 = some c')
    (hsend' : SendInv S' u' c'.view.send) (h : Karn 1 L c.pending) :
    Karn 1 (L.record (ends c.pending) (occupiedEnds
          (Event.emittedInSequence (.handle segment (handleExisting memory key c segment now).2)))
        ((handleSample c segment now).map (·.sequenceEnd)))
      c'.pending := by
  have hsync := hsynced.synchronized
  have hrefl := Survives.refl c.pending
  by_cases hproc : c.state ≠ .timeWait ∧ ∃ options, Processes c segment options
  · obtain ⟨hwait, options, hproc⟩ := hproc
    rw [handleExisting_of_synchronized memory key segment now hsync hwait] at hhandle ⊢
    obtain ⟨hremoval, rfl⟩ := eraseIfRemoved_eq_some hhandle
    rw [handleSample_of_retires (retires_of_processes hsync hwait hproc)]
    exact hproc.karn hsynced (handleSynchronized_processed memory key hproc now) hremoval hsend' h
  · have hnone : handleSample c segment now = none := by
      cases hret : retires c segment with
      | none => exact handleSample_eq_none hret now
      | some p =>
        refine absurd ⟨fun hwait => ?_, processes_of_retires hsync hret⟩ hproc
        unfold retires at hret
        simp [hwait] at hret
    rw [hnone]
    have hkept := handleExisting_kept hhandle
    generalize (handleExisting memory key c segment now).2 = result at hkept ⊢
    cases hkept with
    | ignored reply hreply =>
      have hquiet : occupiedEnds (Event.emittedInSequence (.handle segment { reply := reply })) =
          [] := by
        cases reply with
        | none => rfl
        | some r =>
          rw [hreply r rfl]
          rfl
      rw [hquiet]
      exact h.resends hsynced.send.distinct.ends hrefl
    | established _ hstate | resent hstate | completed hstate =>
      rw [hstate] at hsync
      cases hsync
    | restarted => exact h.resends hsynced.send.distinct.ends hrefl
    | processed options outcome _ hwait hproc' => exact absurd ⟨hwait, options, hproc'⟩ hproc

end Synchronized

/-! ## Calls on a half-open connection -/

/-- A SYN of the peer with the given sequence number. -/
def TcpSegment.isSynOf (segment : TcpSegment) (isn : SeqNum) : Bool :=
  segment.flags.syn && !segment.flags.ack && !segment.flags.rst && segment.sequenceNumber == isn

/-- How many SYNs with the given sequence number were received. -/
def History.synsReceived (h : History) (isn : SeqNum) : ℕ := h.received.countP (·.isSynOf isn)

theorem History.synsReceived_append (h : History) (e : Event) (isn : SeqNum) :
    synsReceived (h ++ [e]) isn = h.synsReceived isn + e.received.countP (·.isSynOf isn) := by
  rw [synsReceived, received_append, countP_append, synsReceived]

/-- How often an entry that is not marked as retransmitted has been sent: every SYN draws the
    SYN-ACK again. -/
def Connection.timesSent (c : Connection) (h : History) : ℕ :=
  if c.state = .synReceived then h.synsReceived c.remoteIsn else 1

theorem timesSent_of_synchronized (hsync : c.state.synchronized = true) (h : History) :
    c.timesSent h = 1 := by
  refine if_neg fun hstate => ?_
  rw [hstate] at hsync
  cases hsync

theorem timesSent_append {c' : Connection} (hstate : c'.state = c.state)
    (hisn : c'.remoteIsn = c.remoteIsn)
    (he : c.state = .synReceived → e.received.countP (·.isSynOf c.remoteIsn) = 0) (h : History) :
    c'.timesSent (h ++ [e]) = c.timesSent h := by
  unfold timesSent
  rw [hstate, hisn, History.synsReceived_append]
  split
  · next hreceived => rw [he hreceived, Nat.add_zero]
  · rfl

theorem synReceived_answers (hstate : c.state = .synReceived) (memory : ℕ → Byte)
    (key : TcpConnectionKey) (segment : TcpSegment) (now : TimePoint) :
    (handleExisting memory key c segment now).2.reply.any (·.flags.syn) =
      segment.isSynOf c.remoteIsn := by
  rw [handleExisting_of_synReceived memory key segment now hstate]
  unfold handleSynReceived TcpSegment.isSynOf
  split_ifs with hrst _ hsyn hisn hack <;> simp_all [makeSynAck]

section HalfOpen

variable {c c' : Connection} {L : Ledger} {key : TcpConnectionKey} {n : ℕ}

theorem HalfOpen.karn_call (hopen : HalfOpen c) (hkept : CallKept key c e c')
    (hreceived : e.received = []) (h : Karn n L c.pending) :
    Karn n (L.record (ends c.pending) (occupiedEnds e.emittedInSequence) none) c'.pending ∧
      c'.state = c.state ∧ c'.remoteIsn = c.remoteIsn := by
  have hdistinct := hopen.distinct
  have hrefl := Survives.refl c.pending
  have hnot := hopen.not_sendable
  cases hkept with
  | idle _ hemitted =>
    rw [(append_eq_nil_iff.1 hemitted).1]
    exact ⟨h.resends hdistinct.ends hrefl, rfl, rfl⟩
  | handle memory segment now _ result => cases hreceived
  | sent payload now hsendable | closed now hsendable =>
    simp [hnot] at hsendable
  | disarmed | probed => exact ⟨h.resends hdistinct.ends hrefl, rfl, rfl⟩
  | resent oldest rest now _ hpending =>
    refine ⟨h.resends hdistinct.ends (timeout_survives key hdistinct hpending now), ?_⟩
    unfold Connection.timedOutWith
    split <;> exact ⟨rfl, rfl⟩

theorem SynReceivedOk.karn_resent (hok : SynReceivedOk c) (now : TimePoint)
    (h : Karn n L c.pending) :
    Karn (n + 1) (L.record (ends c.pending) (occupiedEnds [makeSynAck key c]) none)
      (c.pending.modifyHead fun e => { e with lastSentAt := now }) := by
  have hstate : c.state = .synReceived := congrArg ControlView.state hok.control
  obtain ⟨e, hpending, hout⟩ := HalfOpen.pending_eq (Or.inr hok)
  have hend : (makeSynAck key c).occupiedEnd = some e.sequenceEnd := by
    rw [e.sequenceEnd_eq, hout, hstate]
    rfl
  rw [hpending] at h ⊢
  have hemitted : occupiedEnds [makeSynAck key c] = [e.sequenceEnd] := by
    rw [occupiedEnds, filterMap_cons_some hend]
    rfl
  rw [hemitted]
  have hmem : e ∈ [e] := mem_singleton_self e
  refine ⟨fun e' he' hmark => ?_, fun e' he' => ?_⟩
  · rw [mem_singleton.1 he'] at hmark ⊢
    show (if e.sequenceEnd ∈ ends [e] then L.emissions e.sequenceEnd else 0) +
      [e.sequenceEnd].count e.sequenceEnd = n + 1
    rw [if_pos (mem_ends hmem), h.once e hmem hmark, count_singleton_self]
  · rw [mem_singleton.1 he']
    show (if e.sequenceEnd ∈ ends [e] then L.samples e.sequenceEnd else 0) + 0 = _
    rw [if_pos (mem_ends hmem), h.sampled e hmem]
    rfl

theorem HalfOpen.karn_handle (hopen : HalfOpen c)
    (hhandle : (handleExisting memory key c segment now).1 = some c') (hist : History)
    (h : Karn (c.timesSent hist) L c.pending) :
    Karn (c'.timesSent (hist ++ [.handle segment (handleExisting memory key c segment now).2]))
      (L.record (ends c.pending) (occupiedEnds
          (Event.emittedInSequence (.handle segment (handleExisting memory key c segment now).2)))
        ((handleSample c segment now).map (·.sequenceEnd)))
      c'.pending := by
  -- Without a retirement there is no sample; with one the connection leaves the half-open states.
  have hsample : c'.state = c.state → handleSample c segment now = none := by
    intro hstate
    rcases hopen.state with hsyn | hsyn
    · rcases synSent_retires hsyn hhandle with ⟨hnone, -⟩ | ⟨options, -, rfl⟩
      · exact handleSample_eq_none hnone now
      · rw [establishedWith_shape, hsyn] at hstate
        cases hstate
    · rcases synReceived_retires hsyn hhandle with ⟨hnone, -⟩ | ⟨-, rfl⟩
      · exact handleSample_eq_none hnone now
      · rw [completeHandshake_shape, hsyn] at hstate
        cases hstate
  have hkept := handleExisting_kept hhandle
  have hanswers := fun hstate : c.state = .synReceived =>
    synReceived_answers hstate memory key segment now
  generalize (handleExisting memory key c segment now).2 = result at hkept hanswers ⊢
  have hcount : ∀ isn, countP (·.isSynOf isn) (Event.received (.handle segment result)) =
      if segment.isSynOf isn then 1 else 0 := fun isn => countP_singleton
  cases hkept with
  | ignored reply hreply =>
    have hquiet : occupiedEnds reply.toList = [] ∧ reply.any (·.flags.syn) = false := by
      cases reply with
      | none => exact ⟨rfl, rfl⟩
      | some r =>
        rw [hreply r rfl]
        exact ⟨rfl, rfl⟩
    have hemitted : Event.emittedInSequence (.handle segment { reply := reply }) =
        reply.toList := by
      simp [Event.emittedInSequence]
    have hsilent : c.state = .synReceived → countP (·.isSynOf c.remoteIsn)
        (Event.received (.handle segment { reply := reply })) = 0 := by
      intro hstate
      rw [hcount, ← hanswers hstate]
      exact if_neg (by simp [hquiet.2])
    rw [hsample rfl, hemitted, hquiet.1, timesSent_append rfl rfl hsilent]
    exact h.resends hopen.distinct.ends (Survives.refl _)
  | established options hstate hoptions _ _ hack =>
    rw [(establishedWith_fresh (hopen.synSentOk hstate) now hoptions hack).1.pending]
    exact Karn.nil ..
  | resent hstate =>
    have hok := hopen.synReceivedOk hstate
    have htimes : timesSent
        { c with pending := c.pending.modifyHead fun e => { e with lastSentAt := now } }
        (hist ++ [.handle segment { reply := some (makeSynAck key c) }]) =
        c.timesSent hist + 1 := by
      unfold timesSent
      rw [if_pos hstate, if_pos hstate, History.synsReceived_append, hcount, ← hanswers hstate]
      rfl
    rw [hsample rfl, htimes]
    exact hok.karn_resent now h
  | completed hstate =>
    rw [(completeHandshake_fresh (hopen.synReceivedOk hstate) segment now).1.pending]
    exact Karn.nil ..
  | restarted hstate =>
    have hsync := hopen.not_synchronized
    rw [hstate] at hsync
    cases hsync
  | processed options outcome hsync =>
    simp [hopen.not_synchronized] at hsync

end HalfOpen

/-! ## Runs -/

theorem Run.distinct (hs : Reachable s) (hc : s.table.find? key = some c) : Distinct c.pending := by
  obtain ⟨isn, hconn, -⟩ := (hs.keyInv key).conn
  cases (hconn c hc).ok with
  | halfOpen hopen => exact hopen.distinct
  | synced u hsynced => exact hsynced.send.distinct

/-- What the ledger of a key says about its connection. -/
structure LedgerInv (L : Ledger) (h : History) (c : Option Connection) : Prop where
  samples : ∀ x, L.samples x ≤ 1
  karn : ∀ c', c = some c' → Karn (c'.timesSent h) L c'.pending

theorem KeyStep.karn_first {listenPort : UInt16} (hstep : KeyStep listenPort key none e (some c))
    (L : Ledger) :
    Karn (c.timesSent [e]) (L.record [] (occupiedEnds e.emittedInSequence) none) c.pending := by
  have hsyn : ∀ entry : PendingTransmission, c.pending = [entry] → entry.rttSampleTaken = false →
      occupiedEnds e.emittedInSequence = [entry.sequenceEnd] → c.timesSent [e] = 1 →
      Karn (c.timesSent [e]) (L.record [] (occupiedEnds e.emittedInSequence) none) c.pending := by
    intro entry hpending hunsampled hemitted htimes
    have hdistinct : (ends ([] ++ [entry])).Nodup := nodup_singleton _
    have hnone : ∀ x, (none : Option PendingTransmission) = some x →
        x ∈ ([] : List PendingTransmission) ∧ x.rttEligible = true := fun _ h => nomatch h
    have hknown : ∀ x ∈ ([] : List SeqNum), x ∈ ends [] := fun _ h => nomatch h
    have hqueued : Karn 1 (L.record (ends []) ([] ++ ends [entry]) none) [entry] := by
      refine Karn.queued hknown hdistinct (fun x hx => ?_) hnone
      rw [mem_singleton.1 hx]
      exact hunsampled
    rw [hpending, hemitted, htimes]
    exact hqueued
  cases hstep with
  | connect isn now =>
    refine hsyn _ rfl rfl ?_ rfl
    rw [sequenceEnd_eq]
    rfl
  | accept segment options isn now hflag hack hrst =>
    have hstate : (acceptedWith segment options isn now).state = .synReceived := by
      unfold acceptedWith passiveConnection negotiate
      split <;> rfl
    refine hsyn _ rfl rfl ?_ ?_
    · rw [sequenceEnd_eq]
      rfl
    · rw [timesSent, if_pos hstate, acceptedWith_remoteIsn]
      simp [History.synsReceived, History.received, Event.received, TcpSegment.isSynOf, hflag, hack,
        hrst]

theorem LedgerRun.step_of_none (hnone : s.table.find? key = none) (op : Op) :
    LedgerInv (L.step key s op) ((s.step op).history key) ((s.step op).table.find? key) := by
  have hsample := Traced.sampleFor_of_none hnone op
  have hqueued : s.queuedEnds key = [] := by
    rw [Traced.queuedEnds, hnone]
    rfl
  unfold Ledger.step
  rw [hsample, hqueued]
  refine ⟨fun x => ?_, fun c' hc' => ?_⟩
  · show (if x ∈ ([] : List SeqNum) then L.samples x else 0) + 0 ≤ 1
    rw [if_neg not_mem_nil]
    exact Nat.zero_le _
  · rcases s.step_key key op with ⟨hsame, -⟩ | ⟨e, hevent, hstep, hhistory⟩
    · simp [hsame, hnone] at hc'
    · rw [hnone, hc'] at hstep hhistory
      rw [Traced.emittedEnds, hevent, hhistory]
      exact hstep.karn_first L

theorem LedgerInv.step_of_some (hs : Reachable s) (hc : s.table.find? key = some c)
    (h : Karn (c.timesSent (s.history key)) L c.pending) (op : Op) :
    LedgerInv (L.step key s op) ((s.step op).history key) ((s.step op).table.find? key) := by
  have hqueued : s.queuedEnds key = ends c.pending := by
    rw [Traced.queuedEnds, hc]
    rfl
  unfold Ledger.step
  rw [hqueued]
  refine ⟨h.samples_le (fun e he => Traced.mem_sampleFor hc he) _, fun c' hc' => ?_⟩
  obtain ⟨isn, hconn, -⟩ := (hs.keyInv key).conn
  have hok := (hconn c hc).ok
  have hdistinct := hs.distinct hc
  rcases Traced.step_sampled hc hc' with
    ⟨hnone, hevent, rfl⟩ | ⟨e, hnone, hevent, hreceived, hkept⟩ |
      ⟨memory, segment, now, rfl, hsample, hevent, hhandle⟩
  · -- The call is about another key.
    have hhistory : (s.step op).history key = s.history key := by
      simp only [Traced.step, hevent]
      rfl
    rw [hnone, Traced.emittedEnds, hevent, hhistory]
    exact h.resends hdistinct.ends (Survives.refl _)
  · have hstep := Traced.step_of_event hc hevent
    rw [hc'] at hstep
    rw [hnone, Traced.emittedEnds, hevent, Traced.history_of_event hc hevent]
    cases hsync : c.state.synchronized with
    | true =>
      obtain ⟨u, u', hsynced, hsynced'⟩ := (hok.step hstep).synchronized hsync
      rw [timesSent_of_synchronized hsync] at h
      rw [timesSent_of_synchronized hsynced'.synchronized]
      exact hkept.karn_synced hreceived hsynced.send hsynced'.send h
    | false =>
      have hopen : HalfOpen c := by
        cases hok with
        | halfOpen hopen => exact hopen
        | synced u hsynced =>
          simp [hsynced.synchronized] at hsync
      obtain ⟨hkarn, hstate, hisn⟩ := hopen.karn_call hkept hreceived h
      rw [timesSent_append hstate hisn fun _ => by rw [hreceived]; rfl]
      exact hkarn
  · have hstep := Traced.step_of_event hc hevent
    rw [hc'] at hstep
    rw [hsample, Traced.emittedEnds, hevent, Traced.history_of_event hc hevent]
    cases hsync : c.state.synchronized with
    | true =>
      obtain ⟨u, u', hsynced, hsynced'⟩ := (hok.step hstep).synchronized hsync
      rw [timesSent_of_synchronized hsync] at h
      rw [timesSent_of_synchronized hsynced'.synchronized]
      exact hsynced.karn_handle hhandle hsynced'.send h
    | false =>
      have hopen : HalfOpen c := by
        cases hok with
        | halfOpen hopen => exact hopen
        | synced u hsynced =>
          simp [hsynced.synchronized] at hsync
      exact hopen.karn_handle hhandle _ h

theorem LedgerRun.inv (h : LedgerRun key s L) :
    LedgerInv L (s.history key) (s.table.find? key) := by
  induction h with
  | start t ht =>
    refine ⟨fun _ => Nat.zero_le _, fun c' hc' => ?_⟩
    simp [TcpConnectionTable.find?_empty ht] at hc'
  | step s L op hrun ih =>
    cases hc : s.table.find? key with
    | none => exact LedgerRun.step_of_none hc op
    | some c => exact LedgerInv.step_of_some hrun.reachable hc (ih.karn c hc) op

/-- **Karn's rule.** Every RTT sample of a run comes from a queued entry, no entry gives two, and the
    estimator moves by samples only. The sampled entry was sent exactly once up to then, unless it
    is a SYN-ACK and the peer's SYN had arrived more than once. -/
theorem rttSample_sent_once {key : TcpConnectionKey} {s : Traced} {L : Ledger}
    (h : LedgerRun key s L) :
    (∀ x, L.samples x ≤ 1) ∧
    ∀ c, s.table.find? key = some c → (ends c.pending).Nodup ∧ ∀ op,
        (∀ c', (s.step op).table.find? key = some c' →
          c'.estimate = c.estimateAfter (s.sampleFor key op) op.now) ∧
        ∀ e, s.sampleFor key op = some e → e ∈ c.pending ∧ (L.emissions e.sequenceEnd = 1 ↔
            (c.state = .synReceived → (s.history key).synsReceived c.remoteIsn = 1)) := by
  refine ⟨h.inv.samples, fun c hc => ⟨?_, fun op => ⟨?_, ?_⟩⟩⟩
  · exact (h.reachable.distinct hc).ends
  · exact fun c' hc' => Traced.step_estimate hc hc'
  · intro e he
    obtain ⟨hmem, heligible⟩ := Traced.mem_sampleFor hc he
    simp only [rttEligible, Bool.and_eq_true, Bool.not_eq_true'] at heligible
    refine ⟨hmem, ?_⟩
    rw [(h.inv.karn c hc).once e hmem heligible.1, timesSent]
    split
    · next hstate => simp [hstate]
    · next hstate => simp [hstate]

/-- The acknowledgment of the first three bytes. -/
def exampleThreeAcked : TcpSegment := { exampleSegment 5001 [] with acknowledgmentNumber := 1004 }

/-- Three bytes are sent and acknowledged: the sample comes from an entry that was sent once. -/
theorem rttSample_sent_once_example :
    ∃ s L c e, LedgerRun exampleKey s L ∧ s.table.find? exampleKey = some c ∧
      s.sampleFor exampleKey (.handle noMemory exampleKey exampleThreeAcked 50) = some e ∧
      e ∈ c.pending ∧ L.emissions e.sequenceEnd = 1 := by
  obtain ⟨c, hc, hstate, hsample⟩ := exampleRun_at [] [.makeOutgoingData exampleKey [1, 2, 3] 0]
    (fun _ c => c.state = .established ∧ (handleSample c exampleThreeAcked 50).isSome = true)
      (by decide +kernel)
  obtain ⟨e, he⟩ := isSome_iff_exists.1 hsample
  obtain ⟨L, hL⟩ := (exampleRun_reachable [] [.makeOutgoingData exampleKey [1, 2, 3] 0]).ledger
    exampleKey
  have hfor := (Traced.sampleFor_handle hc noMemory exampleThreeAcked 50).trans he
  obtain ⟨hmem, honce⟩ := (((rttSample_sent_once hL).2 c hc).2 _).2 e hfor
  refine ⟨_, L, c, e, hL, hc, hfor, hmem, honce.2 fun hsyn => ?_⟩
  rw [hstate] at hsyn
  cases hsyn

/-- The acknowledgment that completes the example listener's handshake. -/
def exampleHandshakeAck : TcpSegment :=
  { sourcePort := 40000
    destinationPort := 80
    sequenceNumber := 1001
    acknowledgmentNumber := 5001
    flags := { ack := true }
    windowSize := 65535 }

/-- The SYN arrives twice, so the SYN-ACK is sent at 0 and at 100; the acknowledgment at 200 is
    measured against the first. -/
theorem rttSample_after_duplicate_syn :
    ∃ s L c e c', LedgerRun exampleKey.peer s L ∧ s.table.find? exampleKey.peer = some c ∧
      s.sampleFor exampleKey.peer (.handle noMemory exampleKey.peer exampleHandshakeAck 200) =
        some e ∧
      L.emissions e.sequenceEnd = 2 ∧
      (s.step (.handle noMemory exampleKey.peer exampleHandshakeAck 200)).table.find?
        exampleKey.peer = some c' ∧
      c.hasRttSample = false ∧ c'.hasRttSample = true ∧ c'.srtt = 200 := by
  let ops : List Op := [.handle noMemory exampleKey.peer exampleSyn 100]
  have hrun : ((performAll exampleKey.peer ops exampleAccepted.1 exampleAccepted.2).map fun p =>
      (p.1.synsReceived p.2.remoteIsn, p.2.state, p.2.hasRttSample,
        (handleSample p.2 exampleHandshakeAck 200).isSome,
        (handleExisting noMemory exampleKey.peer p.2 exampleHandshakeAck 200).1.map fun c' =>
          c'.hasRttSample && decide (c'.srtt = 200))) =
      some (2, .synReceived, false, true, some true) := by
    decide +kernel
  obtain ⟨⟨h, c⟩, houtcome, hval⟩ := map_eq_some_iff.1 hrun
  simp only [Prod.mk.injEq] at hval
  obtain ⟨hreplies, hstate, hbefore, hsample, hafter⟩ := hval
  obtain ⟨e, he⟩ := isSome_iff_exists.1 hsample
  obtain ⟨c', hc', hvals⟩ := map_eq_some_iff.1 hafter
  rw [Bool.and_eq_true, decide_eq_true_eq] at hvals
  have hstart : Reachable ⟨exampleListener, fun _ => []⟩ := .start exampleListener rfl
  have hreached := Reachable.replay
    (Run.step _ (.handle noMemory exampleKey.peer exampleSyn 0) hstart trivial) ops
  have hat := Traced.replay_at exampleListener_accept houtcome
  obtain ⟨hhist, hc⟩ := Prod.mk.inj hat
  obtain ⟨L, hL⟩ := hreached.ledger exampleKey.peer
  obtain ⟨hmem, heligible⟩ := mem_handleSample he
  simp only [rttEligible, Bool.and_eq_true, Bool.not_eq_true'] at heligible
  have htwice : L.emissions e.sequenceEnd = 2 := by
    rw [(hL.inv.karn c hc).once e hmem heligible.1, timesSent, if_pos hstate, hhist, hreplies]
  have hperform : performAt exampleKey.peer c
      (.handle noMemory exampleKey.peer exampleHandshakeAck 200) =
      some (.handle exampleHandshakeAck
        (handleExisting noMemory exampleKey.peer c exampleHandshakeAck 200).2, some c') := by
    rw [performAt, if_pos rfl, hc']
  have hnext := Traced.step_at hat hperform
  exact ⟨_, L, c, e, c', hL, hc, (Traced.sampleFor_handle hc ..).trans he, htwice,
    (Prod.mk.inj hnext).2, hbefore, hvals.1, hvals.2⟩

end Wirestack
