import Wirestack.Tcp.Recovery

set_option autoImplicit false

/-! # Recovery episodes

An episode starts with the call that enters fast recovery and lasts as long as the connection stays
in it. It is left by an acknowledgment of the recovery point, by the timeout of a data segment, and
with the connection. `Episode` collects the calls of one, whatever arrives, is sent or times out in
the meantime, and `episode_no_repeat` says what recovery sends again during it. -/

namespace Wirestack

open SerialNumber List TcpConnectionTable Connection Option PendingTransmission

variable {S : List Byte} {u : ℕ} {memory : ℕ → Byte} {segment f : TcpSegment}

variable {key : TcpConnectionKey} {s : Traced} {now : TimePoint}

/-! ## Episodes -/

def Event.fastRetransmit : Event → Option TcpSegment
  | .handle _ result => result.fastRetransmit
  | _ => none

/-- One call, with the connection before and after it and what it returned for the key. -/
structure EpisodeCall where
  op : Op
  before : Connection
  event : Option Event
  after : Connection

variable {calls : List EpisodeCall}

def EpisodeCall.fastRetransmit (call : EpisodeCall) : Option TcpSegment :=
  call.event.bind Event.fastRetransmit

/-- The calls since recovery was entered. -/
inductive Episode (key : TcpConnectionKey) : Traced → List EpisodeCall → Prop where
  | enter (s : Traced) (op : Op) (c c' : Connection) : Reachable s →
      s.table.find? key = some c → c.inFastRecovery = false →
      (s.step op).table.find? key = some c' → c'.inFastRecovery = true →
      Episode key (s.step op) [⟨op, c, s.table.eventFor key op, c'⟩]
  | stay (s : Traced) (op : Op) (calls : List EpisodeCall) (c c' : Connection) :
      Episode key s calls → s.table.find? key = some c →
      (s.step op).table.find? key = some c' → c'.inFastRecovery = true →
      Episode key (s.step op) (calls ++ [⟨op, c, s.table.eventFor key op, c'⟩])

theorem Episode.reachable (h : Episode key s calls) : Reachable s := by
  induction h with
  | enter s op c c' hs => exact .step s op hs trivial
  | stay s op calls c c' _ _ _ _ ih => exact .step s op ih trivial

/-! ## One call -/

section Calls

variable {h : History} {key : TcpConnectionKey} {c c' : Connection} {e : Event} {sent : List SeqNum}

theorem fastRetransmit_of_emitted (hemitted : e.emitted = []) : e.fastRetransmit = none := by
  cases e with
  | handle segment result =>
    simp only [Event.emitted, Event.emittedInSequence, append_eq_nil_iff,
      toList_eq_nil_iff] at hemitted
    exact hemitted.1.1.2
  | beginConnect result => rfl
  | makeOutgoingData payload result => rfl
  | beginClose result => rfl
  | pollPersistProbes probe => rfl
  | pollRetransmissions segment => rfl

theorem RecoveryStage.timedOut (hledger : Ledgered sent c) (hpoint : PointAhead c)
    {oldest : PendingTransmission} {rto : Duration}
    (hstays : (c.timedOutWith oldest).inFastRecovery = true) :
    RecoveryStage sent ({ c.timedOutWith oldest with
          pending := (c.timedOutWith oldest).pending.modifyHead (·.backOff now)
          currentRto := rto }, none) := by
  -- The collapse that goes with a timeout of data leaves recovery, so there was none.
  have hsame : c.timedOutWith oldest = c := by
    unfold timedOutWith at hstays ⊢
    split at hstays
    · cases hstays
    · next hcontrol => rw [if_neg hcontrol]
  have hqueue : (c.pending.modifyHead (·.backOff now)).map outstanding =
      c.pending.map outstanding := by
    apply map_modifyHead_unchanged
    intro e
    rfl
  rw [hsame]
  refine .silent ⟨hledger.nodup, hledger.below, ?_⟩ ?_
  · have hsettled := hledger.settled
    cases hpending : c.pending with
    | nil => exact fun _ he => nomatch he
    | cons e rest =>
      rw [hpending] at hsettled
      intro e' he'
      rcases mem_cons.1 he' with rfl | he'
      · exact (hsettled e (mem_cons_self ..)).congr rfl id
      · exact hsettled e' (mem_cons_of_mem _ he')
  · obtain ⟨k, hk, hpos, hle⟩ := hpoint
    refine ⟨k, hk, hpos, ?_⟩
    simp only [view, hqueue]
    exact hle

theorem RecoveryStage.call (hledger : Ledgered sent c) (hpoint : PointAhead c)
    (hsync : c.state.synchronized = true) (hrecovery : c.inFastRecovery = true)
    (hstep : ConnStep h c e c') (hkept : CallKept key c e c') (hstays : c'.inFastRecovery = true) :
    RecoveryStage sent (c', e.fastRetransmit) := by
  obtain ⟨u, u', hsynced, hsynced'⟩ := hstep.synchronized hsync
  have hspan := hsynced'.send.span_le
  -- Only a processed acknowledgment can send again; the other calls append to the queue at most.
  cases hkept with
  | idle _ hemitted =>
    rw [fastRetransmit_of_emitted hemitted]
    exact .silent hledger hpoint
  | handle memory segment now _ result hkept =>
    cases hkept with
    | ignored => exact .silent hledger hpoint
    | established options hstate _ _ _ _ | resent hstate _ _ _ | completed hstate _ _ _ _ =>
      rw [hstate] at hsync
      cases hsync
    | restarted => exact .silent ⟨hledger.nodup, hledger.below, hledger.settled⟩ hpoint
    | processed options outcome _ _ hproc hout =>
      rw [hout.shape] at hstays
      have hstage := RecoveryStage.processAck hledger hpoint hsynced.send hrecovery
        hproc.inSent hstays
      exact hstage.processed hsynced hproc hout hspan
  | sent payload now =>
    obtain ⟨new, hnew⟩ := scheduleQueuedData_appends (c := { c with unsent := c.unsent ++ payload })
      key now hsynced.send.mss
    have hledger' : Ledgered sent { c with unsent := c.unsent ++ payload } :=
      ⟨hledger.nodup, hledger.below, hledger.settled⟩
    obtain ⟨hledger'', hpoint''⟩ := hledger'.appends hpoint hsynced.send.tiled hnew hspan
      (by rw [scheduleQueuedData_shape]) (by rw [scheduleQueuedData_shape])
    exact .silent hledger'' hpoint''
  | closed now =>
    obtain ⟨new, hnew⟩ := (Appends.nothing { c with closeRequested := true }).sequenceFin key now
    obtain ⟨_, hclosed⟩ := closed_shape key c now
    have hledger' : Ledgered sent { c with closeRequested := true } :=
      ⟨hledger.nodup, hledger.below, hledger.settled⟩
    obtain ⟨hledger'', hpoint''⟩ := hledger'.appends hpoint hsynced.send.tiled (hnew.persist now)
      hspan (by rw [hclosed]) (by rw [hclosed])
    exact .silent hledger'' hpoint''
  | disarmed _ | probed _ _ _ _ _ =>
    exact .silent ⟨hledger.nodup, hledger.below, hledger.settled⟩ hpoint
  | resent oldest rest now => exact .timedOut hledger hpoint hstays

theorem RecoveryStage.call_enter (hrecovery : c.inFastRecovery = false) (hstep : ConnStep h c e c')
    (hkept : CallKept key c e c') (hstarts : c'.inFastRecovery = true) :
    RecoveryStage [] (c', e.fastRetransmit) ∧ c.state.synchronized = true := by
  have hnot : ¬ c.inFastRecovery = true := by rw [hrecovery]; exact Bool.false_ne_true
  cases hkept with
  | idle => exact absurd hstarts hnot
  | handle memory segment now _ result hkept =>
    cases hkept with
    | ignored => exact absurd hstarts hnot
    | established options =>
      have hnegotiate : (c.negotiate options).inFastRecovery = c.inFastRecovery := by
        unfold negotiate
        cases options.windowScale <;> rfl
      rw [establishedWith_shape] at hstarts
      exact absurd (hnegotiate.symm.trans hstarts) hnot
    | resent => exact absurd hstarts hnot
    | completed =>
      rw [completeHandshake_shape] at hstarts
      exact absurd hstarts hnot
    | restarted => exact absurd hstarts hnot
    | processed options outcome hsync _ hproc hout =>
      obtain ⟨u, u', hsynced, hsynced'⟩ := hstep.synchronized hsync
      rw [hout.shape] at hstarts
      have hstage := RecoveryStage.processAck_enter hsynced.send hrecovery hproc.inSent hstarts
      exact ⟨hstage.processed hsynced hproc hout hsynced'.send.span_le, hsync⟩
  | sent payload now =>
    rw [scheduleQueuedData_shape] at hstarts
    exact absurd hstarts hnot
  | closed now =>
    obtain ⟨_, hclosed⟩ := closed_shape key c now
    rw [hclosed] at hstarts
    exact absurd hstarts hnot
  | disarmed _ | probed _ _ _ _ _ => exact absurd hstarts hnot
  | resent oldest rest now =>
    change (c.timedOutWith oldest).inFastRecovery = true at hstarts
    unfold timedOutWith at hstarts
    split at hstarts
    · cases hstarts
    · exact absurd hstarts hnot

theorem HandleKept.resent_timers (hsynced : Synced S u c) {result : TcpReceiveResult}
    (hkept : HandleKept memory key c segment now c' result) (hfast : result.fastRetransmit = some f) :
    c'.currentRto = (retireAcknowledged c segment.acknowledgmentNumber now).1.currentRto ∧
    ∃ new, c'.pending.map PendingTransmission.erased =
      (retireAcknowledged c segment.acknowledgmentNumber now).1.pending.map
        PendingTransmission.erased ++ new := by
  cases hkept with
  | ignored _ _ | established _ _ _ _ _ _ | resent _ _ _ _ | completed _ _ _ _ _ | restarted _ _ =>
    cases hfast
  | processed options outcome _ _ hproc hout =>
    have hpending := (processAck_recovering (hout.fastRetransmit.symm.trans hfast)).2
    obtain ⟨-, new, hnew⟩ := processed_outstanding hsynced hproc hpending hout
    refine ⟨?_, new.map PendingTransmission.erased, ?_⟩
    · rw [hout.shape, processAck_retired]
      rfl
    · rw [hnew, map_append, processAck_erased]

theorem handleExisting_recovering (hsynced : Synced S u c)
    (hfast : (handleExisting memory key c segment now).2.fastRetransmit = some f) :
    ∃ c', (handleExisting memory key c segment now).1 = some c' ∧ c'.inFastRecovery = true := by
  by_cases hwait : c.state = .timeWait
  · rw [handleExisting_of_timeWait memory key segment now hwait] at hfast
    unfold eraseIfRemoved handleTimeWait at hfast
    dsimp only at hfast
    split_ifs at hfast
  · rw [handleExisting_of_synchronized memory key segment now hsynced.synchronized hwait] at hfast ⊢
    have hcases := handleSynchronized_cases memory key c segment now
    generalize handleSynchronized memory key c segment now = outcome at hcases hfast ⊢
    cases hcases with
    | dropped _ _ _ _ | reset _ _ _ _ _ => cases hfast
    | processed options _ hproc hout =>
      obtain ⟨hrecovery, hpending⟩ := processAck_recovering (hout.fastRetransmit.symm.trans hfast)
      obtain ⟨hremoval, -⟩ := processed_outstanding hsynced hproc hpending hout
      refine ⟨outcome.1, ?_, by rw [hout.shape]; exact hrecovery⟩
      rw [eraseIfRemoved, hremoval]
      rfl

end Calls

/-! ## Whole episodes -/

section Runs

variable {key : TcpConnectionKey} {s : Traced} {op : Op} {c c' : Connection} {f : TcpSegment}

theorem Traced.step_call (hs : Reachable s) (hc : s.table.find? key = some c)
    (hc' : (s.step op).table.find? key = some c') :
    s.table.eventFor key op = none ∧ c' = c ∨
    ∃ e, s.table.eventFor key op = some e ∧ ConnStep (s.history key) c e c' ∧
      CallKept key c e c' := by
  rcases s.table.apply_key op key with ⟨hnone, hsame⟩ | ⟨e, hsome, hkey⟩
  · left
    exact ⟨hnone, some.inj (hc'.symm.trans (hsame.trans hc))⟩
  · right
    rw [hc, show (s.table.apply op).find? key = some c' from hc'] at hkey
    exact ⟨e, hsome, (Run.connInv hs hc).ok.step hkey, hkey.kept⟩

theorem Traced.fastRetransmit_handle (hc : s.table.find? key = some c) (memory : ℕ → Byte)
    (segment : TcpSegment) (now : TimePoint) :
    (s.table.eventFor key (.handle memory key segment now)).bind Event.fastRetransmit =
      (handleExisting memory key c segment now).2.fastRetransmit := by
  have hhandle := handle_of_some hc memory segment now
  simp only [eventFor, if_true, hhandle]
  rfl

theorem Traced.step_resent (hc : s.table.find? key = some c)
    (hfast : (s.table.eventFor key op).bind Event.fastRetransmit = some f) :
    ∃ memory segment now, op = .handle memory key segment now ∧
      (handleExisting memory key c segment now).2.fastRetransmit = some f ∧
      (s.step op).table.find? key = (handleExisting memory key c segment now).1 := by
  obtain ⟨e, hevent, hresent⟩ := bind_eq_some_iff.1 hfast
  cases e with
  | handle segment result =>
    obtain ⟨memory, now, rfl⟩ := op_of_handle hevent
    rw [Traced.fastRetransmit_handle hc] at hfast
    refine ⟨memory, segment, now, rfl, hfast, ?_⟩
    show (s.table.handle memory key segment now).1.find? key = _
    rw [handle_of_some hc, find?_put, if_pos rfl]
  | beginConnect result | makeOutgoingData payload result | beginClose result
  | pollPersistProbes probe | pollRetransmissions segment => cases hresent

end Runs

/-- What holds of a segment that a call of an episode sends again. Its start lies between `sndUna`
    and the recovery point, and it is a data entry of the queue that is not marked as received. The
    call leaves `currentRto` and the queue entries as retiring what was acknowledged does, up to the
    fields that `PendingTransmission.erased` clears; entries behind these are new. -/
structure EpisodeCall.Resends (key : TcpConnectionKey) (call : EpisodeCall) (segment : TcpSegment) :
    Prop where
  sentAgain : SentAgain call.after segment
  timers : ∃ memory arrived now new, call.op = .handle memory key arrived now ∧
    call.after.currentRto =
      (retireAcknowledged call.before arrived.acknowledgmentNumber now).1.currentRto ∧
    call.after.pending.map PendingTransmission.erased =
      (retireAcknowledged call.before arrived.acknowledgmentNumber now).1.pending.map
        PendingTransmission.erased ++ new

/-- What was sent again since recovery was entered. -/
def resentStarts (calls : List EpisodeCall) : List SeqNum :=
  calls.flatMap fun call => starts call.fastRetransmit

/-- The connection during an episode. -/
structure EpisodeInv (key : TcpConnectionKey) (calls : List EpisodeCall) (c : Connection) :
    Prop where
  synchronized : c.state.synchronized = true
  recovering : c.inFastRecovery = true
  ledger : Ledgered (resentStarts calls) c
  point : PointAhead c
  resends : ∀ call ∈ calls, ∀ segment, call.fastRetransmit = some segment →
    call.Resends key segment

theorem EpisodeInv.extend {op : Op} {c c' : Connection} (hs : Reachable s)
    (hc : s.table.find? key = some c) (hsync : c.state.synchronized = true)
    (hc' : (s.step op).table.find? key = some c') (hsync' : c'.state.synchronized = true)
    (hstays : c'.inFastRecovery = true)
    (hstage : RecoveryStage (resentStarts calls)
      (c', (s.table.eventFor key op).bind Event.fastRetransmit))
    (hbefore : ∀ call ∈ calls, ∀ segment, call.fastRetransmit = some segment →
      call.Resends key segment) :
    EpisodeInv key (calls ++ [⟨op, c, s.table.eventFor key op, c'⟩]) c' where
  synchronized := hsync'
  recovering := hstays
  ledger := by
    rw [resentStarts, flatMap_append, flatMap_singleton]
    exact hstage.ledger
  point := hstage.point
  resends := by
    intro call hcall segment hfast
    rcases mem_append.1 hcall with hcall | hcall
    · exact hbefore call hcall segment hfast
    · obtain rfl := mem_singleton.1 hcall
      obtain ⟨memory, arrived, now, hop, hresent, hafter⟩ := Traced.step_resent hc hfast
      obtain ⟨u, hsynced⟩ := Run.synced hs hc hsync
      have hkept := handleExisting_kept (hafter.symm.trans hc')
      obtain ⟨hrto, new, hpending⟩ := hkept.resent_timers hsynced hresent
      exact ⟨hstage.resent segment hfast, memory, arrived, now, new, hop, hrto, hpending⟩

theorem Episode.inv (h : Episode key s calls) :
    ∃ c, s.table.find? key = some c ∧ EpisodeInv key calls c := by
  induction h with
  | enter s op c c' hs hc hnot hc' hstarts =>
    refine ⟨c', hc', ?_⟩
    rcases Traced.step_call hs hc hc' with ⟨-, rfl⟩ | ⟨e, hevent, hstep, hkept⟩
    · simp [hnot] at hstarts
    · obtain ⟨hstage, hsync⟩ := RecoveryStage.call_enter hnot hstep hkept hstarts
      obtain ⟨_, _, -, hsynced'⟩ := hstep.synchronized hsync
      have hinv : EpisodeInv key ([] ++ [⟨op, c, s.table.eventFor key op, c'⟩]) c' := by
        refine EpisodeInv.extend hs hc hsync hc' hsynced'.synchronized hstarts ?_
          (fun _ hcall => nomatch hcall)
        rwa [hevent]
      exact hinv
  | stay s op calls c c' hepisode hc hc' hstays ih =>
    refine ⟨c', hc', ?_⟩
    obtain ⟨c₀, hc₀, hinv⟩ := ih
    obtain rfl : c = c₀ := some.inj (hc.symm.trans hc₀)
    have hs := hepisode.reachable
    rcases Traced.step_call hs hc hc' with ⟨hnone, rfl⟩ | ⟨e, hevent, hstep, hkept⟩
    · refine EpisodeInv.extend hs hc hinv.synchronized hc' hinv.synchronized hstays ?_ hinv.resends
      rw [hnone]
      exact .silent hinv.ledger hinv.point
    · obtain ⟨_, _, -, hsynced'⟩ := hstep.synchronized hinv.synchronized
      have hstage := RecoveryStage.call hinv.ledger hinv.point hinv.synchronized hinv.recovering
        hstep hkept hstays
      refine EpisodeInv.extend hs hc hinv.synchronized hc' hsynced'.synchronized hstays ?_
        hinv.resends
      rwa [hevent]

/-- **No repeated fast retransmission.** During an episode no two segments that `handle` sends again
    start at the same sequence number, each of them is data of the queue between `sndUna` and the
    recovery point that is not marked as received, and sending it again touches no timer. The call
    that ends the episode sends nothing again. -/
theorem episode_no_repeat {key : TcpConnectionKey} {s : Traced} {calls : List EpisodeCall}
    (h : Episode key s calls) :
    (resentStarts calls).Nodup ∧
    (∀ call ∈ calls, ∀ segment, call.fastRetransmit = some segment → call.Resends key segment) ∧
    ∀ op, (∀ c', (s.step op).table.find? key = some c' → c'.inFastRecovery = false) →
      (s.table.eventFor key op).bind Event.fastRetransmit = none := by
  obtain ⟨c, hc, hinv⟩ := h.inv
  refine ⟨hinv.ledger.nodup, hinv.resends, fun op hends => ?_⟩
  cases hfast : (s.table.eventFor key op).bind Event.fastRetransmit with
  | none => rfl
  | some f =>
      obtain ⟨u, hsynced⟩ := Run.synced h.reachable hc hinv.synchronized
      obtain ⟨memory, segment, now, rfl, hresent, hafter⟩ := Traced.step_resent hc hfast
      obtain ⟨c', hc', hrecovery⟩ := handleExisting_recovering hsynced hresent
      simp [hends c' (hafter.trans hc')] at hrecovery

/-- Ten bytes in segments of two are out, and the first is reported missing. -/
def exampleMissing : List Op :=
  [.makeOutgoingData exampleKey [1, 2, 3, 4, 5, 6, 7, 8, 9, 10] 0,
    .handle noMemory exampleKey (exampleSegment 5001 []) 0,
    .handle noMemory exampleKey (exampleSegment 5001 []) 0]

/-- An acknowledgment of the first byte, which trims the segment that was sent again. -/
def examplePartialAck : TcpSegment := { exampleSegment 5001 [] with acknowledgmentNumber := 1002 }

/-- The third duplicate sends 1001 again, the partial acknowledgment the rest of that segment. -/
theorem episode_no_repeat_example :
    ∃ s calls, Episode exampleKey s calls ∧ resentStarts calls = [1001, 1002] ∧
      (resentStarts calls).Nodup := by
  obtain ⟨c₀, hc₀, hval₀⟩ := exampleRun_at [2, 4, 0, 2] exampleMissing
    (fun _ c => c.inFastRecovery = false ∧
      (handleExisting noMemory exampleKey c (exampleSegment 5001 []) 0).2.fastRetransmit.map
        (·.sequenceNumber) = some 1001) (by decide +kernel)
  obtain ⟨c₁, hc₁, hval₁⟩ := exampleRun_at [2, 4, 0, 2]
    (exampleMissing ++ [.handle noMemory exampleKey (exampleSegment 5001 []) 0])
    (fun _ c => c.inFastRecovery = true ∧
      (handleExisting noMemory exampleKey c examplePartialAck 0).2.fastRetransmit.map
        (·.sequenceNumber) = some 1002) (by decide +kernel)
  obtain ⟨c₂, hc₂, hrecovery⟩ := exampleRun_at [2, 4, 0, 2]
    (exampleMissing ++ [.handle noMemory exampleKey (exampleSegment 5001 []) 0,
      .handle noMemory exampleKey examplePartialAck 0]) (fun _ c => c.inFastRecovery = true)
    (by decide +kernel)
  have hepisode := Episode.stay _ (.handle noMemory exampleKey examplePartialAck 0) _ c₁ c₂
    (Episode.enter _ (.handle noMemory exampleKey (exampleSegment 5001 []) 0) c₀ c₁
      (exampleRun_reachable _ _) hc₀ hval₀.1 hc₁ hval₁.1) hc₁ hc₂ hrecovery
  refine ⟨_, _, hepisode, ?_, (episode_no_repeat hepisode).1⟩
  unfold resentStarts EpisodeCall.fastRetransmit starts
  simp only [cons_append, nil_append, flatMap_cons, flatMap_nil]
  have hstep : ((exampleRun [2, 4, 0, 2] exampleMissing).step
      (.handle noMemory exampleKey (exampleSegment 5001 []) 0)).table.find? exampleKey =
        some c₁ := hc₁
  rw [Traced.fastRetransmit_handle hc₀, hval₀.2, Traced.fastRetransmit_handle hstep, hval₁.2]
  rfl

end Wirestack
