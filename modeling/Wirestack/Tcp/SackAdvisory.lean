import Wirestack.Tcp.Replay
import Wirestack.Tcp.SackCoverage
import Wirestack.Tcp.Transitions

set_option autoImplicit false

/-! # SACK information is advisory

Two connections are alike if they differ at most in four bookkeeping fields of their queue entries
(`Alike`). What a SACK report does is not visible beyond that relation: marking is within it
(`Alike.applySackBlocks`), and so is the choice of the entry that loss recovery sends again
(`Alike.retransmitForRecovery`). Every other stage of `handleSynchronized` takes alike connections to
alike connections and produces the same output for both, because none of them reads the four
fields. -/

namespace Wirestack

open TcpConnectionTable Connection

variable {pending : List PendingTransmission}

/-! ## Alike connections -/

/-- The entry without the fields that a SACK report and loss recovery may change. -/
def PendingTransmission.erased (e : PendingTransmission) : PendingTransmission :=
  { e with
    lastSentAt := 0
    wasRetransmitted := false
    sacked := false
    retransmittedInRecovery := false }

/-- The connection without the same fields. -/
def Connection.erased (c : Connection) : Connection :=
  { c with pending := c.pending.map PendingTransmission.erased }

/-- `c'` is `c` with a queue that has the same erased entries. -/
inductive Alike (c : Connection) : Connection → Prop where
  | mk (pending : List PendingTransmission)
      (h : pending.map PendingTransmission.erased = c.pending.map PendingTransmission.erased) :
      Alike c { c with pending := pending }

namespace Alike

variable {c c' c'' : Connection}

theorem refl (c : Connection) : Alike c c := .mk c.pending rfl

theorem symm (h : Alike c c') : Alike c' c := by
  cases h with
  | mk pending h => exact .mk c.pending h.symm

theorem trans (h : Alike c c') (h' : Alike c' c'') : Alike c c'' := by
  cases h with
  | mk pending h =>
    cases h' with
    | mk pending' h' => exact .mk pending' (h'.trans h)

theorem erased (h : Alike c c') : c'.erased = c.erased := by
  cases h with
  | mk pending h =>
    unfold Connection.erased
    rw [h]

/-! ## What loss recovery and SACK change -/

theorem applySackBlocks (c : Connection) (ack : SeqNum) (blocks : List TcpSackBlock) :
    Alike c (applySackBlocks c ack blocks) := by
  rw [applySackBlocks_eq]
  apply Alike.mk
  apply map_map_unchanged
  intro e
  rfl

theorem retransmitForRecovery (key : TcpConnectionKey) (c : Connection) (now : TimePoint) :
    Alike c (retransmitForRecovery key c now).1 := by
  unfold Wirestack.retransmitForRecovery
  split
  · exact refl c
  · apply Alike.mk
    apply map_modify_unchanged
    intro e
    rfl

/-! ## Acknowledgment processing -/

theorem map_erased_clearRecoveryMarks (pending : List PendingTransmission) :
    (clearRecoveryMarks pending).map PendingTransmission.erased =
      pending.map PendingTransmission.erased := by
  apply map_map_unchanged
  intro e
  rfl

theorem clearRecoveryMarks
    (h : pending.map PendingTransmission.erased = c.pending.map PendingTransmission.erased) :
    (clearRecoveryMarks pending).map PendingTransmission.erased =
      (clearRecoveryMarks c.pending).map PendingTransmission.erased := by
  rw [map_erased_clearRecoveryMarks, map_erased_clearRecoveryMarks, h]

theorem updateSendWindow (h : Alike c c') (segment : TcpSegment) :
    Alike (c.updateSendWindow segment) (c'.updateSendWindow segment) := by
  cases h with
  | mk pending h =>
    unfold updateSendWindow
    split_ifs
    · exact .mk pending h
    · exact .mk pending h

theorem recovery (h : Alike c c') (key : TcpConnectionKey) (now : TimePoint) :
    Alike (Wirestack.retransmitForRecovery key c now).1
      (Wirestack.retransmitForRecovery key c' now).1 :=
  (retransmitForRecovery key c now).symm.trans (h.trans (retransmitForRecovery key c' now))

theorem applyCongestionGrowth (h : Alike c c') (dataBytes : ℕ) :
    Alike (c.applyCongestionGrowth dataBytes) (c'.applyCongestionGrowth dataBytes) := by
  cases h with
  | mk pending h =>
    unfold applyCongestionGrowth
    split_ifs
    · exact .mk pending h
    · exact .mk pending h
    · exact .mk pending h

theorem onAdvancingAck (h : Alike c c') (key : TcpConnectionKey) (ack : SeqNum)
    (retired : TcpAckRetirementResult) (now : TimePoint) :
    Alike (onAdvancingAck key c ack retired now).1 (onAdvancingAck key c' ack retired now).1 := by
  cases h with
  | mk pending h =>
    have hreset : Alike { c with duplicateAckCount := 0 }
        { c with pending := pending, duplicateAckCount := 0 } := .mk pending h
    unfold Wirestack.onAdvancingAck
    by_cases hrecovery : c.inFastRecovery = true
    · rw [if_pos hrecovery, if_pos hrecovery]
      by_cases hfull : sequenceLessOrEqual c.recoveryPoint ack = true
      · rw [if_pos hfull, if_pos hfull]
        exact .mk _ (clearRecoveryMarks h)
      · rw [if_neg hfull, if_neg hfull]
        apply recovery
        exact .mk pending h
    · rw [if_neg hrecovery, if_neg hrecovery]
      exact hreset.applyCongestionGrowth _

theorem any_data_eq {pending' : List PendingTransmission}
    (h : pending'.map PendingTransmission.erased = pending.map PendingTransmission.erased) :
    (pending'.any fun e => !e.isSyn && !e.isFin) = pending.any fun e => !e.isSyn && !e.isFin := by
  have herased : ∀ l : List PendingTransmission, (l.any fun e => !e.isSyn && !e.isFin) =
      (l.map PendingTransmission.erased).any fun e => !e.isSyn && !e.isFin := by
    intro l
    rw [List.any_map]
    rfl
  rw [herased, h, ← herased]

theorem onStandingAck (h : Alike c c') (key : TcpConnectionKey) (segment : TcpSegment)
    (windowChanged : Bool) (now : TimePoint) :
    Alike (onStandingAck key c segment windowChanged now).1
      (onStandingAck key c' segment windowChanged now).1 := by
  cases h with
  | mk pending h =>
    -- Whether the acknowledgment is a duplicate depends on the queue through this test only.
    unfold Wirestack.onStandingAck
    dsimp only
    rw [any_data_eq h]
    split_ifs
    · apply recovery
      exact .mk pending h
    · exact .mk pending h
    · apply recovery
      exact .mk _ (clearRecoveryMarks h)
    · exact .mk pending h
    · exact .mk pending h
    · exact .mk pending h

theorem afterRetire (c : Connection) (segment : TcpSegment) (options options' : TcpParsedOptions)
    (now : TimePoint) :
    Alike (afterRetire c segment options now) (afterRetire c segment options' now) := by
  unfold Wirestack.afterRetire
  dsimp only
  split_ifs
  · exact (applySackBlocks _ _ _).symm.trans (applySackBlocks _ _ _)
  · exact refl _

theorem sndWnd (h : Alike c c') : c'.sndWnd = c.sndWnd := by
  cases h with
  | mk pending h => rfl

theorem processAck (key : TcpConnectionKey) (c : Connection) (segment : TcpSegment)
    (options options' : TcpParsedOptions) (now : TimePoint) :
    Alike (processAck key c segment options now).1 (processAck key c segment options' now).1 := by
  have hretired := afterRetire c segment options options' now
  have hupdated := hretired.updateSendWindow segment
  rw [processAck_eq, processAck_eq]
  split_ifs
  · exact hupdated.onAdvancingAck ..
  · rw [hupdated.sndWnd, hretired.sndWnd]
    exact hupdated.onStandingAck ..

theorem advanceClose (h : Alike c c') (now : TimePoint) :
    Alike (c.advanceClose now) (c'.advanceClose now) := by
  cases h with
  | mk pending h =>
    have hacked : localFinAcked { c with pending := pending } = c.localFinAcked := rfl
    unfold advanceClose
    rw [hacked]
    split_ifs
    · exact .mk pending h
    · exact .mk [] rfl
    · exact .mk pending h
    · exact .mk pending h

/-! ## Scheduling -/

/-- A stage leaves alike connections behind and has the same output for both. -/
structure Stage {α : Type} (out out' : Connection × α) : Prop where
  connection : Alike out.1 out'.1
  output : out'.2 = out.2

theorem updatePersistState (h : Alike c c') (now : TimePoint) :
    Alike (c.updatePersistState now) (c'.updatePersistState now) := by
  cases h with
  | mk pending h =>
    have heligible : persistEligible { c with pending := pending } = c.persistEligible := rfl
    unfold updatePersistState
    rw [heligible]
    split_ifs
    · exact .mk pending h
    · exact .mk pending h
    · exact .mk pending h

theorem append (new : List PendingTransmission)
    (h : pending.map PendingTransmission.erased = c.pending.map PendingTransmission.erased) :
    (pending ++ new).map PendingTransmission.erased =
      (c.pending ++ new).map PendingTransmission.erased := by
  rw [List.map_append, List.map_append, h]

theorem maybeSequenceFin (h : Alike c c') (key : TcpConnectionKey) (now : TimePoint)
    (segments : List TcpSegment) :
    Stage (maybeSequenceFin key c now segments) (maybeSequenceFin key c' now segments) := by
  cases h with
  | mk pending h =>
    have hwindow : availableSendWindow { c with pending := pending } = c.availableSendWindow := rfl
    unfold Wirestack.maybeSequenceFin
    rw [hwindow]
    split_ifs
    all_goals first
      | exact ⟨.mk pending h, rfl⟩
      | exact ⟨.mk _ (append _ h), rfl⟩

theorem cutSegments (h : Alike c c') (key : TcpConnectionKey) (draining : Bool) (fuel : ℕ)
    (seq : SeqNum) (bytes : List Byte) :
    cutSegments key c' draining fuel seq bytes = cutSegments key c draining fuel seq bytes := by
  cases h with
  | mk pending h =>
    induction fuel generalizing seq bytes with
    | zero => rfl
    | succ fuel ih =>
      simp only [Wirestack.cutSegments, ih]
      rfl

theorem sendQueued (h : Alike c c') (key : TcpConnectionKey) (now : TimePoint) :
    Stage (sendQueued key c now) (sendQueued key c' now) := by
  have hcut := cutSegments h key
  cases h with
  | mk pending h =>
    have hallowance : sendAllowance { c with pending := pending } = c.sendAllowance := rfl
    unfold Wirestack.sendQueued
    rw [hallowance]
    dsimp only
    split_ifs
    · rw [hcut]
      exact ⟨.mk _ (append _ h), rfl⟩
    · exact ⟨.mk pending h, rfl⟩

theorem unsent (h : Alike c c') : c'.unsent = c.unsent := by
  cases h with
  | mk pending h => rfl

theorem scheduleQueuedData (h : Alike c c') (key : TcpConnectionKey) (now : TimePoint) :
    Stage (scheduleQueuedData key c now) (scheduleQueuedData key c' now) := by
  have hsent := h.sendQueued key now
  unfold Wirestack.scheduleQueuedData
  generalize Wirestack.sendQueued key c now = sent at hsent ⊢
  generalize Wirestack.sendQueued key c' now = sent' at hsent ⊢
  obtain ⟨d, segments⟩ := sent
  obtain ⟨d', segments'⟩ := sent'
  obtain ⟨hd, hsegments⟩ := hsent
  dsimp only at hd hsegments ⊢
  rw [hd.unsent, hsegments]
  split_ifs
  · obtain ⟨hfin, hout⟩ := hd.maybeSequenceFin key now segments
    exact ⟨hfin.updatePersistState now, hout⟩
  · exact ⟨hd.updatePersistState now, rfl⟩

theorem scheduleIfSendable (h : Alike c c') (key : TcpConnectionKey) (now : TimePoint) :
    Stage (scheduleIfSendable key c now) (scheduleIfSendable key c' now) := by
  have hscheduled := h.scheduleQueuedData key now
  have hpersist := h.updatePersistState now
  cases h with
  | mk pending h =>
    unfold Wirestack.scheduleIfSendable
    split_ifs
    · exact hscheduled
    · exact ⟨hpersist, rfl⟩

/-! ## The receive side -/

theorem storeSegment (h : Alike c c') (memory : ℕ → Byte) (segment : TcpSegment) :
    Stage (storeSegment memory c segment) (storeSegment memory c' segment) := by
  cases h with
  | mk pending h =>
    have hany : anyPayloadInWindow { c with pending := pending } segment =
        c.anyPayloadInWindow segment := rfl
    have hfin : finInWindow { c with pending := pending } segment = c.finInWindow segment := rfl
    have hstart : usableStart { c with pending := pending } segment = c.usableStart segment := rfl
    have husable : usablePayload memory { c with pending := pending } segment =
        usablePayload memory c segment := rfl
    have hinsert : ∀ start payload, Alike (insertReassemblyFragment c start payload)
          (insertReassemblyFragment { c with pending := pending } start payload) :=
      fun start payload => .mk pending h
    unfold Wirestack.storeSegment
    rw [hany, hfin, hstart, husable]
    generalize usablePayload memory c segment = payload
    generalize c.usableStart segment = start
    have hstored := hinsert start payload
    generalize insertReassemblyFragment c start payload = stored at hstored ⊢
    generalize insertReassemblyFragment { c with pending := pending } start payload = stored'
      at hstored ⊢
    cases hstored with
    | mk pending' h' =>
      dsimp only
      split_ifs
      · exact ⟨.mk pending' h', rfl⟩
      · exact ⟨.mk pending h, rfl⟩
      · exact ⟨.mk pending' h', rfl⟩
      · exact ⟨.mk pending h, rfl⟩

theorem releaseContiguous (h : Alike c c') :
    Stage (releaseContiguous c) (releaseContiguous c') := by
  cases h with
  | mk pending h => exact ⟨.mk pending h, rfl⟩

theorem consumeFin (h : Alike c c') (now : TimePoint) :
    Stage (consumeFin c now) (consumeFin c' now) := by
  cases h with
  | mk pending h =>
    unfold Wirestack.consumeFin
    split_ifs
    · cases c.state
      all_goals first
        | exact ⟨.mk pending h, rfl⟩
        | exact ⟨.mk [] rfl, rfl⟩
    · exact ⟨.mk pending h, rfl⟩

theorem makePureAck (h : Alike c c') (key : TcpConnectionKey) (mostRecent : Option SeqNum) :
    makePureAck key c' mostRecent = makePureAck key c mostRecent := by
  cases h with
  | mk pending h => rfl

theorem hasSackToReport (h : Alike c c') : c'.hasSackToReport = c.hasSackToReport := by
  cases h with
  | mk pending h => rfl

theorem receiveSegment (h : Alike c c') (memory : ℕ → Byte) (key : TcpConnectionKey)
    (segment : TcpSegment) (fast fast' : Option TcpSegment) (now : TimePoint) :
    Alike (receiveSegment memory key c segment fast now).1
      (receiveSegment memory key c' segment fast' now).1 ∧
    { (receiveSegment memory key c' segment fast' now).2 with fastRetransmit := none } =
      { (receiveSegment memory key c segment fast now).2 with fastRetransmit := none } := by
  have hany : c'.anyPayloadInWindow segment = c.anyPayloadInWindow segment := by
    cases h with
    | mk pending h => rfl
  have hfin : c'.finInWindow segment = c.finInWindow segment := by
    cases h with
    | mk pending h => rfl
  have hremoval : c'.pendingRemoval = c.pendingRemoval := by
    cases h with
    | mk pending h => rfl
  unfold Wirestack.receiveSegment
  rw [hany, hfin]
  by_cases hempty : (segment.payload.isEmpty && !segment.flags.fin) = true
  · obtain ⟨hnext, hscheduled⟩ := h.scheduleIfSendable key now
    rw [if_pos hempty, if_pos hempty]
    dsimp only
    rw [hscheduled, hremoval, hnext.hasSackToReport, hnext.makePureAck]
    exact ⟨hnext, rfl⟩
  · rw [if_neg hempty, if_neg hempty]
    by_cases houtside : (!c.anyPayloadInWindow segment && !c.finInWindow segment) = true
    · obtain ⟨hnext, hscheduled⟩ := h.scheduleIfSendable key now
      rw [if_pos houtside, if_pos houtside]
      dsimp only
      rw [hscheduled, hnext.hasSackToReport, hnext.makePureAck]
      exact ⟨hnext, rfl⟩
    · rw [if_neg houtside, if_neg houtside]
      obtain ⟨hstored, hrecent⟩ := h.storeSegment memory segment
      obtain ⟨hreleased, haccepted⟩ := hstored.releaseContiguous
      obtain ⟨hconsumed, hclosed⟩ := hreleased.consumeFin now
      obtain ⟨hnext, hscheduled⟩ := hconsumed.scheduleIfSendable key now
      dsimp only
      rw [hrecent, haccepted, hclosed, hscheduled, hnext.hasSackToReport, hnext.makePureAck]
      exact ⟨hnext, rfl⟩

section

variable (memory : ℕ → Byte) (key : TcpConnectionKey) (c : Connection) (segment : TcpSegment)
  (options : List Byte) (fast : Option TcpSegment) (now : TimePoint)

theorem receiveSegment_options :
    Wirestack.receiveSegment memory key c { segment with options := options } fast now =
      Wirestack.receiveSegment memory key c segment fast now := by
  have hany : c.anyPayloadInWindow { segment with options := options } =
      c.anyPayloadInWindow segment := rfl
  have hfin : c.finInWindow { segment with options := options } = c.finInWindow segment := rfl
  have hstart : c.usableStart { segment with options := options } = c.usableStart segment := rfl
  have husable : usablePayload memory c { segment with options := options } =
      usablePayload memory c segment := rfl
  have hend : TcpSegment.segmentEnd { segment with options := options } = segment.segmentEnd := rfl
  unfold Wirestack.receiveSegment Wirestack.storeSegment
  rw [hany, hfin, hstart, husable, hend]

theorem handleSynchronized {options : List Byte}
    (hoptions : (parseTcpOptions options).isOk = (parseTcpOptions segment.options).isOk)
    (now : TimePoint) :
    Alike (handleSynchronized memory key c segment now).1
      (handleSynchronized memory key c { segment with options := options } now).1 ∧
    { (handleSynchronized memory key c { segment with options := options } now).2 with
        fastRetransmit := none } =
      { (handleSynchronized memory key c segment now).2 with fastRetransmit := none } := by
  have hduplicate : c.isDuplicateHandshakeSynAck { segment with options := options } =
      c.isDuplicateHandshakeSynAck segment := rfl
  have hack : ∀ parsed, Wirestack.processAck key c { segment with options := options } parsed now =
      Wirestack.processAck key c segment parsed now := fun parsed => rfl
  unfold Wirestack.handleSynchronized
  rw [hduplicate]
  by_cases hsyn : segment.flags.syn = true
  · rw [if_pos hsyn, if_pos hsyn]
    exact ⟨refl _, rfl⟩
  · rw [if_neg hsyn, if_neg hsyn]
    cases hparsed : parseTcpOptions segment.options with
    | error e =>
      rw [hparsed] at hoptions
      cases hparsed' : parseTcpOptions options with
      | error e' => exact ⟨refl _, rfl⟩
      | ok o' =>
        rw [hparsed'] at hoptions
        exact absurd hoptions Bool.noConfusion
    | ok o =>
      rw [hparsed] at hoptions
      cases hparsed' : parseTcpOptions options with
      | error e' =>
        rw [hparsed'] at hoptions
        exact absurd hoptions Bool.noConfusion
      | ok o' =>
        dsimp only
        rw [hack, receiveSegment_options memory key _ segment options]
        have hprocessed := (processAck key c segment o o' now).advanceClose now
        generalize Wirestack.processAck key c segment o now = out at hprocessed ⊢
        generalize Wirestack.processAck key c segment o' now = out' at hprocessed ⊢
        have hreceived := hprocessed.receiveSegment memory key segment out.2 out'.2 now
        split_ifs
        · exact ⟨refl _, rfl⟩
        · exact ⟨refl _, rfl⟩
        · exact ⟨refl _, rfl⟩
        · exact ⟨refl _, rfl⟩
        · exact hreceived

end

end Alike

/-! ## The table -/

theorem Connection.appOwnedBytes_erased (c : Connection) :
    c.erased.appOwnedBytes = c.appOwnedBytes := by
  unfold appOwnedBytes Connection.erased
  rw [List.filter_map, List.map_map]
  rfl

theorem Alike.eraseIfRemoved {out out' : Connection × TcpReceiveResult} (h : Alike out.1 out'.1) :
    (eraseIfRemoved out').1.map Connection.erased = (eraseIfRemoved out).1.map Connection.erased := by
  have hremoval : out'.1.pendingRemoval = out.1.pendingRemoval := by
    generalize out'.1 = c' at h
    cases h with
    | mk pending h => rfl
  unfold Wirestack.eraseIfRemoved
  rw [hremoval]
  split_ifs
  · rfl
  · exact congrArg some h.erased

/-- **SACK is advisory.** Let a segment arrive for a synchronized connection before TIME-WAIT, once
    with its own options and once with others, both accepted by the option parser or both rejected;
    in particular, once with a well-formed SACK option and once without. Both calls leave the same
    table, up to `sacked`, `retransmittedInRecovery`, `wasRetransmitted` and `lastSentAt` of the
    queue entries of that connection, and both results are the same up to `fastRetransmit`. -/
theorem handle_sack_advisory {t : TcpConnectionTable} {key : TcpConnectionKey} {c : Connection}
    (hc : t.find? key = some c) (hsync : c.state.synchronized = true) (hwait : c.state ≠ .timeWait)
    (memory : ℕ → Byte) (segment : TcpSegment) (options : List Byte)
    (hoptions : (parseTcpOptions options).isOk = (parseTcpOptions segment.options).isOk)
    (now : TimePoint) :
    let reported := t.handle memory key segment now
    let plain := t.handle memory key { segment with options := options } now
    (plain.1.find? key).map Connection.erased = (reported.1.find? key).map Connection.erased ∧
    (plain.1.find? key).map appOwnedBytes = (reported.1.find? key).map appOwnedBytes ∧
    (∀ other, other ≠ key → plain.1.find? other = reported.1.find? other) ∧
    { plain.1 with connections := ∅ } = { reported.1 with connections := ∅ } ∧
    { plain.2 with fastRetransmit := none } = { reported.2 with fastRetransmit := none } := by
  obtain ⟨halike, hresult⟩ := Alike.handleSynchronized memory key c segment hoptions now
  have herased := halike.eraseIfRemoved
  intro reported plain
  have hreported : reported = _ := handle_of_some hc memory segment now
  have hplain : plain = _ := handle_of_some hc memory { segment with options := options } now
  rw [handleExisting_of_synchronized memory key _ now hsync hwait] at hreported hplain
  have hconnection : (plain.1.find? key).map Connection.erased =
      (reported.1.find? key).map Connection.erased := by
    rw [hplain, hreported, find?_put, find?_put, if_pos rfl, if_pos rfl]
    exact herased
  refine ⟨hconnection, ?_, ?_, ?_, ?_⟩
  · have howned : appOwnedBytes ∘ Connection.erased = appOwnedBytes := funext appOwnedBytes_erased
    rw [← howned, ← Option.map_map, ← Option.map_map, hconnection]
  · intro other hother
    rw [hplain, hreported, find?_put, find?_put, if_neg hother.symm, if_neg hother.symm]
  · rw [hplain, hreported]
    rfl
  · rwa [hplain, hreported]

/-- A fourth duplicate, which reports that 1002, 1003 and 1004 have arrived. -/
def exampleSackReport : TcpSegment :=
  { exampleSegment 5001 [] with options := [1, 1, 5, 10, 0, 0, 3, 0xea, 0, 0, 3, 0xed] }

/-- With the report recovery goes on at 1005, without it at 1002. -/
theorem handle_sack_advisory_example :
    let t := (exampleRun [2, 4, 0, 1, 4, 2, 1, 1] exampleThreeDuplicates).table
    let reported := t.handle noMemory exampleKey exampleSackReport 0
    let plain := t.handle noMemory exampleKey { exampleSackReport with options := [] } 0
    (reported.2.fastRetransmit.map (·.sequenceNumber) = some 1005 ∧
      plain.2.fastRetransmit.map (·.sequenceNumber) = some 1002) ∧
    (plain.1.find? exampleKey).map Connection.erased =
      (reported.1.find? exampleKey).map Connection.erased ∧
    { plain.2 with fastRetransmit := none } = { reported.2 with fastRetransmit := none } := by
  intro t reported plain
  obtain ⟨c, hc, hstate, hreported, hplain⟩ := exampleRun_at [2, 4, 0, 1, 4, 2, 1, 1]
    exampleThreeDuplicates (fun _ c => c.state = .established ∧
      (handleExisting noMemory exampleKey c exampleSackReport 0).2.fastRetransmit.map
        (·.sequenceNumber) = some 1005 ∧
      (handleExisting noMemory exampleKey c
        { exampleSackReport with options := [] } 0).2.fastRetransmit.map (·.sequenceNumber) =
          some 1002) (by decide +kernel)
  obtain ⟨hconnection, -, -, -, hresult⟩ := handle_sack_advisory hc (by rw [hstate]; rfl)
    (by rw [hstate]; exact fun h => TcpState.noConfusion h) noMemory exampleSackReport [] rfl 0
  refine ⟨⟨?_, ?_⟩, hconnection, hresult⟩
  · rw [← hreported]
    exact congrArg (fun out => out.2.fastRetransmit.map (·.sequenceNumber))
      (handle_of_some hc noMemory exampleSackReport 0)
  · rw [← hplain]
    exact congrArg (fun out => out.2.fastRetransmit.map (·.sequenceNumber))
      (handle_of_some hc noMemory { exampleSackReport with options := [] } 0)

end Wirestack
