import Wirestack.Tcp.Replies
import Wirestack.Tcp.SackOptions
import Wirestack.Tcp.SendWindow

set_option autoImplicit false

/-! # What can be emitted

`Emission` lists the kinds of segment that a call can hand out, with the flags, the options and the
size of each: the opening SYN, the SYN-ACK, the pure ACK, and the segments that carry no options,
which are data, FINs, probes, retransmissions and resets. `ConnStep.emission` says that a call on a
connection emits nothing else, `processed_emission` that this includes the last reply of a connection
that the call removes, and `KeyStep.emission_first` covers the calls that find no connection. -/

namespace Wirestack

open List

variable {sent received : TcpSegment} {options : TcpParsedOptions} {oldest : PendingTransmission}
  {rest : List PendingTransmission}

variable {o : Outstanding} {ack : SeqNum} {segment : TcpSegment} {now : TimePoint}
  {memory : ℕ → Byte}

/-- `n` bytes of payload that the connection can put into one segment: new data up to its MSS, or
    what a queue entry still holds. -/
def Connection.Carries (c : Connection) (n : ℕ) : Prop :=
  n ≤ c.effectiveSendMss.toNat ∨ ∃ e ∈ c.pending, n ≤ e.payload.length

/-- A segment emitted by a call that found the connection `before` and leaves a connection with
    `left` behind; `left` also holds of the start of the fragment that a pure ACK names first. -/
inductive Emission (before : Option Connection) (left : Connection → Option SeqNum → Prop)
    (segment : TcpSegment) : Prop where
  | activeSyn : segment.flags = { syn := true } → segment.payload = [] →
      segment.options = buildActiveSynOptions → Emission before left segment
  | synAck (c : Connection) : (∃ recent, left c recent) → segment.flags = { syn := true, ack := true } →
      segment.payload = [] → segment.options = buildSynAckOptions c → Emission before left segment
  | pureAck (c : Connection) (mostRecent : Option SeqNum) : left c mostRecent →
      segment.flags = { ack := true } → segment.payload = [] →
      segment.options = buildSackOptions (c.reportedBlocks mostRecent) → Emission before left segment
  | plain : segment.flags.syn = false → ¬ segment.AckOnly → segment.options = [] →
      (segment.payload = [] ∨ ∃ c, before = some c ∧ c.state.synchronized = true ∧
        c.Carries segment.payload.length) → Emission before left segment

/-- The call brings a segment that gets as far as acknowledgment processing. -/
def Connection.ProcessesIn (c : Connection) (e : Event) : Prop :=
  c.state.synchronized = true ∧ c.state ≠ .timeWait ∧
    ∃ segment ∈ e.received, ∃ options, Processes c segment options

theorem Emission.mono {before : Option Connection} {left left' : Connection → Option SeqNum → Prop}
    (h : Emission before left segment) (himp : ∀ c recent, left c recent → left' c recent) :
    Emission before left' segment := by
  cases h with
  | activeSyn hflags hpayload hbytes => exact .activeSyn hflags hpayload hbytes
  | synAck c hleft hflags hpayload hbytes =>
    exact .synAck c (hleft.imp (himp c)) hflags hpayload hbytes
  | pureAck c mostRecent hleft hflags hpayload hbytes =>
    exact .pureAck c mostRecent (himp c mostRecent hleft) hflags hpayload hbytes
  | plain hsyn hnot hbytes hpayload => exact .plain hsyn hnot hbytes hpayload

section Kinds

variable {key : TcpConnectionKey} {c : Connection} {left : Connection → Option SeqNum → Prop}
  {segment : TcpSegment}

theorem makeClosedPortReset_emission (before : Option Connection) (incoming : TcpSegment) :
    Emission before left (makeClosedPortReset incoming) := by
  have hrst : (makeClosedPortReset incoming).flags.rst = true := by
    unfold makeClosedPortReset
    split <;> rfl
  refine .plain ?_ (fun honly => ?_) ?_ (.inl ?_)
  · unfold makeClosedPortReset
    split <;> rfl
  · simp [honly.rst] at hrst
  · unfold makeClosedPortReset
    split <;> rfl
  · unfold makeClosedPortReset
    split <;> rfl

theorem Outstanding.Sent.emission (ho : o.Sent) (hflags : segment.flags = o.flags)
    (hpayload : segment.payload = o.payload) (hoptions : segment.options = [])
    (hsync : c.state.synchronized = true) (hcarries : c.Carries o.payload.length) :
    Emission (some c) left segment := by
  refine .plain ?_ (fun honly => ?_) hoptions (.inr ⟨c, rfl, hsync, ?_⟩)
  · rw [hflags]
    cases ho <;> rfl
  · cases ho with
    | data start psh payload hne => exact hne (hpayload.symm.trans honly.payload)
    | fin start =>
      have hfin := honly.fin
      simp [hflags] at hfin
  · rwa [hpayload]

theorem NewlySequenced.emission {c₀ c' : Connection} {data fin : List TcpSegment} {stop : SeqNum}
    (h : NewlySequenced c₀ c' data fin stop) (hmem : segment ∈ data ++ fin)
    (hsyn : segment.flags.syn = false) (hoptions : segment.options = [])
    (hmss : c'.effectiveSendMss = c.effectiveSendMss) (hsync : c.state.synchronized = true) :
    Emission (some c) left segment := by
  rcases mem_append.1 hmem with hdata | hfin
  · obtain ⟨-, hpos, hle⟩ := h.size segment hdata
    refine .plain hsyn (fun honly => ?_) hoptions (.inr ⟨c, rfl, hsync, .inl ?_⟩)
    · simp [honly.payload] at hpos
    · rwa [← hmss]
  · obtain ⟨hflag, hempty, -⟩ := h.fin segment hfin
    refine .plain hsyn (fun honly => ?_) hoptions (.inl hempty)
    simp [honly.fin] at hflag

theorem ScheduledBy.syn (h : ScheduledBy key c segment) : segment.flags.syn = false := by
  cases h <;> rfl

end Kinds

/-! ## Retransmissions -/

theorem mem_retireQueue {queue : List Outstanding} (h : o ∈ retireQueue ack queue) :
    ∃ o' ∈ queue, o.payload.length ≤ o'.payload.length := by
  induction queue with
  | nil => cases h
  | cons first rest ih =>
    rw [retireQueue] at h
    split_ifs at h with hretired htrimmed
    · obtain ⟨o', ho', hle⟩ := ih h
      exact ⟨o', mem_cons_of_mem _ ho', hle⟩
    · rcases mem_cons.1 h with rfl | h
      · refine ⟨first, mem_cons_self .., ?_⟩
        rw [Outstanding.trimTo, length_drop]
        exact Nat.sub_le _ _
      · exact ⟨o, mem_cons_of_mem _ h, le_rfl⟩
    · exact ⟨o, h, le_rfl⟩

theorem mem_retire {v : SendView} (h : o ∈ (v.retire ack).queue) :
    ∃ o' ∈ v.queue, o.payload.length ≤ o'.payload.length := by
  unfold SendView.retire at h
  split at h
  · exact mem_retireQueue h
  · exact ⟨o, h, le_rfl⟩

theorem Connection.carries_retired {c : Connection} (h : o ∈ (c.view.send.retire ack).queue) :
    c.Carries o.payload.length := by
  obtain ⟨o', ho', hle⟩ := mem_retire h
  obtain ⟨e, he, rfl⟩ := mem_map.1 ho'
  exact .inr ⟨e, he, hle⟩

section Synced

variable {S : List Byte} {u : ℕ} {c : Connection} {key : TcpConnectionKey}
  {left : Connection → Option SeqNum → Prop}

theorem Synced.resent_emission (hsynced : Synced S u c) (hproc : Processes c segment options)
    (hsent : (processAck key c segment options now).2 = some sent) :
    Emission (some c) left sent := by
  obtain ⟨o, ho, hso⟩ := (processAck_spec key c segment options now).2 sent hsent
  obtain ⟨_, -, hsend⟩ := hsynced.send.retire hproc.inSent
  obtain ⟨_, _, -, -, hresent⟩ := processAck_resent hsent
  exact (hsend.sent o ho).emission hso.flags hso.payload (by rw [hresent]; rfl)
    hsynced.synchronized (Connection.carries_retired ho)

theorem Synced.timeout_emission (hsynced : Synced S u c) (hpending : c.pending = oldest :: rest)
    (c₁ : Connection) : Emission (some c) left (timeoutSegment key c₁ oldest) := by
  have hmem : oldest ∈ c.pending := by simp [hpending]
  have hsent := hsynced.send.sent _ (mem_map_of_mem hmem)
  refine hsent.emission rfl rfl ?_ hsynced.synchronized (.inr ⟨oldest, hmem, le_rfl⟩)
  -- A SYN is never in the queue of a synchronized connection.
  have hsyn : oldest.isSyn = false ∧ oldest.isActiveSyn = false := by
    show oldest.outstanding.isSyn = false ∧ oldest.outstanding.isActiveSyn = false
    generalize oldest.outstanding = o at hsent
    cases hsent <;> exact ⟨rfl, rfl⟩
  simp [timeoutSegment, hsyn.1, hsyn.2]

theorem Synced.probe_emission (hsynced : Synced S u c) (heligible : c.persistEligible = true) :
    Emission (some c) left (persistProbe key c) := by
  obtain ⟨-, hunsent, -⟩ := (persistEligible_iff c).1 heligible
  refine .plain rfl (fun honly => ?_) rfl (.inr ⟨c, rfl, hsynced.synchronized, .inl ?_⟩)
  · have hempty : c.unsent.take 1 = [] := honly.payload
    rcases take_eq_nil_iff.1 hempty with hone | hnil
    · cases hone
    · exact hunsent hnil
  · have hmss := hsynced.send.mss
    change 0 < c.effectiveSendMss.toNat at hmss
    show (c.unsent.take 1).length ≤ _
    rw [length_take]
    omega

theorem processed_emission (hsynced : Synced S u c) {outcome : Connection × TcpReceiveResult}
    (hproc : Processes c segment options)
    (hout : ProcessedOutcome memory key c segment options (processAck key c segment options now).2
      now outcome) (hmem : sent ∈ Event.emittedInSequence (.handle segment outcome.2)) :
    Emission (some c) (fun c₁ recent => c₁ = outcome.1 ∧ recent = (receivePart memory
      (afterAck key c segment options now) segment now).mostRecent) sent := by
  rcases hout.mem_emitted hmem with hreply | hfast | hscheduled
  · rw [hreply]
    exact .pureAck outcome.1 _ ⟨rfl, rfl⟩ rfl rfl (makePureAck_options ..)
  · exact hsynced.resent_emission hproc hfast
  · have hby := scheduleIfSendable_scheduled hscheduled
    obtain ⟨data, fin, stop, hsegments, hsequenced⟩ := hout.sequenced hsynced.send.mss
    rw [← hout.scheduled, hsegments] at hscheduled
    have hmss : outcome.1.effectiveSendMss = c.effectiveSendMss := by
      rw [hout.shape, processAck_shape]
      rfl
    exact hsequenced.emission hscheduled hby.syn hby.options hmss hsynced.synchronized

end Synced

/-! ## One call -/

section Calls

variable {key : TcpConnectionKey} {c c' : Connection} {e : Event}

theorem NothingReceived.reportedBlocks (h : NothingReceived c) : c.reportedBlocks none = [] := by
  unfold Connection.reportedBlocks generateSackBlocks sackOrder
  rw [h.outOfOrder]
  split <;> rfl

theorem HalfOpen.timeout_emission (hopen : HalfOpen c) (hpending : c.pending = oldest :: rest)
    (hoptions : buildSynAckOptions c' = buildSynAckOptions c) :
    Emission (some c) (fun c₁ recent => c₁ = c' ∧ (recent = none ∨ c.ProcessesIn e))
      (timeoutSegment key c oldest) := by
  obtain ⟨entry, hentry, hout⟩ := hopen.pending_eq
  obtain ⟨rfl, -⟩ := cons.inj (hpending.symm.trans hentry)
  have hflags : oldest.flags = { syn := true, ack := decide (c.state = .synReceived) } :=
    congrArg Outstanding.flags hout
  have hpayload : oldest.payload = [] := congrArg Outstanding.payload hout
  have hsyn : oldest.isSyn = true := congrArg Outstanding.isSyn hout
  have hactive : oldest.isActiveSyn = decide (c.state = .synSent) :=
    congrArg Outstanding.isActiveSyn hout
  rcases hopen.state with hstate | hstate
  · rw [hstate] at hflags hactive
    refine .activeSyn hflags hpayload ?_
    simp [timeoutSegment, hactive]
  · rw [hstate] at hflags hactive
    refine .synAck c' ⟨none, rfl, .inl rfl⟩ hflags hpayload ?_
    simp [timeoutSegment, hactive, hsyn, hoptions]

theorem ConnStep.emission {h : History} (hstep : ConnStep h c e c') (hcall : CallKept key c e c')
    (hmem : segment ∈ e.emitted) : Emission (some c)
      (fun c₁ recent => c₁ = c' ∧ (recent = none ∨ c.ProcessesIn e)) segment := by
  have hnew := hcall.sequenced hstep
  have hsynced : c.state.synchronized = true → ∃ u, Synced h.accepted u c := by
    intro hsync
    obtain ⟨u, -, hsynced, -⟩ := hstep.synchronized hsync
    exact ⟨u, hsynced⟩
  cases hcall with
  | idle _ hemitted => simp [hemitted] at hmem
  | handle memory received now _ result hkept =>
    cases hkept with
    | ignored reply hreply =>
      obtain rfl : segment = makePureAck key c := hreply segment (by simpa using hmem)
      exact .pureAck c none ⟨rfl, .inl rfl⟩ rfl rfl (makePureAck_options ..)
    | established options hstate hoptions _ _ hack =>
      obtain rfl : segment = completingAck key (establishedWith c received options now) := by
        simpa using hmem
      obtain ⟨hfresh, -⟩ := establishedWith_fresh (hstep.synSentOk hstate) now hoptions hack
      refine .pureAck (establishedWith c received options now) none ⟨rfl, .inl rfl⟩ rfl rfl ?_
      rw [hfresh.received.reportedBlocks]
      rfl
    | resent =>
      obtain rfl : segment = makeSynAck key c := by simpa using hmem
      exact .synAck _ ⟨none, rfl, .inl rfl⟩ rfl rfl rfl
    | completed => simp at hmem
    | restarted =>
      obtain rfl : segment = makePureAck key c := by simpa using hmem
      exact .pureAck _ none ⟨rfl, .inl rfl⟩ rfl rfl (makePureAck_options ..)
    | processed options outcome hsync hwait hproc hout =>
      obtain ⟨u, hsynced⟩ := hsynced hsync
      replace hmem := (mem_append.1 hmem).resolve_right not_mem_nil
      exact (processed_emission hsynced hproc hout hmem).mono fun c₁ recent hleft =>
        ⟨hleft.1, .inr ⟨hsync, hwait, received, mem_singleton_self _, options, hproc⟩⟩
  | sent payload now hsend =>
    have hsync := synchronized_of_sendable hsend
    rw [Event.emitted_makeOutgoingData] at hmem
    dsimp only at hmem
    have hby := scheduleQueuedData_scheduled hmem
    have hmss : (scheduleQueuedData key { c with unsent := c.unsent ++ payload }
        now).1.effectiveSendMss = c.effectiveSendMss := by rw [scheduleQueuedData_shape]
    obtain ⟨data, fin, stop, hsegments, hsequenced⟩ := hnew
    rw [Event.sequenced] at hsegments
    dsimp only at hsegments
    rw [hsegments] at hmem
    exact hsequenced.emission hmem hby.syn hby.options hmss hsync
  | closed now hsend =>
    replace hmem := (mem_append.1 hmem).resolve_right not_mem_nil
    have hfin := mem_of_mem_head? (Option.mem_toList.1 hmem)
    rcases mem_maybeSequenceFin hfin with hfin | rfl
    · cases hfin
    · exact .plain rfl (fun honly => nomatch honly.fin) rfl (.inl rfl)
  | disarmed => simp at hmem
  | probed _ _ _ _ heligible =>
    obtain rfl : segment = persistProbe key c := by simpa using hmem
    have hsend := ((persistEligible_iff c).1 heligible).1
    obtain ⟨u, hsynced⟩ := hsynced (synchronized_of_sendable hsend)
    exact hsynced.probe_emission heligible
  | resent oldest rest now _ hpending =>
    obtain rfl : segment = timeoutSegment key (c.timedOutWith oldest) oldest := by simpa using hmem
    cases hstep with
    | halfOpen hopen =>
      rw [hopen.timedOutWith hpending]
      exact hopen.timeout_emission hpending rfl
    | synced u hsynced => exact hsynced.timeout_emission hpending _

theorem HalfOpen.removed_silent (hopen : HalfOpen c)
    (hgone : (handleExisting memory key c received now).1 = none) :
    Event.emittedInSequence (.handle received (handleExisting memory key c received now).2) = [] := by
  rcases hopen with hopen | hopen
  · have hstate : c.state = .synSent := congrArg ControlView.state hopen.control
    rw [handleExisting_of_synSent memory key received now hstate] at hgone ⊢
    rw [eraseIfRemoved_result]
    have hcases := handleSynSent_cases key c received now
    generalize Wirestack.handleSynSent key c received now = outcome at hcases hgone ⊢
    cases hcases with
    | dropped | reset _ _ => rfl
    | established options reply hoptions _ _ _ _ _ hack =>
      obtain ⟨hfresh, -⟩ := establishedWith_fresh hopen now hoptions hack
      rw [eraseIfRemoved_of_kept hfresh.synced.removal] at hgone
      cases hgone
  · have hstate : c.state = .synReceived := congrArg ControlView.state hopen.control
    rw [handleExisting_of_synReceived memory key received now hstate] at hgone ⊢
    have hcases := handleSynReceived_cases key c received now
    generalize Wirestack.handleSynReceived key c received now = outcome at hcases hgone ⊢
    cases hcases with
    | dropped _ | reset _ _ => rfl
    | resent c' _ _ | completed _ _ _ _ _ => cases hgone

theorem Synced.removed_processes {S : List Byte} {u : ℕ} (hsynced : Synced S u c)
    (hgone : (handleExisting memory key c received now).1 = none)
    (hmem : segment ∈ Event.emittedInSequence (.handle received (handleExisting memory key c
      received now).2)) : c.state ≠ .timeWait ∧ ∃ options, Processes c received options := by
  by_cases hwait : c.state = .timeWait
  · rw [handleExisting_of_timeWait memory key received now hwait] at hgone hmem
    rw [eraseIfRemoved_result] at hmem
    have hcases := handleTimeWait_cases key c received now
    generalize Wirestack.handleTimeWait key c received now = outcome at hcases hgone hmem
    cases hcases with
    | dropped _ | reset _ _ => cases hmem
    | restarted deadline =>
      rw [eraseIfRemoved_of_kept hsynced.removal] at hgone
      cases hgone
  · rw [handleExisting_of_synchronized memory key received now hsynced.synchronized hwait]
      at hgone hmem
    rw [eraseIfRemoved_result] at hmem
    have hcases := handleSynchronized_cases memory key c received now
    generalize Wirestack.handleSynchronized memory key c received now = outcome at hcases hgone hmem
    cases hcases with
    | dropped reply =>
      rw [eraseIfRemoved_of_kept hsynced.removal] at hgone
      cases hgone
    | reset => cases hmem
    | processed options _ hproc hout => exact ⟨hwait, options, hproc⟩

theorem KeyStep.emission_first {listenPort : UInt16} {after : Option Connection}
    (h : KeyStep listenPort key none e after) (hmem : segment ∈ e.emitted) :
    Emission none (fun c recent => after = some c ∧ recent = none) segment := by
  cases h with
  | refused _ hrefusal =>
    rcases hrefusal.emitted with hnone | ⟨received, result, -, hreset, -⟩
    · simp [hnone] at hmem
    · rw [hreset] at hmem
      rw [mem_singleton.1 hmem]
      exact makeClosedPortReset_emission ..
  | connect isn now =>
    obtain rfl : segment = makeActiveSyn key (activeConnection isn) := by simpa using hmem
    exact .activeSyn rfl rfl rfl
  | accept received options isn now =>
    obtain rfl : segment = makeSynAck key (passiveConnection received options isn) := by
      simpa using hmem
    exact .synAck _ ⟨none, rfl, rfl⟩ rfl rfl rfl

end Calls

end Wirestack
