import Wirestack.Tcp.Survival

set_option autoImplicit false

/-! # The counters of congestion control, and its arithmetic

`CongestionOk` bounds the windows. This module adds the counters beside them (the bytes counted
towards the next increase, the duplicate acknowledgments) and the send window, and shows that the
32-bit sums of the source never reach 2³²: the one sum it does not widen adds the acknowledged bytes
to a counter below `cwnd`, and the acknowledged bytes all come from a bounded send buffer.

`duplicateAckCount` is an `int` that only recovery lets grow without bound, and nothing reads it
there. -/

namespace Wirestack

open SerialNumber Connection

variable {c' : Connection} {e : Event} {pending : List PendingTransmission}

variable {c : Connection} {key : TcpConnectionKey} {ok : Traced → Op → Prop} {s : Traced}
  {h : History}

/-! ## The congestion-avoidance loop -/

theorem congestionAvoidanceGrowth_lt (smss : ℕ) :
    ∀ (fuel : ℕ) {cwnd acked : ℕ}, acked ≤ fuel → 0 < cwnd →
    (congestionAvoidanceGrowth smss fuel cwnd acked).2 <
      (congestionAvoidanceGrowth smss fuel cwnd acked).1 := by
  intro fuel
  induction fuel with
  | zero =>
    intro cwnd acked hfuel hcwnd
    exact lt_of_le_of_lt hfuel hcwnd
  | succ fuel ih =>
    intro cwnd acked hfuel hcwnd
    rw [congestionAvoidanceGrowth]
    split_ifs with hround
    · have hgrown : 0 < clampCwnd (cwnd + smss) := le_clampCwnd (by omega) (by decide)
      exact ih (by omega) hgrown
    · dsimp only
      omega

theorem congestionAvoidanceGrowth_fuel (smss : ℕ) :
    ∀ (fuel : ℕ) {cwnd acked : ℕ} (more : ℕ), acked ≤ fuel → 0 < cwnd →
    congestionAvoidanceGrowth smss (fuel + more) cwnd acked =
      congestionAvoidanceGrowth smss fuel cwnd acked := by
  intro fuel
  induction fuel with
  | zero =>
    intro cwnd acked more hfuel hcwnd
    rw [Nat.zero_add]
    cases more with
    | zero => rfl
    | succ more => exact if_neg (by omega)
  | succ fuel ih =>
    intro cwnd acked more hfuel hcwnd
    rw [Nat.succ_add, congestionAvoidanceGrowth, congestionAvoidanceGrowth]
    split_ifs with hround
    · have hgrown : 0 < clampCwnd (cwnd + smss) := le_clampCwnd (by omega) (by decide)
      exact ih more (by omega) hgrown
    · rfl

/-! ## The counters -/

theorem CongestionOk.cwnd_pos (h : CongestionOk c) : 0 < c.cwnd :=
  lt_of_lt_of_le h.mss_pos h.cwnd_ge

structure CountersOk (v : CongestionView) : Prop where
  acked_lt : v.congestionAvoidanceAckedBytes < v.cwnd
  acked_recovery : v.inFastRecovery = true → v.congestionAvoidanceAckedBytes = 0
  duplicates : v.inFastRecovery = false → v.duplicateAckCount ≤ 2

namespace CountersOk

variable {v : CongestionView} {c : Connection}

theorem of_acked_zero (hcwnd : 0 < v.cwnd) (hacked : v.congestionAvoidanceAckedBytes = 0)
    (hduplicates : v.inFastRecovery = false → v.duplicateAckCount ≤ 2) : CountersOk v where
  acked_lt := by rw [hacked]; exact hcwnd
  acked_recovery := fun _ => hacked
  duplicates := hduplicates

theorem applyCongestionGrowth (h : CountersOk c.congestion) (hok : CongestionOk c)
    (hrecovery : c.inFastRecovery = false) (dataBytes : ℕ) :
    CountersOk (c.applyCongestionGrowth dataBytes).congestion := by
  have hnot : c.inFastRecovery = true → c.congestionAvoidanceAckedBytes = 0 := h.acked_recovery
  unfold Connection.applyCongestionGrowth
  split_ifs
  · exact h
  · -- Slow start leaves the counter and grows the window.
    refine ⟨lt_of_lt_of_le h.acked_lt ?_, hnot, h.duplicates⟩
    exact le_clampCwnd (Nat.le_add_right _ _) hok.cwnd_le
  · refine ⟨congestionAvoidanceGrowth_lt _ _ le_rfl hok.cwnd_pos, fun hin => ?_, h.duplicates⟩
    exact absurd (hrecovery.symm.trans hin) Bool.false_ne_true

end CountersOk

theorem retransmitForRecovery_congestion (key : TcpConnectionKey) (c : Connection)
    (now : TimePoint) : (retransmitForRecovery key c now).1.congestion = c.congestion := by
  rw [retransmitForRecovery_shape]
  rfl

namespace CountersOk

variable {c : Connection}

theorem onAdvancingAck (h : CountersOk c.congestion) (hok : CongestionOk c)
    (key : TcpConnectionKey) (ack : SeqNum) (retired : TcpAckRetirementResult) (now : TimePoint) :
    CountersOk (onAdvancingAck key c ack retired now).1.congestion := by
  have hpos : 0 < (Wirestack.onAdvancingAck key c ack retired now).1.congestion.cwnd :=
    (hok.onAdvancingAck key ack retired now).cwnd_pos
  unfold Wirestack.onAdvancingAck at hpos ⊢
  dsimp only at hpos ⊢
  by_cases hrecovery : c.inFastRecovery = true
  · rw [if_pos hrecovery] at hpos ⊢
    by_cases hfull : sequenceLessOrEqual c.recoveryPoint ack = true
    · rw [if_pos hfull] at hpos ⊢
      exact of_acked_zero hpos rfl fun _ => Nat.zero_le 2
    · rw [if_neg hfull, retransmitForRecovery_congestion] at hpos ⊢
      exact of_acked_zero hpos (h.acked_recovery hrecovery) fun _ => Nat.zero_le 2
  · rw [if_neg hrecovery]
    have hcleared : CountersOk { c with duplicateAckCount := 0 }.congestion :=
      ⟨h.acked_lt, h.acked_recovery, fun _ => Nat.zero_le 2⟩
    exact hcleared.applyCongestionGrowth (hok.congr rfl rfl rfl) (by simpa using hrecovery) _

theorem onStandingAck (h : CountersOk c.congestion) (hok : CongestionOk c)
    (key : TcpConnectionKey) (segment : TcpSegment) (windowChanged : Bool) (now : TimePoint) :
    CountersOk (onStandingAck key c segment windowChanged now).1.congestion := by
  have hpos : 0 < (Wirestack.onStandingAck key c segment windowChanged now).1.congestion.cwnd :=
    (hok.onStandingAck key segment windowChanged now).cwnd_pos
  unfold Wirestack.onStandingAck at hpos ⊢
  dsimp only at hpos ⊢
  split_ifs at hpos ⊢ with hduplicate hrecovery hsack hthird hchanged
  · rw [retransmitForRecovery_congestion] at hpos ⊢
    exact of_acked_zero hpos (h.acked_recovery hrecovery)
      fun hout => absurd (hout.symm.trans hrecovery) Bool.false_ne_true
  · exact of_acked_zero hpos (h.acked_recovery hrecovery)
      fun hout => absurd (hout.symm.trans hrecovery) Bool.false_ne_true
  · unfold beginFastRecovery at hpos ⊢
    rw [retransmitForRecovery_congestion] at hpos ⊢
    exact of_acked_zero hpos rfl nofun
  · refine ⟨h.acked_lt, h.acked_recovery, fun hout => ?_⟩
    have hcount : c.duplicateAckCount ≤ 2 := h.duplicates hout
    show c.duplicateAckCount + 1 ≤ 2
    omega
  · exact ⟨h.acked_lt, h.acked_recovery, fun _ => Nat.zero_le 2⟩
  · exact h

theorem processAck (h : CountersOk c.congestion) (hok : CongestionOk c) (key : TcpConnectionKey)
    (segment : TcpSegment) (options : TcpParsedOptions) (now : TimePoint) :
    CountersOk (processAck key c segment options now).1.congestion := by
  have hkept : ((afterRetire c segment options now).updateSendWindow segment).congestion =
      c.congestion := by
    rw [updateSendWindow_shape, afterRetire_shape]
    rfl
  have hcounters : CountersOk
      ((afterRetire c segment options now).updateSendWindow segment).congestion := by
    rwa [hkept]
  have hranges : CongestionOk ((afterRetire c segment options now).updateSendWindow segment) := by
    rw [updateSendWindow_shape, afterRetire_shape]
    exact hok.congr rfl rfl rfl
  rw [processAck_eq]
  split_ifs
  · exact hcounters.onAdvancingAck hranges ..
  · exact hcounters.onStandingAck hranges ..

end CountersOk

/-! ## What a call does to the windows and counters -/

/-- The part of a connection that decides how much may be in flight. -/
structure SendControl where
  congestion : CongestionView
  peerWindowScale : UInt8
  windowScalingEnabled : Bool
  sndWnd : ℕ

variable {v : SendControl}

def Connection.sendControl (c : Connection) : SendControl :=
  { congestion := c.congestion
    peerWindowScale := c.peerWindowScale
    windowScalingEnabled := c.windowScalingEnabled
    sndWnd := c.sndWnd }

/-- The four events that change it. -/
inductive SendControlStep (key : TcpConnectionKey) (c : Connection) : SendControl → Prop where
  | same : SendControlStep key c c.sendControl
  | established (segment : TcpSegment) (options : TcpParsedOptions) (now : TimePoint) :
      c.state = .synSent →
      SendControlStep key c (establishedWith c segment options now).sendControl
  | completed (segment : TcpSegment) (now : TimePoint) : c.state = .synReceived →
      SendControlStep key c (completeHandshake c segment now).sendControl
  | acked (segment : TcpSegment) (options : TcpParsedOptions) (now : TimePoint) :
      c.state.synchronized = true →
      SendControlStep key c (processAck key c segment options now).1.sendControl
  | collapsed : SendControlStep key c c.applyTimeoutCongestionCollapse.sendControl

theorem CallKept.sendControl (h : CallKept key c e c') : SendControlStep key c c'.sendControl := by
  cases h with
  | idle => exact .same
  | handle memory segment now _ result hkept =>
    cases hkept with
    | ignored => exact .same
    | established options hstate => exact .established segment options now hstate
    | resent => exact .same
    | completed hstate => exact .completed segment now hstate
    | restarted => exact .same
    | processed options outcome hsync _ _ hout =>
      rw [hout.shape]
      exact .acked segment options now hsync
  | sent payload now =>
    rw [scheduleQueuedData_shape]
    exact .same
  | closed now =>
    obtain ⟨_, hclosed⟩ := closed_shape key c now
    rw [hclosed]
    exact .same
  | disarmed _ | probed _ _ _ _ _ => exact .same
  | resent oldest rest now =>
    unfold timedOutWith
    split_ifs
    · exact .collapsed
    · exact .same

/-! ## The send window -/

/-- The shift is at most 14, and a 16-bit window field shifted by it stays below 2³⁰. -/
structure PeerWindowOk (v : SendControl) : Prop where
  scale : v.peerWindowScale.toNat ≤ kMaxWindowScaleShift.toNat
  window : v.sndWnd < 2 ^ 30

namespace PeerWindowOk

variable {c : Connection}

theorem raw_lt (raw : UInt16) : raw.toNat < 2 ^ 30 :=
  lt_trans raw.toNat_lt (by decide)

theorem decodePeerWindow_lt (h : PeerWindowOk c.sendControl) (raw : UInt16) :
    c.decodePeerWindow raw < 2 ^ 30 := by
  unfold decodePeerWindow
  split_ifs
  · have hshift : 2 ^ c.peerWindowScale.toNat ≤ 2 ^ 14 := Nat.pow_le_pow_right (by decide) h.scale
    have hraw : raw.toNat < 2 ^ 16 := raw.toNat_lt
    calc (raw.toNat <<< c.peerWindowScale.toNat) % 2 ^ 32
        ≤ raw.toNat <<< c.peerWindowScale.toNat := Nat.mod_le _ _
      _ = raw.toNat * 2 ^ c.peerWindowScale.toNat := Nat.shiftLeft_eq _ _
      _ ≤ raw.toNat * 2 ^ 14 := Nat.mul_le_mul_left _ hshift
      _ < 2 ^ 30 := by omega
  · exact raw_lt raw

theorem negotiate (h : PeerWindowOk c.sendControl) (options : TcpParsedOptions) :
    (c.negotiate options).peerWindowScale.toNat ≤ kMaxWindowScaleShift.toNat := by
  unfold Connection.negotiate
  cases options.windowScale with
  | none => exact h.scale
  | some shift => exact UInt8.le_iff_toNat_le.1 Std.min_le_right

theorem establishedWith (h : PeerWindowOk c.sendControl) (segment : TcpSegment)
    (options : TcpParsedOptions) (now : TimePoint) :
    PeerWindowOk (establishedWith c segment options now).sendControl := by
  rw [establishedWith_shape]
  exact ⟨h.negotiate options, raw_lt segment.windowSize⟩

theorem processAck (h : PeerWindowOk c.sendControl) (key : TcpConnectionKey) (segment : TcpSegment)
    (options : TcpParsedOptions) (now : TimePoint) :
    PeerWindowOk (processAck key c segment options now).1.sendControl := by
  have hretired : PeerWindowOk (afterRetire c segment options now).sendControl := by
    rw [afterRetire_shape]
    exact ⟨h.scale, h.window⟩
  have hupdated : PeerWindowOk
      ((afterRetire c segment options now).updateSendWindow segment).sendControl := by
    unfold updateSendWindow
    split_ifs
    · exact ⟨hretired.scale, hretired.decodePeerWindow_lt segment.windowSize⟩
    · exact hretired
  rw [processAck_eq]
  split_ifs
  · rw [onAdvancingAck_shape]
    exact ⟨hupdated.scale, hupdated.window⟩
  · rw [onStandingAck_shape]
    exact ⟨hupdated.scale, hupdated.window⟩

theorem step (h : PeerWindowOk c.sendControl) (hstep : SendControlStep key c v) :
    PeerWindowOk v := by
  cases hstep with
  | same => exact h
  | established segment options now => exact h.establishedWith segment options now
  | completed segment now =>
    rw [completeHandshake_shape]
    exact ⟨h.scale, h.decodePeerWindow_lt segment.windowSize⟩
  | acked segment options now => exact h.processAck key segment options now
  | collapsed => exact ⟨h.scale, h.window⟩

end PeerWindowOk

theorem Run.peerWindowOk (hs : Run ok s) (hc : s.table.find? key = some c) :
    PeerWindowOk c.sendControl := by
  refine Run.connection_invariant (fun c => PeerWindowOk c.sendControl) ?_ ?_ ?_ hs hc
  · exact fun isn now => ⟨Nat.zero_le _, Nat.two_pow_pos 30⟩
  · intro segment options isn now _
    have hnew : PeerWindowOk (sendControl
        { state := .synReceived, remoteIsn := segment.sequenceNumber, localIsn := isn }) :=
      ⟨Nat.zero_le _, Nat.two_pow_pos 30⟩
    refine ⟨hnew.negotiate options, ?_⟩
    show (passiveConnection segment options isn).sndWnd < 2 ^ 30
    unfold passiveConnection Connection.negotiate
    cases options.windowScale <;> exact Nat.two_pow_pos 30
  · exact fun _ _ _ _ _ _ _ hcall h => h.step hcall.sendControl

/-! ## The counters over runs -/

/-- The counters are in range, and in SYN-SENT nothing has been counted. -/
structure CountersInv (c : Connection) : Prop where
  negotiated : c.state ≠ .synSent → CountersOk c.congestion
  initial : c.state = .synSent → c.congestionAvoidanceAckedBytes = 0 ∧ c.duplicateAckCount = 0

theorem negotiate_counters (c : Connection) (options : TcpParsedOptions) :
    (c.negotiate options).congestion =
      { c.congestion with cwnd := (c.negotiate options).cwnd } := by
  unfold Connection.negotiate
  cases options.windowScale <;> rfl

theorem establishedWith_counters (c : Connection) (segment : TcpSegment)
    (options : TcpParsedOptions) (now : TimePoint) :
    (establishedWith c segment options now).congestion = (c.negotiate options).congestion := by
  rw [establishedWith_shape]
  rfl

theorem CountersOk.step (h : CountersOk c.congestion) (hok : CongestionOk c)
    (hstate : c.state ≠ .synSent) (hstep : SendControlStep key c v) : CountersOk v.congestion := by
  cases hstep with
  | same => exact h
  | established segment options now hsent => exact absurd hsent hstate
  | completed segment now => rwa [completeHandshake_shape]
  | acked segment options now => exact h.processAck hok key segment options now
  | collapsed => exact of_acked_zero hok.mss_pos rfl fun _ => Nat.zero_le 2

theorem SendControlStep.of_synSent (hstep : SendControlStep key c v) (hstate : c.state = .synSent)
    (hacked : c.congestionAvoidanceAckedBytes = 0) (hduplicates : c.duplicateAckCount = 0) :
    v.congestion.congestionAvoidanceAckedBytes = 0 ∧ v.congestion.duplicateAckCount = 0 := by
  cases hstep with
  | same => exact ⟨hacked, hduplicates⟩
  | established segment options now =>
    show (establishedWith c segment options now).congestion.congestionAvoidanceAckedBytes = 0 ∧
      (establishedWith c segment options now).congestion.duplicateAckCount = 0
    rw [establishedWith_counters, negotiate_counters]
    exact ⟨hacked, hduplicates⟩
  | completed segment now hreceived => rw [hstate] at hreceived; cases hreceived
  | acked segment options now hsync => rw [hstate] at hsync; cases hsync
  | collapsed => exact ⟨rfl, rfl⟩

theorem CountersInv.step (hstep : ConnStep h c e c') (hcall : CallKept key c e c')
    (hcongestion : CongestionInv c) (hinv : CountersInv c) : CountersInv c' := by
  have hcongestion' := hcongestion.step hstep hcall
  by_cases hsent : c.state = .synSent
  · obtain ⟨hacked, hduplicates⟩ := hinv.initial hsent
    obtain ⟨hacked', hduplicates'⟩ := hcall.sendControl.of_synSent hsent hacked hduplicates
    refine ⟨fun hne => ?_, fun _ => ⟨hacked', hduplicates'⟩⟩
    exact .of_acked_zero (hcongestion'.negotiated hne).cwnd_pos hacked' fun _ =>
      le_of_eq_of_le hduplicates' (Nat.zero_le 2)
  · refine ⟨fun _ => (hinv.negotiated hsent).step (hcongestion.negotiated hsent) hsent
      hcall.sendControl, fun hsent' => absurd ?_ hsent⟩
    obtain ⟨-, hview⟩ := hstep.halfOpen_state (by rw [hsent']; rfl)
    rw [← hsent']
    exact (congrArg (·.control.state) hview).symm

theorem Run.countersOk (hs : Run ok s) (hc : s.table.find? key = some c)
    (hstate : c.state ≠ .synSent) : CountersOk c.congestion := by
  have hinv : CountersInv c := by
    refine Run.connection_invariant CountersInv ?_ ?_
      (fun _ _ _ _ hrun hfind hstep hcall => .step hstep hcall (hrun.congestionInv hfind)) hs hc
    · exact fun isn now => ⟨fun hne => absurd rfl hne, fun _ => ⟨rfl, rfl⟩⟩
    · intro segment options isn now hoptions
      have hok : CongestionOk (passiveConnection segment options isn) := .negotiate hoptions rfl
      have hzero := negotiate_counters
        { state := .synReceived, remoteIsn := segment.sequenceNumber, localIsn := isn } options
      refine ⟨fun _ => .of_acked_zero hok.cwnd_pos ?_ fun _ => ?_, fun _ => ⟨?_, ?_⟩⟩
      · exact congrArg CongestionView.congestionAvoidanceAckedBytes hzero
      · exact le_of_eq_of_le (congrArg CongestionView.duplicateAckCount hzero) (Nat.zero_le 2)
      · exact congrArg CongestionView.congestionAvoidanceAckedBytes hzero
      · exact congrArg CongestionView.duplicateAckCount hzero
  exact hinv.negotiated hstate

/-! ## The acknowledged bytes -/

/-- The bytes that an acknowledgment takes off the queue. -/
def ackedDataBytes (ack : SeqNum) : List PendingTransmission → ℕ
  | [] => 0
  | e :: rest =>
    if sequenceLessOrEqual e.sequenceEnd ack then e.payload.length + ackedDataBytes ack rest
    else if sequenceGreater ack e.sequenceStart then (ack - e.sequenceStart).toNat
    else 0

theorem retireEntries_dataBytes (ack : SeqNum) :
    ∀ (pending : List PendingTransmission) (n : ℕ) (sample : Option TimePoint), n < 2 ^ 32 →
    (retireEntries ack pending n sample).dataBytes = (n + ackedDataBytes ack pending) % 2 ^ 32 := by
  intro pending
  induction pending with
  | nil => exact fun n sample hn => (Nat.mod_eq_of_lt hn).symm
  | cons e rest ih =>
    intro n sample hn
    rw [retireEntries, ackedDataBytes]
    generalize (if e.rttEligible then some e.firstSentAt else sample) = sample'
    split_ifs
    · rw [ih _ _ (Nat.mod_lt _ (by decide)), Nat.mod_add_mod, Nat.add_assoc]
    · rfl
    · exact (Nat.mod_eq_of_lt hn).symm

/-- At most one sequence number of an entry carries no byte, and the bytes fit the send buffer. -/
structure QueueBounded (pending : List PendingTransmission) : Prop where
  span : ∀ e ∈ pending, e.outstanding.span ≤ e.payload.length + 1 ∧ e.outstanding.span < 2 ^ 31
  total : (pending.map (·.payload.length)).sum ≤ kTcpSendBufferCapacity

theorem trimmed_le {e : PendingTransmission} {ack : SeqNum}
    (hspan : e.outstanding.span ≤ e.payload.length + 1) (hlt : e.outstanding.span < 2 ^ 31)
    (hend : sequenceLessOrEqual e.sequenceEnd ack = false)
    (hstart : sequenceGreater ack e.sequenceStart = true) :
    (ack - e.sequenceStart).toNat ≤ e.payload.length := by
  obtain ⟨d, rfl, -, hd⟩ := PendingTransmission.trim_offset hlt hend hstart
  have hoffset : (pos e.sequenceStart d - e.sequenceStart).toNat = d :=
    ahead_pos e.sequenceStart (hd.trans (hlt.trans (by decide)))
  rw [hoffset]
  exact Nat.le_of_lt_succ (hd.trans_le hspan)

theorem ackedDataBytes_le (ack : SeqNum)
    (hspan : ∀ e ∈ pending, e.outstanding.span ≤ e.payload.length + 1 ∧ e.outstanding.span < 2 ^ 31) :
    ackedDataBytes ack pending ≤ (pending.map (·.payload.length)).sum := by
  induction pending with
  | nil => exact Nat.zero_le _
  | cons e rest ih =>
    obtain ⟨hone, hlt⟩ := hspan e (List.mem_cons_self ..)
    have hrest := ih fun x hx => hspan x (List.mem_cons_of_mem _ hx)
    rw [ackedDataBytes, List.map_cons, List.sum_cons]
    split_ifs with hend hstart
    · omega
    · have htrimmed := trimmed_le hone hlt (by simpa using hend) hstart
      omega
    · omega

theorem QueueBounded.ackedDataBytes_le (h : QueueBounded pending) (ack : SeqNum) :
    ackedDataBytes ack pending ≤ kTcpSendBufferCapacity :=
  (Wirestack.ackedDataBytes_le ack h.span).trans h.total

theorem Outstanding.Sent.span_le {e : Outstanding} (h : e.Sent) :
    e.span ≤ e.payload.length + 1 := by
  cases h with
  | data start psh payload => exact Nat.le_succ _
  | fin start => exact le_rfl

theorem SendInv.queueBounded {S : List Byte} {u : ℕ} (h : SendInv S u c.view.send) :
    QueueBounded c.pending where
  span := by
    intro e he
    have hmem : e.outstanding ∈ c.view.send.queue := List.mem_map_of_mem he
    refine ⟨(h.sent e.outstanding hmem).span_le, ?_⟩
    rw [← e.outstanding.length_cells]
    exact lt_of_le_of_lt (length_cells_le_of_mem hmem) h.span_lt
  total := by
    have hcapacity := h.capacity
    have hsum : (c.pending.map (·.payload.length)).sum =
        (c.view.send.queue.map (·.payload.length)).sum := by
      show _ = ((c.pending.map PendingTransmission.outstanding).map (·.payload.length)).sum
      rw [List.map_map]
      rfl
    rw [hsum]
    unfold SendView.ownedBytes at hcapacity
    omega

theorem HalfOpen.queueBounded (h : HalfOpen c) : QueueBounded c.pending := by
  obtain ⟨e, hpending, hentry⟩ := h.pending_eq
  have hpayload : e.payload = [] := congrArg Outstanding.payload hentry
  rw [hpending]
  refine ⟨fun x hx => ?_, ?_⟩
  · obtain rfl := List.mem_singleton.1 hx
    rw [hentry, hpayload]
    exact ⟨le_rfl, Nat.one_lt_two_pow (by decide)⟩
  · simp [hpayload]

theorem ConnOk.queueBounded (hok : ConnOk h c) : QueueBounded c.pending := by
  cases hok with
  | halfOpen hopen => exact hopen.queueBounded
  | synced u hsynced => exact hsynced.send.queueBounded

theorem retireAcknowledged_dataBytes (h : QueueBounded c.pending) (ack : SeqNum) (now : TimePoint) :
    (retireAcknowledged c ack now).2.newlyAckedDataBytes =
      if sequenceGreater ack c.sndUna then ackedDataBytes ack c.pending else 0 := by
  have hloop : (retireEntries ack c.pending 0 none).dataBytes = ackedDataBytes ack c.pending := by
    have hle := h.ackedDataBytes_le ack
    unfold kTcpSendBufferCapacity at hle
    rw [retireEntries_dataBytes ack c.pending 0 none (by decide), Nat.zero_add]
    exact Nat.mod_eq_of_lt (by omega)
  unfold retireAcknowledged
  by_cases hgreater : sequenceGreater ack c.sndUna = true
  · rw [if_neg (by simp [hgreater]), if_pos hgreater]
    dsimp only
    split
    · split_ifs <;> exact hloop
    · exact hloop
  · rw [if_pos (by simp [hgreater]), if_neg hgreater]

/-! ## The whole picture -/

structure CongestionInRange (c : Connection) : Prop where
  mss : 1 ≤ c.effectiveSendMss.toNat ∧ c.effectiveSendMss.toNat ≤ 1460
  cwnd : c.effectiveSendMss.toNat ≤ c.cwnd ∧ c.cwnd ≤ 2 ^ 30
  ssthresh : 2 * c.effectiveSendMss.toNat ≤ c.ssthresh ∧ c.ssthresh ≤ 2 ^ 30
  acked : c.congestionAvoidanceAckedBytes < c.cwnd
  ackedRecovery : c.inFastRecovery = true → c.congestionAvoidanceAckedBytes = 0
  duplicates : c.inFastRecovery = false → c.duplicateAckCount ≤ 2
  sndWnd : c.sndWnd < 2 ^ 30

/-- No sum of congestion control reaches 2³² when it is given `retired`. The rounds of the growth loop
    and the inflation both add one MSS to a window. -/
structure CongestionNoWrap (c : Connection) (retired : TcpAckRetirementResult) : Prop where
  flight : c.flight ≤ kTcpSendBufferCapacity + 1
  accumulator : c.congestionAvoidanceAckedBytes + retired.newlyAckedDataBytes < 2 ^ 32
  slowStart : c.cwnd + min retired.newlyAckedDataBytes c.effectiveSendMss.toNat < 2 ^ 32
  oneMore : ∀ cwnd ≤ kMaxCongestionWindow, cwnd + c.effectiveSendMss.toNat < 2 ^ 32
  recovery : clampCwnd (max (c.flight / 2) (2 * c.effectiveSendMss.toNat)) +
    3 * c.effectiveSendMss.toNat < 2 ^ 32
  deflation : max (if c.cwnd > retired.newlyAckedSequenceSpace then
      c.cwnd - retired.newlyAckedSequenceSpace else 0) c.effectiveSendMss.toNat +
    c.effectiveSendMss.toNat < 2 ^ 32

theorem ConnOk.flight_le (hok : ConnOk h c) : c.flight ≤ kTcpSendBufferCapacity + 1 := by
  cases hok with
  | halfOpen hopen =>
    rcases hopen with hsent | hreceived
    · have huna : c.sndUna = c.localIsn := congrArg SendView.sndUna hsent.send
      have hnxt : c.sndNxt = c.localIsn + 1 := congrArg SendView.sndNxt hsent.send
      rw [flight, huna, hnxt, BitVec.add_comm, BitVec.add_sub_cancel]
      decide
    · obtain ⟨mss, -, hsend⟩ := hreceived.send
      have huna : c.sndUna = 0 := congrArg SendView.sndUna hsend
      have hnxt : c.sndNxt = 0 := congrArg SendView.sndNxt hsend
      rw [flight, huna, hnxt]
      decide
  | synced u hsynced =>
    have hspan := hsynced.send.span_le
    have hnxt : c.sndNxt = pos c.sndUna (cells c.view.send.queue).length :=
      hsynced.send.tiled.stop_eq
    unfold kTcpSendBufferCapacity at hspan ⊢
    rwa [flight, hnxt, pos_sub_base, BitVec.toNat_ofNat, Nat.mod_eq_of_lt (by omega)]

theorem CongestionInRange.noWrap (h : CongestionInRange c)
    (hflight : c.flight ≤ kTcpSendBufferCapacity + 1) {retired : TcpAckRetirementResult}
    (hbytes : retired.newlyAckedDataBytes ≤ kTcpSendBufferCapacity) :
    CongestionNoWrap c retired := by
  obtain ⟨-, hmss⟩ := h.mss
  obtain ⟨hge, hcwnd⟩ := h.cwnd
  have hacked := h.acked
  have hclamp := clampCwnd_le (max (c.flight / 2) (2 * c.effectiveSendMss.toNat))
  unfold kTcpSendBufferCapacity at hbytes
  unfold kMaxCongestionWindow at hclamp
  refine ⟨hflight, by omega, ?_, fun cwnd hle => ?_, by omega, ?_⟩
  · have hmin := min_le_right retired.newlyAckedDataBytes c.effectiveSendMss.toNat
    omega
  · unfold kMaxCongestionWindow at hle
    omega
  · have hdeflated : (if c.cwnd > retired.newlyAckedSequenceSpace then
        c.cwnd - retired.newlyAckedSequenceSpace else 0) ≤ c.cwnd := by
      split_ifs <;> omega
    omega

theorem Run.congestionInRange (hs : Run ok s) (hc : s.table.find? key = some c)
    (hstate : c.state ≠ .synSent) : CongestionInRange c := by
  have hok := hs.congestionOk hc hstate
  have hcounters := hs.countersOk hc hstate
  exact
    { mss := ⟨hok.mss_pos, hok.mss_le⟩
      cwnd := ⟨hok.cwnd_ge, hok.cwnd_le⟩
      ssthresh := ⟨hok.ssthresh_ge, hok.ssthresh_le⟩
      acked := hcounters.acked_lt
      ackedRecovery := hcounters.acked_recovery
      duplicates := hcounters.duplicates
      sndWnd := (hs.peerWindowOk hc).window }

/-- **Congestion control stays in range and does not wrap.** The bytes an acknowledgment retires are
    counted exactly, no sum they enter reaches 2³², and the congestion-avoidance loop stops: any
    amount of fuel from the accumulator on gives the same result, at which its condition fails. -/
theorem congestion_in_range {s : Traced} (hs : Reachable s) {key : TcpConnectionKey}
    {c : Connection} (hc : s.table.find? key = some c) (hstate : c.state ≠ .synSent) :
    CongestionInRange c ∧
    (∀ ack now, (retireAcknowledged c ack now).2.newlyAckedDataBytes =
        (if sequenceGreater ack c.sndUna then ackedDataBytes ack c.pending else 0) ∧
      CongestionNoWrap c (retireAcknowledged c ack now).2) ∧
    ∀ acked fuel, acked ≤ fuel →
      congestionAvoidanceGrowth c.effectiveSendMss.toNat fuel c.cwnd acked =
        congestionAvoidanceGrowth c.effectiveSendMss.toNat acked c.cwnd acked ∧
      (congestionAvoidanceGrowth c.effectiveSendMss.toNat fuel c.cwnd acked).2 <
        (congestionAvoidanceGrowth c.effectiveSendMss.toNat fuel c.cwnd acked).1 := by
  have hrange := Run.congestionInRange hs hc hstate
  have hcwnd := (Run.congestionOk hs hc hstate).cwnd_pos
  have hok := (Run.connInv hs hc).ok
  refine ⟨hrange, fun ack now => ?_, fun acked fuel hfuel => ?_⟩
  · have hbytes := retireAcknowledged_dataBytes hok.queueBounded ack now
    refine ⟨hbytes, hrange.noWrap hok.flight_le ?_⟩
    rw [hbytes]
    split_ifs
    · exact hok.queueBounded.ackedDataBytes_le ack
    · exact Nat.zero_le _
  · obtain ⟨more, rfl⟩ := Nat.exists_eq_add_of_le hfuel
    exact ⟨congestionAvoidanceGrowth_fuel _ acked more le_rfl hcwnd,
      congestionAvoidanceGrowth_lt _ _ hfuel hcwnd⟩

/-- Recovery starts with half the flight and three segments on top. -/
theorem congestion_in_range_example :
    ∃ c, (exampleRun [2, 4, 0, 1] exampleThreeDuplicates).table.find? exampleKey = some c ∧
      c.state = .established ∧ c.inFastRecovery = true ∧ c.cwnd = 8 ∧ CongestionInRange c ∧
      CongestionNoWrap c (retireAcknowledged c 1011 0).2 := by
  obtain ⟨c, hc, hval⟩ := exampleRun_at [2, 4, 0, 1] exampleThreeDuplicates
    (fun _ c => c.state = .established ∧ c.inFastRecovery = true ∧ c.cwnd = 8) (by decide +kernel)
  obtain ⟨hrange, hwrap, -⟩ := congestion_in_range (exampleRun_reachable _ _) hc
    (by rw [hval.1]; exact fun h => TcpState.noConfusion h)
  exact ⟨c, hc, hval.1, hval.2.1, hval.2.2, hrange, (hwrap 1011 0).2⟩

end Wirestack
