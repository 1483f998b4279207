import Wirestack.Tcp.Transitions

set_option autoImplicit false

/-! # The congestion window stays in range

`CongestionOk` bounds the MSS, the congestion window and the slow-start threshold of a connection
that has negotiated its options. Every stage that writes one of them keeps the bounds, so they hold
of every connection past SYN-SENT in every reachable table, whatever acknowledgments, windows and
timeouts it has seen. -/

namespace Wirestack

variable {segment : TcpSegment} {c' : Connection} {e : Event} {ok : Traced → Op → Prop} {s : Traced}

variable {options : TcpParsedOptions} {c : Connection} {key : TcpConnectionKey}

structure CongestionOk (c : Connection) : Prop where
  mss_pos : 0 < c.effectiveSendMss.toNat
  mss_le : c.effectiveSendMss.toNat ≤ kTcpMss
  cwnd_ge : c.effectiveSendMss.toNat ≤ c.cwnd
  cwnd_le : c.cwnd ≤ kMaxCongestionWindow
  ssthresh_ge : 2 * c.effectiveSendMss.toNat ≤ c.ssthresh
  ssthresh_le : c.ssthresh ≤ kMaxCongestionWindow

theorem clampCwnd_le (value : ℕ) : clampCwnd value ≤ kMaxCongestionWindow := min_le_right _ _

theorem le_clampCwnd {a value : ℕ} (hvalue : a ≤ value) (hmax : a ≤ kMaxCongestionWindow) :
    a ≤ clampCwnd value := le_min hvalue hmax

theorem initialCongestionWindow_ge {smss : UInt16} (h : smss.toNat ≤ kTcpMss) :
    smss.toNat ≤ initialCongestionWindow smss := by
  unfold kTcpMss at h
  apply le_clampCwnd
  · omega
  · unfold kMaxCongestionWindow
    omega

theorem congestionAvoidanceGrowth_range (smss : ℕ) :
    ∀ (fuel : ℕ) {cwnd : ℕ} (acked : ℕ), cwnd ≤ kMaxCongestionWindow →
    cwnd ≤ (congestionAvoidanceGrowth smss fuel cwnd acked).1 ∧
      (congestionAvoidanceGrowth smss fuel cwnd acked).1 ≤ kMaxCongestionWindow := by
  intro fuel
  induction fuel with
  | zero => exact fun _ hmax => ⟨le_rfl, hmax⟩
  | succ fuel ih =>
    intro cwnd acked hmax
    rw [congestionAvoidanceGrowth]
    split_ifs
    · have hstep : cwnd ≤ clampCwnd (cwnd + smss) := le_clampCwnd (Nat.le_add_right _ _) hmax
      obtain ⟨hge, hle⟩ := ih (acked - cwnd) (clampCwnd_le (cwnd + smss))
      exact ⟨hstep.trans hge, hle⟩
    · exact ⟨le_rfl, hmax⟩

namespace CongestionOk

variable {c c' : Connection}

theorem mss_le_max (h : CongestionOk c) : 2 * c.effectiveSendMss.toNat ≤ kMaxCongestionWindow :=
  h.ssthresh_ge.trans h.ssthresh_le

theorem congr (h : CongestionOk c) (hmss : c'.effectiveSendMss = c.effectiveSendMss)
    (hcwnd : c'.cwnd = c.cwnd) (hssthresh : c'.ssthresh = c.ssthresh) : CongestionOk c' where
  mss_pos := by rw [hmss]; exact h.mss_pos
  mss_le := by rw [hmss]; exact h.mss_le
  cwnd_ge := by rw [hmss, hcwnd]; exact h.cwnd_ge
  cwnd_le := by rw [hcwnd]; exact h.cwnd_le
  ssthresh_ge := by rw [hmss, hssthresh]; exact h.ssthresh_ge
  ssthresh_le := by rw [hssthresh]; exact h.ssthresh_le

theorem setCwnd (h : CongestionOk c) (hmss : c'.effectiveSendMss = c.effectiveSendMss)
    (hssthresh : c'.ssthresh = c.ssthresh) (hge : c.effectiveSendMss.toNat ≤ c'.cwnd)
    (hle : c'.cwnd ≤ kMaxCongestionWindow) : CongestionOk c' where
  mss_pos := by rw [hmss]; exact h.mss_pos
  mss_le := by rw [hmss]; exact h.mss_le
  cwnd_ge := by rw [hmss]; exact hge
  cwnd_le := hle
  ssthresh_ge := by rw [hmss, hssthresh]; exact h.ssthresh_ge
  ssthresh_le := by rw [hssthresh]; exact h.ssthresh_le

theorem lossThreshold (h : CongestionOk c) (flight : ℕ) : 2 * c.effectiveSendMss.toNat ≤
      clampCwnd (max (flight / 2) (2 * c.effectiveSendMss.toNat)) :=
  le_clampCwnd (le_max_right _ _) h.mss_le_max

theorem applyCongestionGrowth (h : CongestionOk c) (dataBytes : ℕ) :
    CongestionOk (c.applyCongestionGrowth dataBytes) := by
  have hge := h.cwnd_ge
  have hmax := h.mss_le_max
  unfold Connection.applyCongestionGrowth
  split_ifs
  · exact h
  · refine h.setCwnd rfl rfl ?_ (clampCwnd_le _)
    exact le_clampCwnd (by omega) (by omega)
  · obtain ⟨hgrow, hle⟩ := congestionAvoidanceGrowth_range c.effectiveSendMss.toNat
      ((c.congestionAvoidanceAckedBytes + dataBytes) % 2 ^ 32)
      ((c.congestionAvoidanceAckedBytes + dataBytes) % 2 ^ 32) h.cwnd_le
    exact h.setCwnd rfl rfl (hge.trans hgrow) hle

theorem applyTimeoutCongestionCollapse (h : CongestionOk c) :
    CongestionOk c.applyTimeoutCongestionCollapse where
  mss_pos := h.mss_pos
  mss_le := h.mss_le
  cwnd_ge := le_rfl
  cwnd_le := h.cwnd_ge.trans h.cwnd_le
  ssthresh_ge := h.lossThreshold c.flight
  ssthresh_le := clampCwnd_le _

theorem retransmitForRecovery (h : CongestionOk c) (key : TcpConnectionKey) (now : TimePoint) :
    CongestionOk (retransmitForRecovery key c now).1 := by
  rw [retransmitForRecovery_shape]
  exact h.congr rfl rfl rfl

theorem beginFastRecovery (h : CongestionOk c) (key : TcpConnectionKey) (now : TimePoint) :
    CongestionOk (beginFastRecovery key c now).1 := by
  have hthreshold := h.lossThreshold c.flight
  have hmax := h.mss_le_max
  apply CongestionOk.retransmitForRecovery
  exact
    { mss_pos := h.mss_pos
      mss_le := h.mss_le
      cwnd_ge := le_clampCwnd (by dsimp only; omega) (by dsimp only; omega)
      cwnd_le := clampCwnd_le _
      ssthresh_ge := hthreshold
      ssthresh_le := clampCwnd_le _ }

theorem onAdvancingAck (h : CongestionOk c) (key : TcpConnectionKey) (ack : SeqNum)
    (retired : TcpAckRetirementResult) (now : TimePoint) :
    CongestionOk (onAdvancingAck key c ack retired now).1 := by
  have hmax := h.mss_le_max
  unfold Wirestack.onAdvancingAck
  dsimp only
  by_cases hrecovery : c.inFastRecovery = true
  · rw [if_pos hrecovery]
    split
    · -- Leaving recovery deflates to the threshold.
      refine h.setCwnd rfl rfl ?_ h.ssthresh_le
      have hge := h.ssthresh_ge
      dsimp only
      omega
    · apply CongestionOk.retransmitForRecovery
      refine h.setCwnd rfl rfl (le_clampCwnd ?_ (by omega)) (clampCwnd_le _)
      split_ifs <;> omega
  · rw [if_neg hrecovery]
    exact CongestionOk.applyCongestionGrowth (c := { c with duplicateAckCount := 0 })
      (h.congr rfl rfl rfl) _

theorem onStandingAck (h : CongestionOk c) (key : TcpConnectionKey) (segment : TcpSegment)
    (windowChanged : Bool) (now : TimePoint) :
    CongestionOk (onStandingAck key c segment windowChanged now).1 := by
  have hmax := h.mss_le_max
  unfold Wirestack.onStandingAck
  dsimp only
  split
  · by_cases hrecovery : c.inFastRecovery = true
    · rw [if_pos hrecovery]
      -- Each duplicate in recovery inflates the window by one segment.
      have hinflated : CongestionOk { c with
            duplicateAckCount := c.duplicateAckCount + 1
            cwnd := clampCwnd (c.cwnd + c.effectiveSendMss.toNat) } :=
        h.setCwnd rfl rfl (le_clampCwnd (by omega) (by omega)) (clampCwnd_le _)
      split
      · exact hinflated.retransmitForRecovery ..
      · exact hinflated
    · rw [if_neg hrecovery]
      split
      · exact CongestionOk.beginFastRecovery
          (c := { c with duplicateAckCount := c.duplicateAckCount + 1 }) (h.congr rfl rfl rfl) key now
      · exact h.congr rfl rfl rfl
  · split
    · exact h.congr rfl rfl rfl
    · exact h

theorem processAck (h : CongestionOk c) (key : TcpConnectionKey) (segment : TcpSegment)
    (options : TcpParsedOptions) (now : TimePoint) :
    CongestionOk (processAck key c segment options now).1 := by
  have hok : CongestionOk ((afterRetire c segment options now).updateSendWindow segment) := by
    rw [updateSendWindow_shape, afterRetire_shape]
    exact h.congr rfl rfl rfl
  rw [processAck_eq]
  split_ifs
  · exact hok.onAdvancingAck ..
  · exact hok.onStandingAck ..

theorem negotiate {data : List Byte} (hoptions : parseTcpOptions data = .ok options)
    (hssthresh : c.ssthresh = kInitialSsthresh) : CongestionOk (c.negotiate options) := by
  have hpos := negotiated_mss_pos hoptions
  have hle : (min (UInt16.ofNat kTcpMss)
      (options.maximumSegmentSize.getD kDefaultPeerMss)).toNat ≤ kTcpMss :=
    UInt16.le_iff_toNat_le.1 Std.min_le_left
  have hmss : (c.negotiate options).effectiveSendMss =
      min (UInt16.ofNat kTcpMss) (options.maximumSegmentSize.getD kDefaultPeerMss) :=
    congrArg SendView.effectiveSendMss (negotiate_send c options)
  have hcwnd : (c.negotiate options).cwnd = initialCongestionWindow
      (min (UInt16.ofNat kTcpMss) (options.maximumSegmentSize.getD kDefaultPeerMss)) := by
    unfold Connection.negotiate
    cases options.windowScale <;> rfl
  have hthresh : (c.negotiate options).ssthresh = kInitialSsthresh := by
    unfold Connection.negotiate
    cases options.windowScale <;> exact hssthresh
  exact
    { mss_pos := by rw [hmss]; exact hpos
      mss_le := by rw [hmss]; exact hle
      cwnd_ge := by rw [hmss, hcwnd]; exact initialCongestionWindow_ge hle
      cwnd_le := by rw [hcwnd]; exact clampCwnd_le _
      ssthresh_ge := by
        rw [hmss, hthresh]
        unfold kTcpMss at hle
        unfold kInitialSsthresh
        unfold kTcpMss
        omega
      ssthresh_le := by rw [hthresh]; decide }

end CongestionOk

/-! ## Over runs -/

/-- In SYN-SENT nothing has been negotiated yet, and the threshold is still the initial one. -/
structure CongestionInv (c : Connection) : Prop where
  negotiated : c.state ≠ .synSent → CongestionOk c
  initial : c.state = .synSent → c.ssthresh = kInitialSsthresh

theorem establishedWith_congestion (hssthresh : c.ssthresh = kInitialSsthresh) (now : TimePoint)
    (hoptions : parseTcpOptions segment.options = .ok options) :
    CongestionOk (establishedWith c segment options now) := by
  have hok : CongestionOk (c.negotiate options) := .negotiate hoptions hssthresh
  rw [establishedWith_shape]
  exact hok.congr rfl rfl rfl

theorem CongestionOk.completeHandshake (h : CongestionOk c) (segment : TcpSegment) (now : TimePoint) :
    CongestionOk (completeHandshake c segment now) := by
  rw [completeHandshake_shape]
  exact h.congr rfl rfl rfl

theorem CongestionOk.processed (h : CongestionOk c) {memory : ℕ → Byte} {fast : Option TcpSegment}
    {now : TimePoint} {outcome : Connection × TcpReceiveResult}
    (hout : ProcessedOutcome memory key c segment options fast
      now outcome) : CongestionOk outcome.1 := by
  have hack := h.processAck key segment options now
  rw [hout.shape]
  exact hack.congr rfl rfl rfl

theorem CongestionOk.timedOutWith (h : CongestionOk c) (oldest : PendingTransmission) :
    CongestionOk (c.timedOutWith oldest) := by
  unfold Connection.timedOutWith
  split_ifs
  · exact h.applyTimeoutCongestionCollapse
  · exact h

theorem CongestionOk.call (h : CongestionOk c) (hcall : CallKept key c e c')
    (hstate : c.state ≠ .synSent) : CongestionOk c' := by
  cases hcall with
  | idle => exact h
  | handle memory segment now _ result hkept =>
    cases hkept with
    | ignored reply hreply => exact h
    | established options hsent => exact absurd hsent hstate
    | resent => exact h.congr rfl rfl rfl
    | completed => exact h.completeHandshake segment now
    | restarted => exact h.congr rfl rfl rfl
    | processed options outcome _ _ _ hout => exact h.processed hout
  | sent payload now =>
    rw [scheduleQueuedData_shape]
    exact h.congr rfl rfl rfl
  | closed now =>
    obtain ⟨_, hclosed⟩ := closed_shape key c now
    rw [hclosed]
    exact h.congr rfl rfl rfl
  | disarmed _ | probed _ _ _ _ _ => exact h.congr rfl rfl rfl
  | resent oldest rest now => exact (h.timedOutWith oldest).congr rfl rfl rfl

theorem HalfOpen.timedOutWith (h : HalfOpen c) {oldest : PendingTransmission}
    {rest : List PendingTransmission} (hpending : c.pending = oldest :: rest) :
    c.timedOutWith oldest = c := by
  obtain ⟨e, he, hentry⟩ := h.pending_eq
  obtain ⟨rfl, -⟩ := List.cons.inj (hpending.symm.trans he)
  have hsyn : oldest.isSyn = true := congrArg Outstanding.isSyn hentry
  rw [Connection.timedOutWith, if_neg (by simp [hsyn])]

theorem CongestionInv.step {h : History} (hstep : ConnStep h c e c') (hcall : CallKept key c e c')
    (hinv : CongestionInv c) : CongestionInv c' := by
  by_cases hsent : c.state = .synSent
  · have hok := hstep.synSentOk hsent
    have hopen : HalfOpen c := .inl hok
    cases hcall with
    | idle => exact hinv
    | handle memory segment now _ result hkept =>
      cases hkept with
      | ignored reply hreply => exact hinv
      | established options _ hoptions _ _ hack =>
        refine ⟨fun _ => establishedWith_congestion (hinv.initial hsent) now hoptions, ?_⟩
        rw [(establishedWith_fresh hok now hoptions hack).1.established]
        exact nofun
      | resent hstate _ _ _ | completed hstate _ _ _ _ | restarted hstate _ =>
        rw [hsent] at hstate; cases hstate
      | processed options outcome hsync => rw [hsent] at hsync; cases hsync
    | sent payload now hsendable _ _ | closed now hsendable =>
      simp [hopen.not_sendable] at hsendable
    | disarmed _ | probed _ _ _ _ _ => exact ⟨fun hne => absurd hsent hne, hinv.initial⟩
    | resent oldest rest now _ hpending =>
      rw [hopen.timedOutWith hpending]
      exact ⟨fun hne => absurd hsent hne, hinv.initial⟩
  · refine ⟨fun _ => (hinv.negotiated hsent).call hcall hsent, fun hsent' => absurd ?_ hsent⟩
    obtain ⟨-, hview⟩ := hstep.halfOpen_state (by rw [hsent']; rfl)
    rw [← hsent']
    exact (congrArg (·.control.state) hview).symm

theorem Run.congestionInv (hs : Run ok s) (hc : s.table.find? key = some c) : CongestionInv c := by
  refine Run.connection_invariant CongestionInv ?_ ?_
    (fun _ _ _ _ _ _ hstep hcall hinv => hinv.step hstep hcall) hs hc
  · exact fun isn now => ⟨fun hne => absurd rfl hne, fun _ => rfl⟩
  · intro segment options isn now hoptions
    have hok : CongestionOk (passiveConnection segment options isn) := .negotiate hoptions rfl
    have hstate : (acceptedWith segment options isn now).state = .synReceived :=
      congrArg ControlView.state (acceptedWith_ok segment isn now hoptions).control
    refine ⟨fun _ => hok.congr rfl rfl rfl, fun hsent => ?_⟩
    simp [hstate] at hsent

theorem Run.congestionOk (hs : Run ok s) (hc : s.table.find? key = some c)
    (hstate : c.state ≠ .synSent) : CongestionOk c :=
  (hs.congestionInv hc).negotiated hstate

end Wirestack
