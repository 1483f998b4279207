import Wirestack.Tcp.Replay

set_option autoImplicit false

/-! # The state machine

State and FIN bookkeeping agree in every reachable connection, and every call moves the state along
the documented diagram (`docs/tcp.md`, "Current state machine" and "SynSent"):

```text
(no entry) --connect--> SYN_SENT --SYN-ACK--> ESTABLISHED
(no entry) --SYN--> SYN_RECEIVED --valid ACK--> ESTABLISHED
ESTABLISHED --app FIN--> FIN_WAIT_1 --ACK of FIN--> FIN_WAIT_2 --peer FIN--> TIME_WAIT
FIN_WAIT_1 --peer FIN--> CLOSING --ACK of FIN--> TIME_WAIT
ESTABLISHED --peer FIN--> CLOSE_WAIT --app FIN--> LAST_ACK --ACK of FIN--> (removed)
```
-/

namespace Wirestack

open SerialNumber TcpConnectionTable Option

variable {h : History} {c : Connection} {key : TcpConnectionKey} {s : Traced}

/-- What the state says about the two FINs. `h` is the history of the connection. -/
structure Bookkeeping (h : History) (c : Connection) : Prop where
  localFin : c.localFinSeq.isSome = true ↔ c.state = .finWait1 ∨ c.state = .finWait2 ∨
    c.state = .closing ∨ c.state = .lastAck ∨ c.state = .timeWait
  afterFin : ∀ f, c.localFinSeq = some f →
    c.unsent = [] ∧ c.closeRequested = true ∧ c.sndNxt = f + 1
  finAcked : c.state = .finWait2 ∨ c.state = .timeWait → c.pending = [] ∧ c.sndUna = c.sndNxt
  finPending : c.state = .finWait1 ∨ c.state = .closing ∨ c.state = .lastAck →
    ∃ e, c.pending.getLast? = some e ∧ e.isFin = true
  peerFin : h.peerClosedCount = 1 ↔ c.state = .closeWait ∨ c.state = .closing ∨
    c.state = .lastAck ∨ c.state = .timeWait
  peerFinOnce : h.peerClosedCount ≤ 1
  deadline : c.timeWaitDeadline.isSome = true ↔ c.state = .timeWait

/-- The moves of one call: the creation of an entry, the end of a handshake, a path of at most two
    edges between synchronized states, and removal. -/
inductive StateMove : Option TcpState → Option TcpState → Prop where
  | absent : StateMove none none
  | connect : StateMove none (some .synSent)
  | listen : StateMove none (some .synReceived)
  | stay (s : TcpState) : StateMove (some s) (some s)
  | synAck : StateMove (some .synSent) (some .established)
  | handshakeAck : StateMove (some .synReceived) (some .established)
  | path {s t : TcpState} : Path s t → StateMove (some s) (some t)
  | removed (s : TcpState) : StateMove (some s) none

/-- Why a call removes the entry of `key`. -/
inductive RemovalCause (key : TcpConnectionKey) (c : Connection) : Op → Prop where
  | reset (memory : ℕ → Byte) (segment : TcpSegment) (now : TimePoint) :
      segment.flags.rst = true → RemovalCause key c (.handle memory key segment now)
  | lastAcked (memory : ℕ → Byte) (segment : TcpSegment) (now : TimePoint) :
      c.state = .lastAck → segment.acknowledgmentNumber = c.sndNxt →
      RemovalCause key c (.handle memory key segment now)
  | expired (deadline now : TimePoint) : c.state = .timeWait →
      c.timeWaitDeadline = some deadline → deadline ≤ now →
      RemovalCause key c (.pollRetransmissions now)
  | timedOut (oldest : PendingTransmission) (now : TimePoint) : c.state ≠ .timeWait →
      c.pending.head? = some oldest → kMaxRetransmits ≤ oldest.timeoutRetransmitCount →
      RemovalCause key c (.pollRetransmissions now)

/-! ## Bookkeeping -/

theorem TcpState.finSequenced_iff (s : TcpState) :
    s.finSequenced = true ↔ s = .finWait1 ∨ s = .finWait2 ∨ s = .closing ∨ s = .lastAck ∨
      s = .timeWait := by
  cases s <;> simp [TcpState.finSequenced]

theorem TcpState.peerFinConsumed_iff (s : TcpState) :
    s.peerFinConsumed = true ↔ s = .closeWait ∨ s = .closing ∨ s = .lastAck ∨ s = .timeWait := by
  cases s <;> simp [TcpState.peerFinConsumed]

theorem peerClosedCount_iff {s : TcpState}
    (hcount : h.peerClosedCount = if s.peerFinConsumed then 1 else 0) :
    h.peerClosedCount = 1 ↔ s = .closeWait ∨ s = .closing ∨ s = .lastAck ∨ s = .timeWait := by
  rw [hcount, ← s.peerFinConsumed_iff]
  cases s.peerFinConsumed <;> simp

theorem Bookkeeping.of_halfOpen (hopen : HalfOpen c)
    (hcount : h.peerClosedCount = if c.state.peerFinConsumed then 1 else 0)
    (honce : h.peerClosedCount ≤ 1) : Bookkeeping h c := by
  have hfin : c.localFinSeq = none := by
    rcases hopen with h | ⟨⟨mss, -, hsend⟩, -⟩
    · exact congrArg SendView.localFinSeq h.send
    · exact congrArg SendView.localFinSeq hsend
  have hdeadline : c.timeWaitDeadline = none := by
    rcases hopen with h | h <;> exact congrArg ControlView.timeWaitDeadline h.control
  have hstate := hopen.state
  refine ⟨?_, fun f hf => ?_, fun h => ?_, fun h => ?_, peerClosedCount_iff hcount, honce, ?_⟩
  · rw [hfin]
    rcases hstate with h | h <;> simp [h]
  · simp [hfin] at hf
  · rcases hstate with h' | h' <;> rw [h'] at h <;> exact absurd h (by simp)
  · rcases hstate with h' | h' <;> rw [h'] at h <;> exact absurd h (by simp)
  · rw [hdeadline]
    rcases hstate with h | h <;> simp [h]

theorem Bookkeeping.of_synced {S : List Byte} {u : ℕ} (hsynced : Synced S u c)
    (hcount : h.peerClosedCount = if c.state.peerFinConsumed then 1 else 0)
    (honce : h.peerClosedCount ≤ 1) : Bookkeeping h c := by
  have hsome : c.state.finSequenced = true → c.view.send.localFinSeq.isSome = true :=
    fun hseq => hsynced.sequenced.trans hseq
  refine ⟨?_, fun f hf => ?_, fun hacked => ?_, fun hwait => ?_, peerClosedCount_iff hcount, honce,
    ?_⟩
  · rw [hsynced.sequenced, c.state.finSequenced_iff]
  · obtain ⟨-, hunsent, hclose⟩ := hsynced.send.fin f hf
    exact ⟨hunsent, hclose, hsynced.send.nxt_of_fin hf⟩
  · have hall : u = S.length + 1 := hsynced.acked (by rcases hacked with h | h <;> rw [h] <;> rfl)
    obtain ⟨hqueue, huna⟩ :=
      hsynced.send.all_acked (hsome (by rcases hacked with h | h <;> rw [h] <;> rfl)) hall
    exact ⟨List.map_eq_nil_iff.1 hqueue, huna⟩
  · have hseq : c.state.finSequenced = true := by rcases hwait with h | h | h <;> rw [h] <;> rfl
    have hnot : c.state.finAcked = false := by rcases hwait with h | h | h <;> rw [h] <;> rfl
    obtain ⟨p, o, hqueue, hfin⟩ := hsynced.send.fin_pending (hsome hseq) (hsynced.unacked hseq hnot)
    have hlast := congrArg List.getLast? hqueue
    rw [show c.view.send.queue = c.pending.map PendingTransmission.outstanding from rfl,
      List.getLast?_map, List.getLast?_concat, map_eq_some_iff] at hlast
    obtain ⟨e, he, rfl⟩ := hlast
    exact ⟨e, he, hfin⟩
  · rw [hsynced.deadline, decide_eq_true_eq]

/-! ## Moves -/

theorem pollConnection_removed {now : TimePoint} (h : (pollConnection key c now).kept c = none) :
    RemovalCause key c (.pollRetransmissions now) := by
  unfold pollConnection at h
  by_cases hwait : c.state = .timeWait
  · rw [if_pos hwait] at h
    cases hdeadline : c.timeWaitDeadline with
    | none =>
      rw [hdeadline] at h
      exact absurd h (by simp [RetransmissionPoll.kept])
    | some deadline =>
      rw [hdeadline] at h
      dsimp only at h
      split_ifs at h with hpast
      · exact .expired deadline now hwait hdeadline hpast
      · exact absurd h (by simp [RetransmissionPoll.kept])
  · rw [if_neg hwait] at h
    cases hpending : c.pending with
    | nil =>
      rw [hpending] at h
      exact absurd h (by simp [RetransmissionPoll.kept])
    | cons oldest rest =>
      rw [hpending] at h
      dsimp only at h
      by_cases hearly : now < oldest.lastSentAt + oldest.timeoutInterval
      · rw [if_pos hearly] at h
        exact absurd h (by simp [RetransmissionPoll.kept])
      · rw [if_neg hearly] at h
        by_cases hlimit : oldest.timeoutRetransmitCount ≥ kMaxRetransmits
        · exact .timedOut oldest now hwait (by rw [hpending]; rfl) hlimit
        · rw [if_neg hlimit] at h
          exact absurd h (by simp [RetransmissionPoll.kept])

theorem Run.move_kept (hs : Reachable s) {c' : Connection} (hc : s.table.find? key = some c)
    {op : Op} (hc' : (s.step op).table.find? key = some c') :
    StateMove (some c.state) (some c'.state) := by
  rcases Traced.step_of_some hc op with ⟨hsame, -⟩ | ⟨e, -, hkey, -⟩
  · rw [hc'] at hsame
    cases hsame
    exact .stay _
  · rw [hc'] at hkey
    cases (Run.connInv hs hc).ok with
    | synced u hsynced => exact .path ((hsynced.step hkey).continues c' rfl).path
    | halfOpen hopen =>
      rcases (hopen.step hkey).continues c' rfl with hview | ⟨segment, result, -, hest⟩
      · rw [show c'.state = c.state from congrArg (·.control.state) hview]
        exact .stay _
      · rw [hest.fresh.established]
        rcases hopen.state with h | h <;> rw [h]
        · exact .synAck
        · exact .handshakeAck

theorem Run.removal_cause (hs : Reachable s) (hc : s.table.find? key = some c) {op : Op}
    (hgone : (s.step op).table.find? key = none) : RemovalCause key c op := by
  rcases Traced.step_of_some hc op with ⟨hsame, -⟩ | ⟨e, hevent, hkey, -⟩
  · simp [hgone] at hsame
  · rw [hgone] at hkey
    have hpoll : ∀ segment, e = .pollRetransmissions segment → RemovalCause key c op := by
      rintro segment rfl
      obtain ⟨now, rfl⟩ := op_of_pollRetransmissions hevent
      refine pollConnection_removed ?_
      simp only [Traced.step, apply, find?_pollRetransmissions, hc, bind_some] at hgone
      exact hgone
    cases (Run.connInv hs hc).ok with
    | synced u hsynced =>
      rcases (hsynced.step hkey).removed rfl with ⟨segment, result, rfl, hby⟩ | ⟨segment, he⟩
      · obtain ⟨memory, now, rfl⟩ := op_of_handle hevent
        cases hby with
        | reset hrst => exact .reset memory segment now hrst
        | lastAcked _ hlast hack => exact .lastAcked memory segment now hlast hack
      · exact hpoll segment he
    | halfOpen hopen =>
      rcases (hopen.step hkey).removed rfl with ⟨segment, result, rfl, hrst⟩ | ⟨segment, he⟩
      · obtain ⟨memory, now, rfl⟩ := op_of_handle hevent
        exact .reset memory segment now hrst
      · exact hpoll segment he

theorem Traced.move_absent (hc : s.table.find? key = none) (op : Op) :
    StateMove none ((s.step op).table.stateOf key) := by
  unfold stateOf
  rcases s.table.apply_key op key with ⟨-, hsame⟩ | ⟨e, -, hkey⟩
  · rw [show (s.step op).table.find? key = none from hsame.trans hc]
    exact .absent
  · rw [hc] at hkey
    change StateMove none (((s.table.apply op).find? key).map _)
    generalize (s.table.apply op).find? key = after at hkey ⊢
    cases hkey with
    | refused => exact .absent
    | connect isn now => exact .connect
    | accept segment options isn now _ _ _ hoptions =>
      rw [map_some, show (acceptedWith segment options isn now).state = .synReceived from
        congrArg ControlView.state (acceptedWith_ok segment isn now hoptions).control]
      exact .listen

/-- **State and FIN bookkeeping agree** in every reachable connection, and every call moves the
    state along the documented diagram. -/
theorem state_bookkeeping {s : Traced} (hs : Reachable s) (key : TcpConnectionKey) :
    (∀ c, s.table.find? key = some c → Bookkeeping (s.history key) c) ∧
    ∀ op, StateMove (s.table.stateOf key) ((s.step op).table.stateOf key) ∧
      ∀ c, s.table.find? key = some c → (s.step op).table.find? key = none →
        RemovalCause key c op := by
  have hinv := Run.keyInv hs key
  constructor
  · intro c hc
    obtain ⟨isn, hconn, -⟩ := hinv.conn
    have hok := hconn c hc
    cases hok.ok with
    | halfOpen hopen => exact .of_halfOpen hopen hok.peerClosed hinv.closedOnce
    | synced u hsynced => exact .of_synced hsynced hok.peerClosed hinv.closedOnce
  · intro op
    refine ⟨?_, fun c hc hgone => Run.removal_cause hs hc hgone⟩
    cases hc : s.table.find? key with
    | none =>
        rw [show s.table.stateOf key = none by simp [stateOf, hc]]
        exact Traced.move_absent hc op
    | some c =>
        rw [show s.table.stateOf key = some c.state by simp [stateOf, hc]]
        unfold stateOf
        cases hc' : (s.step op).table.find? key with
        | none => exact .removed _
        | some c' => exact Run.move_kept hs hc hc'

theorem state_bookkeeping_example :
    ∃ c, (exampleRun [] exampleSend).table.find? exampleKey = some c ∧ c.state = .finWait1 ∧
      Bookkeeping ((exampleRun [] exampleSend).history exampleKey) c ∧
      ∀ op, StateMove (some .finWait1)
        (((exampleRun [] exampleSend).step op).table.stateOf exampleKey) := by
  obtain ⟨c, hc, hstate⟩ := exampleRun_at [] exampleSend
    (fun _ c => c.state = .finWait1) (by decide +kernel)
  obtain ⟨hbook, hmove⟩ := state_bookkeeping (exampleRun_reachable [] exampleSend) exampleKey
  refine ⟨c, hc, hstate, hbook c hc, fun op => ?_⟩
  have hop := (hmove op).1
  rw [stateOf, hc, map_some] at hop
  exact hstate ▸ hop

end Wirestack
