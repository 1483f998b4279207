import Wirestack.Tcp.Replay

set_option autoImplicit false

/-! # Integrity of the send stream and of the pending queue

Two results about every connection of every reachable table, whatever segments arrive: what is sent
is the accepted stream, with the FIN at its end (`sendStream_integrity`), and the pending queue tiles
the unacknowledged sequence space (`pending_tiles`). -/

namespace Wirestack

open SerialNumber List Connection

theorem flatMap_payload_outstanding (pending : List PendingTransmission) :
    (pending.map PendingTransmission.outstanding).flatMap (·.payload) =
      pending.flatMap (·.payload) := by
  rw [flatMap_map]
  rfl

theorem Synced.fin_stable {S : List Byte} {u : ℕ} {c : Connection} (h : Synced S u c) {f : SeqNum}
    (hf : c.localFinSeq = some f) {e : Event} {after : Option Connection}
    (hstep : SyncedStep S u c e after) :
    e.accepted = [] ∧ ∀ c', after = some c' → c'.localFinSeq = some f := by
  have hseq : c.state.finSequenced = true := by
    rw [← h.sequenced, hf]
    rfl
  have hnone := hstep.accepted hseq
  refine ⟨hnone, fun c' hafter => ?_⟩
  obtain ⟨⟨u', -, hsynced⟩, hisn, hpath, -⟩ := hstep.continues c' hafter
  rw [hnone, append_nil] at hsynced
  have hsome := hsynced.sequenced.trans (hpath.finSequenced hseq)
  obtain ⟨f', hf'⟩ := Option.isSome_iff_exists.1 hsome
  have h₁ := (h.send.fin f hf).1
  have h₂ := (hsynced.send.fin f' hf').1
  rw [show c'.view.send.localIsn = c.view.send.localIsn from hisn, ← h₁] at h₂
  rw [hf', h₂]

/-- **Send-stream integrity and FIN position.** With `S` the bytes accepted on a connection: `S` is
    what is acknowledged, then what is pending, then what is unsent; every data segment handed out,
    persist probes apart, is the slice of `S` at its sequence number; and the FIN sits right behind
    `S`, once and for all. -/
theorem sendStream_integrity {s : Traced} (hs : Reachable s) (key : TcpConnectionKey) : (∃ isn,
      (∀ c, s.table.find? key = some c → c.localIsn = isn) ∧
      (∀ segment ∈ (s.history key).emittedInSequence, segment.payload ≠ [] →
        ∃ k, segment.sequenceNumber = isn + 1 + BitVec.ofNat 32 k ∧
          segment.payload <+: (s.history key).accepted.drop k) ∧
      (∀ segment ∈ (s.history key).emittedInSequence, segment.flags.fin = true →
        segment.sequenceNumber = isn + 1 + BitVec.ofNat 32 (s.history key).accepted.length)) ∧
    (∀ h₁ h₂ : History, s.history key = h₁ ++ h₂ →
      (∃ segment ∈ h₁.emittedInSequence, segment.flags.fin = true) → h₂.accepted = []) ∧
    ∀ c, s.table.find? key = some c → c.state.synchronized = true →
      (∃ u, c.sndUna = c.localIsn + 1 + BitVec.ofNat 32 u ∧ (s.history key).accepted =
          (s.history key).accepted.take u ++ c.pending.flatMap (·.payload) ++ c.unsent) ∧
      ∀ f, c.localFinSeq = some f →
        f = c.localIsn + 1 + BitVec.ofNat 32 (s.history key).accepted.length ∧
        ∀ op, ((s.step op).history key).accepted = (s.history key).accepted ∧
          ∀ c', (s.step op).table.find? key = some c' → c'.localFinSeq = some f := by
  obtain ⟨⟨isn, hconn, hslices⟩, hfinal, -⟩ := Run.keyInv hs key
  refine ⟨⟨isn, fun c hc => (hconn c hc).localIsn, fun segment hmem => (hslices segment hmem).data,
    fun segment hmem hfin => ((hslices segment hmem).fin hfin).1⟩, hfinal, ?_⟩
  intro c hc hsync
  obtain ⟨u, hsynced⟩ := Run.synced hs hc hsync
  constructor
  · refine ⟨u, hsynced.send.una, ?_⟩
    rw [← flatMap_payload_outstanding]
    exact hsynced.send.bytes_eq
  · intro f hf
    refine ⟨(hsynced.send.fin f hf).1, fun op => ?_⟩
    rcases Traced.step_of_some hc op with ⟨hsame, hhist⟩ | ⟨e, -, hkey, hhist⟩
    · rw [hhist, hsame]
      refine ⟨rfl, ?_⟩
      rintro c' ⟨rfl⟩
      exact hf
    · obtain ⟨hnone, hkeep⟩ := hsynced.fin_stable hf (hsynced.step hkey)
      rw [hhist, History.accepted_append, hnone, append_nil]
      exact ⟨rfl, hkeep⟩

theorem sendStream_integrity_example :
    ∃ c, (exampleRun [] exampleSend).table.find? exampleKey = some c ∧
      c.state.synchronized = true ∧ c.localFinSeq = some 1004 ∧
      ((exampleRun [] exampleSend).history exampleKey).accepted = [1, 2, 3] ∧
      ∃ u, c.sndUna = c.localIsn + 1 + BitVec.ofNat 32 u ∧
        [1, 2, 3] = [1, 2, 3].take u ++ c.pending.flatMap (·.payload) ++ c.unsent := by
  obtain ⟨c, hc, hsync, hfin, haccepted⟩ := exampleRun_at [] exampleSend
    (fun h c => c.state.synchronized = true ∧ c.localFinSeq = some 1004 ∧ h.accepted = [1, 2, 3])
      (by decide +kernel)
  have hparts := ((sendStream_integrity (exampleRun_reachable [] exampleSend) exampleKey).2.2
    c hc hsync).1
  rw [haccepted] at hparts
  exact ⟨c, hc, hsync, hfin, haccepted, hparts⟩

/-! ## The pending queue -/

/-- The pending queue tiles the unacknowledged sequence space, and all comparisons inside that space
    are exact. -/
structure PendingTiles (c : Connection) : Prop where
  empty : c.pending = [] → c.sndUna = c.sndNxt
  first : ∀ e, c.pending.head? = some e → e.sequenceStart = c.sndUna
  adjacent : ∀ i e e', c.pending[i]? = some e → c.pending[i + 1]? = some e' →
    e.sequenceEnd = e'.sequenceStart
  last : ∀ e, c.pending.getLast? = some e → e.sequenceEnd = c.sndNxt
  span : ∀ e ∈ c.pending, 1 ≤ e.span
  payload : ∀ e ∈ c.pending, e.payload = [] ↔ e.isSyn = true ∨ e.isFin = true
  finLast : ∀ i e, c.pending[i]? = some e → e.isFin = true → i + 1 = c.pending.length
  flight : (c.sndNxt - c.sndUna).toNat = (c.pending.map PendingTransmission.span).sum
  owned : c.appOwnedBytes ≤ kTcpSendBufferCapacity
  bounded : (c.pending.map PendingTransmission.span).sum ≤ 262145
  exactOrder : ∀ i j, i ≤ (c.sndNxt - c.sndUna).toNat → j ≤ (c.sndNxt - c.sndUna).toNat →
    sequenceGreater (c.sndUna + BitVec.ofNat 32 i) (c.sndUna + BitVec.ofNat 32 j) = decide (j < i) ∧
    sequenceLessOrEqual (c.sndUna + BitVec.ofNat 32 i) (c.sndUna + BitVec.ofNat 32 j) =
      decide (i ≤ j)
  exactAck : ∀ ack, sequenceGreater ack c.sndUna = true ∧
      sequenceLessOrEqual ack c.sndNxt = true ↔
    ∃ d, 0 < d ∧ d ≤ (c.sndNxt - c.sndUna).toNat ∧ ack = c.sndUna + BitVec.ofNat 32 d

namespace Tiled

variable {start stop : SeqNum} {q : List Outstanding}

theorem adjacent (h : Tiled start q stop) {i : ℕ} {e e' : Outstanding} (he : q[i]? = some e)
    (he' : q[i + 1]? = some e') : e.sequenceEnd = e'.sequenceStart := by
  induction q generalizing start i with
  | nil => simp at he
  | cons d rest ih =>
    cases i with
    | zero =>
      obtain rfl : d = e := by simpa using he
      cases rest with
      | nil => simp at he'
      | cons d' rest =>
        obtain rfl : d' = e' := by simpa using he'
        exact h.2.1.symm
    | succ i => exact ih h.2 (by simpa using he) (by simpa using he')

theorem last (h : Tiled start q stop) {e : Outstanding} (he : q.getLast? = some e) :
    e.sequenceEnd = stop := by
  induction q generalizing start with
  | nil => simp at he
  | cons d rest ih =>
    cases rest with
    | nil =>
      obtain rfl : d = e := by simpa using he
      exact h.2
    | cons d' rest => exact ih h.2 (by simpa using he)

end Tiled

theorem sum_span_eq (pending : List PendingTransmission) :
    (pending.map PendingTransmission.span).sum =
      (cells (pending.map PendingTransmission.outstanding)).length := by
  induction pending with
  | nil => rfl
  | cons e rest ih =>
    rw [List.map_cons, List.map_cons, sum_cons, cells_cons, length_append, ih,
      Outstanding.length_cells]
    rfl

theorem PendingTiles.of_tiled {c : Connection} (htiled : Tiled c.sndUna c.view.send.queue c.sndNxt)
    (hkinds : ∀ e ∈ c.view.send.queue, e.Sent ∨ e.isSyn = true ∧ e.isFin = false ∧ e.payload = [])
    (hfin : ∀ p e rest, c.view.send.queue = p ++ e :: rest → e.isFin = true → rest = [])
    (howned : c.appOwnedBytes ≤ kTcpSendBufferCapacity)
    (hspan : (cells c.view.send.queue).length ≤ kTcpSendBufferCapacity + 1) : PendingTiles c := by
  have hkind : ∀ e ∈ c.pending, 1 ≤ e.span ∧
      (e.payload = [] ↔ e.isSyn = true ∨ e.isFin = true) := by
    intro e he
    have hall : ∀ o : Outstanding, o.Sent ∨ o.isSyn = true ∧ o.isFin = false ∧ o.payload = [] →
        1 ≤ o.span ∧ (o.payload = [] ↔ o.isSyn = true ∨ o.isFin = true) := by
      rintro o (ho | ⟨hsyn, hnot, hpayload⟩)
      · cases ho with
        | data start psh payload hne =>
          exact ⟨by simpa [Outstanding.span, Nat.one_le_iff_ne_zero] using hne, by simp [hne]⟩
        | fin start => exact ⟨by simp [Outstanding.span], by simp⟩
      · exact ⟨by simp [Outstanding.span, hsyn, hnot, hpayload], by simp [hsyn, hpayload]⟩
    exact hall e.outstanding (hkinds _ (mem_map_of_mem he))
  have hsum := sum_span_eq c.pending
  have hlt : (cells c.view.send.queue).length < 2 ^ 31 := by
    simp only [kTcpSendBufferCapacity] at hspan
    omega
  have hflight : (c.sndNxt - c.sndUna).toNat = (cells c.view.send.queue).length := by
    rw [htiled.stop_eq, pos_sub_base, BitVec.toNat_ofNat, Nat.mod_eq_of_lt (by omega)]
  constructor
  · intro hempty
    have hqueue : c.view.send.queue = [] := by simp [view, hempty]
    rwa [hqueue] at htiled
  · intro e he
    have hqueue : ∃ rest, c.view.send.queue = e.outstanding :: rest := by
      cases hpending : c.pending with
      | nil => simp [hpending] at he
      | cons d rest =>
        obtain rfl : d = e := by simpa [hpending] using he
        exact ⟨rest.map PendingTransmission.outstanding, by simp [view, hpending]⟩
    obtain ⟨rest, hqueue⟩ := hqueue
    rw [hqueue] at htiled
    exact htiled.1
  · intro i e e' he he'
    rw [e.sequenceEnd_eq]
    have hleft : c.view.send.queue[i]? = some e.outstanding := by simp [view, he]
    have hright : c.view.send.queue[i + 1]? = some e'.outstanding := by simp [view, he']
    exact htiled.adjacent hleft hright
  · intro e he
    rw [e.sequenceEnd_eq]
    refine htiled.last ?_
    simp [view, getLast?_map, he]
  · exact fun e he => (hkind e he).1
  · exact fun e he => (hkind e he).2
  · intro i e he hflag
    obtain ⟨hi, hget⟩ := List.getElem?_eq_some_iff.1 he
    have hsplit : c.view.send.queue = (c.pending.take i).map PendingTransmission.outstanding ++
        e.outstanding :: (c.pending.drop (i + 1)).map PendingTransmission.outstanding := by
      rw [← hget, ← List.map_cons, List.cons_getElem_drop_succ, ← List.map_append,
        List.take_append_drop]
      rfl
    have hnil := hfin _ _ _ hsplit hflag
    have hlen := congrArg length hnil
    rw [length_map, length_drop, length_nil] at hlen
    omega
  · exact hflight.trans hsum.symm
  · exact howned
  · rwa [hsum]
  · intro i j hi hj
    rw [hflight] at hi hj
    exact ⟨sequenceGreater_pos c.sndUna (by omega) (by omega),
      sequenceLessOrEqual_pos c.sndUna (by omega) (by omega)⟩
  · intro ack
    rw [hflight]
    constructor
    · rintro ⟨hgt, hle⟩
      obtain ⟨hpos, hdist⟩ := (sequenceGreater_iff _ _).1 hgt
      refine ⟨ahead c.sndUna ack, hpos, ?_, (pos_ahead _ _).symm⟩
      rw [← pos_ahead c.sndUna ack, htiled.stop_eq,
        sequenceLessOrEqual_pos _ (by omega) (by omega)] at hle
      simpa using hle
    · rintro ⟨d, hpos, hd, rfl⟩
      have h₁ := sequenceGreater_pos c.sndUna (i := d) (j := 0) (by omega) (by omega)
      have h₂ := sequenceLessOrEqual_pos c.sndUna (i := d) (j := (cells c.view.send.queue).length)
        (by omega) (by omega)
      rw [pos_zero] at h₁
      rw [← htiled.stop_eq] at h₂
      exact ⟨h₁.trans (by simpa using hpos), h₂.trans (by simpa using hd)⟩

/-- **The pending queue tiles the unacknowledged sequence space** in every reachable connection that
    is not in SYN-RECEIVED. -/
theorem pending_tiles {s : Traced} (hs : Reachable s) {key : TcpConnectionKey} {c : Connection}
    (hc : s.table.find? key = some c) (hstate : c.state ≠ .synReceived) : PendingTiles c := by
  cases (Run.connInv hs hc).ok with
  | halfOpen hopen =>
      rcases hopen with h | h
      · have hqueue := congrArg SendView.queue h.send
        have huna : c.sndUna = c.localIsn := congrArg SendView.sndUna h.send
        have hnxt : c.sndNxt = c.localIsn + 1 := congrArg SendView.sndNxt h.send
        have hunsent : c.unsent = [] := congrArg SendView.unsent h.send
        dsimp only at hqueue
        refine PendingTiles.of_tiled ?_ ?_ ?_ ?_ ?_
        · rw [hqueue, huna, hnxt]
          exact ⟨rfl, rfl⟩
        · rw [hqueue]
          intro e he
          rw [mem_singleton.1 he]
          exact .inr ⟨rfl, rfl, rfl⟩
        · intro p e rest hsplit _
          rw [hqueue] at hsplit
          have := congrArg length hsplit
          simp only [length_cons, length_nil, length_append] at this
          exact eq_nil_of_length_eq_zero (by omega)
        · obtain ⟨e, hpending, he⟩ := map_eq_singleton_iff.1 hqueue
          have hsyn : e.isSyn = true := congrArg Outstanding.isSyn he
          rw [appOwnedBytes, hunsent, hpending]
          simp [hsyn]
        · rw [hqueue]
          simp [cells, Outstanding.cells]
      · exact absurd (congrArg ControlView.state h.control) hstate
  | synced u hsynced =>
      refine PendingTiles.of_tiled hsynced.send.tiled (fun e he => .inl (hsynced.send.sent e he))
        (fun p e rest hsplit => hsynced.send.fin_last hsplit) ?_ hsynced.send.span_le
      rw [appOwnedBytes_eq hsynced.send]
      exact hsynced.send.capacity

theorem pending_tiles_example :
    ∃ c, (exampleRun [] exampleSend).table.find? exampleKey = some c ∧ c.state = .finWait1 ∧
      c.pending.length = 2 ∧ PendingTiles c := by
  obtain ⟨c, hc, hval⟩ := exampleRun_at [] exampleSend
    (fun _ c => c.state = .finWait1 ∧ c.pending.length = 2) (by decide +kernel)
  refine ⟨c, hc, hval.1, hval.2, pending_tiles (exampleRun_reachable [] exampleSend) hc ?_⟩
  rw [hval.1]
  exact fun h => TcpState.noConfusion h

end Wirestack
