import Wirestack.Tcp.Sampling
import Wirestack.Tcp.SendWindow

set_option autoImplicit false

/-! # What becomes of a queue entry

A queue entry is told apart from the others by its `sequenceEnd`, which trimming leaves alone, so an
entry can be followed through a call that rewrites the whole queue. `Survives` says where the entries
of a queue come from and what the call did to their flags; `Appends` is about the entries that are
new. Every stage of a call is one or the other. -/

namespace Wirestack

open SerialNumber List PendingTransmission

variable {p pending rest : List PendingTransmission} {segment : TcpSegment} {stop : SeqNum}
  {S : List Byte} {u : ℕ} {g : PendingTransmission → PendingTransmission} {c' : Connection}
  {outcome : Connection × List TcpSegment} {oldest : PendingTransmission}

variable {e : PendingTransmission} {ack : SeqNum} {q : List Outstanding} {c c₁ : Connection}
  {new : List PendingTransmission} {segments : List TcpSegment}

/-! ## Ends -/

/-- Where the sequence numbers of a segment end; `none` for a segment that occupies none. -/
def TcpSegment.occupiedEnd (segment : TcpSegment) : Option SeqNum :=
  let length := segment.payload.length + (if segment.flags.syn then 1 else 0) +
    (if segment.flags.fin then 1 else 0)
  if length = 0 then none else some (segment.sequenceNumber + BitVec.ofNat 32 length)

def occupiedEnds (segments : List TcpSegment) : List SeqNum :=
  segments.filterMap TcpSegment.occupiedEnd

def ends (pending : List PendingTransmission) : List SeqNum := pending.map (·.sequenceEnd)

theorem ends_append (p q : List PendingTransmission) : ends (p ++ q) = ends p ++ ends q :=
  map_append

theorem ends_eq (p : List PendingTransmission) :
    ends p = (p.map outstanding).map Outstanding.sequenceEnd := by
  rw [map_map]
  exact map_congr_left fun e _ => e.sequenceEnd_eq

theorem mem_ends (h : e ∈ p) : e.sequenceEnd ∈ ends p := mem_map_of_mem h

/-- The entry has sequence numbers of its own, and its flags say which. -/
structure Outstanding.Occupies (e : Outstanding) : Prop where
  syn : e.flags.syn = e.isSyn
  fin : e.flags.fin = e.isFin
  span : e.span ≠ 0

theorem Outstanding.Sent.occupies {e : Outstanding} (h : e.Sent) : e.Occupies := by
  have hspan : e.span ≠ 0 := by
    rw [← e.length_cells]
    exact fun h₀ => h.cells_ne_nil (length_eq_zero_iff.1 h₀)
  cases h with
  | data start psh payload hne | fin start => exact ⟨rfl, rfl, hspan⟩

theorem Outstanding.Occupies.occupiedEnd {e : Outstanding} (h : e.Occupies)
    (hsent : e.IsSentAs ack segment) : segment.occupiedEnd = some e.sequenceEnd := by
  rw [TcpSegment.occupiedEnd, hsent.payload, hsent.flags, hsent.sequenceNumber, h.syn, h.fin]
  exact if_neg h.span

theorem Tiled.ends : ∀ {start : SeqNum}, Tiled start q stop → (∀ e ∈ q, e.Sent) →
    ∃ offsets : List ℕ, q.map Outstanding.sequenceEnd = offsets.map (pos start) ∧
      offsets.Pairwise (· < ·) ∧ ∀ k ∈ offsets, 0 < k ∧ k ≤ (cells q).length := by
  induction q with
  | nil => exact fun _ _ => ⟨[], rfl, Pairwise.nil, nofun⟩
  | cons e rest ih =>
    intro start h hsent
    obtain ⟨hstart, htail⟩ := h
    obtain ⟨offsets, hends, hpairs, hrange⟩ := ih htail fun x hx => hsent x (mem_cons_of_mem _ hx)
    have hpos : 0 < e.cells.length :=
      length_pos_iff.2 (hsent e (mem_cons_self ..)).cells_ne_nil
    have hend : e.sequenceEnd = pos start e.cells.length := by rw [e.sequenceEnd_eq_pos, hstart]
    refine ⟨e.cells.length :: offsets.map (e.cells.length + ·), ?_, ?_, ?_⟩
    · rw [map_cons, map_cons, hends, hend, map_map]
      refine congrArg _ (map_congr_left fun k _ => ?_)
      exact pos_pos ..
    · refine pairwise_cons.2 ⟨fun k hk => ?_, ?_⟩
      · obtain ⟨j, hj, rfl⟩ := mem_map.1 hk
        have := (hrange j hj).1
        omega
      · refine Pairwise.map _ (fun i j hij => ?_) hpairs
        omega
    · rw [cells_cons, length_append]
      intro k hk
      rcases mem_cons.1 hk with rfl | hk
      · omega
      · obtain ⟨j, hj, rfl⟩ := mem_map.1 hk
        have := hrange j hj
        omega

theorem length_cells_le_of_mem {e : Outstanding} (h : e ∈ q) :
    e.cells.length ≤ (cells q).length := by
  obtain ⟨p, rest, rfl⟩ := append_of_mem h
  rw [cells_append, cells_cons, length_append, length_append]
  omega

theorem SendInv.entry_span_lt (h : SendInv S u c.view.send) (he : e ∈ c.pending) :
    e.span < 2 ^ 31 := by
  have hqueue : e.outstanding ∈ c.view.send.queue := mem_map_of_mem he
  have hlength : e.outstanding.cells.length = e.span := e.outstanding.length_cells
  rw [← hlength]
  exact (length_cells_le_of_mem hqueue).trans_lt h.span_lt

theorem Tiled.nodup_ends {start : SeqNum} (h : Tiled start q stop) (hsent : ∀ e ∈ q, e.Sent)
    (hspan : (cells q).length < 2 ^ 32) : (q.map Outstanding.sequenceEnd).Nodup := by
  obtain ⟨offsets, hends, hpairs, hrange⟩ := h.ends hsent
  rw [hends]
  refine Nodup.map_on (fun i hi j hj heq => ?_) (hpairs.imp fun hlt => ne_of_lt hlt)
  have hi := hrange i hi
  have hj := hrange j hj
  exact pos_inj start (by omega) (by omega) heq

/-- The queue entries have different ends. Only what is outstanding matters. -/
structure Distinct (pending : List PendingTransmission) : Prop where
  ends : (ends pending).Nodup
  occupies : ∀ e ∈ pending, e.outstanding.Occupies

theorem Distinct.congr {q : List PendingTransmission} (h : Distinct p)
    (hsame : q.map outstanding = p.map outstanding) : Distinct q where
  ends := by
    rw [ends_eq, hsame, ← ends_eq]
    exact h.ends
  occupies := by
    intro e he
    have hmem : e.outstanding ∈ q.map outstanding := mem_map_of_mem he
    rw [hsame] at hmem
    obtain ⟨e₀, he₀, hout⟩ := mem_map.1 hmem
    rw [← hout]
    exact h.occupies e₀ he₀

theorem SendInv.distinct (h : SendInv S u c.view.send) : Distinct c.pending where
  ends := by
    have hspan := h.span_lt
    rw [ends_eq]
    exact h.tiled.nodup_ends h.sent (by omega)
  occupies := fun e he => (h.sent e.outstanding (mem_map_of_mem he)).occupies

theorem HalfOpen.distinct (h : HalfOpen c) : Distinct c.pending := by
  obtain ⟨e, hpending, hentry⟩ := h.pending_eq
  rw [hpending]
  refine ⟨nodup_singleton _, fun x hx => ?_⟩
  rw [List.mem_singleton.1 hx, hentry]
  exact ⟨rfl, rfl, by simp [Outstanding.span]⟩

theorem PendingTransmission.trim_offset (hspan : e.span < 2 ^ 31)
    (hend : sequenceLessOrEqual e.sequenceEnd ack = false)
    (hstart : sequenceGreater ack e.sequenceStart = true) :
    ∃ d, ack = pos e.sequenceStart d ∧ 0 < d ∧ d < e.span := by
  obtain ⟨hpos, hhalf⟩ := (sequenceGreater_iff ack e.sequenceStart).1 hstart
  have hack := (pos_ahead e.sequenceStart ack).symm
  generalize ahead e.sequenceStart ack = d at hpos hhalf hack
  have hends : e.sequenceEnd = pos e.sequenceStart e.span := e.sequenceEnd_eq
  rw [hends, hack, sequenceLessOrEqual_pos _ (by omega) (by omega), decide_eq_false_iff_not,
    not_le] at hend
  exact ⟨d, hack, hpos, hend⟩

theorem PendingTransmission.trimTo_span (h : e.outstanding.Sent) (hspan : e.span < 2 ^ 31) {d : ℕ}
    (hpos : 0 < d) (hlt : d < e.span) : (e.trimTo (pos e.sequenceStart d)).span = e.span - d := by
  have hlength : e.outstanding.cells.length = e.span := e.outstanding.length_cells
  obtain ⟨-, hcells⟩ := h.trimTo hpos (by omega) (by omega)
  have htrimmed := congrArg List.length hcells
  rwa [Outstanding.length_cells, length_drop, hlength] at htrimmed

theorem PendingTransmission.trimTo_sequenceEnd (h : e.outstanding.Sent) (hspan : e.span < 2 ^ 31)
    (hend : sequenceLessOrEqual e.sequenceEnd ack = false)
    (hstart : sequenceGreater ack e.sequenceStart = true) :
    (e.trimTo ack).sequenceEnd = e.sequenceEnd := by
  obtain ⟨d, rfl, hpos, hlt⟩ := trim_offset hspan hend hstart
  have htrimmed : (e.trimTo (pos e.sequenceStart d)).sequenceEnd =
      pos (pos e.sequenceStart d) (e.trimTo (pos e.sequenceStart d)).span :=
    sequenceEnd_eq _
  have hends : e.sequenceEnd = pos e.sequenceStart e.span := e.sequenceEnd_eq
  rw [htrimmed, trimTo_span h hspan hpos hlt, hends, pos_pos, Nat.add_sub_cancel' hlt.le]

/-! ## Entries that stay queued -/

/-- The entries of `q` are entries of `p` with the same end. `sample` is the one that was sampled in
    between; an entry whose end is in `resent` comes out marked as retransmitted. -/
structure Survives (sample : Option PendingTransmission) (resent : List SeqNum)
    (p q : List PendingTransmission) : Prop where
  source : ∀ e' ∈ q, ∃ e ∈ p, e'.sequenceEnd = e.sequenceEnd ∧
    e'.rttSampleTaken = (e.rttSampleTaken || decide (sample = some e)) ∧
    (e'.wasRetransmitted = false → e.wasRetransmitted = false ∧ e.sequenceEnd ∉ resent)
  known : ∀ x ∈ resent, x ∈ ends p

namespace Survives

variable {sample : Option PendingTransmission} {resent resent' : List SeqNum}
  {p q r : List PendingTransmission}

theorem refl (p : List PendingTransmission) : Survives none [] p p where
  source := fun e he => ⟨e, he, rfl, by simp, fun h => ⟨h, not_mem_nil⟩⟩
  known := nofun

theorem nil (p : List PendingTransmission) : Survives none [] p [] where
  source := fun _ he => nomatch he
  known := nofun

theorem trans (h : Survives sample resent p q) (h' : Survives none resent' q r) :
    Survives sample (resent ++ resent') p r := by
  refine ⟨fun e'' he'' => ?_, fun x hx => ?_⟩
  · obtain ⟨e', he', hend', htaken', honce'⟩ := h'.source e'' he''
    obtain ⟨e, he, hend, htaken, honce⟩ := h.source e' he'
    refine ⟨e, he, hend'.trans hend, ?_, fun hmark => ?_⟩
    · rw [htaken', ← htaken]
      simp
    · obtain ⟨hmark', hnew'⟩ := honce' hmark
      obtain ⟨hmark, hnew⟩ := honce hmark'
      refine ⟨hmark, ?_⟩
      rw [mem_append, not_or]
      rw [hend] at hnew'
      exact ⟨hnew, hnew'⟩
  · rcases mem_append.1 hx with hx | hx
    · exact h.known x hx
    · obtain ⟨e', he', rfl⟩ := mem_map.1 (h'.known x hx)
      obtain ⟨e, he, hend, -⟩ := h.source e' he'
      rw [hend]
      exact mem_ends he

theorem map
    (hg : ∀ e, (g e).sequenceEnd = e.sequenceEnd ∧ (g e).rttSampleTaken = e.rttSampleTaken ∧ (g
      e).wasRetransmitted = e.wasRetransmitted) (p : List PendingTransmission) :
    Survives none [] p (p.map g) := by
  refine ⟨fun e' he' => ?_, nofun⟩
  obtain ⟨e, he, rfl⟩ := mem_map.1 he'
  obtain ⟨hend, htaken, hmark⟩ := hg e
  refine ⟨e, he, hend, by rw [htaken]; simp, fun h => ⟨?_, not_mem_nil⟩⟩
  rwa [← hmark]

theorem modify
    (hg : ∀ e, (g e).sequenceEnd = e.sequenceEnd ∧ (g e).rttSampleTaken = e.rttSampleTaken ∧ (g
      e).wasRetransmitted = true) (hdistinct : (ends p).Nodup) {i : ℕ} {e₀ : PendingTransmission}
    (hi : p[i]? = some e₀) : Survives none [e₀.sequenceEnd] p (p.modify i g) := by
  refine ⟨fun e' he' => ?_, fun x hx => ?_⟩
  swap
  · rw [List.mem_singleton.1 hx]
    exact mem_ends (mem_of_getElem? hi)
  obtain ⟨j, hj⟩ := mem_iff_getElem?.1 he'
  rw [getElem?_modify] at hj
  obtain ⟨e, he, rfl⟩ := Option.map_eq_some_iff.1 hj
  refine ⟨e, mem_of_getElem? he, ?_⟩
  by_cases hij : i = j
  · obtain ⟨hend, htaken, hmark⟩ := hg e
    rw [if_pos hij]
    refine ⟨hend, by rw [htaken]; simp, fun h => ?_⟩
    simp [hmark] at h
  · rw [if_neg hij]
    refine ⟨rfl, by simp, fun h => ⟨h, ?_⟩⟩
    intro hsame
    have hlt : i < p.length := (List.getElem?_eq_some_iff.1 hi).1
    refine hij ((List.getElem?_inj (by simpa [ends] using hlt) hdistinct).1 ?_)
    rw [ends, List.getElem?_map, List.getElem?_map, hi, he]
    exact congrArg some (List.mem_singleton.1 hsame).symm

end Survives

/-! ## The stages of a processed segment -/

section Stages

variable {S : List Byte} {u : ℕ} {c : Connection}

theorem SendInv.retire_survives (h : SendInv S u c.view.send) (ack : SeqNum) (now : TimePoint) :
    Survives (retirementSample c ack now) [] c.pending
      (retireAcknowledged c ack now).1.pending := by
  have hdistinct := h.distinct.ends
  have hretired := retireAcknowledged_retirement c ack now
  generalize retirementSample c ack now = sample at hretired ⊢
  -- An entry behind the acknowledged part is not the sampled one: its end differs.
  have hbehind : ∀ {front back : List PendingTransmission}, c.pending = front ++ back →
      (∀ e, sample = some e → e ∈ front) → ∀ e ∈ back, e ∈ c.pending ∧ sample ≠ some e := by
    intro front back hpending hfront e he
    rw [hpending, ends_append] at hdistinct
    refine ⟨by rw [hpending]; exact mem_append_right _ he, fun hsome => ?_⟩
    exact disjoint_of_nodup_append hdistinct (mem_ends (hfront e hsome)) (mem_ends he)
  generalize (retireAcknowledged c ack now).1.pending = after at hretired ⊢
  cases hretired with
  | whole retired _ hpending hsample =>
    refine ⟨fun e he => ?_, nofun⟩
    obtain ⟨hmem, hne⟩ := hbehind hpending hsample e he
    exact ⟨e, hmem, rfl, by simp [hne], fun hmark => ⟨hmark, not_mem_nil⟩⟩
  | trimmed retired rest e taken hpending hend hstart hsample htaken =>
    refine ⟨fun e' he' => ?_, nofun⟩
    rcases mem_cons.1 he' with rfl | he'
    · have hmem : e ∈ c.pending := by
        rw [hpending]
        exact mem_append_right _ (mem_cons_self ..)
      have hqueue : e.outstanding ∈ c.view.send.queue := mem_map_of_mem hmem
      have hends := trimTo_sequenceEnd (h.sent _ hqueue) (h.entry_span_lt hmem) hend hstart
      exact ⟨e, hmem, hends, htaken, fun hmark => ⟨hmark, not_mem_nil⟩⟩
    · rw [append_cons] at hpending
      obtain ⟨hmem, hne⟩ := hbehind hpending hsample e' he'
      exact ⟨e', hmem, rfl, by simp [hne], fun hmark => ⟨hmark, not_mem_nil⟩⟩

/-- What a recovery stage does: at most one entry is sent again, and then marked. -/
def Resends (pending : List PendingTransmission) (outcome : Connection × Option TcpSegment) : Prop :=
  Survives none (occupiedEnds outcome.2.toList) pending outcome.1.pending

theorem Resends.silent (h : Survives none [] pending c'.pending) : Resends pending (c', none) := h

theorem retransmitForRecovery_resends (key : TcpConnectionKey) (c : Connection) (now : TimePoint)
    (h : c.pending = pending) (hdistinct : Distinct pending) :
    Resends pending (retransmitForRecovery key c now) := by
  rw [← h] at hdistinct ⊢
  unfold retransmitForRecovery
  split
  · exact .silent (Survives.refl _)
  · next index entry hselect =>
    have hindex := (selectRecoveryRetransmission_spec hselect).index
    have hend : (recoverySegment key c entry).occupiedEnd = some entry.sequenceEnd := by
      rw [entry.sequenceEnd_eq]
      exact (hdistinct.occupies entry (mem_of_getElem? hindex)).occupiedEnd ⟨rfl, rfl, rfl, rfl⟩
    show Survives none ([recoverySegment key c entry].filterMap TcpSegment.occupiedEnd) c.pending
      (c.pending.modify index _)
    rw [filterMap_cons_some hend, filterMap_nil]
    refine Survives.modify ?_ hdistinct.ends hindex
    exact fun e => ⟨rfl, rfl, rfl⟩

theorem clearRecoveryMarks_survives (pending : List PendingTransmission) :
    Survives none [] pending (clearRecoveryMarks pending) := by
  refine Survives.map ?_ pending
  exact fun _ => ⟨rfl, rfl, rfl⟩

theorem onAdvancingAck_resends (key : TcpConnectionKey) (hdistinct : Distinct c.pending)
    (ack : SeqNum) (retired : TcpAckRetirementResult) (now : TimePoint) :
    Resends c.pending (onAdvancingAck key c ack retired now) := by
  unfold onAdvancingAck
  by_cases hrecovery : c.inFastRecovery = true
  · rw [if_pos hrecovery]
    split
    · exact .silent (clearRecoveryMarks_survives c.pending)
    · exact retransmitForRecovery_resends key _ now rfl hdistinct
  · rw [if_neg hrecovery]
    unfold Connection.applyCongestionGrowth
    split_ifs
    · exact .silent (Survives.refl _)
    · exact .silent (Survives.refl _)
    · exact .silent (Survives.refl _)

theorem onStandingAck_resends (key : TcpConnectionKey) (hdistinct : Distinct c.pending)
    (segment : TcpSegment) (windowChanged : Bool) (now : TimePoint) :
    Resends c.pending (onStandingAck key c segment windowChanged now) := by
  unfold onStandingAck
  dsimp only
  split
  · by_cases hrecovery : c.inFastRecovery = true
    · rw [if_pos hrecovery]
      split
      · exact retransmitForRecovery_resends key _ now rfl hdistinct
      · exact .silent (Survives.refl _)
    · rw [if_neg hrecovery]
      split
      · have hcleared := hdistinct.congr (map_outstanding_clearRecoveryMarks c.pending)
        refine (clearRecoveryMarks_survives c.pending).trans ?_
        exact retransmitForRecovery_resends key _ now rfl hcleared
      · exact .silent (Survives.refl _)
  · split
    · exact .silent (Survives.refl _)
    · exact .silent (Survives.refl _)

theorem afterRetire_send (c : Connection) (segment : TcpSegment) (options : TcpParsedOptions)
    (now : TimePoint) :
    ((afterRetire c segment options now).updateSendWindow segment).view.send =
      c.view.send.retire segment.acknowledgmentNumber := by
  rw [updateSendWindow_view]
  unfold afterRetire
  dsimp only
  split
  · rw [applySackBlocks_view, retireAcknowledged_view]
  · rw [retireAcknowledged_view]

theorem SendInv.processAck_survives (h : SendInv S u c.view.send) (key : TcpConnectionKey)
    (options : TcpParsedOptions) (now : TimePoint)
    (hle : sequenceLessOrEqual segment.acknowledgmentNumber c.sndNxt = true) :
    Survives (retirementSample c segment.acknowledgmentNumber now)
      (occupiedEnds (processAck key c segment options now).2.toList) c.pending
      (processAck key c segment options now).1.pending := by
  have hretire := h.retire_survives segment.acknowledgmentNumber now
  have hsack : Survives none [] (retireAcknowledged c segment.acknowledgmentNumber now).1.pending
      (afterRetire c segment options now).pending := by
    unfold afterRetire applySackBlocks
    dsimp only
    split
    · split
      · exact Survives.refl _
      · refine Survives.map (fun e => ?_) _
        split_ifs <;> exact ⟨rfl, rfl, rfl⟩
    · exact Survives.refl _
  have hwindow : ((afterRetire c segment options now).updateSendWindow segment).pending =
      (afterRetire c segment options now).pending := by
    rw [updateSendWindow_shape]
  have hdistinct : Distinct ((afterRetire c segment options now).updateSendWindow segment).pending := by
    obtain ⟨u', -, hretired⟩ := h.retire hle
    rw [← afterRetire_send] at hretired
    exact hretired.distinct
  have hresends : Resends (afterRetire c segment options now).pending
      (processAck key c segment options now) := by
    rw [processAck_eq, ← hwindow]
    split
    · exact onAdvancingAck_resends key hdistinct ..
    · exact onStandingAck_resends key hdistinct ..
  exact hretire.trans (hsack.trans hresends)

theorem advanceClose_survives (c : Connection) (now : TimePoint) :
    Survives none [] c.pending (c.advanceClose now).pending := by
  rcases advanceClose_pending_cases c now with h | h
  · rw [h]
    exact Survives.refl _
  · rw [h]
    exact Survives.nil _

theorem receivePart_survives (memory : ℕ → Byte) (c : Connection) (segment : TcpSegment)
    (now : TimePoint) :
    Survives none [] c.pending (receivePart memory c segment now).connection.pending := by
  rcases receivePart_pending_cases memory c segment now with h | h
  · rw [h]
    exact Survives.refl _
  · rw [h]
    exact Survives.nil _

/-! ## New entries -/

/-- A sending stage appends one entry for every segment it hands out, in sequence. -/
structure Appends (c : Connection) (outcome : Connection × List TcpSegment)
    (new : List PendingTransmission) : Prop where
  pending : outcome.1.pending = c.pending ++ new
  tiled : Tiled c.sndNxt (new.map outstanding) outcome.1.sndNxt
  sent : ∀ e ∈ new.map outstanding, e.Sent
  unsampled : ∀ e ∈ new, e.rttSampleTaken = false
  ends : occupiedEnds outcome.2 = ends new

theorem Appends.nothing (c : Connection) : Appends c (c, []) [] where
  pending := (append_nil _).symm
  tiled := rfl
  sent := nofun
  unsampled := fun _ h => nomatch h
  ends := rfl

theorem Appends.persist (h : Appends c outcome new) (now : TimePoint) :
    Appends c (outcome.1.updatePersistState now, outcome.2) new := by
  rw [updatePersistState_shape]
  exact ⟨h.pending, h.tiled, h.sent, h.unsampled, h.ends⟩

theorem occupiedEnds_eq (hsent : ∀ e ∈ segments.map TcpSegment.outstanding, e.Sent) :
    occupiedEnds segments = (segments.map TcpSegment.outstanding).map Outstanding.sequenceEnd := by
  rw [occupiedEnds, map_map, ← filterMap_eq_map]
  refine filterMap_congr fun segment hmem => ?_
  exact (hsent _ (mem_map_of_mem hmem)).occupies.occupiedEnd ⟨rfl, rfl, rfl, rfl⟩

section

variable (key : TcpConnectionKey) (now : TimePoint)

theorem sendQueued_appends (hmss : 0 < c.effectiveSendMss.toNat) :
    ∃ new, Appends c (sendQueued key c now) new := by
  unfold sendQueued
  dsimp only
  split_ifs
  · have hle := sendAllowance_le c
    have hlen : (c.unsent.take c.sendAllowance).length = c.sendAllowance := by
      rw [length_take]
      omega
    obtain ⟨htiled, hsent, -⟩ := cutSegments_spec key c
      (c.sendAllowance == c.unsent.length && decide (c.sendAllowance > 0)) hmss c.sendAllowance
      c.sndNxt (c.unsent.take c.sendAllowance) hlen.le
    rw [hlen] at htiled
    refine ⟨_, rfl, ?_, ?_, ?_, ?_⟩
    · rwa [outstanding_dataEntry]
    · rwa [outstanding_dataEntry]
    · intro e he
      obtain ⟨segment, -, rfl⟩ := mem_map.1 he
      rfl
    · rw [ends_eq, outstanding_dataEntry]
      exact occupiedEnds_eq hsent
  · exact ⟨[], .nothing c⟩

theorem Appends.fin (h : Appends c (c₁, segments) new) (key : TcpConnectionKey)
    {entry : PendingTransmission} (hpending : c'.pending = c₁.pending ++ [entry])
    (hnxt : c'.sndNxt = c₁.sndNxt + 1) (hunsampled : entry.rttSampleTaken = false)
    (hentry : entry.outstanding = ⟨c₁.sndNxt, false, false, true, { fin := true, ack := true }, []⟩) :
    Appends c (c', segments ++ [makeFin key c₁]) (new ++ [entry]) where
  pending := by rw [hpending, h.pending, append_assoc]
  tiled := by
    rw [map_append, map_cons, map_nil, hentry, hnxt]
    exact h.tiled.append ⟨rfl, rfl⟩
  sent := by
    rw [map_append, map_cons, map_nil, hentry]
    intro e he
    rcases mem_append.1 he with he | he
    · exact h.sent e he
    · rw [List.mem_singleton.1 he]
      exact .fin _
  unsampled := by
    intro e he
    rcases mem_append.1 he with he | he
    · exact h.unsampled e he
    · rwa [List.mem_singleton.1 he]
  ends := by
    have hend : (makeFin key c₁).occupiedEnd = some entry.sequenceEnd := by
      rw [entry.sequenceEnd_eq, hentry]
      exact (Outstanding.Sent.fin c₁.sndNxt).occupies.occupiedEnd ⟨rfl, rfl, rfl, rfl⟩
    rw [ends_append, ← h.ends]
    unfold occupiedEnds
    rw [filterMap_append, filterMap_cons_some hend]
    rfl

theorem Appends.sequenceFin (h : Appends c (c₁, segments) new) (key : TcpConnectionKey)
    (now : TimePoint) : ∃ new', Appends c (maybeSequenceFin key c₁ now segments) new' := by
  unfold maybeSequenceFin
  split
  · exact ⟨new, h⟩
  split
  · exact ⟨new, h⟩
  split
  · exact ⟨new, h⟩
  split
  · exact ⟨new, h⟩
  exact ⟨_, h.fin key rfl rfl rfl rfl⟩

theorem scheduleQueuedData_appends (hmss : 0 < c.effectiveSendMss.toNat) :
    ∃ new, Appends c (scheduleQueuedData key c now) new := by
  obtain ⟨data, hdata⟩ := sendQueued_appends key now hmss
  obtain ⟨new, hnew⟩ := hdata.sequenceFin key now
  rw [scheduleQueuedData_eq]
  exact ⟨new, hnew.persist now⟩

theorem scheduleIfSendable_appends (hmss : 0 < c.effectiveSendMss.toNat) :
    ∃ new, Appends c (scheduleIfSendable key c now) new := by
  unfold scheduleIfSendable
  split
  · exact scheduleQueuedData_appends key now hmss
  · exact ⟨[], (Appends.nothing c).persist now⟩

theorem SendInv.fresh_ends (h : SendInv S u c.view.send) (hnew : Appends c₁ outcome new)
    (hnxt : c₁.sndNxt = c.sndNxt) {S' : List Byte} {u' : ℕ} (h' : SendInv S' u' outcome.1.view.send) :
    (ends (c.pending ++ new)).Nodup := by
  have hspan := h.span_lt
  have hspan' := h'.span_lt
  have hqueue : outcome.1.view.send.queue = c₁.pending.map outstanding ++ new.map outstanding := by
    rw [← map_append, ← hnew.pending]
    rfl
  rw [hqueue, cells_append, length_append] at hspan'
  have htiled := h.tiled.append (show Tiled c.view.send.sndNxt _ _ from hnxt ▸ hnew.tiled)
  rw [ends_eq, map_append]
  refine htiled.nodup_ends (fun e he => ?_) ?_
  · rcases mem_append.1 he with he | he
    · exact h.sent e he
    · exact hnew.sent e he
  · rw [cells_append, length_append]
    omega

theorem timeoutSegment_occupiedEnd (hdistinct : Distinct c.pending)
    (hpending : c.pending = oldest :: rest) :
    (timeoutSegment key (c.timedOutWith oldest) oldest).occupiedEnd = some oldest.sequenceEnd := by
  have hmem : oldest ∈ c.pending := by simp [hpending]
  rw [oldest.sequenceEnd_eq]
  exact (hdistinct.occupies oldest hmem).occupiedEnd ⟨rfl, rfl, rfl, rfl⟩

theorem timeout_survives (hdistinct : Distinct c.pending) (hpending : c.pending = oldest :: rest)
    (now : TimePoint) :
    Survives none (occupiedEnds [timeoutSegment key (c.timedOutWith oldest) oldest]) c.pending
      ((c.timedOutWith oldest).pending.modifyHead (·.backOff now)) := by
  have hend := timeoutSegment_occupiedEnd key hdistinct hpending
  -- The congestion collapse may clear the recovery and SACK marks of all entries first.
  have hcollapse : ∃ g : PendingTransmission → PendingTransmission,
      (c.timedOutWith oldest).pending = c.pending.map g ∧
      ∀ e, (g e).outstanding = e.outstanding ∧ (g e).rttSampleTaken = e.rttSampleTaken ∧
        (g e).wasRetransmitted = e.wasRetransmitted := by
    unfold Connection.timedOutWith
    split
    · exact ⟨_, rfl, fun e => ⟨rfl, rfl, rfl⟩⟩
    · exact ⟨id, (map_id _).symm, fun e => ⟨rfl, rfl, rfl⟩⟩
  obtain ⟨g, hqueue, hg⟩ := hcollapse
  have hends : ∀ e, (g e).sequenceEnd = e.sequenceEnd := fun e => by
    rw [(g e).sequenceEnd_eq, e.sequenceEnd_eq, (hg e).1]
  have hmap : Survives none [] c.pending (c.pending.map g) :=
    Survives.map (fun e => ⟨hends e, (hg e).2⟩) c.pending
  have hdistinct' : Distinct (c.pending.map g) :=
    hdistinct.congr (map_map_unchanged (fun e => (hg e).1) c.pending)
  have hhead : (c.pending.map g)[0]? = some (g oldest) := by rw [hpending]; rfl
  have hresent : Survives none [(g oldest).sequenceEnd] (c.pending.map g)
      ((c.pending.map g).modify 0 (·.backOff now)) := by
    refine Survives.modify ?_ hdistinct'.ends hhead
    exact fun e => ⟨rfl, rfl, rfl⟩
  rw [hqueue, modifyHead_eq_modify_zero]
  rw [occupiedEnds, filterMap_cons_some hend, filterMap_nil, ← hends oldest]
  exact hmap.trans hresent

end

end Stages

end Wirestack
