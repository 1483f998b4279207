import Mathlib.Data.List.ReduceOption
import Wirestack.Tcp.Sequence
import Wirestack.Tcp.View

set_option autoImplicit false

/-! # The send side as a window over a stream

A sender owns a stream: the bytes `S` that were accepted from the application, followed by one mark
for the FIN once it is sequenced. Each place of the stream is a cell, `some b` for a byte and `none`
for a mark. `SendInv S u v` says that the send view `v` is a window over this stream: the first `u`
cells are acknowledged, the queue holds the next ones in order and without holes, and `unsent` holds
the rest.

The section on steps shows that retiring, enqueueing, transmitting and sequencing the FIN each keep
the invariant; the section on slices reads off it what a queued segment contains. -/

namespace Wirestack

open SerialNumber List Option

variable {S : List Byte} {fin : Bool} {i : ℕ} {rest : List Outstanding}

variable {start stop ack : SeqNum} {p q : List Outstanding} {e : Outstanding}

/-! ## Cells -/

def Outstanding.cells (e : Outstanding) : List (Option Byte) :=
  (if e.isSyn then [none] else []) ++ e.payload.map some ++ (if e.isFin then [none] else [])

def cells (queue : List Outstanding) : List (Option Byte) := queue.flatMap Outstanding.cells

def streamCells (S : List Byte) (fin : Bool) : List (Option Byte) :=
  S.map some ++ (if fin then [none] else [])

theorem Outstanding.length_cells (e : Outstanding) : e.cells.length = e.span := by
  simp only [cells, span, length_append, length_map]
  split_ifs <;> simp [Nat.add_comm]

theorem cells_append (p q : List Outstanding) : cells (p ++ q) = cells p ++ cells q :=
  flatMap_append

theorem cells_cons (e : Outstanding) (q : List Outstanding) :
    cells (e :: q) = e.cells ++ cells q := rfl

theorem length_streamCells (S : List Byte) (fin : Bool) :
    (streamCells S fin).length = S.length + (if fin then 1 else 0) := by
  cases fin <;> simp [streamCells]

theorem streamCells_append (S p : List Byte) :
    streamCells (S ++ p) false = streamCells S false ++ p.map some := by
  simp [streamCells]

theorem streamCells_fin (S : List Byte) : streamCells S true = streamCells S false ++ [none] := by
  simp [streamCells]

theorem getElem?_streamCells_some {b : Byte} (h : (streamCells S fin)[i]? = some (some b)) :
    S[i]? = some b := by
  rw [streamCells, getElem?_append] at h
  split_ifs at h with hlt hfin
  · simpa using h
  · simp only [length_map] at h
    rw [getElem?_singleton] at h
    split_ifs at h
    cases h
  · simp at h

theorem getElem?_streamCells_none (h : (streamCells S fin)[i]? = some none) :
    fin = true ∧ i = S.length := by
  rw [streamCells, getElem?_append] at h
  split_ifs at h with hlt hfin
  · simp at h
  · simp only [length_map, not_lt] at h hlt
    rw [getElem?_singleton] at h
    split_ifs at h with hzero
    exact ⟨hfin, by omega⟩
  · simp at h

/-! ## Tiling -/

/-- The queue covers the sequence numbers from `start` to `stop` in order and without holes. -/
def Tiled (start : SeqNum) : List Outstanding → SeqNum → Prop
  | [], stop => start = stop
  | e :: rest, stop => e.sequenceStart = start ∧ Tiled e.sequenceEnd rest stop

theorem Tiled.append {mid : SeqNum} (hp : Tiled start p mid) (hq : Tiled mid q stop) :
    Tiled start (p ++ q) stop := by
  induction p generalizing start with
  | nil =>
    simp only [Tiled] at hp
    rwa [hp]
  | cons e rest ih => exact ⟨hp.1, ih hp.2⟩

theorem Outstanding.sequenceEnd_eq_pos (e : Outstanding) :
    e.sequenceEnd = pos e.sequenceStart e.cells.length := by
  rw [e.length_cells]
  rfl

theorem Tiled.stop_eq (h : Tiled start q stop) : stop = pos start (cells q).length := by
  induction q generalizing start with
  | nil =>
    simp only [Tiled] at h
    simp [cells, h]
  | cons e rest ih =>
    obtain ⟨hstart, hrest⟩ := h
    rw [ih hrest, e.sequenceEnd_eq_pos, pos_pos, cells_cons, length_append, hstart]

theorem Tiled.start_of_append (h : Tiled start (p ++ e :: rest) stop) :
    e.sequenceStart = pos start (cells p).length := by
  induction p generalizing start with
  | nil => simp [cells, h.1]
  | cons d p ih => rw [ih h.2, d.sequenceEnd_eq_pos, pos_pos, cells_cons, length_append, h.1]

/-! ## What is queued -/

/-- The queue entries of a synchronized connection: data or the FIN. -/
inductive Outstanding.Sent : Outstanding → Prop where
  | data (start : SeqNum) (psh : Bool) (payload : List Byte) : payload ≠ [] →
      Sent ⟨start, false, false, false, { ack := true, psh := psh }, payload⟩
  | fin (start : SeqNum) : Sent ⟨start, false, false, true, { fin := true, ack := true }, []⟩

theorem Outstanding.Sent.cells_ne_nil (h : e.Sent) : e.cells ≠ [] := by
  cases h with
  | data start psh payload hne => simpa [cells] using hne
  | fin start => simp [cells]

theorem Outstanding.Sent.trimTo (h : e.Sent) {d : ℕ} (hpos : 0 < d) (hlt : d < e.cells.length)
    (hspan : e.cells.length < 2 ^ 32) :
    (e.trimTo (pos e.sequenceStart d)).Sent ∧
      (e.trimTo (pos e.sequenceStart d)).cells = e.cells.drop d := by
  cases h with
  | data start psh payload hne =>
    simp only [cells, Bool.false_eq_true, if_false, nil_append, append_nil, length_map] at hlt hspan
    have hdrop : (pos start d - start).toNat = d := by
      rw [pos_sub_base, BitVec.toNat_ofNat, Nat.mod_eq_of_lt (by omega)]
    simp only [Outstanding.trimTo, hdrop, cells, Bool.false_eq_true, if_false, nil_append,
      append_nil, map_drop, and_true]
    refine .data _ psh _ ?_
    rw [← length_pos_iff, length_drop]
    omega
  | fin start =>
    simp only [cells, Bool.false_eq_true, if_false, map_nil, nil_append, if_true,
      length_singleton] at hlt
    omega

/-! ## Retirement -/

theorem retireQueue_spec :
    ∀ {start : SeqNum} {d : ℕ}, Tiled start q stop → (∀ e ∈ q, e.Sent) → d ≤ (cells q).length →
    (cells q).length < 2 ^ 31 →
    Tiled (pos start d) (retireQueue (pos start d) q) stop ∧
      (∀ e ∈ retireQueue (pos start d) q, e.Sent) ∧
      cells (retireQueue (pos start d) q) = (cells q).drop d := by
  induction q with
  | nil =>
    intro start d htiled _ hd _
    simp only [cells, flatMap_nil, length_nil, Nat.le_zero] at hd
    subst hd
    simp only [pos_zero]
    exact ⟨htiled, by simp [retireQueue], rfl⟩
  | cons e rest ih =>
    intro start d htiled hsent hd hlt
    obtain ⟨hstart, hrest⟩ := htiled
    subst hstart
    obtain ⟨he, hsentRest⟩ := forall_mem_cons.1 hsent
    rw [cells_cons, length_append] at hd hlt
    rw [retireQueue, e.sequenceEnd_eq_pos, sequenceLessOrEqual_pos _ (by omega) (by omega)]
    by_cases hend : e.cells.length ≤ d
    · rw [if_pos (by simpa using hend)]
      rw [e.sequenceEnd_eq_pos] at hrest
      have hpos : pos e.sequenceStart d =
          pos (pos e.sequenceStart e.cells.length) (d - e.cells.length) := by
        rw [pos_pos, Nat.add_sub_cancel' hend]
      obtain ⟨h₁, h₂, h₃⟩ := ih (d := d - e.cells.length) hrest hsentRest (by omega) (by omega)
      rw [← hpos] at h₁ h₂ h₃
      refine ⟨h₁, h₂, ?_⟩
      rw [h₃, cells_cons, drop_append, drop_eq_nil_of_le hend, nil_append]
    · rw [if_neg (by simpa using hend)]
      have hgreater : sequenceGreater (pos e.sequenceStart d) e.sequenceStart = decide (0 < d) := by
        have := sequenceGreater_pos e.sequenceStart (i := d) (j := 0) (by omega) (by omega)
        rwa [pos_zero] at this
      rw [hgreater]
      by_cases hzero : 0 < d
      · rw [if_pos (by simpa using hzero)]
        obtain ⟨htrim, hcells⟩ := he.trimTo hzero (by omega) (by omega)
        refine ⟨⟨rfl, ?_⟩, ?_, ?_⟩
        · rw [Outstanding.sequenceEnd_eq_pos, hcells, length_drop]
          have : (e.trimTo (pos e.sequenceStart d)).sequenceStart = pos e.sequenceStart d := rfl
          rwa [this, pos_pos, Nat.add_sub_cancel' (by omega), ← e.sequenceEnd_eq_pos]
        · exact forall_mem_cons.2 ⟨htrim, hsentRest⟩
        · rw [cells_cons, hcells, cells_cons, drop_append,
            show d - e.cells.length = 0 by omega, drop_zero]
      · obtain rfl : d = 0 := by omega
        rw [if_neg (by simp), pos_zero]
        exact ⟨⟨rfl, hrest⟩, hsent, rfl⟩

/-! ## The invariant -/

theorem sum_payload_eq (q : List Outstanding) :
    (q.map (·.payload.length)).sum = (cells q).countP isSome := by
  induction q with
  | nil => simp [cells]
  | cons e rest ih =>
    have hone : e.cells.countP isSome = e.payload.length := by
      simp only [Outstanding.cells, countP_append, countP_map]
      split_ifs <;> simp [Function.comp_def]
    rw [cells_cons, map_cons, sum_cons, countP_append, ih, hone]

/-- Bytes in the queue and behind it, which the send buffer capacity bounds. -/
def SendView.ownedBytes (v : SendView) : ℕ :=
  v.unsent.length + (v.queue.map (·.payload.length)).sum

/-- The send view is a window over the stream `S`, of which `u` cells are acknowledged. -/
structure SendInv (S : List Byte) (u : ℕ) (v : SendView) : Prop where
  una : v.sndUna = pos (v.localIsn + 1) u
  tiled : Tiled v.sndUna v.queue v.sndNxt
  sent : ∀ e ∈ v.queue, e.Sent
  acked : u ≤ (streamCells S v.localFinSeq.isSome).length
  stream : (streamCells S v.localFinSeq.isSome).drop u = cells v.queue ++ v.unsent.map some
  fin : ∀ f, v.localFinSeq = some f →
    f = pos (v.localIsn + 1) S.length ∧ v.unsent = [] ∧ v.closeRequested = true
  capacity : v.ownedBytes ≤ kTcpSendBufferCapacity
  mss : 0 < v.effectiveSendMss.toNat

namespace SendInv

variable {S : List Byte} {u : ℕ} {v : SendView}

theorem nxt (h : SendInv S u v) : v.sndNxt = pos (v.localIsn + 1) (u + (cells v.queue).length) := by
  rw [h.tiled.stop_eq, h.una, pos_pos]

theorem length_eq (h : SendInv S u v) : u + (cells v.queue).length + v.unsent.length =
      S.length + (if v.localFinSeq.isSome then 1 else 0) := by
  have hlen := congrArg length h.stream
  have hacked := h.acked
  rw [length_streamCells] at hacked
  rw [length_drop, length_streamCells, length_append, length_map] at hlen
  omega

theorem length_cells_le (h : SendInv S u v) : (cells v.queue).length ≤
      (v.queue.map (·.payload.length)).sum + (if v.localFinSeq.isSome then 1 else 0) := by
  rw [sum_payload_eq, length_eq_countP_add_countP]
  apply Nat.add_le_add_left
  calc (cells v.queue).countP (fun a => decide ¬a.isSome = true)
      ≤ ((streamCells S v.localFinSeq.isSome).drop u).countP (fun a => decide ¬a.isSome = true) := by
        rw [h.stream, countP_append]
        exact Nat.le_add_right _ _
    _ ≤ (streamCells S v.localFinSeq.isSome).countP (fun a => decide ¬a.isSome = true) :=
        (drop_sublist u _).countP_le
    _ = if v.localFinSeq.isSome then 1 else 0 := by
        rw [streamCells, countP_append, countP_map]
        split_ifs <;> simp

theorem span_le (h : SendInv S u v) : (cells v.queue).length ≤ kTcpSendBufferCapacity + 1 := by
  have h₁ := h.length_cells_le
  have h₂ := h.capacity
  unfold SendView.ownedBytes at h₂
  split_ifs at h₁ <;> omega

theorem span_lt (h : SendInv S u v) : (cells v.queue).length < 2 ^ 31 := by
  have := h.span_le
  simp only [kTcpSendBufferCapacity] at this
  omega

/-! ## Steps -/

theorem ack_offset (h : SendInv S u v) (hgt : sequenceGreater ack v.sndUna = true)
    (hle : sequenceLessOrEqual ack v.sndNxt = true) :
    ∃ d, ack = pos v.sndUna d ∧ 0 < d ∧ d ≤ (cells v.queue).length := by
  have hspan := h.span_lt
  obtain ⟨hpos, hlt⟩ := (sequenceGreater_iff _ _).1 hgt
  refine ⟨ahead v.sndUna ack, (pos_ahead _ _).symm, hpos, ?_⟩
  rw [← pos_ahead v.sndUna ack, h.tiled.stop_eq,
    sequenceLessOrEqual_pos _ (by omega) (by omega)] at hle
  simpa using hle

theorem retire (h : SendInv S u v) (hle : sequenceLessOrEqual ack v.sndNxt = true) :
    ∃ u', (u ≤ u' ∧ (u' = u ∨ ack = pos (v.localIsn + 1) u')) ∧ SendInv S u' (v.retire ack) := by
  unfold SendView.retire
  split_ifs with hgt
  · obtain ⟨d, rfl, hpos, hd⟩ := h.ack_offset hgt hle
    obtain ⟨htiled, hsent, hcells⟩ := retireQueue_spec h.tiled h.sent hd h.span_lt
    have hlen := h.length_eq
    refine ⟨u + d, ⟨by omega, .inr (by rw [h.una, pos_pos])⟩, ?_⟩
    exact
      { una := by rw [h.una, pos_pos]
        tiled := htiled
        sent := hsent
        acked := by
          dsimp only
          rw [length_streamCells]
          omega
        stream := by
          rw [← drop_drop, h.stream, hcells, drop_append,
            show d - (cells v.queue).length = 0 by omega, drop_zero]
        fin := h.fin
        capacity := by
          refine le_trans ?_ h.capacity
          unfold SendView.ownedBytes
          rw [sum_payload_eq, sum_payload_eq, hcells]
          exact Nat.add_le_add_left (drop_sublist _ _).countP_le _
        mss := h.mss }
  · exact ⟨u, ⟨le_rfl, .inl rfl⟩, h⟩

theorem enqueue (h : SendInv S u v) (hfin : v.localFinSeq = none) {payload : List Byte}
    (hroom : v.ownedBytes + payload.length ≤ kTcpSendBufferCapacity) :
    SendInv (S ++ payload) u { v with unsent := v.unsent ++ payload } where
  una := h.una
  tiled := h.tiled
  sent := h.sent
  acked := by
    have := h.acked
    rw [length_streamCells] at this ⊢
    rw [length_append]
    dsimp only
    omega
  stream := by
    have hacked := h.acked
    have hstream := h.stream
    rw [hfin, isSome_none] at hacked hstream
    rw [hfin, isSome_none, streamCells_append, drop_append_of_le_length hacked, hstream,
      map_append, append_assoc]
  fin := by
    intro f hf
    simp [hfin] at hf
  capacity := by
    unfold SendView.ownedBytes at hroom ⊢
    rw [length_append]
    dsimp only
    omega
  mss := h.mss

theorem transmit (h : SendInv S u v) (hfin : v.localFinSeq = none) {cut : List Outstanding}
    {sndNxt : SeqNum} {n : ℕ} (htiled : Tiled v.sndNxt cut sndNxt) (hsent : ∀ e ∈ cut, e.Sent)
    (hcells : cells cut = (v.unsent.take n).map some) :
    SendInv S u
      { v with queue := v.queue ++ cut, unsent := v.unsent.drop n, sndNxt := sndNxt } where
  una := h.una
  tiled := h.tiled.append htiled
  sent := by
    intro e he
    rcases mem_append.1 he with he | he
    · exact h.sent e he
    · exact hsent e he
  acked := h.acked
  stream := by
    rw [h.stream, cells_append, hcells, append_assoc, ← map_append, take_append_drop]
  fin := by
    intro f hf
    dsimp only at hf
    simp [hfin] at hf
  capacity := by
    have hcap := h.capacity
    unfold SendView.ownedBytes at hcap ⊢
    have hcut : (cut.map (·.payload.length)).sum = (v.unsent.take n).length := by
      rw [sum_payload_eq, hcells, countP_map]
      simp [Function.comp_def]
    have hsplit := congrArg length (take_append_drop n v.unsent)
    rw [length_append] at hsplit
    rw [map_append, sum_append, hcut]
    dsimp only
    omega
  mss := h.mss

theorem sequenceFin (h : SendInv S u v) (hfin : v.localFinSeq = none) (hunsent : v.unsent = [])
    (hclose : v.closeRequested = true) :
    SendInv S u { v with
        queue := v.queue ++ [⟨v.sndNxt, false, false, true, { fin := true, ack := true }, []⟩]
        localFinSeq := some v.sndNxt
        sndNxt := v.sndNxt + 1 } where
  una := h.una
  tiled := h.tiled.append ⟨rfl, rfl⟩
  sent := by
    intro e he
    rcases mem_append.1 he with he | he
    · exact h.sent e he
    · rw [mem_singleton.1 he]
      exact .fin _
  acked := by
    have := h.acked
    rw [length_streamCells, hfin] at this
    rw [length_streamCells]
    simp only [isSome_none, Bool.false_eq_true, if_false] at this
    omega
  stream := by
    have hacked := h.acked
    have hstream := h.stream
    rw [hfin, isSome_none] at hacked hstream
    simp only [isSome_some, streamCells_fin]
    rw [drop_append_of_le_length hacked, hstream, cells_append, hunsent]
    simp [cells, Outstanding.cells]
  fin := by
    rintro f ⟨rfl⟩
    refine ⟨?_, hunsent, hclose⟩
    have hlen := h.length_eq
    rw [hfin, hunsent] at hlen
    simp only [length_nil, isSome_none, Bool.false_eq_true, if_false] at hlen
    rw [h.nxt, show u + (cells v.queue).length = S.length by omega]
  capacity := by
    have := h.capacity
    unfold SendView.ownedBytes at this ⊢
    simpa using this
  mss := h.mss

theorem requestClose (h : SendInv S u v) : SendInv S u { v with closeRequested := true } :=
  ⟨h.una, h.tiled, h.sent, h.acked, h.stream, fun f hf => ⟨(h.fin f hf).1, (h.fin f hf).2.1, rfl⟩,
    h.capacity, h.mss⟩

/-! ## Slices -/

theorem cells_slice (h : SendInv S u v) (he : e ∈ v.queue) :
    ∃ k, e.sequenceStart = pos (v.localIsn + 1) k ∧
      e.cells <+: (streamCells S v.localFinSeq.isSome).drop k := by
  obtain ⟨p, rest, hqueue⟩ := append_of_mem he
  refine ⟨u + (cells p).length, ?_, ?_⟩
  · have htiled := h.tiled
    rw [hqueue] at htiled
    rw [htiled.start_of_append, h.una, pos_pos]
  · rw [← drop_drop, h.stream, hqueue, cells_append, cells_cons, append_assoc,
      append_assoc, drop_left]
    exact prefix_append _ _

theorem data_slice (h : SendInv S u v) (he : e ∈ v.queue) (hne : e.payload ≠ []) :
    ∃ k, e.sequenceStart = pos (v.localIsn + 1) k ∧ e.payload <+: S.drop k := by
  obtain ⟨k, hstart, hslice⟩ := h.cells_slice he
  refine ⟨k, hstart, ?_⟩
  rw [prefix_iff_getElem?] at hslice ⊢
  intro i hi
  cases h.sent e he with
  | data start psh payload =>
    have hcell := hslice i (by simpa [Outstanding.cells] using hi)
    simp only [Outstanding.cells, Bool.false_eq_true, if_false, nil_append, append_nil,
      getElem_map, getElem?_drop] at hcell
    rw [getElem?_drop]
    exact getElem?_streamCells_some hcell
  | fin start => exact absurd rfl hne

theorem fin_slice (h : SendInv S u v) (he : e ∈ v.queue) (hfin : e.isFin = true) :
    e.sequenceStart = pos (v.localIsn + 1) S.length ∧ e.payload = [] ∧
      v.localFinSeq.isSome = true := by
  obtain ⟨k, hstart, hslice⟩ := h.cells_slice he
  cases h.sent e he with
  | data start psh payload => cases hfin
  | fin start =>
    rw [prefix_iff_getElem?] at hslice
    have hcell := hslice 0 (by simp [Outstanding.cells])
    simp only [Outstanding.cells, Bool.false_eq_true, if_false, if_true, map_nil,
      nil_append, getElem_cons_zero, getElem?_drop, Nat.add_zero] at hcell
    obtain ⟨hsome, rfl⟩ := getElem?_streamCells_none hcell
    exact ⟨hstart, rfl, hsome⟩

theorem reduceOption_map_some (l : List Byte) : (l.map some).reduceOption = l := by
  simp [reduceOption]

theorem bytes_eq (h : SendInv S u v) : S = S.take u ++ v.queue.flatMap (·.payload) ++ v.unsent := by
  have hleft : ((streamCells S v.localFinSeq.isSome).drop u).reduceOption = S.drop u := by
    rw [streamCells, drop_append, reduceOption_append, ← map_drop, reduceOption_map_some]
    have hmark : ∀ n, ((if v.localFinSeq.isSome then [(none : Option Byte)] else []).drop
        n).reduceOption = [] := by
      intro n
      split_ifs <;> cases n <;> simp [reduceOption]
    rw [hmark, append_nil]
  have hcells : ∀ q : List Outstanding, (cells q).reduceOption = q.flatMap (·.payload) := by
    intro q
    induction q with
    | nil => rfl
    | cons e rest ih =>
      rw [cells_cons, reduceOption_append, ih, flatMap_cons]
      congr 1
      simp only [Outstanding.cells, reduceOption_append, reduceOption_map_some]
      split_ifs <;> simp [reduceOption]
  rw [append_assoc]
  conv_lhs => rw [← take_append_drop u S]
  rw [← hleft, h.stream, reduceOption_append, hcells, reduceOption_map_some]

theorem fin_last (h : SendInv S u v) (hqueue : v.queue = p ++ e :: rest) (hfin : e.isFin = true) :
    rest = [] := by
  have he : e ∈ v.queue := by rw [hqueue]; simp
  have hcells : e.cells = [none] := by
    cases h.sent e he with
    | data start psh payload => cases hfin
    | fin start => rfl
  have hstream := h.stream
  rw [hqueue, cells_append, cells_cons, hcells] at hstream
  -- The mark is the last cell of the stream, so no cell follows it in the queue.
  have hget : (streamCells S v.localFinSeq.isSome)[u + (cells p).length]? = some none := by
    rw [← getElem?_drop, hstream]
    simp
  obtain ⟨hsome, hat⟩ := getElem?_streamCells_none hget
  have hlen := congrArg length hstream
  rw [length_drop, length_streamCells, if_pos hsome] at hlen
  simp only [length_append, length_cons, length_nil, length_map] at hlen
  have hzero : (cells rest).length = 0 := by omega
  cases rest with
  | nil => rfl
  | cons d rest =>
    have hd : d ∈ v.queue := by rw [hqueue]; simp
    have := length_pos_iff.2 (h.sent d hd).cells_ne_nil
    rw [cells_cons, length_append] at hzero
    omega

theorem queue_eq_nil (h : SendInv S u v) (hall : (cells v.queue).length = 0) : v.queue = [] := by
  cases hqueue : v.queue with
  | nil => rfl
  | cons e rest =>
    have he : e ∈ v.queue := by rw [hqueue]; simp
    have := length_pos_iff.2 (h.sent e he).cells_ne_nil
    rw [hqueue, cells_cons, length_append] at hall
    omega

theorem all_acked (h : SendInv S u v) (hsome : v.localFinSeq.isSome = true)
    (hu : u = S.length + 1) : v.queue = [] ∧ v.sndUna = v.sndNxt := by
  have hlen := h.length_eq
  rw [if_pos hsome] at hlen
  have hqueue := h.queue_eq_nil (by omega)
  refine ⟨hqueue, ?_⟩
  have htiled := h.tiled
  rwa [hqueue] at htiled

theorem ack_eq_nxt (h : SendInv S u v) (hsome : v.localFinSeq.isSome = true) (hu : u ≤ S.length)
    (hall : SendInv S (S.length + 1) (v.retire ack)) : ack = v.sndNxt := by
  unfold SendView.retire at hall
  by_cases hgt : sequenceGreater ack v.sndUna = true
  · rw [if_pos hgt] at hall
    exact (hall.all_acked hsome rfl).2
  · rw [if_neg hgt] at hall
    have hlen := h.length_eq
    obtain ⟨f, hf⟩ := isSome_iff_exists.1 hsome
    rw [(hall.all_acked hsome rfl).1, (h.fin f hf).2.1, if_pos hsome] at hlen
    simp only [cells, flatMap_nil, length_nil] at hlen
    omega

theorem eq_of_retire_nxt (h : SendInv S u v) (hsome : v.localFinSeq.isSome = true)
    (hu : u ≤ S.length) {u' : ℕ} (hall : SendInv S u' (v.retire v.sndNxt)) : u' = S.length + 1 := by
  obtain ⟨f, hf⟩ := isSome_iff_exists.1 hsome
  have hunsent := (h.fin f hf).2.1
  have hspan := h.span_lt
  have hlen := h.length_eq
  rw [if_pos hsome, hunsent, length_nil] at hlen
  have hgt : sequenceGreater v.sndNxt v.sndUna = true := by
    rw [sequenceGreater_iff, h.tiled.stop_eq, ahead_pos _ (by omega)]
    omega
  unfold SendView.retire at hall
  rw [if_pos hgt] at hall
  have hspan' := hall.span_lt
  have hnone := pos_inj _ (by omega) (by omega) (hall.una.symm.trans hall.nxt)
  have hlen' := hall.length_eq
  dsimp only at hnone hlen'
  rw [if_pos hsome, hunsent, length_nil] at hlen'
  omega

theorem fin_pending (h : SendInv S u v) (hsome : v.localFinSeq.isSome = true)
    (hu : u ≤ S.length) : ∃ p e, v.queue = p ++ [e] ∧ e.isFin = true := by
  obtain ⟨f, hf⟩ := isSome_iff_exists.1 hsome
  have hstream := h.stream
  rw [(h.fin f hf).2.1, map_nil, append_nil, hsome, streamCells_fin,
    drop_append_of_le_length (by rw [length_streamCells]; simp [hu])] at hstream
  rcases eq_nil_or_concat v.queue with hnil | ⟨p, e, hqueue⟩
  · rw [hnil] at hstream
    exact absurd hstream (by simp [cells])
  · rw [concat_eq_append] at hqueue
    refine ⟨p, e, hqueue, ?_⟩
    have he : e ∈ v.queue := by rw [hqueue]; simp
    cases h.sent e he with
    | data start psh payload hne =>
      obtain ⟨init, last, hpayload⟩ := (eq_nil_or_concat payload).resolve_left hne
      rw [hqueue, cells_append, hpayload, concat_eq_append] at hstream
      simp only [cells, Outstanding.cells, flatMap_cons, flatMap_nil, map_append,
        Bool.false_eq_true, if_false, nil_append, append_nil, map_cons,
        map_nil, ← append_assoc] at hstream
      have := append_inj_right' hstream rfl
      cases this
    | fin start => rfl

theorem nxt_of_fin (h : SendInv S u v) {f : SeqNum} (hf : v.localFinSeq = some f) :
    v.sndNxt = f + 1 := by
  have hlen := h.length_eq
  rw [(h.fin f hf).2.1, hf] at hlen
  simp only [length_nil, isSome_some, if_true] at hlen
  rw [h.nxt, (h.fin f hf).1, pos_add_one, show u + (cells v.queue).length = S.length + 1 by omega]

end SendInv

end Wirestack
