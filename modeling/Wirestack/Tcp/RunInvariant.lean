import Wirestack.Tcp.Handshake

set_option autoImplicit false

/-! # The invariant of every run

`KeyInv` is what holds of one key in every state that any sequence of calls, with any incoming
segments, can reach: its connection is half-open or satisfies the invariant of synchronized
connections for the bytes accepted in this incarnation, and every segment the incarnation ever
handed out, persist probes apart, is a slice of those bytes. -/

namespace Wirestack

open SerialNumber List Option

variable {segment : TcpSegment} {listenPort : UInt16} {op : Op}

variable {h : History} {e : Event} {key : TcpConnectionKey} {c : Connection}
  {after : Option Connection} {s : Traced}

/-! ## Histories grow by one event -/

namespace History

variable (h : History) (e : Event)

@[simp]
theorem accepted_append : accepted (h ++ [e]) = h.accepted ++ e.accepted := by
  simp [accepted]

@[simp]
theorem delivered_append : delivered (h ++ [e]) = h.delivered ++ e.delivered := by
  simp [delivered]

@[simp]
theorem emittedInSequence_append :
    emittedInSequence (h ++ [e]) = h.emittedInSequence ++ e.emittedInSequence := by
  simp [emittedInSequence]

@[simp]
theorem emitted_append : emitted (h ++ [e]) = h.emitted ++ e.emitted := by
  simp [emitted]

@[simp]
theorem probes_append : probes (h ++ [e]) = h.probes ++ e.probes := by
  simp [probes]

@[simp]
theorem received_append : received (h ++ [e]) = h.received ++ e.received := by
  simp [received]

@[simp]
theorem peerClosedCount_append :
    peerClosedCount (h ++ [e]) = h.peerClosedCount + (if e.peerClosed then 1 else 0) := by
  simp [peerClosedCount, countP_append, countP_cons]

@[simp]
theorem accepted_singleton : accepted [e] = e.accepted := by simp [accepted]

@[simp]
theorem delivered_singleton : delivered [e] = e.delivered := by simp [delivered]

@[simp]
theorem emittedInSequence_singleton : emittedInSequence [e] = e.emittedInSequence := by
  simp [emittedInSequence]

@[simp]
theorem emitted_singleton : emitted [e] = e.emitted := by simp [emitted]

@[simp]
theorem peerClosedCount_singleton : peerClosedCount [e] = if e.peerClosed then 1 else 0 := by
  simp [peerClosedCount, countP_cons]

theorem mem_emitted {h : History} :
    segment ∈ h.emitted ↔ segment ∈ h.emittedInSequence ∨ segment ∈ h.probes := by
  simp only [emitted, emittedInSequence, probes, mem_flatMap, Event.emitted, mem_append]
  constructor
  · rintro ⟨e, he, h | h⟩
    · exact .inl ⟨e, he, h⟩
    · exact .inr ⟨e, he, h⟩
  · rintro (⟨e, he, h⟩ | ⟨e, he, h⟩)
    · exact ⟨e, he, .inl h⟩
    · exact ⟨e, he, .inr h⟩

end History

theorem extendHistory_some (c : Connection) (after : Option Connection) (h : History) (e : Event) :
    extendHistory (some c) after h (some e) = h ++ [e] := rfl

theorem extendHistory_none (h : History) (e : Event) :
    extendHistory none none h (some e) = h ++ [e] := rfl

theorem extendHistory_new (c : Connection) (h : History) (e : Event) :
    extendHistory none (some c) h (some e) = [e] := rfl

/-! ## The invariant -/

/-- The connection fits the bytes accepted in its incarnation. -/
inductive ConnOk (h : History) (c : Connection) : Prop where
  | halfOpen : HalfOpen c → h.accepted = [] → ConnOk h c
  | synced (u : ℕ) : Synced h.accepted u c → ConnOk h c

structure ConnInv (isn : SeqNum) (h : History) (c : Connection) : Prop where
  ok : ConnOk h c
  localIsn : c.localIsn = isn
  peerClosed : h.peerClosedCount = if c.state.peerFinConsumed then 1 else 0
  fin : (∃ segment ∈ h.emittedInSequence, segment.flags.fin = true) →
    c.state.finSequenced = true

/-- No byte is accepted after a FIN was handed out. -/
def FinIsFinal (h : History) : Prop :=
  ∀ h₁ h₂ : History, h = h₁ ++ h₂ →
    (∃ segment ∈ h₁.emittedInSequence, segment.flags.fin = true) → h₂.accepted = []

structure KeyInv (h : History) (c : Option Connection) : Prop where
  conn : ∃ isn, (∀ c', c = some c' → ConnInv isn h c') ∧
    ∀ segment ∈ h.emittedInSequence, Slice h.accepted isn segment
  finIsFinal : FinIsFinal h
  closedOnce : h.peerClosedCount ≤ 1

theorem Slice.extend {S p : List Byte} {isn : SeqNum} (h : Slice S isn segment)
    (hfin : segment.flags.fin = true → p = []) : Slice (S ++ p) isn segment where
  data := by
    intro hne
    obtain ⟨k, hseq, hslice⟩ := h.data hne
    have hk : k ≤ S.length := by
      by_contra hlt
      rw [drop_eq_nil_of_le (by omega)] at hslice
      exact hne (prefix_nil.1 hslice)
    refine ⟨k, hseq, ?_⟩
    rw [drop_append_of_le_length hk]
    exact hslice.trans (prefix_append _ _)
  fin := by
    intro hflag
    rw [hfin hflag, append_nil]
    exact h.fin hflag

theorem FinIsFinal.nil : FinIsFinal [] := by
  intro h₁ h₂ heq hfin
  obtain ⟨rfl, rfl⟩ := append_eq_nil_iff.1 heq.symm
  rfl

theorem final_snoc {α : Type} {p : History → Prop} (hstays : ∀ h₁ h₂, p h₁ → p (h₁ ++ h₂))
    {f : Event → List α} (hfinal : ∀ h₁ h₂, h = h₁ ++ h₂ → p h₁ → h₂.flatMap f = [])
    (he : p h → f e = []) : ∀ h₁ h₂, h ++ [e] = h₁ ++ h₂ → p h₁ → h₂.flatMap f = [] := by
  intro h₁ h₂ heq hp
  rcases eq_nil_or_concat h₂ with rfl | ⟨h₂', e', rfl⟩
  · rfl
  · rw [concat_eq_append, ← append_assoc] at heq
    obtain ⟨rfl, hsingle⟩ := append_inj' heq rfl
    obtain rfl : e = e' := by simpa using hsingle
    rw [concat_eq_append, flatMap_append, hfinal h₁ h₂' rfl hp, flatMap_singleton,
      he (hstays h₁ h₂' hp)]
    rfl

theorem FinIsFinal.snoc (hfinal : FinIsFinal h)
    (he : (∃ segment ∈ h.emittedInSequence, segment.flags.fin = true) → e.accepted = []) :
    FinIsFinal (h ++ [e]) := by
  refine final_snoc (p := fun h => ∃ segment ∈ h.emittedInSequence, segment.flags.fin = true)
    (f := Event.accepted) ?_ hfinal he
  rintro h₁ h₂ ⟨segment, hmem, hflag⟩
  refine ⟨segment, ?_, hflag⟩
  simp only [History.emittedInSequence, flatMap_append, mem_append]
  exact .inl hmem

/-! ## Every step keeps it -/

theorem makeClosedPortReset_slice (S : List Byte) (isn : SeqNum) (segment : TcpSegment) :
    Slice S isn (makeClosedPortReset segment) := by
  unfold makeClosedPortReset
  split_ifs <;> exact ⟨fun h => absurd rfl h, nofun⟩

theorem KeyInv.refused (hinv : KeyInv h none) (href : e.IsRefusal listenPort key) :
    KeyInv (h ++ [e]) none := by
  obtain ⟨⟨isn, -, hslices⟩, hfinal, hclosed⟩ := hinv
  refine ⟨⟨isn, fun c' h => absurd h (by simp), ?_⟩, hfinal.snoc fun _ => href.accepted, ?_⟩
  · intro segment hmem
    rw [History.accepted_append, href.accepted, append_nil]
    rw [History.emittedInSequence_append, mem_append] at hmem
    rcases hmem with hmem | hmem
    · exact hslices segment hmem
    · have hmem' : segment ∈ e.emitted := mem_append_left _ hmem
      rcases href.emitted with hnil | ⟨incoming, result, -, hreset, -⟩
      · simp [hnil] at hmem'
      · rw [hreset, mem_singleton] at hmem'
        rw [hmem']
        exact makeClosedPortReset_slice ..
  · rw [History.peerClosedCount_append, href.peerClosed]
    simpa using hclosed

theorem KeyInv.opened (hopen : HalfOpen c) (haccepted : e.accepted = [])
    (hclosed : e.peerClosed = false)
    (hemitted : ∀ segment ∈ e.emittedInSequence, segment.payload = [] ∧ segment.flags.fin = false) :
    KeyInv [e] (some c) := by
  have hstate := hopen.not_peerFinConsumed
  refine ⟨⟨c.localIsn, ?_, ?_⟩, ?_, ?_⟩
  · rintro c' ⟨rfl⟩
    refine ⟨.halfOpen hopen (by simpa using haccepted), rfl, by simp [hclosed, hstate], ?_⟩
    rintro ⟨segment, hmem, hfin⟩
    rw [History.emittedInSequence_singleton] at hmem
    simp [(hemitted segment hmem).2] at hfin
  · intro segment hmem
    rw [History.emittedInSequence_singleton] at hmem
    obtain ⟨hpayload, hfin⟩ := hemitted segment hmem
    exact ⟨fun h => absurd hpayload h, fun h => absurd (hfin.symm.trans h) (by simp)⟩
  · exact FinIsFinal.nil.snoc (h := []) fun h => absurd h (by simp [History.emittedInSequence])
  · simp [hclosed]

theorem KeyInv.halfOpen (hinv : KeyInv h (some c)) (hopen : HalfOpen c)
    (haccepted : h.accepted = []) (hstep : HalfOpenStep c e after) : KeyInv (h ++ [e]) after := by
  obtain ⟨⟨isn, hconn, hslices⟩, hfinal, hclosed⟩ := hinv
  have hc := hconn c rfl
  have hstate : c.state.peerFinConsumed = false ∧ c.state.finSequenced = false := by
    rcases hopen.state with h | h <;> rw [h] <;> exact ⟨rfl, rfl⟩
  have hplain : ∀ segment ∈ e.emittedInSequence,
      segment.payload = [] ∧ segment.flags.fin = false := by
    intro segment hmem
    rcases hstep.emitted segment hmem with hopens | ⟨c', -, -, hack⟩
    · exact ⟨hopens.payload, by rw [hopens.flags]⟩
    · exact ⟨hack.payload, by rw [hack.flags]⟩
  have hnofin : ¬ ∃ segment ∈ h.emittedInSequence ++ e.emittedInSequence,
      segment.flags.fin = true := by
    rintro ⟨segment, hmem, hfin⟩
    rcases mem_append.1 hmem with hmem | hmem
    · have := hc.fin ⟨segment, hmem, hfin⟩
      simp [hstate.2] at this
    · simp [(hplain segment hmem).2] at hfin
  have hcount : h.peerClosedCount = 0 := by
    rw [hc.peerClosed, hstate.1]
    rfl
  refine ⟨⟨isn, ?_, ?_⟩, hfinal.snoc fun _ => hstep.accepted, ?_⟩
  · intro c' hafter
    rcases hstep.continues c' hafter with hview | ⟨segment, result, -, hest⟩
    · have hopen' := hopen.of_view hview
      have hstate' : c'.state = c.state := congrArg (·.control.state) hview
      refine ⟨.halfOpen hopen' (by simp [haccepted, hstep.accepted]), ?_, ?_, ?_⟩
      · exact (congrArg (·.send.localIsn) hview).trans hc.localIsn
      · simp [hcount, hstep.peerClosed, hstate', hstate.1]
      · rw [History.emittedInSequence_append]
        exact fun h => absurd h hnofin
    · refine ⟨.synced 0 ?_, hest.localIsn.trans hc.localIsn, ?_, ?_⟩
      · simpa [haccepted, hstep.accepted] using hest.fresh.synced
      · simp [hcount, hstep.peerClosed, hest.fresh.established, TcpState.peerFinConsumed]
      · rw [History.emittedInSequence_append]
        exact fun h => absurd h hnofin
  · intro segment hmem
    rw [History.accepted_append, hstep.accepted, append_nil]
    rw [History.emittedInSequence_append, mem_append] at hmem
    rcases hmem with hmem | hmem
    · exact hslices segment hmem
    · obtain ⟨hpayload, hfin⟩ := hplain segment hmem
      exact ⟨fun h => absurd hpayload h, fun h => absurd (hfin.symm.trans h) (by simp)⟩
  · rw [History.peerClosedCount_append, hcount, hstep.peerClosed]
    simp

theorem KeyInv.synced (hinv : KeyInv h (some c)) {u : ℕ} (hstep : SyncedStep h.accepted u c e after) :
    KeyInv (h ++ [e]) after := by
  obtain ⟨⟨isn, hconn, hslices⟩, hfinal, hclosed⟩ := hinv
  have hc := hconn c rfl
  have hnone : (∃ segment ∈ h.emittedInSequence, segment.flags.fin = true) → e.accepted = [] :=
    fun hfin => hstep.accepted (hc.fin hfin)
  refine ⟨⟨isn, ?_, ?_⟩, hfinal.snoc hnone, ?_⟩
  · intro c' hafter
    obtain ⟨⟨u', -, hsynced'⟩, hisn, hpath, hpeer⟩ := hstep.continues c' hafter
    rw [← History.accepted_append] at hsynced'
    refine ⟨.synced u' hsynced', hisn.trans hc.localIsn, ?_, ?_⟩
    · rw [History.peerClosedCount_append, hc.peerClosed, hpeer]
      cases hpc : e.peerClosed with
      | false => simp
      | true =>
        have hopen := (hstep.closed hpc).1
        have hnot : c.state.peerFinConsumed = false := by
          cases hstate : c.state <;> simp_all [Connection.finEventsOpen, TcpState.peerFinConsumed]
        simp [hnot]
    · rintro ⟨segment, hmem, hfin⟩
      rw [History.emittedInSequence_append, mem_append] at hmem
      rcases hmem with hmem | hmem
      · exact hpath.finSequenced (hc.fin ⟨segment, hmem, hfin⟩)
      · exact hstep.fins segment hmem hfin c' hafter
  · intro segment hmem
    rw [History.emittedInSequence_append, mem_append] at hmem
    rw [History.accepted_append]
    rcases hmem with hmem | hmem
    · exact (hslices segment hmem).extend fun hfin => hnone ⟨segment, hmem, hfin⟩
    · have := (hstep.emitted segment hmem).toSlice
      rwa [hc.localIsn] at this
  · rw [History.peerClosedCount_append, hc.peerClosed]
    cases hpc : e.peerClosed with
    | false => cases c.state.peerFinConsumed <;> simp
    | true =>
      have hopen := (hstep.closed hpc).1
      have hnot : c.state.peerFinConsumed = false := by
        cases hstate : c.state <;> simp_all [Connection.finEventsOpen, TcpState.peerFinConsumed]
      simp [hnot]

theorem KeyInv.step {before : Option Connection} (hinv : KeyInv h before)
    (hstep : KeyStep listenPort key before e after) :
    KeyInv (extendHistory before after h (some e)) after := by
  cases before with
  | none =>
    cases hstep with
    | refused _ href =>
      rw [extendHistory_none]
      exact hinv.refused href
    | connect isn now =>
      rw [extendHistory_new]
      refine KeyInv.opened (.inl (connectedWith_ok isn now)) rfl rfl fun segment hmem => ?_
      simp only [Event.emittedInSequence, toList_some, mem_singleton] at hmem
      rw [hmem]
      exact ⟨rfl, rfl⟩
    | accept segment options isn now _ _ _ hoptions =>
      rw [extendHistory_new]
      refine KeyInv.opened (.inr (acceptedWith_ok segment isn now hoptions)) rfl rfl
        fun sent hmem => ?_
      simp only [Event.emittedInSequence, toList_some, toList_none,
        append_nil, mem_singleton] at hmem
      rw [hmem]
      exact ⟨rfl, rfl⟩
  | some c =>
    rw [extendHistory_some]
    obtain ⟨isn, hconn, -⟩ := hinv.conn
    cases (hconn c rfl).ok with
    | halfOpen hopen haccepted => exact hinv.halfOpen hopen haccepted (hopen.step hstep)
    | synced u hsynced => exact hinv.synced (hsynced.step hstep)

theorem Run.keyInv (hs : Reachable s) (key : TcpConnectionKey) :
    KeyInv (s.history key) (s.table.find? key) := by
  refine Run.key_invariant key KeyInv ?_ ?_ hs
  · exact ⟨⟨0, fun c' h => absurd h (by simp), by simp [History.emittedInSequence]⟩, FinIsFinal.nil,
      Nat.zero_le _⟩
  · intro s op e after _ _ _ hstep hinv
    exact hinv.step hstep

theorem Run.connInv (hs : Reachable s) (hc : s.table.find? key = some c) :
    ConnInv c.localIsn (s.history key) c := by
  obtain ⟨isn, hconn, -⟩ := (Run.keyInv hs key).conn
  rw [(hconn c hc).localIsn]
  exact hconn c hc

theorem Run.synced (hs : Reachable s) (hc : s.table.find? key = some c)
    (hsync : c.state.synchronized = true) : ∃ u, Synced (s.history key).accepted u c := by
  cases (Run.connInv hs hc).ok with
  | halfOpen hopen =>
    simp [hopen.not_synchronized] at hsync
  | synced u hsynced => exact ⟨u, hsynced⟩

/-! ## What a call does to one key -/

theorem Traced.step_key (s : Traced) (key : TcpConnectionKey) (op : Op) :
    (s.step op).table.find? key = s.table.find? key ∧ (s.step op).history key = s.history key ∨
    ∃ e, s.table.eventFor key op = some e ∧
      KeyStep s.table.listenPort key (s.table.find? key) e ((s.step op).table.find? key) ∧
      (s.step op).history key = extendHistory (s.table.find? key)
        ((s.step op).table.find? key) (s.history key) (some e) := by
  rcases s.table.apply_key op key with ⟨hnone, hsame⟩ | ⟨e, hsome, hkey⟩
  · refine .inl ⟨hsame, ?_⟩
    simp only [Traced.step, hnone]
    rfl
  · refine .inr ⟨e, hsome, hkey, ?_⟩
    simp only [Traced.step, hsome]

theorem Traced.step_of_some (hc : s.table.find? key = some c) (op : Op) :
    (s.step op).table.find? key = some c ∧ (s.step op).history key = s.history key ∨
    ∃ e, s.table.eventFor key op = some e ∧
      KeyStep s.table.listenPort key (some c) e ((s.step op).table.find? key) ∧
      (s.step op).history key = s.history key ++ [e] := by
  have hstep := s.step_key key op
  rw [hc] at hstep
  rcases hstep with hidle | ⟨e, hsome, hkey, hhistory⟩
  · exact .inl hidle
  · exact .inr ⟨e, hsome, hkey, hhistory.trans (extendHistory_some ..)⟩

theorem Traced.step_of_event (hc : s.table.find? key = some c)
    (hevent : s.table.eventFor key op = some e) :
    KeyStep s.table.listenPort key (some c) e ((s.step op).table.find? key) := by
  rcases s.table.apply_key op key with ⟨hnone, -⟩ | ⟨e', hsome, hkey⟩
  · simp [hevent] at hnone
  · rw [hevent, some.injEq] at hsome
    subst hsome
    rwa [hc] at hkey

theorem Traced.history_of_event (hc : s.table.find? key = some c)
    (hevent : s.table.eventFor key op = some e) :
    (s.step op).history key = s.history key ++ [e] := by
  simp only [Traced.step, hevent, hc]
  exact extendHistory_some ..

end Wirestack
