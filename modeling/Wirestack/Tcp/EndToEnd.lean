import Wirestack.Tcp.NetworkReplay
import Wirestack.Tcp.Closing

set_option autoImplicit false

/-! # End to end

The invariant of the two-table system, and what the two callers can rely on: each of them receives a
prefix of what the other's table accepted, is told of the end only when it has everything, and what a
table has retired as acknowledged was delivered before. -/

namespace Wirestack

open SerialNumber Chunks List TcpConnectionTable Option

/-! ## The invariant -/

/-- Both directions of a connection between an opener with history `ha` and connection `ca` and a
    listener with `hb` and `cb`, and their roles in the handshake. -/
structure Session (ha hb : History) (ca cb : Option Connection) : Prop where
  forward : Link ha hb ca cb
  backward : Link hb ha cb ca
  known : ∀ c, cb = some c → ∃ c', ca = some c' ∧ c.remoteIsn = c'.localIsn
  synSent : ∀ c, ca = some c → c.state.synchronized = false → c.state = .synSent
  synReceived : ∀ c, cb = some c → c.state.synchronized = false → c.state = .synReceived
  bare : ∀ segment ∈ ha.emitted, segment.flags.syn = true → segment.flags.ack = false

theorem Session.start : Session [] [] none none := by
  have hlink : Link [] [] none none :=
    { silent := fun _ => ⟨rfl, by simp [History.received], by simp [History.emitted]⟩
      heard := fun c h => absurd h (by simp)
      acked := fun c h => absurd h (by simp)
      remote := fun c h => absurd h (by simp)
      opening := fun c h => absurd h (by simp)
      plain := by simp [History.emitted]
      syns := fun c h => absurd h (by simp)
      quiet := fun _ => ⟨rfl, rfl⟩ }
  exact ⟨hlink, hlink, fun c h => absurd h (by simp), fun c h => absurd h (by simp),
    fun c h => absurd h (by simp), by simp [History.emitted]⟩

section Absent

variable {ha hb : History} {ca cb after : Option Connection} {listenPort : UInt16}
  {key : TcpConnectionKey} {e : Event}

theorem Link.refused {hx hy : History} {cy : Option Connection} (hspeak : Link hx hy none cy)
    (hlisten : Link hy hx cy none) (hreceived : ∀ segment ∈ e.received, segment ∈ hy.emitted)
    (hemitted : e.emitted = []) (hdelivered : e.delivered = []) (hclosed : e.peerClosed = false) :
    Link (hx ++ [e]) hy none cy ∧ Link hy (hx ++ [e]) cy none := by
  refine ⟨hspeak.speaks (speaks_refused hemitted hdelivered hclosed), hlisten.listens hreceived ?_ ?_
    (fun c h => absurd h (by simp))⟩ <;> simp [hemitted]

theorem Session.active_absent (h : Session ha hb none cb)
    (hkey : KeyStep listenPort key none e after)
    (hreceived : ∀ segment ∈ e.received, segment ∈ hb.emitted) :
    Session (extendHistory none after ha (some e)) hb after cb := by
  have hnone : cb = none := by
    rw [eq_none_iff_forall_ne_some]
    intro c hc
    obtain ⟨c', hc', -⟩ := h.known c hc
    cases hc'
  subst hnone
  have hnothing : ∀ segment, segment ∉ e.received := by
    intro segment hmem
    have := hreceived segment hmem
    simp [(h.backward.silent rfl).1] at this
  cases hkey with
  | refused _ href =>
    have hemitted := href.silent fun segment hmem => absurd hmem (hnothing segment)
    obtain ⟨hforward, hbackward⟩ := h.forward.refused h.backward hreceived hemitted
      href.delivered href.peerClosed
    rw [extendHistory_none]
    refine ⟨hforward, hbackward, h.known, h.synSent, h.synReceived, ?_⟩
    rw [History.emitted_append, hemitted, append_nil]
    exact h.bare
  | connect isn now =>
    rw [extendHistory_new]
    refine ⟨h.forward.opens rfl rfl rfl fun segment hmem => ?_,
      h.backward.heard_opening (by simp [Event.received]) fun segment hmem => ?_,
      fun c h => absurd h (by simp), ?_, fun c h => absurd h (by simp), ?_⟩
    · rw [Event.eq_of_mem_emitted_connect hmem]
      exact ⟨rfl, rfl, rfl⟩
    · rw [Event.eq_of_mem_emitted_connect hmem]
      rfl
    · rintro c ⟨rfl⟩ _
      rfl
    · rw [History.emitted_singleton]
      intro segment hmem _
      rw [Event.eq_of_mem_emitted_connect hmem]
      rfl
  | accept segment options isn now => exact absurd (mem_singleton_self _) (hnothing segment)

theorem Session.passive_absent (h : Session ha hb ca none)
    (hport : key.localPort = listenPort) (hkey : KeyStep listenPort key none e after)
    (hconnect : ∀ result, e ≠ .beginConnect result)
    (hreceived : ∀ segment ∈ e.received, segment ∈ ha.emitted) :
    Session ha (extendHistory none after hb (some e)) ca after := by
  have hopening : ∀ segment ∈ ha.emitted, segment.flags.syn = true ∧
      ∃ c, ca = some c ∧ segment.sequenceNumber = c.localIsn := by
    intro segment hmem
    cases ca with
    | none =>
      simp [(h.forward.silent rfl).1] at hmem
    | some c =>
      have hnot : c.state.synchronized = false := by
        rw [Bool.eq_false_iff]
        intro hsync
        obtain ⟨c', hc', -⟩ := h.forward.remote c rfl hsync
        cases hc'
      have hsyn := h.forward.opening c rfl hnot segment hmem
      exact ⟨hsyn, c, rfl, h.forward.syns c rfl segment hmem hsyn⟩
  cases hkey with
  | refused _ href =>
    have hemitted : e.emitted = [] := by
      refine href.silent fun segment hmem => ?_
      have hsyn := (hopening segment (hreceived segment hmem)).1
      exact ⟨hport, hsyn, by simp [h.bare segment (hreceived segment hmem) hsyn]⟩
    obtain ⟨hbackward, hforward⟩ := h.backward.refused h.forward hreceived hemitted
      href.delivered href.peerClosed
    rw [extendHistory_none]
    exact ⟨hforward, hbackward, h.known, h.synSent, h.synReceived, h.bare⟩
  | connect isn now => exact absurd rfl (hconnect _)
  | accept segment options isn now _ _ _ hoptions =>
    have hopen : HalfOpen (acceptedWith segment options isn now) :=
      .inr (acceptedWith_ok segment isn now hoptions)
    obtain ⟨hsyn, c, rfl, hseq⟩ := hopening segment (hreceived segment (mem_singleton_self _))
    have hreply : ∀ sent ∈ Event.emitted (.handle segment
        { reply := some (makeSynAck key (passiveConnection segment options isn)) }),
        sent = makeSynAck key (passiveConnection segment options isn) := by
      intro sent hmem
      simpa using hmem
    rw [extendHistory_new]
    refine ⟨h.forward.heard_opening ?_ fun sent hmem => ?_,
      h.backward.opens hopen.not_synchronized rfl rfl fun sent hmem => ?_, ?_, h.synSent, ?_, h.bare⟩
    · simpa [Event.received] using hsyn
    · rw [hreply sent hmem]
      rfl
    · rw [hreply sent hmem]
      exact ⟨rfl, rfl, rfl⟩
    · rintro c' ⟨rfl⟩
      exact ⟨c, rfl, (acceptedWith_remoteIsn segment options isn now).trans hseq⟩
    · rintro c' ⟨rfl⟩ _
      exact congrArg ControlView.state (acceptedWith_ok segment isn now hoptions).control

end Absent

/-! ## Calls that keep the connection -/

/-- What a call that keeps the connection leaves alone, before and after the handshake. -/
structure Keeps (c : Connection) (e : Event) (c' : Connection) : Prop where
  localIsn : c'.localIsn = c.localIsn
  remoteIsn : c'.remoteIsn = c.remoteIsn ∨
    c.state.synchronized = false ∧ ∃ segment, EstablishedBy c segment c'
  state : c'.state.synchronized = false → c.state.synchronized = false ∧ c'.state = c.state
  syns : ∀ segment ∈ e.emitted, segment.flags.syn = true →
    c.state.synchronized = false ∧ segment.flags.ack = decide (c.state = .synReceived)

theorem Run.keeps {s : Traced} (hs : Reachable s) {key : TcpConnectionKey} {c c' : Connection}
    (hc : s.table.find? key = some c) {op : Op} {e : Event}
    (hevent : s.table.eventFor key op = some e) (hc' : (s.step op).table.find? key = some c') :
    Keeps c e c' := by
  have hkey := Traced.step_of_event hc hevent
  rw [hc'] at hkey
  cases (Run.connInv hs hc).ok with
  | halfOpen hopen =>
    have hstep := hopen.step hkey
    refine ⟨hstep.localIsn, ?_, ?_, ?_⟩
    · rcases hstep.same_view hopen with ⟨-, hview⟩ | ⟨segment, _, -, hest⟩
      · exact .inl (congrArg (·.receive.remoteIsn) hview)
      · exact .inr ⟨hopen.not_synchronized, segment, hest⟩
    · intro hnot
      refine ⟨hopen.not_synchronized, ?_⟩
      rcases hstep.same_view hopen with ⟨-, hview⟩ | ⟨_, _, -, hest⟩
      · exact congrArg (·.control.state) hview
      · simp [hest.fresh.synchronized] at hnot
    · intro segment hmem hsyn
      refine ⟨hopen.not_synchronized, ?_⟩
      rcases hstep.mem_emitted hmem with hopens | ⟨_, -, -, hack⟩
      · rw [hopens.flags]
      · simp [hack.flags] at hsyn
  | synced u hsynced =>
    have hcall := hsynced.step hkey
    have hcont := hcall.continues c' rfl
    refine ⟨hcont.localIsn, .inl (receiveStep_of_keyStep hsynced hkey).remoteIsn, ?_, ?_⟩
    · intro hnot
      obtain ⟨u', -, hsynced'⟩ := hcont.synced
      simp [hsynced'.synchronized] at hnot
    · intro segment hmem hsyn
      have hnot : segment.flags.syn = false := by
        rcases mem_append.1 hmem with hmem | hmem
        · exact (hcall.emitted segment hmem).syn
        · rw [(hsynced.probes hkey segment hmem).flags]
      simp [hnot] at hsyn

section Kept

variable {s t : Traced} (hs : Reachable s) (ht : Reachable t) {key : TcpConnectionKey}
  (h : Session (s.history key) (t.history key.peer) (s.table.find? key) (t.table.find? key.peer))
  (ha : (s.history key).accepted.length < 2 ^ 30)
  (hb : (t.history key.peer).accepted.length < 2 ^ 30)

include hs ht h ha hb

theorem Session.safe : StreamSafe (s.history key) (t.history key.peer) ∧
    StreamSafe (t.history key.peer) (s.history key) :=
  ⟨Link.safe ht h.backward h.forward (Run.slices hs key) ha,
    Link.safe hs h.forward h.backward (Run.slices ht key.peer) hb⟩

variable {op : Op} {e : Event} {c c' : Connection}

theorem Session.active_kept (hc : s.table.find? key = some c)
    (hevent : s.table.eventFor key op = some e) (hc' : (s.step op).table.find? key = some c')
    (hreceived : ∀ segment ∈ e.received, segment ∈ (t.history key.peer).emitted)
    (hown : ((s.step op).history key).accepted.length < 2 ^ 30) :
    Session ((s.step op).history key) (t.history key.peer) (some c') (t.table.find? key.peer) := by
  have hkeeps := Run.keeps hs hc hevent hc'
  have hremote : ∀ segment result, e = .handle segment result → c.state.synchronized = false →
      EstablishedBy c segment c' →
      ∃ c₂, t.table.find? key.peer = some c₂ ∧ c'.remoteIsn = c₂.localIsn := by
    -- the opener learns the listener's ISN from the SYN-ACK, which the listener emitted
    intro segment result heq hbefore hest
    have hmem := hreceived segment (by rw [heq]; exact mem_singleton_self _)
    obtain ⟨hsyn, -, hremote⟩ := hest.active (h.synSent c hc hbefore)
    cases hc₂ : t.table.find? key.peer with
    | none =>
      simp [(h.backward.silent hc₂).1] at hmem
    | some c₂ => exact ⟨c₂, rfl, hremote.trans (h.backward.syns c₂ hc₂ segment hmem hsyn)⟩
  obtain ⟨hforward, hbackward⟩ := Link.step_kept hs h.forward h.backward (Run.slices ht key.peer)
    hb hc hevent hc' hreceived hown (Link.taken_le ht h.backward h.forward (Run.slices hs key) ha)
    hremote
  refine ⟨hforward, hbackward, ?_, ?_, h.synReceived, ?_⟩
  · intro c₂ hc₂
    obtain ⟨c₁, hc₁, hisn⟩ := h.known c₂ hc₂
    rw [hc, some.injEq] at hc₁
    exact ⟨c', rfl, by rw [hisn, hkeeps.localIsn, hc₁]⟩
  · rintro c₁ ⟨rfl⟩ hnot
    obtain ⟨hbefore, hstate⟩ := hkeeps.state hnot
    exact hstate.trans (h.synSent c hc hbefore)
  · rw [Traced.history_of_event hc hevent, History.emitted_append, forall_mem_append]
    refine ⟨h.bare, fun segment hmem hsyn => ?_⟩
    obtain ⟨hbefore, hack⟩ := hkeeps.syns segment hmem hsyn
    rw [hack, h.synSent c hc hbefore]
    rfl

theorem Session.passive_kept (hc : t.table.find? key.peer = some c)
    (hevent : t.table.eventFor key.peer op = some e)
    (hc' : (t.step op).table.find? key.peer = some c')
    (hreceived : ∀ segment ∈ e.received, segment ∈ (s.history key).emitted)
    (hown : ((t.step op).history key.peer).accepted.length < 2 ^ 30) :
    Session (s.history key) ((t.step op).history key.peer) (s.table.find? key) (some c') := by
  have hkeeps := Run.keeps ht hc hevent hc'
  obtain ⟨c₁, hc₁, hisn⟩ := h.known c hc
  have hremote : c'.remoteIsn = c₁.localIsn := by
    rw [← hisn]
    rcases hkeeps.remoteIsn with hsame | ⟨hbefore, segment, hest⟩
    · exact hsame
    · exact (hest.passive (h.synReceived c hc hbefore)).2.2.2
  obtain ⟨hbackward, hforward⟩ := Link.step_kept ht h.backward h.forward (Run.slices hs key)
    ha hc hevent hc' hreceived hown (Link.taken_le hs h.forward h.backward (Run.slices ht key.peer)
    hb) (fun _ _ _ _ _ => ⟨c₁, hc₁, hremote⟩)
  refine ⟨hforward, hbackward, ?_, h.synSent, ?_, h.bare⟩
  · rintro c₂ ⟨rfl⟩
    exact ⟨c₁, hc₁, hremote⟩
  · rintro c₂ ⟨rfl⟩ hnot
    obtain ⟨hbefore, hstate⟩ := hkeeps.state hnot
    exact hstate.trans (h.synReceived c hc hbefore)

end Kept

/-! ## Whole runs -/

/-- Each side has accepted fewer than `2 ^ 30` bytes. -/
structure Duo.Bounded (key : TcpConnectionKey) (d : Duo) : Prop where
  active : (d.active.history key).accepted.length < 2 ^ 30
  passive : (d.passive.history key.peer).accepted.length < 2 ^ 30

def Duo.Inv (key : TcpConnectionKey) (d : Duo) : Prop :=
  Session (d.active.history key) (d.passive.history key.peer)
    (d.active.table.find? key) (d.passive.table.find? key.peer)

/-- A side that has not had the connection yet has accepted nothing. -/
def Traced.Unopened (s : Traced) (key : TcpConnectionKey) : Prop :=
  s.table.find? key = none → (s.history key).accepted = []

section Unopened

variable {s : Traced} {key : TcpConnectionKey} {op : Op}

theorem Traced.find?_of_not_removes (h : s.removes key op = false) {c : Connection}
    (hc : s.table.find? key = some c) : ∃ c', (s.step op).table.find? key = some c' := by
  rw [Traced.removes, hc, isSome_some, Bool.true_and] at h
  exact isSome_iff_exists.1 (by simpa using h)

theorem Traced.Unopened.step (h : s.Unopened key) (hkept : s.removes key op = false) :
    (s.step op).Unopened key := by
  intro hafter
  rcases s.step_key key op with ⟨hsame, hhist⟩ | ⟨e, -, hkey, hhist⟩
  · rw [hhist]
    exact h (hsame.symm.trans hafter)
  · cases hc : s.table.find? key with
    | some c =>
      obtain ⟨c', hc'⟩ := Traced.find?_of_not_removes hkept hc
      simp [hafter] at hc'
    | none =>
      rw [hafter, hc] at hkey hhist
      cases hkey with
      | refused _ href =>
        rw [hhist, extendHistory_none, History.accepted_append, h hc, href.accepted]
        rfl

theorem Traced.Unopened.accepted_length_le (h : s.Unopened key) :
    (s.history key).accepted.length ≤ ((s.step op).history key).accepted.length := by
  rcases s.step_key key op with ⟨-, hhist⟩ | ⟨e, hevent, -, hhist⟩
  · rw [hhist]
  · cases hc : s.table.find? key with
    | some c =>
      rw [Traced.history_of_event hc hevent, History.accepted_append, length_append]
      exact Nat.le_add_right _ _
    | none =>
      rw [h hc]
      exact Nat.zero_le _

end Unopened

namespace Duo

variable {key : TcpConnectionKey} {d d' : Duo}

theorem Run.unopened (h : Duo.Run key d) (hlive : d.ended = false) :
    d.active.Unopened key ∧ d.passive.Unopened key.peer := by
  induction h with
  | start opener listener => exact ⟨fun _ => rfl, fun _ => rfl⟩
  | step d d' _ hbefore hstep ih =>
    obtain ⟨ha, hb⟩ := ih hbefore
    cases hstep with
    | active op => exact ⟨ha.step hlive, hb⟩
    | passive op => exact ⟨ha, hb.step hlive⟩

theorem Run.listenPort (h : Duo.Run key d) : d.passive.table.listenPort = key.remotePort := by
  induction h with
  | start opener listener _ _ hport => exact hport
  | step d d' _ _ hstep ih =>
    cases hstep with
    | active op => exact ih
    | passive op => exact (listenPort_apply _ op).trans ih

theorem Bounded.before (hb : Duo.Bounded key d') (hstep : Duo.Step key d d')
    (hd : d.active.Unopened key ∧ d.passive.Unopened key.peer) : Duo.Bounded key d := by
  cases hstep with
  | active op => exact ⟨hd.1.accepted_length_le.trans_lt hb.active, hb.passive⟩
  | passive op => exact ⟨hb.active, hd.2.accepted_length_le.trans_lt hb.passive⟩

theorem Inv.step (hrun : Duo.Run key d) (h : d.Inv key) (hstep : Duo.Step key d d')
    (hb : d.Bounded key) (hb' : d'.Bounded key) (hlive : d'.ended = false) : d'.Inv key := by
  obtain ⟨hs, ht⟩ := hrun.reachable
  cases hstep with
  | active op hgenuine =>
    unfold Duo.Inv at h ⊢
    dsimp only at hlive ⊢
    rcases d.active.step_key key op with ⟨hsame, hhist⟩ | ⟨e, hevent, hkey, hhist⟩
    · rwa [hsame, hhist]
    · have hreceived := hgenuine.received hevent
      cases hc : d.active.table.find? key with
      | none =>
        rw [hc] at h hkey hhist
        rw [hhist]
        exact h.active_absent hkey hreceived
      | some c =>
        obtain ⟨c', hc'⟩ := Traced.find?_of_not_removes hlive hc
        rw [hc']
        exact h.active_kept hs ht hb.active hb.passive hc hevent hc' hreceived hb'.active
  | passive op hgenuine hop =>
    unfold Duo.Inv at h ⊢
    dsimp only at hlive ⊢
    rcases d.passive.step_key key.peer op with ⟨hsame, hhist⟩ | ⟨e, hevent, hkey, hhist⟩
    · rwa [hsame, hhist]
    · have hreceived := hgenuine.received hevent
      cases hc : d.passive.table.find? key.peer with
      | none =>
        rw [hc] at h hkey hhist
        rw [hhist]
        refine h.passive_absent hrun.listenPort.symm hkey ?_ hreceived
        rintro result rfl
        obtain ⟨now, rfl⟩ := op_of_beginConnect hevent
        exact hop now rfl
      | some c =>
        obtain ⟨c', hc'⟩ := Traced.find?_of_not_removes hlive hc
        rw [hc']
        exact h.passive_kept hs ht hb.active hb.passive hc hevent hc' hreceived hb'.passive

theorem Run.inv (h : Duo.Run key d) (hb : d.Bounded key) (hlive : d.ended = false) : d.Inv key := by
  induction h with
  | start opener listener ha hl =>
    rw [Duo.Inv, find?_empty ha, find?_empty hl]
    exact Session.start
  | step d d' hrun hbefore hstep ih =>
    have hb₀ := hb.before hstep (hrun.unopened hbefore)
    exact (ih hb₀ hbefore).step hrun hstep hb₀ hb hlive

theorem Run.last (h : Duo.Run key d) (hended : d.ended = true) :
    ∃ d₀, Duo.Run key d₀ ∧ d₀.ended = false ∧ Duo.Step key d₀ d := by
  cases h with
  | start opener listener => cases hended
  | step d₀ _ hrun hbefore hstep => exact ⟨d₀, hrun, hbefore, hstep⟩

end Duo

/-! ## What is left when one table has removed the connection -/

section Removed

variable {s : Traced} {key : TcpConnectionKey} {op : Op}

theorem Traced.of_removes (h : s.removes key op = true) :
    ∃ c e, s.table.find? key = some c ∧ (s.step op).table.find? key = none ∧
      s.table.eventFor key op = some e := by
  rw [Traced.removes, Bool.and_eq_true, isSome_iff_exists, isNone_iff_eq_none] at h
  obtain ⟨⟨c, hc⟩, hgone⟩ := h
  rcases s.step_key key op with ⟨hsame, -⟩ | ⟨e, hevent, -⟩
  · simp [hsame, hc] at hgone
  · exact ⟨c, e, hc, hgone, hevent⟩

theorem Traced.taken_le_of_removes (h : s.removes key op = true) :
    (s.history key).taken ≤ ((s.step op).history key).taken := by
  obtain ⟨c, e, hc, -, hevent⟩ := Traced.of_removes h
  rw [Traced.history_of_event hc hevent]
  exact History.taken_le _ e

end Removed

section Safe

variable {key : TcpConnectionKey} {d d' : Duo}

theorem Duo.Inv.removed (hrun : Duo.Run key d) (h : d.Inv key) (hstep : Duo.Step key d d')
    (hb : d.Bounded key) (hended : d'.ended = true) :
    StreamSafe (d'.active.history key) (d'.passive.history key.peer) ∧
      StreamSafe (d'.passive.history key.peer) (d'.active.history key) := by
  obtain ⟨hs, ht⟩ := hrun.reachable
  obtain ⟨hforward, hbackward⟩ := h.safe hs ht hb.active hb.passive
  cases hstep with
  | active op hgenuine =>
    obtain ⟨c, e, hc, hgone, hevent⟩ := Traced.of_removes hended
    obtain ⟨haccepted, hsafe⟩ := Link.removed hs h.forward h.backward (Run.slices ht key.peer)
      hb.passive hc hevent hgone (hgenuine.received hevent)
    refine ⟨⟨?_, ?_⟩, hsafe⟩
    · rw [haccepted]
      exact hforward.delivered
    · rw [haccepted]
      exact hforward.closed
  | passive op hgenuine =>
    obtain ⟨c, e, hc, hgone, hevent⟩ := Traced.of_removes hended
    obtain ⟨haccepted, hsafe⟩ := Link.removed ht h.backward h.forward (Run.slices hs key)
      hb.active hc hevent hgone (hgenuine.received hevent)
    refine ⟨hsafe, ?_, ?_⟩
    · rw [haccepted]
      exact hbackward.delivered
    · rw [haccepted]
      exact hbackward.closed

theorem Duo.Run.safe (hrun : Duo.Run key d) (hb : d.Bounded key) :
    StreamSafe (d.active.history key) (d.passive.history key.peer) ∧
      StreamSafe (d.passive.history key.peer) (d.active.history key) := by
  cases hended : d.ended with
  | false =>
    obtain ⟨hs, ht⟩ := hrun.reachable
    exact (hrun.inv hb hended).safe hs ht hb.active hb.passive
  | true =>
    obtain ⟨d₀, hrun₀, hlive, hstep⟩ := hrun.last hended
    have hb₀ := hb.before hstep (hrun₀.unopened hlive)
    exact (hrun₀.inv hb₀ hlive).removed hrun₀ hstep hb₀ hended

end Safe

/-! ## Acknowledged means delivered -/

/-- The caller at the other end has every byte and was told of the end. -/
def AllDelivered (sent received : History) : Prop :=
  received.delivered = sent.accepted ∧ received.peerClosedCount = 1

/-- What the connection of one end tells about the other end's caller: the bytes below `sndUna`, which
    lie behind the SYN, were handed to it, and once the FIN is acknowledged so was everything. -/
structure AckedDelivered (sent received : History) (c : Connection) : Prop where
  retired : sent.accepted.take (c.sndUna - (c.localIsn + 1)).toNat <+: received.delivered
  finished : c.state = .finWait2 ∨ c.state = .timeWait → AllDelivered sent received

section Acknowledged

variable {hx hy : History} {c : Connection}

theorem StreamSafe.all (hsafe : StreamSafe hx hy) (honce : hy.peerClosedCount ≤ 1)
    (htaken : hx.accepted.length + 1 ≤ hy.taken) : AllDelivered hx hy := by
  have hlen := hsafe.delivered.length_le
  rw [History.taken] at htaken
  exact ⟨hsafe.delivered.eq_of_length (by omega), by omega⟩

theorem ackedDelivered_of_taken {u : ℕ} (hsynced : Synced hx.accepted u c) (hu : u ≤ hy.taken)
    (hsafe : StreamSafe hx hy) (honce : hy.peerClosedCount ≤ 1)
    (hbound : hx.accepted.length < 2 ^ 30) : AckedDelivered hx hy c where
  retired := by
    have hacked := hsynced.send.acked
    rw [length_streamCells] at hacked
    have hoffset : (c.sndUna - (c.localIsn + 1)).toNat = u := by
      rw [show c.sndUna = pos (c.localIsn + 1) u from hsynced.send.una]
      exact ahead_pos _ (by split_ifs at hacked <;> omega)
    rw [hoffset]
    rcases Nat.eq_zero_or_pos hy.peerClosedCount with hzero | hpos
    · rw [History.taken, hzero] at hu
      rw [prefix_iff_eq_take.1 hsafe.delivered]
      exact take_prefix_take_left hu
    · rw [hsafe.closed hpos]
      exact take_prefix _ _
  finished := by
    intro hstate
    have hall := hsynced.acked (by rcases hstate with h | h <;> rw [h] <;> rfl)
    exact hsafe.all honce (hall ▸ hu)

theorem ackedDelivered_of_halfOpen (hopen : HalfOpen c) (haccepted : hx.accepted = []) :
    AckedDelivered hx hy c where
  retired := by
    rw [haccepted, take_nil]
    exact nil_prefix
  finished := by
    intro hstate
    rcases hopen.state with h | h <;> rw [h] at hstate <;> simp at hstate

theorem Synced.closing_ack {u : ℕ} (hsynced : Synced hx.accepted u c) (hlast : c.state = .lastAck) :
    c.sndNxt = pos (c.localIsn + 1) (hx.accepted.length + 1) := by
  have hfin : c.localFinSeq.isSome = true := hsynced.sequenced.trans (by rw [hlast]; rfl)
  obtain ⟨f, hf⟩ := isSome_iff_exists.1 hfin
  have hlen := hsynced.send.length_eq
  rw [(hsynced.send.fin f hf).2.1, if_pos (show c.view.send.localFinSeq.isSome = true from hfin),
    length_nil] at hlen
  exact hsynced.send.nxt.trans (congrArg _ (by omega))

variable {s : Traced} (hs : Reachable s) {key : TcpConnectionKey} {cy : Option Connection}
  (hspeak : Link (s.history key) hy (s.table.find? key) cy)
  (hbound : (s.history key).accepted.length < 2 ^ 30) (hc : s.table.find? key = some c)

include hs hspeak hbound hc

theorem Link.ackedDelivered {hy' : History} (hlater : hy.taken ≤ hy'.taken)
    (hsafe : StreamSafe (s.history key) hy') (honce : hy'.peerClosedCount ≤ 1) :
    AckedDelivered (s.history key) hy' c := by
  cases (Run.connInv hs hc).ok with
  | halfOpen hopen haccepted => exact ackedDelivered_of_halfOpen hopen haccepted
  | synced _ hsynced =>
    obtain ⟨u, hu, hsynced⟩ := hspeak.acked c hc hsynced.synchronized
    exact ackedDelivered_of_taken hsynced (hu.trans hlater) hsafe honce hbound

theorem Link.closedDelivered (hsafe : StreamSafe (s.history key) hy)
    (honce : hy.peerClosedCount ≤ 1) {memory : ℕ → Byte} {segment : TcpSegment} {now : TimePoint}
    (hmem : segment ∈ hy.emitted)
    (hclosed : (s.table.handle memory key segment now).2.connectionClosed = true) :
    AllDelivered (s.history key) hy := by
  rw [handle_of_some hc] at hclosed
  obtain ⟨hlast, hsyn, hack⟩ := handleExisting_closed (Run.connInv hs hc).ok memory hclosed
  obtain ⟨u, -, hsynced⟩ := hspeak.acked c hc (by rw [hlast]; rfl)
  rw [hsynced.closing_ack hlast] at hack
  have hsmall : hy.taken < 2 ^ 31 := by
    have := hsafe.delivered.length_le
    rw [History.taken]
    omega
  exact hsafe.all honce ((hspeak.heard c hc).ack_le hsmall hmem hsyn hack (by omega))

end Acknowledged

theorem Duo.Run.closedOnce {key : TcpConnectionKey} {d : Duo} (hrun : Duo.Run key d) :
    (d.active.history key).peerClosedCount ≤ 1 ∧ (d.passive.history key.peer).peerClosedCount ≤ 1 :=
  ⟨(Run.keyInv hrun.reachable.1 key).closedOnce, (Run.keyInv hrun.reachable.2 key.peer).closedOnce⟩

/-! ## The guarantees -/

/-- **End-to-end stream safety.** -/
theorem endToEnd_safe {key : TcpConnectionKey} {d : Duo} (hrun : Duo.Run key d)
    (hb : d.Bounded key) :
    StreamSafe (d.active.history key) (d.passive.history key.peer) ∧
      StreamSafe (d.passive.history key.peer) (d.active.history key) :=
  hrun.safe hb

/-- Both ends send, and the opener closes: its FIN is acknowledged. -/
def exampleExchange : List Move :=
  [.toActive 0, .toPassive 1, .active (.makeOutgoingData exampleKey [1, 2, 3] 0), .toPassive 2,
    .passive (.makeOutgoingData exampleKey.peer [9] 0), .active (.beginClose exampleKey 0),
    .toPassive 3, .toActive 1, .toActive 2]

theorem endToEnd_safe_example : ∃ d, Duo.Run exampleKey d ∧ d.Bounded exampleKey ∧
      (d.passive.history exampleKey.peer).delivered = [1, 2, 3] ∧
      (d.passive.history exampleKey.peer).peerClosedCount = 1 ∧
      StreamSafe (d.active.history exampleKey) (d.passive.history exampleKey.peer) ∧
      StreamSafe (d.passive.history exampleKey.peer) (d.active.history exampleKey) := by
  have hexchange : (performDuo exampleKey exampleExchange exampleConnected exampleAccepted).map
      (fun p => (p.1.1.accepted, p.2.1.accepted, p.2.1.delivered, p.2.1.peerClosedCount)) =
      some ([1, 2, 3], [9], [1, 2, 3], 1) := by decide +kernel
  obtain ⟨d, ca, cb, hrun, -, -, -, hval⟩ := exampleDuo_at hexchange
  simp only [Prod.mk.injEq] at hval
  obtain ⟨haccepted, hanswered, hdelivered, hclosed⟩ := hval
  have hb : d.Bounded exampleKey := ⟨by rw [haccepted]; decide, by rw [hanswered]; decide⟩
  exact ⟨d, hrun, hb, hdelivered, hclosed, endToEnd_safe hrun hb⟩

/-- **Acknowledged means delivered.** What a connection has retired the other end's caller has, and
    in FIN-WAIT-2, TIME-WAIT and when `handle` reports the close it has everything. -/
theorem acknowledged_delivered {key : TcpConnectionKey} {d : Duo} (hrun : Duo.Run key d)
    (hb : d.Bounded key) :
    (∀ c, d.active.table.find? key = some c →
      AckedDelivered (d.active.history key) (d.passive.history key.peer) c ∧
      (d.ended = false → ∀ memory segment now, segment ∈ (d.passive.history key.peer).emitted →
        (d.active.table.handle memory key segment now).2.connectionClosed = true →
        AllDelivered (d.active.history key) (d.passive.history key.peer))) ∧
    (∀ c, d.passive.table.find? key.peer = some c →
      AckedDelivered (d.passive.history key.peer) (d.active.history key) c ∧
      (d.ended = false → ∀ memory segment now, segment ∈ (d.active.history key).emitted →
        (d.passive.table.handle memory key.peer segment now).2.connectionClosed = true →
        AllDelivered (d.passive.history key.peer) (d.active.history key))) := by
  obtain ⟨hforward, hbackward⟩ := hrun.safe hb
  obtain ⟨honceA, honceB⟩ := hrun.closedOnce
  cases hended : d.ended with
  | false =>
      obtain ⟨hs, ht⟩ := hrun.reachable
      have hinv := hrun.inv hb hended
      refine ⟨fun c hc => ⟨?_, fun _ memory segment now hmem hclosed => ?_⟩,
        fun c hc => ⟨?_, fun _ memory segment now hmem hclosed => ?_⟩⟩
      · exact Link.ackedDelivered hs hinv.forward hb.active hc (le_refl _) hforward honceB
      · exact Link.closedDelivered hs hinv.forward hb.active hc hforward honceB hmem hclosed
      · exact Link.ackedDelivered ht hinv.backward hb.passive hc (le_refl _) hbackward honceA
      · exact Link.closedDelivered ht hinv.backward hb.passive hc hbackward honceA hmem hclosed
  | true =>
      obtain ⟨d₀, hrun₀, hlive, hstep⟩ := hrun.last hended
      have hb₀ := hb.before hstep (hrun₀.unopened hlive)
      have hinv := hrun₀.inv hb₀ hlive
      obtain ⟨hs, ht⟩ := hrun₀.reachable
      refine ⟨fun c hc => ⟨?_, nofun⟩, fun c hc => ⟨?_, nofun⟩⟩
      · cases hstep with
        | active op =>
            obtain ⟨_, _, -, hgone, -⟩ := Traced.of_removes hended
            simp [hgone] at hc
        | passive op =>
            exact Link.ackedDelivered hs hinv.forward hb₀.active hc
              (Traced.taken_le_of_removes hended) hforward honceB
      · cases hstep with
        | active op =>
            exact Link.ackedDelivered ht hinv.backward hb₀.passive hc
              (Traced.taken_le_of_removes hended) hbackward honceA
        | passive op =>
            obtain ⟨_, _, -, hgone, -⟩ := Traced.of_removes hended
            simp [hgone] at hc

theorem acknowledged_delivered_example : ∃ d c, Duo.Run exampleKey d ∧ d.Bounded exampleKey ∧
      d.active.table.find? exampleKey = some c ∧ c.state = .finWait2 ∧
      AckedDelivered (d.active.history exampleKey) (d.passive.history exampleKey.peer) c ∧
      AllDelivered (d.active.history exampleKey) (d.passive.history exampleKey.peer) := by
  have hexchange : (performDuo exampleKey exampleExchange exampleConnected exampleAccepted).map
      (fun p => (p.1.1.accepted, p.2.1.accepted, p.1.2.state)) =
      some ([1, 2, 3], [9], .finWait2) := by decide +kernel
  obtain ⟨d, c, _, hrun, -, hc, -, hval⟩ := exampleDuo_at hexchange
  simp only [Prod.mk.injEq] at hval
  obtain ⟨haccepted, hanswered, hstate⟩ := hval
  have hb : d.Bounded exampleKey := ⟨by rw [haccepted]; decide, by rw [hanswered]; decide⟩
  have hacked := ((acknowledged_delivered hrun hb).1 c hc).1
  exact ⟨d, c, hrun, hb, hc, hstate, hacked, hacked.finished (.inl hstate)⟩

end Wirestack
