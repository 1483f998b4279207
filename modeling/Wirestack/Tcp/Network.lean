import Wirestack.Tcp.ReceiveStream

set_option autoImplicit false

/-! # Two tables and the network between them

One connection between an active opener and a listener, followed from the first call until one of the
two tables removes it. The network is what the histories say was emitted: at any moment `handle` may
be called with any segment the other side has emitted for the connection so far, any number of times
and in any order, and with nothing else. Calls about other connections are not restricted.

`Link` is what holds in one direction, from a speaker to a listener, and its lemmas say how a call at
either end keeps it. -/

namespace Wirestack

open SerialNumber Chunks List

variable {key : TcpConnectionKey} {s : Traced} {hx hy : History}

variable {op : Op} {e : Event} {isn : SeqNum} {segment : TcpSegment} {c c' : Connection}

/-! ## The system -/

/-- The key under which the other end knows the connection. -/
def TcpConnectionKey.peer (key : TcpConnectionKey) : TcpConnectionKey :=
  { localIp := key.remoteIp
    localPort := key.remotePort
    remoteIp := key.localIp
    remotePort := key.localPort }

/-- The two tables, and whether one of them has removed the connection. -/
structure Duo where
  active : Traced
  passive : Traced
  ended : Bool := false

/-- Whether the call removes the connection of `key`. -/
def Traced.removes (s : Traced) (key : TcpConnectionKey) (op : Op) : Bool :=
  (s.table.find? key).isSome && ((s.step op).table.find? key).isNone

/-- The network neither forges nor alters a segment of the connection. -/
def Genuine (key : TcpConnectionKey) (sent : List TcpSegment) (op : Op) : Prop :=
  ∀ memory segment now, op = .handle memory key segment now → segment ∈ sent

/-- One call at one end. The listener does not open the connection itself. -/
inductive Duo.Step (key : TcpConnectionKey) (d : Duo) : Duo → Prop where
  | active (op : Op) : Genuine key (d.passive.history key.peer).emitted op →
      Duo.Step key d { d with active := d.active.step op, ended := d.active.removes key op }
  | passive (op : Op) : Genuine key.peer (d.active.history key).emitted op →
      (∀ now, op ≠ .beginConnect key.peer now) →
      Duo.Step key d { d with passive := d.passive.step op, ended := d.passive.removes key.peer op }

/-- The states that any interleaving reaches, from two empty tables until the connection is
    removed. -/
inductive Duo.Run (key : TcpConnectionKey) : Duo → Prop where
  | start (opener listener : TcpConnectionTable) : opener.connections = ∅ →
      listener.connections = ∅ → listener.listenPort = key.remotePort →
      Duo.Run key ⟨⟨opener, fun _ => []⟩, ⟨listener, fun _ => []⟩, false⟩
  | step (d d' : Duo) : Duo.Run key d → d.ended = false → Duo.Step key d d' → Duo.Run key d'

theorem Duo.Run.reachable {d : Duo} (h : Duo.Run key d) :
    Reachable d.active ∧ Reachable d.passive := by
  induction h with
  | start opener listener ha hb => exact ⟨.start opener ha, .start listener hb⟩
  | step d d' _ _ hstep ih =>
    cases hstep with
    | active op => exact ⟨.step _ op ih.1 trivial, ih.2⟩
    | passive op => exact ⟨ih.1, .step _ op ih.2 trivial⟩

theorem Genuine.received {sent : List TcpSegment} (h : Genuine key sent op)
    (hevent : s.table.eventFor key op = some e) : ∀ segment ∈ e.received, segment ∈ sent := by
  intro segment hmem
  cases e with
  | handle segment' result =>
    obtain ⟨memory, now, rfl⟩ := TcpConnectionTable.op_of_handle hevent
    rw [mem_singleton.1 hmem]
    exact h memory segment' now rfl
  | _ => exact absurd hmem (by simp [Event.received])

/-! ## One direction -/

theorem History.taken_append (h : History) (e : Event) : History.taken (h ++ [e]) =
      h.taken + (e.delivered.length + if e.peerClosed then 1 else 0) := by
  simp only [History.taken, History.delivered_append, length_append, History.peerClosedCount_append]
  omega

theorem History.taken_le (h : History) (e : Event) : h.taken ≤ History.taken (h ++ [e]) := by
  rw [History.taken_append]
  omega

theorem Stale.mono {r r' : ℕ} (hle : r ≤ r') (h : Stale r isn segment) : Stale r' isn segment := by
  obtain ⟨hfin, m, hseq, hend⟩ := h
  exact ⟨hfin, m, hseq, by omega⟩

/-- What the listener `hy` has heard of a speaker `hx` with initial sequence number `isn`: it has
    received what the speaker emitted, its acknowledgments count what it has taken, and each probe of
    the speaker lies before that. -/
structure Heard (isn : SeqNum) (hx hy : History) : Prop where
  received : Hears (fun h segment => segment ∈ hx.emittedInSequence ∨ Stale h.taken isn segment) hy
  probes : ∀ segment ∈ hx.probes, segment.flags.syn = false → Stale hy.taken isn segment
  acks : ∀ segment ∈ hy.emitted, segment.flags.syn = false →
    ∃ j ≤ hy.taken, segment.acknowledgmentNumber = pos (isn + 1) j

theorem Heard.ack_le (h : Heard isn hx hy) (hsmall : hy.taken < 2 ^ 31)
    (hmem : segment ∈ hy.emitted) (hsyn : segment.flags.syn = false) {u : ℕ}
    (hack : segment.acknowledgmentNumber = pos (isn + 1) u) (hu : u < 2 ^ 31) : u ≤ hy.taken := by
  obtain ⟨j, hj, hack'⟩ := h.acks segment hmem hsyn
  have := pos_inj _ (by omega) (by omega) (hack.symm.trans hack')
  omega

/-- One direction of the connection: the speaker's history and connection, and the listener's. -/
structure Link (hx hy : History) (cx cy : Option Connection) : Prop where
  silent : cx = none → hx.emitted = [] ∧ (∀ segment ∈ hy.received, segment.flags.syn = true) ∧
    ∀ segment ∈ hy.emitted, segment.flags.syn = true
  heard : ∀ c, cx = some c → Heard c.localIsn hx hy
  acked : ∀ c, cx = some c → c.state.synchronized = true → ∃ u ≤ hy.taken, Synced hx.accepted u c
  remote : ∀ c, cx = some c → c.state.synchronized = true →
    ∃ c', cy = some c' ∧ c.remoteIsn = c'.localIsn
  opening : ∀ c, cx = some c → c.state.synchronized = false →
    ∀ segment ∈ hx.emitted, segment.flags.syn = true
  plain : ∀ segment ∈ hx.emitted, segment.flags.rst = false
  syns : ∀ c, cx = some c → ∀ segment ∈ hx.emitted, segment.flags.syn = true →
    segment.sequenceNumber = c.localIsn
  quiet : (∀ c, cx = some c → c.state.synchronized = false) →
    hx.delivered = [] ∧ hx.peerClosedCount = 0

theorem Heard.of_syns (hreceived : ∀ segment ∈ hy.received, segment.flags.syn = true)
    (hspoken : ∀ segment ∈ hx.emitted, segment.flags.syn = true)
    (hanswered : ∀ segment ∈ hy.emitted, segment.flags.syn = true) : Heard isn hx hy := by
  have hnot : ∀ segment : TcpSegment, segment.flags.syn = true → ¬ segment.flags.syn = false := by
    intro segment h
    rw [h]
    simp
  refine ⟨?_, ?_, ?_⟩
  · intro h₁ e h₂ heq segment hmem hsyn
    refine absurd hsyn (hnot _ (hreceived segment ?_))
    rw [heq, History.received, flatMap_append, flatMap_cons]
    exact mem_append_right _ (mem_append_left _ hmem)
  · exact fun segment hmem hsyn =>
    absurd hsyn (hnot _ (hspoken segment (History.mem_emitted.2 (.inr hmem))))
  · exact fun segment hmem hsyn => absurd hsyn (hnot _ (hanswered segment hmem))

section Steps

variable {hx hy : History} {cx cy cx' : Option Connection} {e : Event}

theorem Link.listens (h : Link hy hx cy cx) (hreceived : ∀ segment ∈ e.received, segment ∈ hy.emitted)
    (hacks : ∀ c, cy = some c → ∀ segment ∈ e.emitted, segment.flags.syn = false →
      ∃ j ≤ History.taken (hx ++ [e]), segment.acknowledgmentNumber = pos (c.localIsn + 1) j)
    (hsilent : cy = none → ∀ segment ∈ e.emitted, segment.flags.syn = true)
    (hpeer : ∀ c, cx = some c → ∃ c', cx' = some c' ∧ c'.localIsn = c.localIsn) :
    Link hy (hx ++ [e]) cy cx' where
  silent := by
    intro hnone
    obtain ⟨hemitted, hold, hsyn⟩ := h.silent hnone
    refine ⟨hemitted, ?_, ?_⟩
    · rw [History.received_append, forall_mem_append]
      refine ⟨hold, fun segment hmem => ?_⟩
      have := hreceived segment hmem
      simp [hemitted] at this
    · rw [History.emitted_append, forall_mem_append]
      exact ⟨hsyn, hsilent hnone⟩
  heard := by
    intro c hc
    have hheard := h.heard c hc
    refine ⟨Hears.snoc.2 ⟨hheard.received, fun segment hmem hsyn => ?_⟩, ?_, ?_⟩
    · rcases History.mem_emitted.1 (hreceived segment hmem) with hseq | hprobe
      · exact .inl hseq
      · exact .inr (hheard.probes segment hprobe hsyn)
    · exact fun segment hmem hsyn => (hheard.probes segment hmem hsyn).mono (hx.taken_le e)
    · rw [History.emitted_append, forall_mem_append]
      refine ⟨fun segment hmem hsyn => ?_, hacks c hc⟩
      obtain ⟨j, hj, hack⟩ := hheard.acks segment hmem hsyn
      exact ⟨j, hj.trans (hx.taken_le e), hack⟩
  acked := by
    intro c hc hsync
    obtain ⟨u, hu, hsynced⟩ := h.acked c hc hsync
    exact ⟨u, hu.trans (hx.taken_le e), hsynced⟩
  remote := by
    intro c hc hsync
    obtain ⟨c₁, hc₁, hisn⟩ := h.remote c hc hsync
    obtain ⟨c', hc', hsame⟩ := hpeer c₁ hc₁
    exact ⟨c', hc', hisn.trans hsame.symm⟩
  opening := h.opening
  plain := h.plain
  syns := h.syns
  quiet := h.quiet

/-- What a call at the speaker's end has to show. -/
structure Speaks (hx hy : History) (cx cx' cy : Option Connection) (e : Event) : Prop where
  kept : ∀ c', cx' = some c' → ∃ c, cx = some c ∧ c'.localIsn = c.localIsn
  absent : cx' = none → cx = none ∧ e.emitted = []
  probes : ∀ c', cx' = some c' → ∀ segment ∈ e.probes, segment.flags.syn = false →
    Stale hy.taken c'.localIsn segment
  plain : ∀ segment ∈ e.emitted, segment.flags.rst = false
  syns : ∀ c', cx' = some c' → ∀ segment ∈ e.emitted, segment.flags.syn = true →
    segment.sequenceNumber = c'.localIsn
  acked : ∀ c', cx' = some c' → c'.state.synchronized = true →
    ∃ u ≤ hy.taken, Synced (hx.accepted ++ e.accepted) u c'
  remote : ∀ c', cx' = some c' → c'.state.synchronized = true →
    ∃ c'', cy = some c'' ∧ c'.remoteIsn = c''.localIsn
  opening : (∀ c', cx' = some c' → c'.state.synchronized = false) →
    (∀ c, cx = some c → c.state.synchronized = false) ∧ e.delivered = [] ∧ e.peerClosed = false ∧
      ∀ segment ∈ e.emitted, segment.flags.syn = true

theorem Link.speaks (h : Link hx hy cx cy) (hs : Speaks hx hy cx cx' cy e) :
    Link (hx ++ [e]) hy cx' cy where
  silent := by
    intro hnone
    obtain ⟨hcx, hemitted⟩ := hs.absent hnone
    obtain ⟨hold, hrest⟩ := h.silent hcx
    refine ⟨?_, hrest⟩
    rw [History.emitted_append, hold, hemitted]
    rfl
  heard := by
    intro c' hc'
    obtain ⟨c, hc, hisn⟩ := hs.kept c' hc'
    have hheard := h.heard c hc
    rw [← hisn] at hheard
    refine ⟨hheard.received.mono fun h₁ segment hor => hor.imp_left fun hmem => ?_, ?_, hheard.acks⟩
    · rw [History.emittedInSequence_append]
      exact mem_append_left _ hmem
    · rw [History.probes_append, forall_mem_append]
      exact ⟨hheard.probes, hs.probes c' hc'⟩
  acked := by
    rw [History.accepted_append]
    exact hs.acked
  remote := hs.remote
  opening := by
    intro c' hc' hsync
    obtain ⟨hold, -, -, hsyn⟩ := hs.opening fun c hc => by
      rw [hc', Option.some.injEq] at hc
      rwa [← hc]
    obtain ⟨c, hc, -⟩ := hs.kept c' hc'
    rw [History.emitted_append, forall_mem_append]
    exact ⟨h.opening c hc (hold c hc), hsyn⟩
  plain := by
    rw [History.emitted_append, forall_mem_append]
    exact ⟨h.plain, hs.plain⟩
  syns := by
    intro c' hc'
    obtain ⟨c, hc, hisn⟩ := hs.kept c' hc'
    rw [History.emitted_append, forall_mem_append]
    refine ⟨?_, hs.syns c' hc'⟩
    rw [hisn]
    exact h.syns c hc
  quiet := by
    intro hsync
    obtain ⟨hold, hdelivered, hclosed, -⟩ := hs.opening hsync
    rw [History.delivered_append, History.peerClosedCount_append, hdelivered, hclosed,
      (h.quiet hold).1, (h.quiet hold).2]
    exact ⟨rfl, rfl⟩

theorem Link.opens (h : Link hx hy none cy) (hsync : c.state.synchronized = false)
    (hdelivered : e.delivered = []) (hclosed : e.peerClosed = false)
    (hemitted : ∀ segment ∈ e.emitted, segment.flags.syn = true ∧ segment.flags.rst = false ∧
      segment.sequenceNumber = c.localIsn) : Link [e] hy (some c) cy := by
  obtain ⟨-, hreceived, hanswered⟩ := h.silent rfl
  have hsyn : ∀ segment ∈ History.emitted [e], segment.flags.syn = true := by
    rw [History.emitted_singleton]
    exact fun segment hmem => (hemitted segment hmem).1
  have hnot : ∀ c', some c = some c' → ¬ c'.state.synchronized = true := by
    rintro c' ⟨rfl⟩
    rw [hsync]
    simp
  refine ⟨nofun, fun c' _ => .of_syns hreceived hsyn hanswered,
    fun c' hc' h => absurd h (hnot c' hc'), fun c' hc' h => absurd h (hnot c' hc'),
    fun _ _ _ => hsyn, ?_, ?_, ?_⟩
  · rw [History.emitted_singleton]
    exact fun segment hmem => (hemitted segment hmem).2.1
  · rintro c' ⟨rfl⟩
    rw [History.emitted_singleton]
    exact fun segment hmem _ => (hemitted segment hmem).2.2
  · intro _
    simp [hdelivered, hclosed]

theorem Link.heard_opening (h : Link hy hx cy none)
    (hreceived : ∀ segment ∈ e.received, segment.flags.syn = true)
    (hemitted : ∀ segment ∈ e.emitted, segment.flags.syn = true) : Link hy [e] cy (some c) := by
  have hnot : ∀ c', cy = some c' → c'.state.synchronized = false := by
    intro c' hc'
    rw [Bool.eq_false_iff]
    intro hsync
    obtain ⟨c'', hnone, -⟩ := h.remote c' hc' hsync
    cases hnone
  have hreceived' : ∀ segment ∈ History.received [e], segment.flags.syn = true := by
    simpa [History.received] using hreceived
  have hemitted' : ∀ segment ∈ History.emitted [e], segment.flags.syn = true := by
    rwa [History.emitted_singleton]
  have hcontra : ∀ c', cy = some c' → ¬ c'.state.synchronized = true := by
    intro c' hc'
    rw [hnot c' hc']
    simp
  refine ⟨fun hnone => ⟨(h.silent hnone).1, hreceived', hemitted'⟩, fun c' hc' => ?_,
    fun c' hc' hsync => absurd hsync (hcontra c' hc'),
    fun c' hc' hsync => absurd hsync (hcontra c' hc'), h.opening, h.plain, h.syns, h.quiet⟩
  exact .of_syns hreceived' (h.opening c' hc' (hnot c' hc')) hemitted'

end Steps

/-! ## Calls without a connection, and during the handshake -/

section Opening

variable {hx hy : History} {cy : Option Connection} {e : Event} {c c' : Connection}

theorem speaks_refused (hemitted : e.emitted = []) (hdelivered : e.delivered = [])
    (hclosed : e.peerClosed = false) : Speaks hx hy none none cy e where
  kept := fun c' h => absurd h (by simp)
  absent := fun _ => ⟨rfl, hemitted⟩
  probes := fun c' h => absurd h (by simp)
  plain := by simp [hemitted]
  syns := fun c' h => absurd h (by simp)
  acked := fun c' h => absurd h (by simp)
  remote := fun c' h => absurd h (by simp)
  opening := fun _ => ⟨fun c h => absurd h (by simp), hdelivered, hclosed, by simp [hemitted]⟩

theorem HalfOpenStep.mem_emitted {after : Option Connection} (h : HalfOpenStep c e after)
    (hmem : segment ∈ e.emitted) :
    OpensWith c segment ∨
      ∃ c', after = some c' ∧ FreshlyEstablished c' ∧ CompletingAck c' segment := by
  rw [Event.emitted, h.probes, append_nil] at hmem
  exact h.emitted segment hmem

theorem HalfOpenStep.localIsn (h : HalfOpenStep c e (some c')) : c'.localIsn = c.localIsn := by
  rcases h.continues c' rfl with hview | ⟨_, _, -, hest⟩
  · exact congrArg (·.send.localIsn) hview
  · exact hest.localIsn

theorem HalfOpenStep.same_view (hopen : HalfOpen c) (h : HalfOpenStep c e (some c')) :
    c'.state.synchronized = false ∧ c'.view = c.view ∨
    ∃ segment result, e = .handle segment result ∧ EstablishedBy c segment c' := by
  refine (h.continues c' rfl).imp_left fun hview => ⟨?_, hview⟩
  exact (hopen.of_view hview).not_synchronized

theorem FreshlyEstablished.synchronized (h : FreshlyEstablished c) :
    c.state.synchronized = true := by
  rw [h.established]
  rfl

theorem HalfOpen.speaks (hopen : HalfOpen c) (h : HalfOpenStep c e (some c'))
    (haccepted : hx.accepted = [])
    (hremote : c'.state.synchronized = true → ∃ c'', cy = some c'' ∧ c'.remoteIsn = c''.localIsn) :
    Speaks hx hy (some c) (some c') cy e where
  kept := by
    rintro c'' ⟨rfl⟩
    exact ⟨c, rfl, h.localIsn⟩
  absent := nofun
  probes := by simp [h.probes]
  plain := by
    intro segment hmem
    rcases h.mem_emitted hmem with hopens | ⟨c₁, -, -, hack⟩
    · rw [hopens.flags]
    · rw [hack.flags]
  syns := by
    rintro c'' ⟨rfl⟩ segment hmem hsyn
    rcases h.mem_emitted hmem with hopens | ⟨c₁, -, -, hack⟩
    · rw [hopens.sequenceNumber, h.localIsn]
    · simp [hack.flags] at hsyn
  acked := by
    rintro c'' ⟨rfl⟩ hsync
    rcases h.same_view hopen with ⟨hnot, -⟩ | ⟨_, _, -, hest⟩
    · simp [hnot] at hsync
    · rw [haccepted, h.accepted]
      exact ⟨0, Nat.zero_le _, hest.fresh.synced⟩
  remote := by
    rintro c'' ⟨rfl⟩ hsync
    exact hremote hsync
  opening := by
    intro hnot
    refine ⟨?_, h.delivered, h.peerClosed, fun segment hmem => ?_⟩
    · rintro c'' ⟨rfl⟩
      exact hopen.not_synchronized
    · rcases h.mem_emitted hmem with hopens | ⟨c₁, hc₁, hfresh, -⟩
      · rw [hopens.flags]
      · have := hnot c₁ hc₁
        simp [hfresh.synchronized] at this

theorem HalfOpen.acks (h : HalfOpenStep c e (some c'))
    (hremote : c'.state.synchronized = true → ∃ c'', cy = some c'' ∧ c'.remoteIsn = c''.localIsn)
    {c₁ : Connection} (hc₁ : cy = some c₁) {n : ℕ} :
    ∀ segment ∈ e.emitted, segment.flags.syn = false →
      ∃ j ≤ n, segment.acknowledgmentNumber = pos (c₁.localIsn + 1) j := by
  intro segment hmem hsyn
  rcases h.mem_emitted hmem with hopens | ⟨c₂, hc₂, hfresh, hack⟩
  · simp [hopens.flags] at hsyn
  · cases hc₂
    obtain ⟨c'', hc'', hisn⟩ := hremote hfresh.synchronized
    rw [hc₁, Option.some.injEq] at hc''
    refine ⟨0, Nat.zero_le _, ?_⟩
    rw [hack.acknowledgmentNumber, hfresh.rcvNxt, hisn, ← hc'', pos_zero]

end Opening

/-! ## Calls on a synchronized connection -/

section Synchronized

variable {s : Traced} (hs : Reachable s) {key : TcpConnectionKey} {c : Connection}
  (hc : s.table.find? key = some c) (hsync : c.state.synchronized = true)
  {hy : History} {cy : Option Connection}
  (hspeak : Link (s.history key) hy (some c) cy) (hlisten : Link hy (s.history key) cy (some c))
  (hslices : ∀ c', cy = some c' → ∀ segment ∈ hy.emittedInSequence,
    Slice hy.accepted c'.localIsn segment)
  (hbound : hy.accepted.length < 2 ^ 30)

include hs hc hsync hspeak hlisten hslices hbound

theorem Link.stream : (s.history key).delivered <+: hy.accepted ∧
      StreamInv hy.accepted (s.history key).delivered.length c := by
  obtain ⟨c', hc', hisn⟩ := hspeak.remote c rfl hsync
  refine Run.streamInv hs hc hsync hbound ?_
  rw [hisn]
  refine (hlisten.heard c' hc').received.mono fun h₁ segment hor => hor.imp_left fun hmem => ?_
  exact (hslices c' hc' segment hmem).carries

theorem Link.rcvNxt : c.rcvNxt = pos (c.remoteIsn + 1) (s.history key).taken := by
  obtain ⟨-, hstream⟩ := Link.stream hs hc hsync hspeak hlisten hslices hbound
  rw [History.taken, (Run.connInv hs hc).peerClosed]
  exact hstream.rcvNxt

variable {op : Op} {e : Event} (hevent : s.table.eventFor key op = some e)
  (hreceived : ∀ segment ∈ e.received, segment ∈ hy.emitted)

include hevent hreceived

theorem Link.streamStep :
    StreamStep hy.accepted (s.history key).delivered.length c e ((s.step op).table.find? key) := by
  obtain ⟨-, hstream⟩ := Link.stream hs hc hsync hspeak hlisten hslices hbound
  obtain ⟨u, hu, hsynced⟩ := hspeak.acked c rfl hsync
  obtain ⟨c', hc', hisn⟩ := hspeak.remote c rfl hsync
  have hkey := Traced.step_of_event hc hevent
  refine hstream.step hbound (Run.receiveInv hs hc) (receiveStep_of_keyStep hsynced hkey) ?_
  intro segment hmem hsyn
  rcases History.mem_emitted.1 (hreceived segment hmem) with hseq | hprobe
  · rw [hisn]
    exact .inl (hslices c' hc' segment hseq).carries
  · have hstale := (hlisten.heard c' hc').probes segment hprobe hsyn
    rw [History.taken, (Run.connInv hs hc).peerClosed, ← hisn] at hstale
    exact .inr hstale

omit hs hlisten hslices hbound in
theorem Link.speaks_synced (hc' : (s.step op).table.find? key = some c')
    (hown : ((s.history key).accepted ++ e.accepted).length < 2 ^ 30)
    (htaken : hy.taken ≤ (s.history key).accepted.length + 1) :
    Speaks (s.history key) hy (some c) (some c') cy e := by
  obtain ⟨u, hu, hsynced⟩ := hspeak.acked c rfl hsync
  have hkey := Traced.step_of_event hc hevent
  rw [hc'] at hkey
  have hcall := hsynced.step hkey
  obtain ⟨⟨u', ⟨-, hfrom⟩, hsynced'⟩, hisn, -⟩ := hcall.continues c' rfl
  have hprobe := hsynced.probes hkey
  have hflags : ∀ segment ∈ e.emitted, segment.flags.syn = false ∧ segment.flags.rst = false := by
    intro segment hmem
    rcases mem_append.1 hmem with hmem | hmem
    · exact ⟨(hcall.emitted segment hmem).syn, (hcall.emitted segment hmem).rst⟩
    · rw [(hprobe segment hmem).flags]
      exact ⟨rfl, rfl⟩
  refine ⟨?_, nofun, ?_, fun segment hmem => (hflags segment hmem).2, ?_, ?_, ?_, fun hnot => ?_⟩
  · rintro c'' ⟨rfl⟩
    exact ⟨c, rfl, hisn⟩
  · rintro c'' ⟨rfl⟩ segment hmem _
    have := hprobe segment hmem
    refine ⟨by rw [this.flags], u, by rw [this.sequenceNumber, hisn], ?_⟩
    have := this.payload
    omega
  · rintro c'' ⟨rfl⟩ segment hmem hsyn
    simp [(hflags segment hmem).1] at hsyn
  · rintro c'' ⟨rfl⟩ _
    refine ⟨u', ?_, hsynced'⟩
    rcases hfrom with rfl | ⟨segment, hmem, hsyn, hack⟩
    · exact hu
    · have hlen := hsynced'.send.acked
      rw [length_streamCells] at hlen
      rw [length_append] at hown hlen
      refine (hspeak.heard c rfl).ack_le (by omega) (hreceived segment hmem) hsyn hack ?_
      split_ifs at hlen <;> omega
  · rintro c'' ⟨rfl⟩ _
    obtain ⟨c₁, hc₁, hremote⟩ := hspeak.remote c rfl hsync
    exact ⟨c₁, hc₁, (receiveStep_of_keyStep hsynced hkey).remoteIsn.trans hremote⟩
  · have := hnot c' rfl
    simp [hsynced'.synchronized] at this

theorem Link.listens_synced (hc' : (s.step op).table.find? key = some c') :
    Link hy (s.history key ++ [e]) cy (some c') := by
  obtain ⟨u, -, hsynced⟩ := hspeak.acked c rfl hsync
  obtain ⟨c₁, hc₁, hremote⟩ := hspeak.remote c rfl hsync
  have hkey := Traced.step_of_event hc hevent
  have hstep := Link.streamStep hs hc hsync hspeak hlisten hslices hbound hevent hreceived
  rw [hc'] at hkey hstep
  have hcall := hsynced.step hkey
  have hisn := (receiveStep_of_keyStep hsynced hkey).remoteIsn
  have hbefore := Link.rcvNxt hs hc hsync hspeak hlisten hslices hbound
  have hafter : c'.rcvNxt = pos (c.remoteIsn + 1) (History.taken (s.history key ++ [e])) := by
    obtain ⟨isn, hconn, -⟩ := (Run.keyInv (.step s op hs trivial) key).conn
    have hcount := (hconn c' hc').peerClosed
    rw [Traced.history_of_event hc hevent] at hcount
    rw [(hstep.continues c' rfl).rcvNxt, hisn, History.taken, hcount, History.delivered_append,
      length_append]
    rfl
  rw [hremote] at hbefore hafter
  refine hlisten.listens hreceived ?_ (fun hnone => ?_) ?_
  · intro c₂ hc₂ segment hmem _
    rw [hc₁, Option.some.injEq] at hc₂
    rw [← hc₂]
    have hold : segment.acknowledgmentNumber = c.rcvNxt →
        ∃ j ≤ History.taken (s.history key ++ [e]),
          segment.acknowledgmentNumber = pos (c₁.localIsn + 1) j :=
      fun hack => ⟨_, History.taken_le _ e, hack.trans hbefore⟩
    rcases mem_append.1 hmem with hmem | hmem
    · rcases hcall.acks segment hmem with hack | hack
      · exact hold hack
      · exact ⟨_, le_refl _, (hack c' rfl).trans hafter⟩
    · exact hold (hsynced.probes hkey segment hmem).acknowledgmentNumber
  · simp [hc₁] at hnone
  · rintro c₂ ⟨rfl⟩
    exact ⟨c', rfl, (hcall.continues c' rfl).localIsn⟩

end Synchronized

/-! ## Any call that keeps the connection -/

/-- The caller at the listener's end has a prefix of what the speaker's table accepted, and all of it
    once it was told of the end. -/
structure StreamSafe (sent received : History) : Prop where
  delivered : received.delivered <+: sent.accepted
  closed : 0 < received.peerClosedCount → received.delivered = sent.accepted

theorem Run.slices (hs : Reachable s) (key : TcpConnectionKey) :
    ∀ c, s.table.find? key = some c → ∀ segment ∈ (s.history key).emittedInSequence,
      Slice (s.history key).accepted c.localIsn segment := by
  intro c hc
  obtain ⟨isn, hconn, hslices⟩ := (Run.keyInv hs key).conn
  rwa [(hconn c hc).localIsn]

section Kept

variable {s : Traced} (hs : Reachable s) {key : TcpConnectionKey} {hy : History}
  {cy : Option Connection}
  (hspeak : Link (s.history key) hy (s.table.find? key) cy)
  (hlisten : Link hy (s.history key) cy (s.table.find? key))
  (hslices : ∀ c', cy = some c' → ∀ segment ∈ hy.emittedInSequence,
    Slice hy.accepted c'.localIsn segment)
  (hbound : hy.accepted.length < 2 ^ 30)

include hs hspeak hlisten hslices hbound

theorem Link.safe : StreamSafe hy (s.history key) := by
  by_cases hsome : ∃ c, s.table.find? key = some c ∧ c.state.synchronized = true
  · obtain ⟨c, hc, hsync⟩ := hsome
    rw [hc] at hspeak hlisten
    obtain ⟨hdelivered, hstream⟩ := Link.stream hs hc hsync hspeak hlisten hslices hbound
    refine ⟨hdelivered, fun hclosed => hdelivered.eq_of_length (hstream.all ?_)⟩
    have hcount := (Run.connInv hs hc).peerClosed
    by_contra hnot
    rw [if_neg hnot] at hcount
    omega
  · obtain ⟨hdelivered, hclosed⟩ := hspeak.quiet fun c hc => by
      rw [Bool.eq_false_iff]
      exact fun hsync => hsome ⟨c, hc, hsync⟩
    refine ⟨?_, fun hpos => ?_⟩
    · rw [hdelivered]
      exact nil_prefix
    · simp [hclosed] at hpos

theorem Link.taken_le : (s.history key).taken ≤ hy.accepted.length + 1 := by
  have hlen := (Link.safe hs hspeak hlisten hslices hbound).delivered.length_le
  have honce := (Run.keyInv hs key).closedOnce
  rw [History.taken]
  omega

theorem Link.removed (hc : s.table.find? key = some c) (hevent : s.table.eventFor key op = some e)
    (hgone : (s.step op).table.find? key = none)
    (hreceived : ∀ segment ∈ e.received, segment ∈ hy.emitted) :
    ((s.step op).history key).accepted = (s.history key).accepted ∧
      StreamSafe hy ((s.step op).history key) := by
  have hsafe := Link.safe hs hspeak hlisten hslices hbound
  rw [hc] at hspeak hlisten
  have hkey := Traced.step_of_event hc hevent
  rw [hgone] at hkey
  rw [Traced.history_of_event hc hevent, History.accepted_append]
  have hlast : e.accepted = [] ∧ e.peerClosed = false ∧
      (s.history key).delivered ++ e.delivered <+: hy.accepted := by
    cases (Run.connInv hs hc).ok with
    | halfOpen hopen =>
      have hstep := hopen.step hkey
      rw [hstep.delivered, append_nil]
      exact ⟨hstep.accepted, hstep.peerClosed, hsafe.delivered⟩
    | synced u hsynced =>
      have hcall := hsynced.step hkey
      have hstep := Link.streamStep hs hc hsynced.synchronized hspeak hlisten hslices hbound
        hevent hreceived
      refine ⟨?_, ?_, prefix_append_drop hsafe.delivered hstep.delivered⟩
      · rcases hcall.removed rfl with ⟨_, _, rfl, -⟩ | ⟨_, rfl⟩ <;> rfl
      · rw [Bool.eq_false_iff]
        exact fun hclosed => absurd (hcall.closed hclosed).2 (by simp)
  obtain ⟨haccepted, hclosed, hdelivered⟩ := hlast
  refine ⟨by rw [haccepted, append_nil], ?_, fun hpos => ?_⟩
  · rwa [History.delivered_append]
  · rw [History.peerClosedCount_append, hclosed] at hpos
    have hall := hsafe.closed hpos
    rw [History.delivered_append]
    refine hdelivered.eq_of_length_le ?_
    rw [length_append, hall]
    exact Nat.le_add_right _ _

theorem Link.step_kept (hc : s.table.find? key = some c) (hevent : s.table.eventFor key op = some e)
    (hc' : (s.step op).table.find? key = some c')
    (hreceived : ∀ segment ∈ e.received, segment ∈ hy.emitted)
    (hown : ((s.step op).history key).accepted.length < 2 ^ 30)
    (htaken : hy.taken ≤ (s.history key).accepted.length + 1)
    (hremote : ∀ segment result, e = .handle segment result → c.state.synchronized = false →
      EstablishedBy c segment c' → ∃ c'', cy = some c'' ∧ c'.remoteIsn = c''.localIsn) :
    Link ((s.step op).history key) hy (some c') cy ∧
      Link hy ((s.step op).history key) cy (some c') := by
  rw [hc] at hspeak hlisten
  have hhist := Traced.history_of_event hc hevent
  have hkey := Traced.step_of_event hc hevent
  rw [hc'] at hkey
  rw [hhist] at hown ⊢
  cases (Run.connInv hs hc).ok with
  | halfOpen hopen haccepted =>
    have hstep := hopen.step hkey
    have hremote' : c'.state.synchronized = true →
        ∃ c'', cy = some c'' ∧ c'.remoteIsn = c''.localIsn := by
      intro hsync
      rcases hstep.same_view hopen with ⟨hnot, -⟩ | ⟨segment, result, heq, hest⟩
      · simp [hnot] at hsync
      · exact hremote segment result heq hopen.not_synchronized hest
    refine ⟨hspeak.speaks (hopen.speaks hstep haccepted hremote'), hlisten.listens hreceived
      (fun c₁ hc₁ => HalfOpen.acks hstep hremote' hc₁) (fun hnone segment hmem => ?_) ?_⟩
    · rcases hstep.mem_emitted hmem with hopens | ⟨c₂, hc₂, hfresh, -⟩
      · rw [hopens.flags]
      · cases hc₂
        obtain ⟨c'', hsome, -⟩ := hremote' hfresh.synchronized
        simp [hnone] at hsome
    · rintro c₂ ⟨rfl⟩
      exact ⟨c', rfl, hstep.localIsn⟩
  | synced u hsynced =>
    have hsync := hsynced.synchronized
    rw [History.accepted_append] at hown
    exact ⟨hspeak.speaks (Link.speaks_synced hc hsync hspeak hevent hreceived hc' hown htaken),
      Link.listens_synced hs hc hsync hspeak hlisten hslices hbound hevent hreceived hc'⟩

end Kept

end Wirestack
