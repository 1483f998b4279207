import Wirestack.Tcp.Emission
import Wirestack.Tcp.EndToEnd

set_option autoImplicit false

/-! # What the two ends agree on

The opener and the listener negotiate in separate code, from option bytes that each builds for itself
and rebuilds for every retransmission. `Agreement` is the invariant of the two-table system that ties
every SYN and SYN-ACK ever emitted to the connection it came from; it needs no bound on the streams.
`Duo.Run.moved` says once what a step of the pair can do to the connection at either end. -/

namespace Wirestack

open List TcpConnectionTable Connection

variable {d : Duo} {h : History} {segment : TcpSegment} {key : TcpConnectionKey}

/-! ## What a step of the pair does -/

/-- A call that finds the connection of `key` and leaves it in the table. -/
structure KeptCall (s s' : Traced) (key : TcpConnectionKey) (c : Connection) (e : Event)
    (c' : Connection) : Prop where
  found : s.table.find? key = some c
  found' : s'.table.find? key = some c'
  history : s'.history key = s.history key ++ [e]
  step : ConnStep (s.history key) c e c'
  call : CallKept key c e c'
  receive : c.state.synchronized = true → ReceiveStep c e (some c')

/-- A call about `key` at a table that has no such connection. -/
structure FirstCall (listenPort : UInt16) (s s' : Traced) (key : TcpConnectionKey) (e : Event) :
    Prop where
  absent : s.table.find? key = none
  history : s'.history key = extendHistory none (s'.table.find? key) (s.history key) (some e)
  step : KeyStep listenPort key none e (s'.table.find? key)

/-- The ways in which a step can concern the connection, as long as neither end removes it. -/
inductive Duo.Moved (key : TcpConnectionKey) (d d' : Duo) : Prop where
  | quiet : d'.active.history key = d.active.history key →
      d'.passive.history key.peer = d.passive.history key.peer →
      d'.active.table.find? key = d.active.table.find? key →
      d'.passive.table.find? key.peer = d.passive.table.find? key.peer → Duo.Moved key d d'
  | opens (listenPort : UInt16) (e : Event) : d'.passive = d.passive →
      FirstCall listenPort d.active d'.active key e →
      (∀ segment ∈ e.received, segment ∈ (d.passive.history key.peer).emitted) → Duo.Moved key d d'
  | active (a : Connection) (e : Event) (a' : Connection) : d'.passive = d.passive →
      KeptCall d.active d'.active key a e a' →
      (∀ segment ∈ e.received, segment ∈ (d.passive.history key.peer).emitted) → Duo.Moved key d d'
  | accepts (e : Event) : d'.active = d.active →
      FirstCall key.remotePort d.passive d'.passive key.peer e →
      (∀ result, e ≠ .beginConnect result) →
      (∀ segment ∈ e.received, segment ∈ (d.active.history key).emitted) → Duo.Moved key d d'
  | passive (b : Connection) (e : Event) (b' : Connection) : d'.active = d.active →
      KeptCall d.passive d'.passive key.peer b e b' →
      (∀ segment ∈ e.received, segment ∈ (d.active.history key).emitted) → Duo.Moved key d d'

section Moved

variable {key : TcpConnectionKey} {s : Traced} {op : Op} {e : Event}

theorem Traced.firstCall (hc : s.table.find? key = none)
    (hkey : KeyStep s.table.listenPort key (s.table.find? key) e ((s.step op).table.find? key))
    (hhist : (s.step op).history key = extendHistory (s.table.find? key)
      ((s.step op).table.find? key) (s.history key) (some e)) :
    FirstCall s.table.listenPort s (s.step op) key e := by
  rw [hc] at hkey hhist
  exact ⟨hc, hhist, hkey⟩

theorem Traced.keptCall (hs : Reachable s) {c c' : Connection} (hc : s.table.find? key = some c)
    (hc' : (s.step op).table.find? key = some c')
    (hkey : KeyStep s.table.listenPort key (s.table.find? key) e ((s.step op).table.find? key))
    (hhist : (s.step op).history key = extendHistory (s.table.find? key)
      ((s.step op).table.find? key) (s.history key) (some e)) :
    KeptCall s (s.step op) key c e c' := by
  have hok := (Run.connInv hs hc).ok
  rw [hc, hc'] at hkey hhist
  refine ⟨hc, hc', hhist, hok.step hkey, hkey.kept, fun hsync => ?_⟩
  obtain ⟨_, _, hsynced, -⟩ := (hok.step hkey).synchronized hsync
  exact receiveStep_of_keyStep hsynced hkey

theorem Duo.Run.moved {d' : Duo} (hrun : Duo.Run key d) (hstep : Duo.Step key d d')
    (hlive : d'.ended = false) : Duo.Moved key d d' := by
  obtain ⟨hs, ht⟩ := hrun.reachable
  cases hstep with
  | active op hgenuine =>
    rcases d.active.step_key key op with ⟨hsame, hhist⟩ | ⟨e, hevent, hkey, hhist⟩
    · exact .quiet hhist rfl hsame rfl
    · have hreceived := hgenuine.received hevent
      cases hc : d.active.table.find? key with
      | none => exact .opens _ e rfl (Traced.firstCall hc hkey hhist) hreceived
      | some a =>
        obtain ⟨a', ha'⟩ := Traced.find?_of_not_removes hlive hc
        exact .active a e a' rfl (Traced.keptCall hs hc ha' hkey hhist) hreceived
  | passive op hgenuine hop =>
    rcases d.passive.step_key key.peer op with ⟨hsame, hhist⟩ | ⟨e, hevent, hkey, hhist⟩
    · exact .quiet rfl hhist rfl hsame
    · have hreceived := hgenuine.received hevent
      cases hc : d.passive.table.find? key.peer with
      | none =>
        have hfirst := Traced.firstCall hc hkey hhist
        rw [hrun.listenPort] at hfirst
        refine .accepts e rfl hfirst ?_ hreceived
        rintro result rfl
        obtain ⟨now, rfl⟩ := op_of_beginConnect hevent
        exact hop now rfl
      | some b =>
        obtain ⟨b', hb'⟩ := Traced.find?_of_not_removes hlive hc
        exact .passive b e b' rfl (Traced.keptCall ht hc hb' hkey hhist) hreceived

end Moved

/-! ## The terms of a connection -/

/-- What the handshake settles about the peer. -/
structure Terms where
  remoteIsn : SeqNum
  windowScalingEnabled : Bool
  sackPermitted : Bool
  peerWindowScale : UInt8
  localWindowScale : UInt8
  effectiveSendMss : UInt16

def Connection.terms (c : Connection) : Terms :=
  { remoteIsn := c.remoteIsn
    windowScalingEnabled := c.windowScalingEnabled
    sackPermitted := c.sackPermitted
    peerWindowScale := c.peerWindowScale
    localWindowScale := c.localWindowScale
    effectiveSendMss := c.effectiveSendMss }

/-- The terms two stacks of this kind settle on when `isn` is the peer's initial number. -/
def commonTerms (isn : SeqNum) : Terms :=
  { remoteIsn := isn
    windowScalingEnabled := true
    sackPermitted := true
    peerWindowScale := kLocalWindowScaleShift
    localWindowScale := kLocalWindowScaleShift
    effectiveSendMss := 1460 }

section Terms

variable {key : TcpConnectionKey} {c c' : Connection} {e : Event} {isn : SeqNum}

theorem buildSynAckOptions_congr (h : c'.terms = c.terms) :
    buildSynAckOptions c' = buildSynAckOptions c := by
  have hsack : c'.sackPermitted = c.sackPermitted := congrArg Terms.sackPermitted h
  have hscale : c'.windowScalingEnabled = c.windowScalingEnabled :=
    congrArg Terms.windowScalingEnabled h
  have hshift : c'.localWindowScale = c.localWindowScale := congrArg Terms.localWindowScale h
  unfold buildSynAckOptions
  rw [hsack, hscale, hshift]

theorem buildSynAckOptions_of_common (h : c.terms = commonTerms isn) :
    buildSynAckOptions c = buildActiveSynOptions := by
  have hsack : c.sackPermitted = true := congrArg Terms.sackPermitted h
  have hscale : c.windowScalingEnabled = true := congrArg Terms.windowScalingEnabled h
  have hshift : c.localWindowScale = kLocalWindowScaleShift := congrArg Terms.localWindowScale h
  unfold buildSynAckOptions buildActiveSynOptions
  rw [hsack, hscale, hshift]
  rfl

/-- What those option bytes offer. -/
def synOffer : TcpParsedOptions :=
  { maximumSegmentSize := some (UInt16.ofNat kTcpMss)
    windowScale := some kLocalWindowScaleShift
    sackPermitted := true }

theorem parse_buildActiveSynOptions : parseTcpOptions buildActiveSynOptions = .ok synOffer := by
  decide

theorem acceptedWith_terms (segment : TcpSegment) (isn : SeqNum) (now : TimePoint) :
    (acceptedWith segment synOffer isn now).terms = commonTerms segment.sequenceNumber := by
  rfl

theorem establishedWith_terms (c : Connection) (segment : TcpSegment) (now : TimePoint) :
    (establishedWith c segment synOffer now).terms = commonTerms segment.sequenceNumber := by
  rw [establishedWith_shape]
  rfl

theorem CallKept.terms (h : CallKept key c e c') :
    (c'.terms = c.terms ∧ (c.state = .synSent → c'.state = .synSent)) ∨
    ∃ segment result options now, e = .handle segment result ∧ c.state = .synSent ∧
      segment.flags.syn = true ∧ parseTcpOptions segment.options = .ok options ∧
      c' = establishedWith c segment options now := by
  cases h with
  | idle => exact .inl ⟨rfl, id⟩
  | handle memory segment now _ result hkept =>
    cases hkept with
    | ignored reply => exact .inl ⟨rfl, id⟩
    | established options hstate hoptions hsyn =>
      exact .inr ⟨segment, _, options, now, rfl, hstate, hsyn, hoptions, rfl⟩
    | resent => exact .inl ⟨rfl, id⟩
    | completed hstate =>
      rw [completeHandshake_shape]
      exact .inl ⟨rfl, fun hsent => by rw [hsent] at hstate; cases hstate⟩
    | restarted => exact .inl ⟨rfl, id⟩
    | processed options outcome hsync _ _ hout =>
      rw [hout.shape, processAck_shape]
      exact .inl ⟨rfl, fun hsent => by rw [hsent] at hsync; cases hsync⟩
  | sent payload now hsendable =>
    rw [scheduleQueuedData_shape]
    exact .inl ⟨rfl, fun hsent => by simp [isSendable, hsent] at hsendable⟩
  | closed now hsendable =>
    obtain ⟨_, hclosed⟩ := closed_shape key c now
    rw [hclosed]
    exact .inl ⟨rfl, fun hsent => by simp [isSendable, hsent] at hsendable⟩
  | disarmed _ | probed _ _ _ _ _ => exact .inl ⟨rfl, id⟩
  | resent oldest rest now =>
    unfold timedOutWith
    split <;> exact .inl ⟨rfl, id⟩

theorem ConnStep.localIsn (hstep : ConnStep h c e c') : c'.localIsn = c.localIsn := by
  cases hstep with
  | halfOpen _ hstep => exact hstep.localIsn
  | synced _ _ hstep => exact (hstep.continues c' rfl).localIsn

end Terms

/-! ## The SYNs of one end -/

/-- A SYN that the connection can have emitted. -/
structure SynOf (c : Connection) (segment : TcpSegment) : Prop where
  sequenceNumber : segment.sequenceNumber = c.localIsn
  ack : segment.flags.ack = decide (c.state = .synReceived)
  options : segment.options =
    if c.state = .synSent then buildActiveSynOptions else buildSynAckOptions c

section Syns

variable {key : TcpConnectionKey} {c c' : Connection} {e : Event}

theorem ConnStep.syn_options (hstep : ConnStep h c e c') (hcall : CallKept key c e c')
    (hopen : HalfOpen c) (hmem : segment ∈ e.emitted) (hsyn : segment.flags.syn = true)
    (hack : segment.flags.ack = decide (c.state = .synReceived)) :
    segment.options = if c.state = .synSent then buildActiveSynOptions else buildSynAckOptions c := by
  cases hstep.emission hcall hmem with
  | activeSyn hflags _ hoptions =>
    rw [hflags] at hack
    have hstate := hopen.state.resolve_right (of_decide_eq_false hack.symm)
    rw [if_pos hstate, hoptions]
  | synAck left hleft hflags _ hoptions =>
    obtain ⟨_, hleft, -⟩ := hleft
    rw [hflags] at hack
    have hstate : c.state = .synReceived := of_decide_eq_true hack.symm
    rw [if_neg (by simp [hstate]), hoptions, hleft]
    obtain ⟨hterms, -⟩ | ⟨_, _, _, _, -, hsent, -⟩ := hcall.terms
    · exact buildSynAckOptions_congr hterms
    · simp [hstate] at hsent
  | pureAck _ _ _ hflags =>
    simp [hflags] at hsyn
  | plain hnot =>
    simp [hnot] at hsyn

theorem ConnStep.syn (hstep : ConnStep h c e c') (hcall : CallKept key c e c')
    (hmem : segment ∈ e.emitted) (hsyn : segment.flags.syn = true) :
    c.state.synchronized = false ∧ SynOf c segment := by
  have hwhole := hstep
  cases hstep with
  | halfOpen hopen hstep =>
    refine ⟨hopen.not_synchronized, ?_⟩
    rcases hstep.mem_emitted hmem with hopens | ⟨_, -, -, hack⟩
    · have hack : segment.flags.ack = decide (c.state = .synReceived) := by rw [hopens.flags]
      exact ⟨hopens.sequenceNumber, hack, hwhole.syn_options hcall hopen hmem hsyn hack⟩
    · simp [hack.flags] at hsyn
  | synced u hsynced hstep =>
    exfalso
    rcases mem_append.1 hmem with hmem | hmem
    · simp [(hstep.emitted segment hmem).syn] at hsyn
    · cases hcall with
      | probed =>
        have hprobe : segment = persistProbe key c := by simpa [Event.probes] using hmem
        rw [hprobe] at hsyn
        cases hsyn
      | idle _ hemitted =>
        rw [Event.emitted, append_eq_nil_iff] at hemitted
        simp [hemitted.2] at hmem
      | _ => cases hmem

theorem ConnStep.emits_syn (hstep : ConnStep h c e c') (hstate : c'.state = .synSent)
    (hmem : segment ∈ e.emitted) : segment.flags.syn = true := by
  have hnot : c'.state.synchronized = false := by
    rw [hstate]
    rfl
  cases hstep with
  | halfOpen hopen hstep =>
    rcases hstep.mem_emitted hmem with hopens | ⟨_, ⟨rfl⟩, hfresh, -⟩
    · rw [hopens.flags]
    · simp [hfresh.synchronized] at hnot
  | synced u _ hstep =>
    obtain ⟨_, -, hsynced⟩ := (hstep.continues c' rfl).synced
    simp [hsynced.synchronized] at hnot

theorem ConnStep.leaves_synReceived (hstep : ConnStep h c e c') (hstate : c.state = .synReceived) :
    c'.state = .synReceived ∨ c'.state.synchronized = true ∧
      ∃ segment ∈ e.received, segment.flags.syn = false := by
  have hopen : HalfOpen c := .inr (hstep.synReceivedOk hstate)
  cases hstep with
  | halfOpen _ hstep =>
    rcases hstep.same_view hopen with ⟨-, hview⟩ | ⟨segment, result, rfl, hest⟩
    · exact .inl ((congrArg (·.control.state) hview).trans hstate)
    · exact .inr ⟨hest.fresh.synchronized, segment, mem_singleton_self _, (hest.passive hstate).1⟩
  | synced u hsynced =>
    have := hsynced.synchronized
    simp [hopen.not_synchronized] at this

end Syns

/-! ## The agreement -/

/-- What ties the two ends together: who exists, what each has learned about the other, and what every
    SYN and SYN-ACK ever emitted says. -/
structure Agreement (ha hb : History) (ca cb : Option Connection) : Prop where
  unopened : ca = none → ha.emitted = [] ∧ cb = none
  unaccepted : cb = none → hb.emitted = []
  opener : ∀ a, ca = some a →
    a.state = .synSent ∧ (∀ segment ∈ ha.emitted, segment.flags.syn = true) ∨
    a.state.synchronized = true ∧ ∃ b, cb = some b ∧ a.terms = commonTerms b.localIsn
  listener : ∀ b, cb = some b → ∃ a, ca = some a ∧ b.terms = commonTerms a.localIsn ∧
    (b.state = .synReceived ∨ b.state.synchronized = true ∧ a.state.synchronized = true)
  syns : ∀ a, ca = some a → ∀ segment ∈ ha.emitted, segment.flags.syn = true →
    segment.sequenceNumber = a.localIsn ∧ segment.flags.ack = false ∧
      segment.options = buildActiveSynOptions
  synAcks : ∀ b, cb = some b → ∀ segment ∈ hb.emitted, segment.flags.syn = true →
    segment.sequenceNumber = b.localIsn ∧ segment.options = buildActiveSynOptions

theorem Agreement.start : Agreement [] [] none none where
  unopened := fun _ => ⟨rfl, rfl⟩
  unaccepted := fun _ => rfl
  opener := fun a h => absurd h (by simp)
  listener := fun b h => absurd h (by simp)
  syns := fun a h => absurd h (by simp)
  synAcks := fun b h => absurd h (by simp)

section Agreement

variable {ha hb h₀ : History} {ca cb after : Option Connection} {a a' b b' : Connection} {e : Event}
  {key : TcpConnectionKey} {listenPort : UInt16}

theorem Agreement.active_absent (h : Agreement ha hb none cb)
    (hkey : KeyStep listenPort key none e after)
    (hreceived : ∀ segment ∈ e.received, segment ∈ hb.emitted) :
    Agreement (extendHistory none after ha (some e)) hb after cb := by
  obtain ⟨hsilent, rfl⟩ := h.unopened rfl
  have hnothing : ∀ segment, segment ∉ e.received := by
    intro segment hmem
    have := hreceived segment hmem
    simp [h.unaccepted rfl] at this
  cases hkey with
  | refused _ href =>
    have hemitted := href.silent fun segment hmem => absurd hmem (hnothing segment)
    rw [extendHistory_none]
    refine { h with unopened := fun _ => ⟨?_, rfl⟩, opener := ?_, syns := ?_ }
    · rw [History.emitted_append, hsilent, hemitted, append_nil]
    · exact fun a hnone => absurd hnone (by simp)
    · exact fun a hnone => absurd hnone (by simp)
  | connect isn now =>
    rw [extendHistory_new]
    refine { h with
      unopened := nofun, opener := ?_, listener := ?_, syns := ?_ }
    · rintro a ⟨rfl⟩
      refine .inl ⟨rfl, fun segment hmem => ?_⟩
      rw [History.emitted_singleton] at hmem
      rw [Event.eq_of_mem_emitted_connect hmem]
      rfl
    · exact fun b hnone => absurd hnone (by simp)
    · rintro a ⟨rfl⟩ segment hmem -
      rw [History.emitted_singleton] at hmem
      rw [Event.eq_of_mem_emitted_connect hmem]
      exact ⟨rfl, rfl, rfl⟩
  | accept segment options isn now => exact absurd (mem_singleton_self _) (hnothing segment)

theorem Agreement.passive_absent (h : Agreement ha hb ca none) (hport : key.localPort = listenPort)
    (hkey : KeyStep listenPort key none e after) (hconnect : ∀ result, e ≠ .beginConnect result)
    (hreceived : ∀ segment ∈ e.received, segment ∈ ha.emitted) :
    Agreement ha (extendHistory none after hb (some e)) ca after := by
  -- With no connection here, the opener cannot have left SYN-SENT.
  have hsyns : ∀ segment ∈ ha.emitted, segment.flags.syn = true ∧ ∃ a, ca = some a ∧
      segment.sequenceNumber = a.localIsn ∧ segment.flags.ack = false ∧
      segment.options = buildActiveSynOptions := by
    intro segment hmem
    cases ca with
    | none =>
      simp [(h.unopened rfl).1] at hmem
    | some a =>
      rcases h.opener a rfl with ⟨-, hall⟩ | ⟨-, b, hb, -⟩
      · exact ⟨hall segment hmem, a, rfl, h.syns a rfl segment hmem (hall segment hmem)⟩
      · cases hb
  cases hkey with
  | refused _ href =>
    have hemitted : e.emitted = [] := by
      refine href.silent fun segment hmem => ?_
      obtain ⟨hsyn, _, -, -, hack, -⟩ := hsyns segment (hreceived segment hmem)
      exact ⟨hport, hsyn, by simp [hack]⟩
    rw [extendHistory_none]
    refine { h with unaccepted := fun _ => ?_, synAcks := fun b hnone => absurd hnone (by simp) }
    rw [History.emitted_append, h.unaccepted rfl, hemitted, append_nil]
  | connect isn now => exact absurd rfl (hconnect _)
  | accept segment options isn now _ _ _ hoptions =>
    obtain ⟨-, a, rfl, hseq, -, hoffer⟩ :=
      hsyns segment (hreceived segment (by simp [Event.received]))
    rw [hoffer, parse_buildActiveSynOptions] at hoptions
    obtain rfl : synOffer = options := Except.ok.inj hoptions
    have hterms : (acceptedWith segment synOffer isn now).terms = commonTerms a.localIsn := by
      rw [acceptedWith_terms, hseq]
    rw [extendHistory_new]
    refine { h with
      unopened := by simp
      unaccepted := by simp
      opener := ?_, listener := ?_, synAcks := ?_ }
    · rintro a' ⟨rfl⟩
      rcases h.opener a rfl with hsent | ⟨-, b, hb, -⟩
      · exact .inl hsent
      · cases hb
    · rintro b ⟨rfl⟩
      exact ⟨a, rfl, hterms, .inl rfl⟩
    · rintro b ⟨rfl⟩ sent hmem -
      have hsent : sent = makeSynAck key (passiveConnection segment synOffer isn) := by
        simpa [History.emitted_singleton, Event.emitted, Event.emittedInSequence, Event.probes]
          using hmem
      rw [hsent]
      exact ⟨rfl, rfl⟩

theorem Agreement.active_kept (h : Agreement ha hb (some a) cb) (hstep : ConnStep h₀ a e a')
    (hcall : CallKept key a e a') (hreceived : ∀ segment ∈ e.received, segment ∈ hb.emitted) :
    Agreement (ha ++ [e]) hb (some a') cb := by
  have hisn := hstep.localIsn
  refine { h with
    unopened := nofun, opener := ?_, listener := ?_, syns := ?_ }
  · rintro _ ⟨rfl⟩
    rcases h.opener a rfl with ⟨hstate, hall⟩ | ⟨hsync, b, hb, hterms⟩
    · rcases hcall.terms with ⟨-, hkeeps⟩ | ⟨segment, _, _, _, rfl, -, hsyn, hoptions, rfl⟩
      · refine .inl ⟨hkeeps hstate, fun segment hmem => ?_⟩
        rw [History.emitted_append, mem_append] at hmem
        exact hmem.elim (hall segment) (hstep.emits_syn (hkeeps hstate))
      · -- The SYN-ACK names the listener's number and carries the common offer.
        have hmem := hreceived segment (by simp [Event.received])
        cases cb with
        | none =>
          simp [h.unaccepted rfl] at hmem
        | some b =>
          obtain ⟨hseq, hoffer⟩ := h.synAcks b rfl segment hmem hsyn
          rw [hoffer, parse_buildActiveSynOptions] at hoptions
          obtain rfl := Except.ok.inj hoptions
          refine .inr ⟨?_, b, rfl, by rw [establishedWith_terms, hseq]⟩
          rw [establishedWith_shape]
          rfl
    · obtain ⟨_, _, -, hsynced⟩ := hstep.synchronized hsync
      refine .inr ⟨hsynced.synchronized, b, hb, ?_⟩
      rcases hcall.terms with ⟨hsame, -⟩ | ⟨_, _, _, _, -, hstate, -⟩
      · rw [hsame, hterms]
      · rw [hstate] at hsync
        cases hsync
  · intro b hb
    obtain ⟨_, ⟨rfl⟩, hterms, hstate⟩ := h.listener b hb
    refine ⟨a', rfl, by rw [hisn, hterms], hstate.imp_right fun hsync => ⟨hsync.1, ?_⟩⟩
    obtain ⟨_, _, -, hsynced⟩ := hstep.synchronized hsync.2
    exact hsynced.synchronized
  · rintro _ ⟨rfl⟩ segment hmem hsyn
    rw [hisn]
    rw [History.emitted_append, mem_append] at hmem
    rcases hmem with hmem | hmem
    · exact h.syns a rfl segment hmem hsyn
    · obtain ⟨hopen, hof⟩ := hstep.syn hcall hmem hsyn
      rcases h.opener a rfl with ⟨hstate, -⟩ | ⟨hsync, -⟩
      · refine ⟨hof.sequenceNumber, ?_, ?_⟩
        · rw [hof.ack, hstate]
          rfl
        · rw [hof.options, if_pos hstate]
      · simp [hsync] at hopen

theorem Agreement.passive_kept (h : Agreement ha hb ca (some b)) (hstep : ConnStep h₀ b e b')
    (hcall : CallKept key b e b') (hreceived : ∀ segment ∈ e.received, segment ∈ ha.emitted) :
    Agreement ha (hb ++ [e]) ca (some b') := by
  obtain ⟨a, rfl, hterms, hstate⟩ := h.listener b rfl
  have hisn := hstep.localIsn
  have hnot : b.state ≠ .synSent := by
    rcases hstate with hstate | ⟨hsync, -⟩
    · simp [hstate]
    · intro hsent
      rw [hsent] at hsync
      cases hsync
  have hterms' : b'.terms = commonTerms a.localIsn := by
    rcases hcall.terms with ⟨hsame, -⟩ | ⟨_, _, _, _, -, hsent, -⟩
    · rw [hsame, hterms]
    · exact absurd hsent hnot
  refine { h with
    unopened := nofun
    unaccepted := nofun
    opener := ?_, listener := ?_, synAcks := ?_ }
  · rintro _ ⟨rfl⟩
    refine (h.opener a rfl).imp_right ?_
    rintro ⟨hsync, _, ⟨rfl⟩, hopener⟩
    exact ⟨hsync, b', rfl, by rw [hisn, hopener]⟩
  · rintro _ ⟨rfl⟩
    refine ⟨a, rfl, hterms', ?_⟩
    rcases hstate with hstate | ⟨hsync, hactive⟩
    · refine (hstep.leaves_synReceived hstate).imp_right ?_
      rintro ⟨hsync, segment, hmem, hsyn⟩
      refine ⟨hsync, ?_⟩
      rcases h.opener a rfl with ⟨-, hall⟩ | ⟨hactive, -⟩
      · simp [hall segment (hreceived segment hmem)] at hsyn
      · exact hactive
    · obtain ⟨_, _, -, hsynced⟩ := hstep.synchronized hsync
      exact .inr ⟨hsynced.synchronized, hactive⟩
  · rintro _ ⟨rfl⟩ segment hmem hsyn
    rw [hisn]
    rw [History.emitted_append, mem_append] at hmem
    rcases hmem with hmem | hmem
    · exact h.synAcks b rfl segment hmem hsyn
    · obtain ⟨-, hof⟩ := hstep.syn hcall hmem hsyn
      refine ⟨hof.sequenceNumber, ?_⟩
      rw [hof.options, if_neg hnot, buildSynAckOptions_of_common hterms]

end Agreement

theorem Duo.Run.agreement (h : Duo.Run key d) (hlive : d.ended = false) :
    Agreement (d.active.history key) (d.passive.history key.peer) (d.active.table.find? key)
      (d.passive.table.find? key.peer) := by
  induction h with
  | start opener listener ha hb =>
    rw [find?_empty ha, find?_empty hb]
    exact .start
  | step d d' hrun hbefore hstep ih =>
    have ih := ih hbefore
    cases hrun.moved hstep hlive with
    | quiet hha hhb hca hcb => rwa [hha, hhb, hca, hcb]
    | opens listenPort e hpassive hfirst hreceived =>
      rw [hfirst.absent] at ih
      rw [hpassive, hfirst.history]
      exact ih.active_absent hfirst.step hreceived
    | active a e a' hpassive hkept hreceived =>
      rw [hkept.found] at ih
      rw [hpassive, hkept.history, hkept.found']
      exact ih.active_kept hkept.step hkept.call hreceived
    | accepts e hactive hfirst hconnect hreceived =>
      rw [hfirst.absent] at ih
      rw [hactive, hfirst.history]
      have hport : key.peer.localPort = key.remotePort := rfl
      exact ih.passive_absent hport hfirst.step hconnect hreceived
    | passive b e b' hactive hkept hreceived =>
      rw [hkept.found] at ih
      rw [hactive, hkept.history, hkept.found']
      exact ih.passive_kept hkept.step hkept.call hreceived

theorem Duo.Run.ended_absent (h : Duo.Run key d) (hended : d.ended = true) :
    d.active.table.find? key = none ∨ d.passive.table.find? key.peer = none := by
  obtain ⟨d₀, -, -, hstep⟩ := h.last hended
  cases hstep with
  | active op =>
    obtain ⟨_, _, -, hgone, -⟩ := Traced.of_removes hended
    exact .inl hgone
  | passive op =>
    obtain ⟨_, _, -, hgone, -⟩ := Traced.of_removes hended
    exact .inr hgone

/-- **Handshake agreement.** As soon as the opener has left SYN-SENT, each end knows the other's
    initial number, and both have enabled the same options with the same limits; and the listener
    leaves SYN-RECEIVED only once the opener has left SYN-SENT. -/
theorem handshake_agreement {key : TcpConnectionKey} {d : Duo} (h : Duo.Run key d) {b : Connection}
    (hb : d.passive.table.find? key.peer = some b) :
    (∀ a, d.active.table.find? key = some a → a.state ≠ .synSent →
      a.remoteIsn = b.localIsn ∧ b.remoteIsn = a.localIsn ∧
      a.windowScalingEnabled = true ∧ b.windowScalingEnabled = true ∧
      a.sackPermitted = true ∧ b.sackPermitted = true ∧
      a.peerWindowScale = b.localWindowScale ∧ b.peerWindowScale = a.localWindowScale ∧
      a.effectiveSendMss = b.effectiveSendMss) ∧
    (b.state ≠ .synReceived → (∀ a, d.active.table.find? key = some a → a.state ≠ .synSent) ∧
      (d.ended = false → (d.active.table.find? key).isSome = true)) := by
  cases hended : d.ended with
  | true =>
      -- The listener still has the connection, so it was the opener that lost it.
      have hgone : d.active.table.find? key = none := by
        refine (h.ended_absent hended).resolve_right fun hnone => ?_
        simp [hb] at hnone
      simp [hgone]
  | false =>
      have hagree := h.agreement hended
      obtain ⟨a, ha, hb_terms, hstate⟩ := hagree.listener b hb
      rw [ha]
      refine ⟨?_, fun hleft => ⟨?_, fun _ => rfl⟩⟩
      · rintro _ ⟨rfl⟩ hleft
        rcases hagree.opener a ha with ⟨hsent, -⟩ | ⟨-, b', hb', ha_terms⟩
        · exact absurd hsent hleft
        · obtain rfl : b = b' := Option.some.inj (hb.symm.trans hb')
          simp only [terms, commonTerms, Terms.mk.injEq] at ha_terms hb_terms
          obtain ⟨ha₁, ha₂, ha₃, ha₄, ha₅, ha₆⟩ := ha_terms
          obtain ⟨hb₁, hb₂, hb₃, hb₄, hb₅, hb₆⟩ := hb_terms
          exact ⟨ha₁, hb₁, ha₂, hb₂, ha₃, hb₃, ha₄.trans hb₅.symm, hb₄.trans ha₅.symm,
            ha₆.trans hb₆.symm⟩
      · rintro _ ⟨rfl⟩ hsent
        rcases hstate with hstate | ⟨-, hactive⟩
        · exact hleft hstate
        · rw [hsent] at hactive
          cases hactive

/-- A duplicate SYN and a duplicate SYN-ACK on the way, and both ends are established. -/
theorem handshake_agreement_example :
    ∃ d a b, Duo.Run exampleKey d ∧ d.active.table.find? exampleKey = some a ∧
      d.passive.table.find? exampleKey.peer = some b ∧ a.state = .established ∧
      b.state = .established ∧ a.remoteIsn = b.localIsn ∧ b.remoteIsn = a.localIsn ∧
      a.effectiveSendMss = b.effectiveSendMss := by
  have hopened : (performDuo exampleKey [.toPassive 0, .toActive 0, .toActive 1, .toPassive 1]
      exampleConnected exampleAccepted).map (fun p => (p.1.2.state, p.2.2.state)) =
      some (.established, .established) := by decide +kernel
  obtain ⟨d, a, b, hrun, -, ha, hb, hstates⟩ := exampleDuo_at hopened
  obtain ⟨hastate, hbstate⟩ := Prod.mk.inj hstates
  obtain ⟨hremote, hremote', -, -, -, -, -, -, hmss⟩ :=
    (handshake_agreement hrun hb).1 a ha (by rw [hastate]; decide)
  exact ⟨d, a, b, hrun, ha, hb, hastate, hbstate, hremote, hremote', hmss⟩

end Wirestack
