import Wirestack.Tcp.Agreement
import Wirestack.Tcp.Emission
import Wirestack.Tcp.Entries
import Wirestack.Wire.RoundTrip

set_option autoImplicit false

/-! # Everything emitted can be sent and read back

The kinds of `Emission` are taken to the wire. The option builders pad to a 4-byte boundary and stay
within the 40 bytes of a header, and the option parser reads back what each of them was given; a
payload stays within the MSS because new data is cut to it and because queue entries, which
retransmissions repeat, never grow (`Run.entriesFit`). -/

namespace Wirestack

open List TcpConnectionTable Connection Option PendingTransmission

variable {s : Traced} {t : TcpConnectionTable} {op : Op} {received : TcpSegment} {memory : ℕ → Byte}
  {options : TcpParsedOptions} {now : TimePoint}

variable {c : Connection} {key : TcpConnectionKey} {e : Event} {segment : TcpSegment}

/-! ## Options -/

/-- What the options of a SYN-ACK offer. -/
def synAckOffer (c : Connection) : TcpParsedOptions :=
  { maximumSegmentSize := some (UInt16.ofNat kTcpMss)
    windowScale := if c.windowScalingEnabled then some c.localWindowScale else none
    sackPermitted := c.sackPermitted }

def mssItem : TcpOptionItem :=
  .option ⟨kOptionKindMss, [UInt8.ofNat (kTcpMss >>> 8), UInt8.ofNat (kTcpMss &&& 0xff)],
    by decide, by decide, by decide⟩

def sackPermittedItem : TcpOptionItem :=
  .option ⟨kOptionKindSackPermitted, [], by decide, by decide, by decide⟩

def windowScaleItem (shift : Byte) : TcpOptionItem :=
  .option ⟨kOptionKindWindowScale, [shift], by decide, by decide, by simp⟩

/-- The items that `buildSynAckOptions` writes. -/
def synAckItems (c : Connection) : List TcpOptionItem :=
  ([] ++ [mssItem]) ++ (if c.sackPermitted then [sackPermittedItem] else []) ++
    if c.windowScalingEnabled then [.noOperation, windowScaleItem c.localWindowScale] else []

theorem synAckItems_legal (c : Connection) : Legal (synAckItems c) := by
  have hmss : Legal ([] ++ [mssItem]) :=
    legal_snoc_option.2 ⟨legal_nil, ⟨rfl, by decide⟩, fun _ => rfl⟩
  have hboth : Legal ([] ++ [mssItem] ++ [sackPermittedItem]) :=
    legal_snoc_option.2 ⟨hmss, rfl, fun _ => rfl⟩
  have hscale : ∀ items, Legal items → valuesOf kOptionKindWindowScale items = [] →
      Legal (items ++ [.noOperation] ++ [windowScaleItem c.localWindowScale]) := by
    intro items hitems hnone
    refine legal_snoc_option.2 ⟨legal_snoc_noOperation.2 hitems, rfl, fun _ => ?_⟩
    rwa [valuesOf_snoc_noOperation]
  unfold synAckItems
  cases c.sackPermitted with
  | false =>
    cases c.windowScalingEnabled with
    | false => exact hmss
    | true => exact hscale _ hmss rfl
  | true =>
    cases c.windowScalingEnabled with
    | false => exact hboth
    | true => exact hscale _ hboth rfl

theorem parse_buildSynAckOptions (c : Connection) :
    parseTcpOptions (buildSynAckOptions c) = .ok (synAckOffer c) := by
  have hbytes : buildSynAckOptions c = padOptions ((synAckItems c).flatMap TcpOptionItem.bytes) := by
    unfold buildSynAckOptions synAckItems
    cases c.sackPermitted <;> cases c.windowScalingEnabled <;> rfl
  have hmeaning : synAckOffer c = optionsOf (synAckItems c) := by
    unfold synAckOffer synAckItems
    cases c.sackPermitted <;> cases c.windowScalingEnabled <;> rfl
  rw [hbytes, hmeaning]
  exact parse_padOptions (synAckItems_legal c)

/-- Option bytes as a header can hold them. -/
structure OptionsFit (options : List Byte) : Prop where
  aligned : options.length % 4 = 0
  short : options.length ≤ kMaxTcpOptionsLength

theorem OptionsFit.nil : OptionsFit [] := ⟨rfl, Nat.zero_le _⟩

theorem padOptions_fit {out : List Byte} (h : out.length ≤ 37) : OptionsFit (padOptions out) := by
  have hlength : (padOptions out).length = out.length + (4 - out.length % 4) % 4 := by
    rw [padOptions, length_append, length_replicate]
  have hmax : kMaxTcpOptionsLength = 40 := rfl
  exact ⟨by omega, by omega⟩

theorem buildSynAckOptions_fit (c : Connection) : OptionsFit (buildSynAckOptions c) := by
  refine padOptions_fit ?_
  cases c.sackPermitted <;> cases c.windowScalingEnabled <;> simp [mssOption]

theorem buildSackOptions_fit {blocks : List TcpSackBlock} (h : blocks.length ≤ 4) :
    OptionsFit (buildSackOptions blocks) := by
  unfold buildSackOptions
  split
  · exact .nil
  · refine padOptions_fit ?_
    have hsize := length_flatMap_bytes blocks
    change (blocks.flatMap fun b => bigEndian32 b.leftEdge ++ bigEndian32 b.rightEdge).length = _
      at hsize
    rw [length_append, hsize, length_cons, length_singleton]
    omega

/-! ## Payloads -/

def Connection.EntriesFit (c : Connection) : Prop := ∀ e ∈ c.pending, e.payload.length ≤ kTcpMss

namespace Connection.EntriesFit

variable {c c' : Connection}

theorem iff_queue : c.EntriesFit ↔ ∀ o ∈ c.view.send.queue, o.payload.length ≤ kTcpMss :=
  (forall_mem_map (f := outstanding) (P := fun o : Outstanding => o.payload.length ≤ kTcpMss)).symm

theorem of_queue (h : c.EntriesFit) (hqueue : c'.view.send.queue = c.view.send.queue) :
    c'.EntriesFit := by
  rw [iff_queue, hqueue]
  exact iff_queue.1 h

theorem of_pending (h : c.EntriesFit) (hpending : c'.pending = c.pending ∨ c'.pending = []) :
    c'.EntriesFit := by
  intro e he
  rcases hpending with hpending | hpending
  · rw [hpending] at he
    exact h e he
  · simp [hpending] at he

theorem append (h : c.EntriesFit) {new : List PendingTransmission}
    (hpending : c'.pending = c.pending ++ new) (hnew : ∀ e ∈ new, e.payload.length ≤ kTcpMss) :
    c'.EntriesFit := by
  intro e he
  rw [hpending] at he
  exact (mem_append.1 he).elim (h e) (hnew e)

theorem processAck (h : c.EntriesFit) (key : TcpConnectionKey) (segment : TcpSegment)
    (options : TcpParsedOptions) (now : TimePoint) :
    (processAck key c segment options now).1.EntriesFit := by
  rw [iff_queue, (processAck_spec key c segment options now).1]
  intro o ho
  obtain ⟨o', ho', hle⟩ := mem_retire ho
  exact hle.trans (iff_queue.1 h o' ho')

theorem sendQueued (h : c.EntriesFit) (hpos : 0 < c.effectiveSendMss.toNat)
    (hmss : c.effectiveSendMss.toNat ≤ kTcpMss) (key : TcpConnectionKey) (now : TimePoint) :
    (sendQueued key c now).1.EntriesFit := by
  unfold Wirestack.sendQueued
  dsimp only
  split_ifs
  · refine h.append rfl fun e he => ?_
    obtain ⟨segment, hsegment, rfl⟩ := mem_map.1 he
    exact (cutSegments_size hpos hsegment).2.2.trans hmss
  · exact h

theorem maybeSequenceFin (h : c.EntriesFit) (key : TcpConnectionKey) (now : TimePoint)
    (segments : List TcpSegment) : (maybeSequenceFin key c now segments).1.EntriesFit := by
  rcases maybeSequenceFin_cases key c now segments with heq | ⟨-, -, -, entry, hentry, heq⟩
  · rwa [heq]
  · rw [heq]
    refine h.append rfl fun e he => ?_
    rw [mem_singleton.1 he, show entry.payload = [] from congrArg Outstanding.payload hentry]
    exact Nat.zero_le _

theorem scheduleQueuedData (h : c.EntriesFit) (hpos : 0 < c.effectiveSendMss.toNat)
    (hmss : c.effectiveSendMss.toNat ≤ kTcpMss) (key : TcpConnectionKey) (now : TimePoint) :
    (scheduleQueuedData key c now).1.EntriesFit := by
  have hsent := h.sendQueued hpos hmss key now
  rw [scheduleQueuedData_eq]
  exact (hsent.maybeSequenceFin key now _).of_pending (.inl (updatePersistState_pending _ now))

theorem scheduleIfSendable (h : c.EntriesFit) (hpos : 0 < c.effectiveSendMss.toNat)
    (hmss : c.effectiveSendMss.toNat ≤ kTcpMss) (key : TcpConnectionKey) (now : TimePoint) :
    (scheduleIfSendable key c now).1.EntriesFit := by
  unfold Wirestack.scheduleIfSendable
  split
  · exact h.scheduleQueuedData hpos hmss key now
  · exact h.of_pending (.inl (updatePersistState_pending _ now))

end Connection.EntriesFit

theorem HalfOpen.entriesFit (h : HalfOpen c) : c.EntriesFit := by
  obtain ⟨entry, hpending, hout⟩ := h.pending_eq
  intro e he
  rw [hpending] at he
  rw [mem_singleton.1 he, show entry.payload = [] from congrArg Outstanding.payload hout]
  exact Nat.zero_le _

theorem ConnStep.entriesFit {h : History} {c' : Connection} (hstep : ConnStep h c e c')
    (hcall : CallKept key c e c')
    (hmss : c.state.synchronized = true → c.effectiveSendMss.toNat ≤ kTcpMss) (hfit : c.EntriesFit) :
    c'.EntriesFit := by
  cases hstep with
  | halfOpen hopen hstep =>
    rcases hstep.same_view hopen with ⟨-, hview⟩ | ⟨_, _, -, hestablished⟩
    · exact (hopen.of_view hview).entriesFit
    · exact hfit.of_pending (.inr hestablished.fresh.pending)
  | synced u hsynced hstep =>
    have hpos := hsynced.send.mss
    have hmss := hmss hsynced.synchronized
    cases hcall with
    | idle => exact hfit
    | handle memory segment now _ result hkept =>
      cases hkept with
      | ignored => exact hfit
      | established _ hstate _ _ _ _ | resent hstate _ _ _ | completed hstate _ _ _ _ =>
        have hsync := hsynced.synchronized
        rw [hstate] at hsync
        cases hsync
      | restarted => exact hfit
      | processed options outcome _ _ _ hout =>
        have hack := hfit.processAck key segment options now
        have hclose := hack.of_pending (advanceClose_pending_cases _ now)
        have hpart := hclose.of_pending (receivePart_pending_cases memory _ segment now)
        obtain ⟨-, hsame⟩ := receivePart_afterAck memory key c segment options now
        rw [hout.connection]
        exact hpart.scheduleIfSendable (by rw [afterAck] at hsame; rw [hsame]; exact hpos)
          (by rw [afterAck] at hsame; rw [hsame]; exact hmss) key now
    | sent payload now =>
      have hfit : EntriesFit { c with unsent := c.unsent ++ payload } := hfit
      exact hfit.scheduleQueuedData hpos hmss key now
    | closed now =>
      have hfit : EntriesFit { c with closeRequested := true } := hfit
      exact (hfit.maybeSequenceFin key now []).of_pending (.inl (updatePersistState_pending _ now))
    | disarmed _ | probed _ _ _ _ _ => exact hfit
    | resent oldest rest now =>
      have hcollapse : (c.timedOutWith oldest).view = c.view := by
        unfold timedOutWith
        split
        · exact applyTimeoutCongestionCollapse_view c
        · rfl
      have hmap : ∀ pending : List PendingTransmission,
          (pending.modifyHead (·.backOff now)).map outstanding = pending.map outstanding :=
        map_modifyHead_unchanged fun _ => rfl
      refine hfit.of_queue ((hmap _).trans ?_)
      exact congrArg (·.send.queue) hcollapse

theorem Run.entriesFit {ok : Traced → Op → Prop} (hs : Run ok s) (hc : s.table.find? key = some c) :
    c.EntriesFit := by
  refine Run.connection_invariant EntriesFit ?_ ?_ ?_ hs hc
  · exact fun isn now => HalfOpen.entriesFit (.inl (connectedWith_ok isn now))
  · intro segment options isn now hoptions
    exact HalfOpen.entriesFit (.inr (acceptedWith_ok segment isn now hoptions))
  · intro s c e c' hrun hfound hstep hcall hfit
    refine hstep.entriesFit hcall (fun hsync => ?_) hfit
    refine (hrun.congestionOk hfound fun hsent => ?_).mss_le
    rw [hsent] at hsync
    cases hsync

/-! ## On the wire -/

/-- What the options of a segment should say: the offer on a SYN, what was negotiated on a SYN-ACK,
    the blocks that `generateSackBlocks` selects on a pure ACK, and nothing on any other segment.
    `left` is the connection that the call leaves behind, with the start of the fragment that goes
    first. -/
structure MeantOptions (left : Connection → Option SeqNum → Prop) (segment : TcpSegment)
    (options : TcpParsedOptions) : Prop where
  syn : segment.flags.syn = true → segment.flags.ack = false → options = synOffer
  synAck : segment.flags.syn = true → segment.flags.ack = true →
    ∃ c recent, left c recent ∧ options = synAckOffer c
  pureAck : segment.AckOnly →
    ∃ c recent, left c recent ∧ options = { sackBlocks := c.reportedBlocks recent }
  other : segment.flags.syn = false → ¬ segment.AckOnly → options = {}

section Emission

variable {before : Option Connection} {left : Connection → Option SeqNum → Prop}
  {segment : TcpSegment}

theorem Emission.meant (h : Emission before left segment) :
    ∃ options, parseTcpOptions segment.options = .ok options ∧ MeantOptions left segment options := by
  cases h with
  | activeSyn hflags _ hbytes =>
    rw [hbytes]
    refine ⟨_, parse_buildActiveSynOptions, fun _ _ => rfl, ?_, fun honly => ?_, ?_⟩
    · rw [hflags]
      exact nofun
    · have hsyn := honly.syn
      simp [hflags] at hsyn
    · rw [hflags]
      exact nofun
  | synAck c hleft hflags _ hbytes =>
    rw [hbytes]
    obtain ⟨recent, hleft⟩ := hleft
    refine ⟨_, parse_buildSynAckOptions c, ?_, fun _ _ => ⟨c, recent, hleft, rfl⟩, fun honly => ?_, ?_⟩
    · rw [hflags]
      exact nofun
    · have hsyn := honly.syn
      simp [hflags] at hsyn
    · rw [hflags]
      exact nofun
  | pureAck c mostRecent hleft hflags hpayload hbytes =>
    have honly : segment.AckOnly := by refine ⟨?_, hpayload, ?_, ?_, ?_⟩ <;> rw [hflags]
    rw [hbytes]
    refine ⟨_, parse_buildSackOptions (length_reportedBlocks_le c mostRecent), ?_, ?_,
      fun _ => ⟨c, mostRecent, hleft, rfl⟩, fun _ hnot => absurd honly hnot⟩
    · rw [hflags]
      exact nofun
    · rw [hflags]
      exact nofun
  | plain hsyn hnot hbytes =>
    rw [hbytes]
    refine ⟨{}, rfl, ?_, ?_, fun honly => absurd honly hnot, fun _ _ => rfl⟩
    · rw [hsyn]
      exact nofun
    · rw [hsyn]
      exact nofun

theorem Emission.fits (h : Emission before left segment)
    (hbefore : ∀ c, before = some c → c.EntriesFit ∧
      (c.state.synchronized = true → c.effectiveSendMss.toNat ≤ kTcpMss)) :
    OptionsFit segment.options ∧ segment.options.length + segment.payload.length ≤ kTcpMss := by
  have hmax : kMaxTcpOptionsLength ≤ kTcpMss := by decide
  have halone : ∀ {options : List Byte}, OptionsFit options → segment.payload = [] →
      options.length + segment.payload.length ≤ kTcpMss := by
    intro options hfit hpayload
    rw [hpayload]
    exact hfit.short.trans hmax
  cases h with
  | activeSyn _ hpayload hbytes =>
    rw [hbytes]
    exact ⟨padOptions_fit (by decide), halone (padOptions_fit (by decide)) hpayload⟩
  | synAck c _ _ hpayload hbytes =>
    rw [hbytes]
    exact ⟨buildSynAckOptions_fit c, halone (buildSynAckOptions_fit c) hpayload⟩
  | pureAck c mostRecent _ _ hpayload hbytes =>
    have hfit := buildSackOptions_fit (length_reportedBlocks_le c mostRecent)
    rw [hbytes]
    exact ⟨hfit, halone hfit hpayload⟩
  | plain _ _ hbytes hpayload =>
    rw [hbytes]
    refine ⟨.nil, ?_⟩
    rw [length_nil, Nat.zero_add]
    rcases hpayload with hnil | ⟨c, hc, hsync, hnew | ⟨e, he, hold⟩⟩
    · rw [hnil]
      exact Nat.zero_le _
    · exact hnew.trans ((hbefore c hc).2 hsync)
    · exact hold.trans ((hbefore c hc).1 e he)

end Emission

/-- A call of `handle` whose segment gets as far as acknowledgment processing. -/
structure ProcessedBy (t : TcpConnectionTable) (key : TcpConnectionKey) (op : Op) (memory : ℕ → Byte)
    (c : Connection) (segment : TcpSegment) (options : TcpParsedOptions) (now : TimePoint) : Prop where
  call : op = .handle memory key segment now
  found : t.find? key = some c
  synchronized : c.state.synchronized = true
  notTimeWait : c.state ≠ .timeWait
  processes : Processes c segment options

/-- The fragment start that the call passes to `generateSackBlocks`: where the segment's bytes are
    buffered, or none. -/
structure RecentFragment (t : TcpConnectionTable) (key : TcpConnectionKey) (op : Op)
    (recent : Option SeqNum) : Prop where
  processed : ∀ memory c segment options now, ProcessedBy t key op memory c segment options now →
    recent = (receivePart memory (afterAck key c segment options now) segment now).mostRecent
  other : (¬ ∃ memory c segment options now, ProcessedBy t key op memory c segment options now) →
    recent = none

/-- The connection as a call leaves it: in the table, or, if the call has removed it, as the handler
    of the segment left it. -/
inductive LeftBy (t : TcpConnectionTable) (key : TcpConnectionKey) (op : Op) :
    Connection → Option SeqNum → Prop where
  | kept (c : Connection) (recent : Option SeqNum) : (t.apply op).find? key = some c →
      RecentFragment t key op recent → LeftBy t key op c recent
  | removed (c : Connection) (memory : ℕ → Byte) (segment : TcpSegment) (now : TimePoint)
      (recent : Option SeqNum) :
      op = .handle memory key segment now → t.find? key = some c → c.state.synchronized = true →
      c.state ≠ .timeWait → (t.apply op).find? key = none → RecentFragment t key op recent →
      LeftBy t key op (handleSynchronized memory key c segment now).1 recent

theorem KeyStep.removed_emitted {listenPort : UInt16} (h : KeyStep listenPort key (some c) e none) :
    e.emitted = [] ∨ ∃ segment result, e = .handle segment result := by
  rcases h.of_removed with ⟨memory, segment, now, -, rfl⟩ | rfl
  · exact .inr ⟨segment, _, rfl⟩
  · exact .inl rfl

theorem TcpConnectionTable.eventFor_handle {result : TcpReceiveResult}
    (h : t.eventFor key op = some (.handle segment result)) :
    ∃ memory now, op = .handle memory key segment now ∧
      result = (t.handle memory key segment now).2 := by
  cases op with
  | handle memory k segment' now =>
    obtain ⟨rfl, heq⟩ := ite_none_right_eq_some.1 h
    cases heq
    exact ⟨memory, now, rfl, rfl⟩
  | beginConnect k now | makeOutgoingData k payload now | beginClose k now =>
    obtain ⟨-, heq⟩ := ite_none_right_eq_some.1 h
    cases heq
  | pollPersistProbes now | pollRetransmissions now =>
    obtain ⟨_, -, heq⟩ := map_eq_some_iff.1 h
    cases heq

theorem Event.handle_of_received (h : received ∈ e.received) :
    ∃ result, e = .handle received result := by
  cases e with
  | handle segment result =>
    obtain rfl := mem_singleton.1 h
    exact ⟨result, rfl⟩
  | _ => cases h

theorem ProcessedBy.recentFragment (h : ProcessedBy t key op memory c segment options now) :
    RecentFragment t key op
      (receivePart memory (afterAck key c segment options now) segment now).mostRecent := by
  refine ⟨fun memory' c' segment' options' now' h' => ?_, fun hnone => ?_⟩
  · cases h.call.symm.trans h'.call
    cases h.found.symm.trans h'.found
    cases h.processes.options.symm.trans h'.processes.options
    rfl
  · exact absurd ⟨_, _, _, _, _, h⟩ hnone

theorem ProcessedBy.emission (hs : Reachable s)
    (h : ProcessedBy s.table key op memory c received options now)
    (he : s.table.eventFor key op = some e) (hmem : segment ∈ e.emitted) :
    Emission (some c) (LeftBy s.table key op) segment := by
  have hrecent := h.recentFragment
  obtain ⟨rfl, hfound, hsync, hwait, hproc⟩ := h
  obtain ⟨u, hsynced⟩ := Run.synced hs hfound hsync
  have hout := handleSynchronized_processed memory key hproc now
  have hexisting := handleExisting_of_synchronized memory key received now hsync hwait
  rw [eventFor, if_pos rfl, handle_of_some hfound, hexisting,
    eraseIfRemoved_result, some.injEq] at he
  rw [← he] at hmem
  replace hmem := (mem_append.1 hmem).resolve_right not_mem_nil
  refine (processed_emission hsynced hproc hout hmem).mono ?_
  have hafter : (s.table.apply (.handle memory key received now)).find? key =
      (eraseIfRemoved (handleSynchronized memory key c received now)).1 := by
    rw [apply, handle_of_some hfound, find?_put, if_pos rfl, hexisting]
  rintro _ _ ⟨rfl, rfl⟩
  cases hremoval : (handleSynchronized memory key c received now).1.pendingRemoval with
  | false =>
    rw [eraseIfRemoved_of_kept hremoval] at hafter
    exact .kept _ _ hafter hrecent
  | true =>
    rw [eraseIfRemoved_of_removed hremoval] at hafter
    exact .removed c memory received now _ rfl hfound hsync hwait hafter hrecent

theorem Run.emission (hs : Reachable s) (he : s.table.eventFor key op = some e)
    (hmem : segment ∈ e.emitted) :
    Emission (s.table.find? key) (LeftBy s.table key op) segment := by
  by_cases hprocessed : ∃ memory c received options now,
      ProcessedBy s.table key op memory c received options now
  · obtain ⟨memory, c, received, options, now, hby⟩ := hprocessed
    rw [hby.found]
    exact hby.emission hs he hmem
  have hrecent : RecentFragment s.table key op none :=
    ⟨fun _ _ _ _ _ h => absurd ⟨_, _, _, _, _, h⟩ hprocessed, fun _ => rfl⟩
  rcases s.table.apply_key op key with ⟨hnone, -⟩ | ⟨e', hsome, hkey⟩
  · simp [he] at hnone
  obtain rfl : e = e' := some.inj (he.symm.trans hsome)
  cases hc : s.table.find? key with
  | none =>
    rw [hc] at hkey
    refine (hkey.emission_first hmem).mono ?_
    rintro c _ ⟨hleft, rfl⟩
    exact .kept c none hleft hrecent
  | some c =>
    have hok := (Run.connInv hs hc).ok
    -- A call that brings a processed segment would be one of `handle`.
    have hnot : c.state.synchronized = true → c.state ≠ .timeWait →
        ∀ received ∈ e.received, ¬ ∃ options, Processes c received options := by
      rintro hsync hwait received hreceived ⟨options, hproc⟩
      obtain ⟨result, rfl⟩ := Event.handle_of_received hreceived
      obtain ⟨memory, now, rfl, -⟩ := eventFor_handle he
      exact hprocessed ⟨_, _, _, _, _, rfl, hc, hsync, hwait, hproc⟩
    rw [hc] at hkey
    cases hafter : (s.table.apply op).find? key with
    | some c' =>
      rw [hafter] at hkey
      refine ((hok.step hkey).emission hkey.kept hmem).mono ?_
      rintro _ recent ⟨rfl, hnone | ⟨hsync, hwait, received, hreceived, hproc⟩⟩
      · rw [hnone]
        exact .kept _ none hafter hrecent
      · exact absurd hproc (hnot hsync hwait received hreceived)
    | none =>
      rw [hafter] at hkey
      rcases hkey.removed_emitted with hsilent | ⟨received, result, rfl⟩
      · simp [hsilent] at hmem
      obtain ⟨memory, now, rfl, hresult⟩ := eventFor_handle he
      have hhandle := handle_of_some hc memory received now
      have hgone : (handleExisting memory key c received now).1 = none := by
        rwa [apply, hhandle, find?_put, if_pos rfl] at hafter
      replace hmem := (mem_append.1 hmem).resolve_right not_mem_nil
      rw [hresult, hhandle] at hmem
      cases hok with
      | halfOpen hopen =>
        simp [hopen.removed_silent hgone] at hmem
      | synced u hsynced =>
        obtain ⟨hwait, hproc⟩ := hsynced.removed_processes hgone hmem
        exact absurd hproc (hnot hsynced.synchronized hwait received (mem_singleton_self _))

theorem TcpSegment.length_bytes (segment : TcpSegment) (source destination : Ipv4Address) :
    (segment.bytes source destination).length =
      Tcp.kMinHeaderSize + segment.options.length + segment.payload.length :=
  segment.length_bytesWith _

/-- **Everything emitted can be sent and read back.** Whatever call a reachable table answers with a
    segment, the segment serializes, the packet around it fits into 1500 bytes, and its options are
    read as they were meant. -/
theorem emitted_roundTrip {s : Traced} (hs : Reachable s) {key : TcpConnectionKey} {op : Op}
    {e : Event} (he : s.table.eventFor key op = some e) {segment : TcpSegment}
    (hmem : segment ∈ e.emitted) (source destination : Ipv4Address) :
    (∃ bytes, serializeTcpSegment segment source destination = .ok bytes ∧
      parseTcpSegment bytes source destination = .ok segment ∧
      ∀ packet : Ipv4Packet, packet.payload = bytes →
        ∃ packetBytes, serializeIpv4Packet packet = .ok packetBytes ∧ packetBytes.length ≤ 1500) ∧
    ∃ options, parseTcpOptions segment.options = .ok options ∧
      MeantOptions (LeftBy s.table key op) segment options := by
  have hemission := Run.emission hs he hmem
  refine ⟨?_, hemission.meant⟩
  obtain ⟨hoptions, hsize⟩ := hemission.fits fun c hc => by
    refine ⟨hs.entriesFit hc, fun hsync => (hs.congestionOk hc fun hsent => ?_).mss_le⟩
    rw [hsent] at hsync
    cases hsync
  have hmss : kTcpMss = 1460 := rfl
  have hheader : Tcp.kMinHeaderSize = 20 := rfl
  have hmax : kMaxTcpSegmentLength = 65535 := rfl
  have hlen : Tcp.kMinHeaderSize + segment.options.length + segment.payload.length ≤
      kMaxTcpSegmentLength := by omega
  refine ⟨segment.bytes source destination,
    serializeTcpSegment_eq source destination hoptions.aligned hoptions.short hlen,
    parseTcpSegment_bytes source destination hoptions.aligned hoptions.short hlen,
    fun packet hpayload => ?_⟩
  have hbytes := segment.length_bytes source destination
  have hip : Ipv4.kHeaderSize = 20 := rfl
  have htotal : Ipv4.kMaxTotalLength = 65535 := rfl
  refine ⟨packet.header ++ packet.payload, serializeIpv4Packet_eq ?_, ?_⟩
  · rw [hpayload]
    omega
  · rw [length_append, Ipv4Packet.header, packet.length_headerWith, hpayload]
    omega

/-- A segment that comes two bytes early. -/
def exampleEarly : TcpSegment := exampleSegment 5003 [7]

/-- It is answered with a SACK block. -/
theorem emitted_roundTrip_example : ∃ c reply bytes,
      (exampleRun [4, 2] []).table.find? exampleKey = some c ∧
      (handleExisting noMemory exampleKey c exampleEarly 0).2.reply = some reply ∧
      reply.options = [5, 10, 0, 0, 19, 139, 0, 0, 19, 140, 0, 0] ∧
      serializeTcpSegment reply exampleKey.localIp exampleKey.remoteIp = .ok bytes ∧
      parseTcpSegment bytes exampleKey.localIp exampleKey.remoteIp = .ok reply ∧
      parseTcpOptions reply.options = .ok { sackBlocks := [⟨5003, 5004⟩] } := by
  obtain ⟨c, hc, hval⟩ := exampleRun_at [4, 2] []
    (fun _ c => (handleExisting noMemory exampleKey c exampleEarly 0).2.reply.map
      TcpSegment.options = some [5, 10, 0, 0, 19, 139, 0, 0, 19, 140, 0, 0]) (by decide +kernel)
  obtain ⟨reply, hreply, hoptions⟩ := map_eq_some_iff.1 hval
  have hevent : (exampleRun [4, 2] []).table.eventFor exampleKey
      (.handle noMemory exampleKey exampleEarly 0) =
      some (.handle exampleEarly (handleExisting noMemory exampleKey c exampleEarly 0).2) := by
    rw [eventFor, if_pos rfl, handle_of_some hc]
  have hmem : reply ∈ Event.emitted
      (.handle exampleEarly (handleExisting noMemory exampleKey c exampleEarly 0).2) := by
    simp [Event.emitted, Event.emittedInSequence, hreply]
  obtain ⟨⟨bytes, hbytes, hparsed, -⟩, -⟩ := emitted_roundTrip (exampleRun_reachable [4, 2] []) hevent
    hmem exampleKey.localIp exampleKey.remoteIp
  refine ⟨c, reply, bytes, hc, hreply, hoptions, hbytes, hparsed, ?_⟩
  rw [hoptions]
  decide +kernel

end Wirestack
