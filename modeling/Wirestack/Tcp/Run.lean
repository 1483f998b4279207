import Wirestack.Tcp.Table

set_option autoImplicit false

/-! # Runs of the connection table

The table as a state machine: an `Op` is one call of a public operation, `TcpConnectionTable.apply`
performs it, and `Run` collects the states that any sequence of calls can reach. Along the way every
key keeps the history of what happened to its current incarnation, so that statements about whole
streams ("all bytes accepted so far", "every segment ever emitted") can be read off a reachable
state.

`step_key` says once what a call can do to one key; every invariant below is proved from its cases
(`KeyStep`) instead of from the operations. -/

namespace Wirestack

variable {listenPort : UInt16} {segment : TcpSegment} {c : Connection}

variable {t : TcpConnectionTable} {key : TcpConnectionKey}

/-- One call of a public operation. `memory` is what lies behind the payload of the segment. -/
inductive Op where
  | beginConnect (key : TcpConnectionKey) (now : TimePoint)
  | handle (memory : ℕ → Byte) (key : TcpConnectionKey) (segment : TcpSegment) (now : TimePoint)
  | makeOutgoingData (key : TcpConnectionKey) (payload : List Byte) (now : TimePoint)
  | beginClose (key : TcpConnectionKey) (now : TimePoint)
  | pollPersistProbes (now : TimePoint)
  | pollRetransmissions (now : TimePoint)

variable {op : Op}

/-- What one call returned for one key. A poll that did nothing for the key returns `none`. -/
inductive Event where
  | beginConnect (result : TcpConnectResult)
  | handle (segment : TcpSegment) (result : TcpReceiveResult)
  | makeOutgoingData (payload : List Byte) (result : TcpSendResult)
  | beginClose (result : TcpCloseResult)
  | pollPersistProbes (probe : Option TcpSegment)
  | pollRetransmissions (segment : Option TcpSegment)

variable {e : Event}

namespace Event

/-- The segments handed to the caller for transmission, persist probes apart. -/
def emittedInSequence : Event → List TcpSegment
  | .beginConnect result => result.syn.toList
  | .handle _ result => result.reply.toList ++ result.fastRetransmit.toList ++ result.scheduled
  | .makeOutgoingData _ result => result.segments
  | .beginClose result => result.fin.toList
  | .pollPersistProbes _ => []
  | .pollRetransmissions segment => segment.toList

def probes : Event → List TcpSegment
  | .pollPersistProbes probe => probe.toList
  | _ => []

/-- Every segment handed to the caller for transmission. -/
def emitted (e : Event) : List TcpSegment := e.emittedInSequence ++ e.probes

@[simp] theorem emitted_beginConnect (result : TcpConnectResult) :
    (beginConnect result).emitted = result.syn.toList := List.append_nil _

@[simp] theorem emitted_handle (segment : TcpSegment) (result : TcpReceiveResult) :
    (handle segment result).emitted =
      result.reply.toList ++ result.fastRetransmit.toList ++ result.scheduled := List.append_nil _

@[simp] theorem emitted_makeOutgoingData (payload : List Byte) (result : TcpSendResult) :
    (makeOutgoingData payload result).emitted = result.segments := List.append_nil _

@[simp] theorem emitted_beginClose (result : TcpCloseResult) :
    (beginClose result).emitted = result.fin.toList := List.append_nil _

@[simp] theorem emitted_pollPersistProbes (probe : Option TcpSegment) :
    (pollPersistProbes probe).emitted = probe.toList := rfl

@[simp] theorem emitted_pollRetransmissions (segment : Option TcpSegment) :
    (pollRetransmissions segment).emitted = segment.toList := List.append_nil _

/-- The bytes `makeOutgoingData` accepted. -/
def accepted : Event → List Byte
  | .makeOutgoingData payload result => if result.error.isNone then payload else []
  | _ => []

/-- The bytes `handle` delivered. -/
def delivered : Event → List Byte
  | .handle _ result => result.acceptedPayload
  | _ => []

/-- The segment that `handle` was given. -/
def received : Event → List TcpSegment
  | .handle segment _ => [segment]
  | _ => []

/-- Whether `handle` reported the end of the peer's stream. -/
def peerClosed : Event → Bool
  | .handle _ result => result.peerClosed
  | _ => false

end Event

abbrev History := List Event

namespace History

def emittedInSequence (h : History) : List TcpSegment := h.flatMap Event.emittedInSequence

def probes (h : History) : List TcpSegment := h.flatMap Event.probes

def emitted (h : History) : List TcpSegment := h.flatMap Event.emitted

/-- The concatenation of all payloads `makeOutgoingData` accepted. -/
def accepted (h : History) : List Byte := h.flatMap Event.accepted

/-- The concatenation of all `acceptedPayload`s. -/
def delivered (h : History) : List Byte := h.flatMap Event.delivered

/-- The segments that came in. -/
def received (h : History) : List TcpSegment := h.flatMap Event.received

/-- How often `peerClosed` was reported. -/
def peerClosedCount (h : History) : ℕ := h.countP Event.peerClosed

end History

/-! ## Performing a call -/

def TcpConnectionTable.apply (t : TcpConnectionTable) : Op → TcpConnectionTable
  | .beginConnect key now => (t.beginConnect key now).1
  | .handle memory key segment now => (t.handle memory key segment now).1
  | .makeOutgoingData key payload now => (t.makeOutgoingData key payload now).1
  | .beginClose key now => (t.beginClose key now).1
  | .pollPersistProbes now => (t.pollPersistProbes now).1
  | .pollRetransmissions now => (t.pollRetransmissions now).1

/-- What the call returns for `key`, if it concerns that key at all. -/
def TcpConnectionTable.eventFor (t : TcpConnectionTable) (key : TcpConnectionKey) :
    Op → Option Event
  | .beginConnect k now => if k = key then some (.beginConnect (t.beginConnect k now).2) else none
  | .handle memory k segment now =>
    if k = key then some (.handle segment (t.handle memory k segment now).2) else none
  | .makeOutgoingData k payload now =>
    if k = key then some (.makeOutgoingData payload (t.makeOutgoingData k payload now).2) else none
  | .beginClose k now => if k = key then some (.beginClose (t.beginClose k now).2) else none
  | .pollPersistProbes now =>
    (t.find? key).map fun c => .pollPersistProbes (pollPersistProbe key c now).2
  | .pollRetransmissions now =>
    (t.find? key).map fun c => .pollRetransmissions (pollConnection key c now).segment?

/-- A table together with the history of each key's current (or last) incarnation. -/
structure Traced where
  table : TcpConnectionTable
  history : TcpConnectionKey → History

variable {ok : Traced → Op → Prop} {s : Traced}

/-- A new incarnation starts a new history; every other event is appended. -/
def extendHistory (before after : Option Connection) (h : History) : Option Event → History
  | none => h
  | some e => if before.isNone && after.isSome then [e] else h ++ [e]

def Traced.step (s : Traced) (op : Op) : Traced :=
  { table := s.table.apply op
    history := fun key => extendHistory (s.table.find? key)
      ((s.table.apply op).find? key) (s.history key) (s.table.eventFor key op) }

/-- The states reached from an empty table by calls that each meet `ok` when they are made. -/
inductive Run (ok : Traced → Op → Prop) : Traced → Prop where
  | start (t : TcpConnectionTable) (h : t.connections = ∅) : Run ok ⟨t, fun _ => []⟩
  | step (s : Traced) (op : Op) : Run ok s → ok s op → Run ok (s.step op)

/-- The states any sequence of calls reaches. -/
abbrev Reachable : Traced → Prop := Run fun _ _ => True

theorem Run.mono {ok' : Traced → Op → Prop} (himp : ∀ s op, ok s op → ok' s op) (h : Run ok s) :
    Run ok' s := by
  induction h with
  | start t ht => exact .start t ht
  | step s op _ hok ih => exact .step s op ih (himp s op hok)

theorem Run.reachable (h : Run ok s) : Reachable s :=
  h.mono fun _ _ _ => trivial

/-! ## What a call can do to one key -/

/-- The connection a successful `beginConnect` leaves in the table. -/
def connectedWith (isn : SeqNum) (now : TimePoint) : Connection :=
  { activeConnection isn with pending := [synEntry (activeConnection isn) true { syn := true } now] }

/-- The connection an accepted SYN leaves in the table. -/
def acceptedWith (segment : TcpSegment) (options : TcpParsedOptions) (isn : SeqNum)
    (now : TimePoint) : Connection :=
  let c := passiveConnection segment options isn
  { c with pending := [synEntry c false { syn := true, ack := true } now] }

/-- Nothing was delivered, accepted or closed; what a refusal emits, if anything, is a reset, and
    never an answer to a bare SYN that arrived on the listening port. -/
structure Event.IsRefusal (listenPort : UInt16) (key : TcpConnectionKey) (e : Event) : Prop where
  accepted : e.accepted = []
  delivered : e.delivered = []
  peerClosed : e.peerClosed = false
  emitted : e.emitted = [] ∨ ∃ segment result, e = .handle segment result ∧
    e.emitted = [makeClosedPortReset segment] ∧
    ¬ (key.localPort = listenPort ∧ segment.flags.syn ∧ ¬ segment.flags.ack)

theorem Event.IsRefusal.silent (h : e.IsRefusal listenPort key)
    (hreceived : ∀ segment ∈ e.received, key.localPort = listenPort ∧ segment.flags.syn ∧ ¬
      segment.flags.ack) : e.emitted = [] := by
  rcases h.emitted with hnil | ⟨segment, result, rfl, -, hnot⟩
  · exact hnil
  · exact absurd (hreceived segment (List.mem_singleton_self _)) hnot

theorem Event.eq_of_mem_emitted_connect {syn : TcpSegment}
    (h : segment ∈ Event.emitted (.beginConnect { accepted := true, syn := some syn })) :
    segment = syn := by
  simpa using h

/-- One event at `key`, with the connection before and after it. -/
inductive KeyStep (listenPort : UInt16) (key : TcpConnectionKey) :
    Option Connection → Event → Option Connection → Prop where
  | refused (e : Event) : e.IsRefusal listenPort key → KeyStep listenPort key none e none
  | connect (isn : SeqNum) (now : TimePoint) :
      KeyStep listenPort key none
        (.beginConnect { accepted := true, syn := some (makeActiveSyn key (activeConnection isn)) })
        (some (connectedWith isn now))
  | accept (segment : TcpSegment) (options : TcpParsedOptions) (isn : SeqNum) (now : TimePoint) :
      segment.flags.syn → ¬ segment.flags.ack → ¬ segment.flags.rst →
      parseTcpOptions segment.options = .ok options →
      KeyStep listenPort key none
        (.handle segment { reply := some (makeSynAck key (passiveConnection segment options isn)) })
        (some (acceptedWith segment options isn now))
  | reconnect (c : Connection) (error : TcpConnectError) :
      KeyStep listenPort key (some c) (.beginConnect { error := some error }) (some c)
  | handle (memory : ℕ → Byte) (c : Connection) (segment : TcpSegment) (now : TimePoint) :
      KeyStep listenPort key (some c)
        (.handle segment (handleExisting memory key c segment now).2)
        (handleExisting memory key c segment now).1
  | rejectData (c : Connection) (payload : List Byte) (error : TcpSendError) :
      KeyStep listenPort key (some c) (.makeOutgoingData payload { error := some error }) (some c)
  | sendData (c : Connection) (payload : List Byte) (now : TimePoint) :
      payload ≠ [] → payload.length ≤ kMaxApplicationSendSize →
      KeyStep listenPort key (some c)
        (.makeOutgoingData payload (enqueueData key c payload now).2)
        (some (enqueueData key c payload now).1)
  | close (c : Connection) (now : TimePoint) :
      KeyStep listenPort key (some c) (.beginClose (closeConnection key c now).2)
        (some (closeConnection key c now).1)
  | probe (c : Connection) (now : TimePoint) :
      KeyStep listenPort key (some c) (.pollPersistProbes (pollPersistProbe key c now).2)
        (some (pollPersistProbe key c now).1)
  | timeout (c : Connection) (now : TimePoint) :
      KeyStep listenPort key (some c) (.pollRetransmissions (pollConnection key c now).segment?)
        ((pollConnection key c now).kept c)

theorem KeyStep.of_removed (h : KeyStep listenPort key (some c) e none) :
    (∃ memory segment now, (handleExisting memory key c segment now).1 = none ∧
      e = .handle segment (handleExisting memory key c segment now).2) ∨
    e = .pollRetransmissions none := by
  generalize hafter : (none : Option Connection) = after at h
  cases h with
  | reconnect c error => cases hafter
  | handle memory c segment now => exact .inl ⟨memory, segment, now, rfl, rfl⟩
  | rejectData c payload error | sendData c payload now _ _ | close c now | probe c now =>
    cases hafter
  | timeout c now =>
    right
    cases hpoll : pollConnection key c now with
    | retransmit c' segment =>
      rw [hpoll] at hafter
      cases hafter
    | _ => rfl

namespace TcpConnectionTable

theorem find?_empty (h : t.connections = ∅) (key : TcpConnectionKey) : t.find? key = none := by
  rw [find?, h, Std.ExtTreeMap.getElem?_empty]

section

variable (t : TcpConnectionTable) (k key : TcpConnectionKey) (c : Connection)

theorem mem_toList_iff : (key, c) ∈ t.connections.toList ↔ t.find? key = some c :=
  Std.ExtTreeMap.mem_toList_iff_getElem?_eq_some

theorem nodup_toList_keys : (t.connections.toList.map Prod.fst).Nodup := by
  rw [Std.ExtTreeMap.map_fst_toList_eq_keys]
  exact Std.ExtTreeMap.nodup_keys

theorem find?_insert : find? { t with connections := t.connections.insert k c } key =
      if k = key then some c else t.find? key := by
  simp only [find?, Std.ExtTreeMap.getElem?_insert, Std.LawfulEqOrd.compare_eq_iff_eq]

theorem find?_put (c : Option Connection) :
    (t.put k c).find? key = if k = key then c else t.find? key := by
  cases c with
  | none => simp only [put, find?, Std.ExtTreeMap.getElem?_erase, Std.LawfulEqOrd.compare_eq_iff_eq]
  | some c => exact find?_insert t k key c

end

theorem put_eq_self_iff (hc : t.find? key = some c) (after : Option Connection) :
    t.put key after = t ↔ after = some c := by
  constructor
  · intro hsame
    have hfind := find?_put t key key after
    rw [if_pos rfl, hsame, hc] at hfind
    exact hfind.symm
  · rintro rfl
    have hinsert : t.connections.insert key c = t.connections := by
      refine Std.ExtTreeMap.ext_getElem? fun k => ?_
      rw [Std.ExtTreeMap.getElem?_insert]
      split_ifs with hk
      · rw [← Std.LawfulEqOrd.eq_of_compare hk]
        exact hc.symm
      · rfl
    unfold put
    dsimp only
    rw [hinsert]

theorem nextIsn_eq (t : TcpConnectionTable) :
    (t.nextIsn.1).connections = t.connections ∧ (t.nextIsn.1).listenPort = t.listenPort := by
  unfold nextIsn
  dsimp only
  split_ifs <;> exact ⟨rfl, rfl⟩

theorem find?_nextIsn {t' : TcpConnectionTable} {isn : Option SeqNum} (h : t.nextIsn = (t', isn))
    (key : TcpConnectionKey) : t'.find? key = t.find? key := by
  have hconn := (nextIsn_eq t).1
  rw [h] at hconn
  dsimp only at hconn
  rw [find?, find?, hconn]

theorem beginConnect_cases (t : TcpConnectionTable) (k : TcpConnectionKey) (now : TimePoint) :
    (∃ t' error, t.beginConnect k now = (t', { error := some error }) ∧
      ∀ key, t'.find? key = t.find? key) ∨
    (∃ t' isn, t.find? k = none ∧ t.beginConnect k now =
        (t', { accepted := true, syn := some (makeActiveSyn k (activeConnection isn)) }) ∧
      ∀ key, t'.find? key = if k = key then some (connectedWith isn now) else t.find? key) := by
  unfold beginConnect
  split_ifs with hport hdup hcap
  · exact .inl ⟨t, _, rfl, fun _ => rfl⟩
  · exact .inl ⟨t, _, rfl, fun _ => rfl⟩
  · exact .inl ⟨t, _, rfl, fun _ => rfl⟩
  · have hnone : t.find? k = none := by
      apply Std.ExtTreeMap.getElem?_eq_none
      simpa using hdup
    split
    · next t' hisn => exact .inl ⟨t', _, rfl, find?_nextIsn hisn⟩
    · next t' isn hisn =>
      refine .inr ⟨_, isn, hnone, rfl, fun key => ?_⟩
      rw [find?_insert, find?_nextIsn hisn]
      rfl

theorem acceptSyn_cases (t : TcpConnectionTable) (k : TcpConnectionKey) (segment : TcpSegment)
    (now : TimePoint) :
    (∃ t' result, t.acceptSyn k segment now = (t', result) ∧ (result = {} ∨
        result = { admissionRejected := true }) ∧
      ∀ key, t'.find? key = t.find? key) ∨
    (∃ t' options isn, parseTcpOptions segment.options = .ok options ∧ t.acceptSyn k segment now =
        (t', { reply := some (makeSynAck k (passiveConnection segment options isn)) }) ∧
      ∀ key, t'.find? key =
        if k = key then some (acceptedWith segment options isn now) else t.find? key) := by
  unfold acceptSyn
  split
  · exact .inl ⟨t, _, rfl, .inl rfl, fun _ => rfl⟩
  · next options hoptions =>
    split_ifs with hsack hcap
    · exact .inl ⟨t, _, rfl, .inl rfl, fun _ => rfl⟩
    · exact .inl ⟨t, _, rfl, .inr rfl, fun _ => rfl⟩
    · split
      · next t' hisn => exact .inl ⟨t', _, rfl, .inl rfl, find?_nextIsn hisn⟩
      · next t' isn hisn =>
        refine .inr ⟨_, options, isn, hoptions, rfl, fun key => ?_⟩
        rw [find?_insert, find?_nextIsn hisn]
        have hpending : (passiveConnection segment options isn).pending = [] := by
          unfold passiveConnection Connection.negotiate
          cases options.windowScale <;> rfl
        rw [hpending]
        rfl

theorem handle_of_some (h : t.find? key = some c) (memory : ℕ → Byte) (segment : TcpSegment)
    (now : TimePoint) : t.handle memory key segment now =
      (t.put key (handleExisting memory key c segment now).1,
        (handleExisting memory key c segment now).2) := by
  rw [handle, h]

section

variable (t : TcpConnectionTable) (memory : ℕ → Byte) (k : TcpConnectionKey) (payload : List Byte)
  (segment : TcpSegment) (now : TimePoint)

theorem handle_cases :
    KeyStep t.listenPort k (t.find? k) (.handle segment (t.handle memory k segment now).2)
      ((t.handle memory k segment now).1.find? k) ∧
    ∀ key, k ≠ key → (t.handle memory k segment now).1.find? key = t.find? key := by
  unfold handle
  split
  · next hnone =>
    rw [hnone]
    unfold handleUnknown
    split_ifs with hrst hport hsyn
    · rw [hnone]
      exact ⟨.refused _ ⟨rfl, rfl, rfl, .inl rfl⟩, fun _ _ => rfl⟩
    · rw [hnone]
      refine ⟨.refused _ ⟨rfl, rfl, rfl, .inr ⟨segment, _, rfl, rfl, ?_⟩⟩, fun _ _ => rfl⟩
      exact fun h => hport h.1
    · rw [hnone]
      refine ⟨.refused _ ⟨rfl, rfl, rfl, .inr ⟨segment, _, rfl, rfl, ?_⟩⟩, fun _ _ => rfl⟩
      rintro ⟨-, hs, ha⟩
      simp [hs, ha] at hsyn
    · simp only [Bool.or_eq_true, Bool.not_eq_true', not_or, Bool.not_eq_false,
        Bool.not_eq_true] at hsyn
      rcases acceptSyn_cases t k segment now with
        ⟨t', result, heq, hresult, hfind⟩ | ⟨t', options, isn, hoptions, heq, hfind⟩
      · rw [heq, hfind, hnone]
        refine ⟨.refused _ ?_, fun key _ => hfind key⟩
        rcases hresult with rfl | rfl <;> exact ⟨rfl, rfl, rfl, .inl rfl⟩
      · rw [heq, hfind, if_pos rfl]
        refine ⟨.accept segment options isn now hsyn.1 ?_ hrst hoptions, fun key hkey => ?_⟩
        · simp [hsyn.2]
        · rw [hfind, if_neg hkey]
  · next c hsome =>
    rw [hsome, find?_put, if_pos rfl]
    exact ⟨.handle memory c segment now, fun key hkey => by rw [find?_put, if_neg hkey]⟩

theorem makeOutgoingData_cases : KeyStep t.listenPort k (t.find? k)
      (.makeOutgoingData payload (t.makeOutgoingData k payload now).2)
      ((t.makeOutgoingData k payload now).1.find? k) ∧
    ∀ key, k ≠ key → (t.makeOutgoingData k payload now).1.find? key = t.find? key := by
  -- A rejected payload is a refusal or a rejected send, depending on whether the key is known.
  have hreject : ∀ error, KeyStep t.listenPort k (t.find? k)
      (.makeOutgoingData payload { error := some error }) (t.find? k) := by
    intro error
    cases t.find? k with
    | none => exact .refused _ ⟨rfl, rfl, rfl, .inl rfl⟩
    | some c => exact .rejectData c payload error
  unfold makeOutgoingData
  split_ifs with hempty hlarge
  · exact ⟨hreject _, fun _ _ => rfl⟩
  · exact ⟨hreject _, fun _ _ => rfl⟩
  · split
    · exact ⟨hreject _, fun _ _ => rfl⟩
    · next c hsome =>
      rw [hsome, find?_put, if_pos rfl]
      refine ⟨.sendData c payload now ?_ (by omega), fun key hkey => ?_⟩
      · simpa using hempty
      · rw [find?_put, if_neg hkey]

theorem beginClose_cases : KeyStep t.listenPort k (t.find? k) (.beginClose (t.beginClose k now).2)
      ((t.beginClose k now).1.find? k) ∧
    ∀ key, k ≠ key → (t.beginClose k now).1.find? key = t.find? key := by
  unfold beginClose
  split
  · next hnone =>
    rw [hnone]
    exact ⟨.refused _ ⟨rfl, rfl, rfl, .inl rfl⟩, fun _ _ => rfl⟩
  · next c hsome =>
    rw [hsome, find?_put, if_pos rfl]
    exact ⟨.close c now, fun key hkey => by rw [find?_put, if_neg hkey]⟩

end

section

variable (t : TcpConnectionTable) (op : Op) (now : TimePoint) (key : TcpConnectionKey)

theorem find?_pollPersistProbes : (t.pollPersistProbes now).1.find? key =
      (t.find? key).map fun c => (pollPersistProbe key c now).1 := by
  simp only [pollPersistProbes, find?, Std.ExtTreeMap.getElem?_map]

theorem find?_pollRetransmissions : (t.pollRetransmissions now).1.find? key =
      (t.find? key).bind fun c => (pollConnection key c now).kept c := by
  simp only [pollRetransmissions, find?, Std.ExtTreeMap.getElem?_filterMap']

theorem apply_key : (t.eventFor key op = none ∧ (t.apply op).find? key = t.find? key) ∨
    ∃ e, t.eventFor key op = some e ∧
      KeyStep t.listenPort key (t.find? key) e ((t.apply op).find? key) := by
  cases op with
  | beginConnect k now =>
    by_cases hk : k = key
    · subst hk
      refine .inr ⟨_, if_pos rfl, ?_⟩
      rcases beginConnect_cases t k now with ⟨t', error, heq, hfind⟩ | ⟨t', isn, hnone, heq, hfind⟩
      · simp only [apply, heq, hfind]
        cases t.find? k with
        | none => exact .refused _ ⟨rfl, rfl, rfl, .inl rfl⟩
        | some c => exact .reconnect c error
      · simp only [apply, heq, hfind, hnone, if_true]
        exact .connect isn now
    · refine .inl ⟨if_neg hk, ?_⟩
      rcases beginConnect_cases t k now with ⟨t', error, heq, hfind⟩ | ⟨t', isn, hnone, heq, hfind⟩
      · simp only [apply, heq, hfind]
      · simp only [apply, heq, hfind, if_neg hk]
  | handle memory k segment now =>
    by_cases hk : k = key
    · subst hk
      exact .inr ⟨_, if_pos rfl, (handle_cases t memory k segment now).1⟩
    · exact .inl ⟨if_neg hk, (handle_cases t memory k segment now).2 key hk⟩
  | makeOutgoingData k payload now =>
    by_cases hk : k = key
    · subst hk
      exact .inr ⟨_, if_pos rfl, (makeOutgoingData_cases t k payload now).1⟩
    · exact .inl ⟨if_neg hk, (makeOutgoingData_cases t k payload now).2 key hk⟩
  | beginClose k now =>
    by_cases hk : k = key
    · subst hk
      exact .inr ⟨_, if_pos rfl, (beginClose_cases t k now).1⟩
    · exact .inl ⟨if_neg hk, (beginClose_cases t k now).2 key hk⟩
  | pollPersistProbes now =>
    simp only [eventFor, apply, find?_pollPersistProbes]
    cases t.find? key with
    | none => exact .inl ⟨rfl, rfl⟩
    | some c => exact .inr ⟨_, rfl, .probe c now⟩
  | pollRetransmissions now =>
    simp only [eventFor, apply, find?_pollRetransmissions]
    cases t.find? key with
    | none => exact .inl ⟨rfl, rfl⟩
    | some c => exact .inr ⟨_, rfl, .timeout c now⟩

end

theorem op_of_handle {result : TcpReceiveResult}
    (h : t.eventFor key op = some (.handle segment result)) :
    ∃ memory now, op = .handle memory key segment now := by
  cases op with
  | handle memory k segment' now =>
    simp only [eventFor, Option.ite_none_right_eq_some, Option.some.injEq, Event.handle.injEq] at h
    obtain ⟨rfl, rfl, -⟩ := h
    exact ⟨memory, now, rfl⟩
  | beginConnect k now | makeOutgoingData k payload now | beginClose k now
  | pollPersistProbes now | pollRetransmissions now => simp [eventFor] at h

theorem op_of_beginConnect {result : TcpConnectResult}
    (h : t.eventFor key op = some (.beginConnect result)) : ∃ now, op = .beginConnect key now := by
  cases op with
  | beginConnect k now =>
    simp only [eventFor, Option.ite_none_right_eq_some] at h
    exact ⟨now, by rw [h.1]⟩
  | handle memory k segment' now | makeOutgoingData k payload now | beginClose k now
  | pollPersistProbes now | pollRetransmissions now => simp [eventFor] at h

theorem op_of_pollRetransmissions {segment : Option TcpSegment}
    (h : t.eventFor key op = some (.pollRetransmissions segment)) :
    ∃ now, op = .pollRetransmissions now := by
  cases op with
  | pollRetransmissions now => exact ⟨now, rfl⟩
  | handle memory k segment' now | beginConnect k now | makeOutgoingData k payload now
  | beginClose k now | pollPersistProbes now => simp [eventFor] at h

section

variable (t : TcpConnectionTable) (op : Op) (memory : ℕ → Byte) (k : TcpConnectionKey)
  (segment : TcpSegment) (now : TimePoint)

theorem listenPort_beginConnect : (t.beginConnect k now).1.listenPort = t.listenPort := by
  have hisn := (nextIsn_eq t).2
  unfold beginConnect
  split_ifs
  · rfl
  · rfl
  · rfl
  · split <;> next heq => rw [heq] at hisn; exact hisn

theorem listenPort_acceptSyn : (t.acceptSyn k segment now).1.listenPort = t.listenPort := by
  have hisn := (nextIsn_eq t).2
  unfold acceptSyn
  split
  · rfl
  · split_ifs
    · rfl
    · rfl
    · split <;> next heq => rw [heq] at hisn; exact hisn

theorem listenPort_handle : (t.handle memory k segment now).1.listenPort = t.listenPort := by
  unfold handle
  split
  · unfold handleUnknown
    split_ifs
    · rfl
    · rfl
    · rfl
    · exact listenPort_acceptSyn ..
  · rfl

theorem listenPort_apply : (t.apply op).listenPort = t.listenPort := by
  cases op with
  | beginConnect k now => exact listenPort_beginConnect t k now
  | handle memory k segment now => exact listenPort_handle t memory k segment now
  | makeOutgoingData k payload now =>
    simp only [apply, makeOutgoingData]
    split_ifs
    · rfl
    · rfl
    · split <;> rfl
  | beginClose k now =>
    simp only [apply, beginClose]
    split <;> rfl
  | pollPersistProbes now | pollRetransmissions now => rfl

end

end TcpConnectionTable

/-! ## The invariant rule for one key -/

theorem Run.key_invariant (key : TcpConnectionKey) (P : History → Option Connection → Prop)
    (hstart : P [] none)
    (hstep : ∀ s op e after, Run ok s → ok s op → s.table.eventFor key op = some e →
      KeyStep s.table.listenPort key (s.table.find? key) e after →
      P (s.history key) (s.table.find? key) →
      P (extendHistory (s.table.find? key) after (s.history key) (some e)) after)
    (h : Run ok s) : P (s.history key) (s.table.find? key) := by
  induction h with
  | start t ht =>
    simp only [TcpConnectionTable.find?_empty ht]
    exact hstart
  | step s op hrun hok ih =>
    rcases s.table.apply_key op key with ⟨hnone, hsame⟩ | ⟨e, hsome, hkey⟩
    · simp only [Traced.step, hnone, hsame]
      exact ih
    · simp only [Traced.step, hsome]
      exact hstep s op e _ hrun hok hsome hkey ih

end Wirestack
