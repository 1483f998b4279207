import Wirestack.Tcp.RunInvariant

set_option autoImplicit false

/-! # Replaying calls

`Traced.replay` performs a list of calls, and the lemmas say what a call that succeeds leaves behind
for its key. With them a concrete run is followed on the connection alone, without evaluating the
map. `exampleOpen` is the run that most concrete inputs below start from: an active open of
`exampleKey`, answered by a SYN-ACK. -/

namespace Wirestack

open TcpConnectionTable Option

def Traced.replay (s : Traced) (ops : List Op) : Traced := ops.foldl Traced.step s

theorem Reachable.replay {s : Traced} (hs : Reachable s) (ops : List Op) :
    Reachable (s.replay ops) := by
  induction ops generalizing s with
  | nil => exact hs
  | cons op ops ih => exact ih (.step s op hs trivial)

/-- The history and the connection of one key. -/
def Traced.at (s : Traced) (key : TcpConnectionKey) : History × Option Connection :=
  (s.history key, s.table.find? key)

/-- What a call does to the connection of `key`, computed without the table; `none` when the call is
    about another key. -/
def performAt (key : TcpConnectionKey) (c : Connection) : Op → Option (Event × Option Connection)
  | .beginConnect k _ =>
    if k = key then
      some (.beginConnect
        { error := some (if key.localPort = 0 ∨ key.remotePort = 0 then .invalidPort
            else .duplicateConnection) }, some c)
    else none
  | .handle memory k segment now =>
    if k = key then
      some (.handle segment (handleExisting memory key c segment now).2,
        (handleExisting memory key c segment now).1)
    else none
  | .makeOutgoingData k payload now =>
    if k = key then
      if payload.isEmpty then
        some (.makeOutgoingData payload { error := some .emptyPayload }, some c)
      else if payload.length > kMaxApplicationSendSize then
        some (.makeOutgoingData payload { error := some .tooLarge }, some c)
      else
        some (.makeOutgoingData payload (enqueueData key c payload now).2,
          some (enqueueData key c payload now).1)
    else none
  | .beginClose k now =>
    if k = key then
      some (.beginClose (closeConnection key c now).2, some (closeConnection key c now).1)
    else none
  | .pollPersistProbes now =>
    some (.pollPersistProbes (pollPersistProbe key c now).2, some (pollPersistProbe key c now).1)
  | .pollRetransmissions now =>
    some (.pollRetransmissions (pollConnection key c now).segment?,
      (pollConnection key c now).kept c)

section Steps

variable {s : Traced} {key : TcpConnectionKey} {h : History} {c : Connection}
  (hs : s.at key = (h, some c))

include hs

theorem Traced.step_at {op : Op} {e : Event} {after : Option Connection}
    (hop : performAt key c op = some (e, after)) : (s.step op).at key = (h ++ [e], after) := by
  obtain ⟨hhist, hc⟩ := Prod.mk.inj hs
  -- The event and the new entry of the map determine both components.
  have hstep : s.table.eventFor key op = some e → (s.table.apply op).find? key = after →
      (s.step op).at key = (h ++ [e], after) := by
    intro hevent hafter
    simp only [Traced.at, Traced.step, hevent, hafter, hc, hhist]
    rfl
  cases op with
  | beginConnect k now =>
    simp only [performAt, ite_none_right_eq_some, some.injEq, Prod.mk.injEq] at hop
    obtain ⟨rfl, rfl, rfl⟩ := hop
    have hmem : s.table.connections.contains k = true := by
      rw [Std.ExtTreeMap.contains_eq_isSome_getElem?]
      exact congrArg isSome hc
    have hconnect : s.table.beginConnect k now =
        (s.table, { error := some (if k.localPort = 0 ∨ k.remotePort = 0 then .invalidPort
          else .duplicateConnection) }) := by
      unfold beginConnect
      split_ifs <;> rfl
    refine hstep ?_ ?_
    · simp only [eventFor, if_true, hconnect]
    · simp only [apply, hconnect, hc]
  | handle memory k segment now =>
    simp only [performAt, ite_none_right_eq_some, some.injEq, Prod.mk.injEq] at hop
    obtain ⟨rfl, rfl, rfl⟩ := hop
    have hhandle := handle_of_some hc memory segment now
    refine hstep ?_ ?_
    · simp only [eventFor, if_true, hhandle]
    · simp only [apply, hhandle, find?_put, if_true]
  | makeOutgoingData k payload now =>
    simp only [performAt] at hop
    split_ifs at hop with hk hempty hlarge
    all_goals
      cases hop
      subst hk
      refine hstep ?_ ?_
    · simp only [eventFor, makeOutgoingData, hempty, if_true]
    · simp only [apply, makeOutgoingData, hempty, if_true, hc]
    · simp [eventFor, makeOutgoingData, hempty, hlarge]
    · simp [apply, makeOutgoingData, hempty, hlarge, hc]
    · simp [eventFor, makeOutgoingData, hempty, hlarge, hc]
    · simp [apply, makeOutgoingData, hempty, hlarge, hc, find?_put]
  | beginClose k now =>
    simp only [performAt, ite_none_right_eq_some, some.injEq, Prod.mk.injEq] at hop
    obtain ⟨rfl, rfl, rfl⟩ := hop
    have hclose : s.table.beginClose k now =
        (s.table.put k (some (closeConnection k c now).1), (closeConnection k c now).2) := by
      rw [beginClose, hc]
    refine hstep ?_ ?_
    · simp only [eventFor, if_true, hclose]
    · simp only [apply, hclose, find?_put, if_true]
  | pollPersistProbes now =>
    cases hop
    refine hstep ?_ ?_
    · simp only [eventFor, hc, map_some]
    · simp only [apply, find?_pollPersistProbes, hc, map_some]
  | pollRetransmissions now =>
    cases hop
    refine hstep ?_ ?_
    · simp only [eventFor, hc, map_some]
    · simp only [apply, find?_pollRetransmissions, hc, bind_some]

end Steps

/-- The calls one after the other, as long as the connection is in the table. -/
def performAll (key : TcpConnectionKey) : List Op → History → Connection → Option (History × Connection)
  | [], h, c => some (h, c)
  | op :: ops, h, c =>
    match performAt key c op with
    | some (e, some c') => performAll key ops (h ++ [e]) c'
    | _ => none

theorem Traced.replay_at {s : Traced} {key : TcpConnectionKey} {h h' : History}
    {c c' : Connection} (hs : s.at key = (h, some c)) {ops : List Op}
    (hops : performAll key ops h c = some (h', c')) :
    (s.replay ops).at key = (h', some c') := by
  induction ops generalizing s h c with
  | nil =>
    cases hops
    exact hs
  | cons op ops ih =>
    simp only [performAll] at hops
    split at hops
    · next e c₁ hop => exact ih (Traced.step_at hs hop) hops
    · cases hops

/-! ## An example connection -/

def exampleKey : TcpConnectionKey :=
  { localIp := ⟨#v[10, 0, 0, 2]⟩
    localPort := 40000
    remoteIp := ⟨#v[10, 0, 0, 1]⟩
    remotePort := 80 }

/-- A table that listens on port 8080 and draws the initial sequence number 1000. -/
def exampleTable : TcpConnectionTable :=
  { listenPort := 8080
    isnGenerator := fun _ => some 1000 }

def exampleStart : Traced := ⟨exampleTable, fun _ => []⟩

theorem exampleStart_reachable : Reachable exampleStart := .start exampleTable rfl

/-- What lies behind the payload of a segment, where nothing depends on it. -/
def noMemory : ℕ → Byte := fun _ => 0

/-- The peer's answer to the SYN, with initial sequence number 5000 and the given options. -/
def exampleSynAck (options : List Byte) : TcpSegment :=
  { sourcePort := 80
    destinationPort := 40000
    sequenceNumber := 5000
    acknowledgmentNumber := 1001
    flags := { syn := true, ack := true }
    windowSize := 65535
    options := options }

/-- A segment of the peer that acknowledges the SYN. -/
def exampleSegment (sequenceNumber : SeqNum) (payload : List Byte) : TcpSegment :=
  { sourcePort := 80
    destinationPort := 40000
    sequenceNumber := sequenceNumber
    acknowledgmentNumber := 1001
    flags := { ack := true }
    windowSize := 65535
    payload := payload }

theorem exampleStart_connect : (exampleStart.step (.beginConnect exampleKey 0)).at exampleKey =
      ([.beginConnect
          { accepted := true, syn := some (makeActiveSyn exampleKey (activeConnection 1000)) }],
        some (connectedWith 1000 0)) := by
  have hconnect : exampleTable.beginConnect exampleKey 0 = ({ exampleTable with
          isnDraws := 1
          lastIsn := some 1000
          connections := exampleTable.connections.insert exampleKey (connectedWith 1000 0) },
        { accepted := true
          syn := some (makeActiveSyn exampleKey (activeConnection 1000)) }) := by
    have hcapacity : exampleTable.atCapacity = false := by
      have hnil : exampleTable.connections.toList = [] := by
        rw [← List.length_eq_zero_iff, Std.ExtTreeMap.length_toList]
        rfl
      simp only [atCapacity, halfOpenCount, hnil]
      simp [exampleTable]
    rw [beginConnect, if_neg (by decide), if_neg (by simp [exampleTable]), hcapacity]
    rfl
  have hnone : exampleTable.find? exampleKey = none := find?_empty rfl _
  have hsome : (exampleTable.beginConnect exampleKey 0).1.find? exampleKey =
      some (connectedWith 1000 0) := by
    rw [hconnect]
    exact Std.ExtTreeMap.getElem?_insert_self
  simp only [Traced.at, Traced.step, apply, eventFor, exampleStart, hsome, hnone, if_true]
  rw [hconnect]
  rfl

/-- The example connection once the SYN-ACK has arrived, followed by more calls. -/
def exampleRun (options : List Byte) (ops : List Op) : Traced :=
  exampleStart.replay
    (.beginConnect exampleKey 0 :: .handle noMemory exampleKey (exampleSynAck options) 0 :: ops)

theorem exampleRun_reachable (options : List Byte) (ops : List Op) :
    Reachable (exampleRun options ops) := exampleStart_reachable.replay _

/-- What the calls leave behind for `exampleKey`, computed on the connection. -/
def exampleOutcome (options : List Byte) (ops : List Op) : Option (History × Connection) :=
  performAll exampleKey (.handle noMemory exampleKey (exampleSynAck options) 0 :: ops)
    [.beginConnect
      { accepted := true, syn := some (makeActiveSyn exampleKey (activeConnection 1000)) }]
    (connectedWith 1000 0)

theorem exampleRun_at (options : List Byte) (ops : List Op) (P : History → Connection → Prop)
    [∀ h c, Decidable (P h c)]
    (hrun : (exampleOutcome options ops).any (fun p => decide (P p.1 p.2)) = true) :
    ∃ c, (exampleRun options ops).table.find? exampleKey = some c ∧
      P ((exampleRun options ops).history exampleKey) c := by
  obtain ⟨p, houtcome, hval⟩ := (Option.any_eq_true ..).1 hrun
  obtain ⟨hhist, hc⟩ := Prod.mk.inj (Traced.replay_at exampleStart_connect houtcome)
  exact ⟨p.2, hc, hhist ▸ of_decide_eq_true hval⟩

/-- Three bytes are accepted, sent and followed by the FIN. -/
def exampleSend : List Op :=
  [.makeOutgoingData exampleKey [1, 2, 3] 0, .beginClose exampleKey 0]

/-- Ten bytes are sent, and the first segment of them is reported missing three times. -/
def exampleThreeDuplicates : List Op :=
  [.makeOutgoingData exampleKey [1, 2, 3, 4, 5, 6, 7, 8, 9, 10] 0,
    .handle noMemory exampleKey (exampleSegment 5001 []) 0,
    .handle noMemory exampleKey (exampleSegment 5001 []) 0,
    .handle noMemory exampleKey (exampleSegment 5001 []) 0]

end Wirestack
