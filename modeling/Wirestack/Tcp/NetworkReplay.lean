import Wirestack.Tcp.Network
import Wirestack.Tcp.Replay

set_option autoImplicit false

/-! # Replaying calls at both ends

A concrete run of two tables is followed on the two connections alone: `performDuo` computes what a
list of calls leaves behind at each end, checking that only emitted segments are handed to `handle`,
and `Duo.Run.replay_at` says that this is a run. `exampleDuo` is the run the concrete inputs below
start from: `exampleKey` is opened, and the listener has accepted the SYN. -/

namespace Wirestack

open TcpConnectionTable Option

variable {key : TcpConnectionKey} {sent : List TcpSegment} {op : Op}

/-- Whether the network can lead to the call; a second open is left out. -/
def Op.possible (key : TcpConnectionKey) (sent : List TcpSegment) : Op → Bool
  | .beginConnect _ _ => false
  | .handle _ k segment _ => decide (k = key → segment ∈ sent)
  | _ => true

theorem Op.possible.genuine (h : op.possible key sent = true) : Genuine key sent op := by
  rintro memory segment now rfl
  exact of_decide_eq_true h rfl

theorem Op.possible.not_connect (h : op.possible key sent = true) (k : TcpConnectionKey)
    (now : TimePoint) : op ≠ .beginConnect k now := by
  rintro rfl
  exact absurd h (by simp [Op.possible])

/-- A call at one of the two ends, or the delivery of the `n`-th segment the other end emitted. -/
inductive Move where
  | active (op : Op)
  | passive (op : Op)
  | toActive (n : ℕ)
  | toPassive (n : ℕ)

variable {moves : List Move}

/-- What a call leaves behind at both ends, as long as both have the connection. -/
def performActive (key : TcpConnectionKey) (a b : History × Connection) (op : Op) :
    Option ((History × Connection) × (History × Connection)) :=
  if op.possible key b.1.emitted then
    match performAt key a.2 op with
    | some (e, some c) => some ((a.1 ++ [e], c), b)
    | _ => none
  else none

def performPassive (key : TcpConnectionKey) (a b : History × Connection) (op : Op) :
    Option ((History × Connection) × (History × Connection)) :=
  if op.possible key.peer a.1.emitted then
    match performAt key.peer b.2 op with
    | some (e, some c) => some (a, (b.1 ++ [e], c))
    | _ => none
  else none

def performMove (key : TcpConnectionKey) (a b : History × Connection) :
    Move → Option ((History × Connection) × (History × Connection))
  | .active op => performActive key a b op
  | .passive op => performPassive key a b op
  | .toActive n => b.1.emitted[n]?.bind fun segment =>
      performActive key a b (.handle noMemory key segment 0)
  | .toPassive n => a.1.emitted[n]?.bind fun segment =>
      performPassive key a b (.handle noMemory key.peer segment 0)

def performDuo (key : TcpConnectionKey) : List Move → History × Connection → History × Connection →
    Option ((History × Connection) × (History × Connection))
  | [], a, b => some (a, b)
  | move :: moves, a, b => (performMove key a b move).bind fun p => performDuo key moves p.1 p.2

/-- The live state `d` of the two ends of `key`. -/
structure Duo.At (key : TcpConnectionKey) (d : Duo) (a b : History × Connection) : Prop where
  run : Duo.Run key d
  live : d.ended = false
  active : d.active.at key = (a.1, some a.2)
  passive : d.passive.at key.peer = (b.1, some b.2)

theorem Traced.removes_of_kept {s : Traced} {h : History} {c : Connection}
    (hafter : (s.step op).at key = (h, some c)) : s.removes key op = false := by
  rw [Traced.removes, (Prod.mk.inj hafter).2]
  exact Bool.and_false _

section Replay

variable {key : TcpConnectionKey} {d : Duo} {a b a' b' : History × Connection}

theorem Duo.At.performActive (hd : d.At key a b) (hop : performActive key a b op = some (a', b')) :
    ∃ d', Duo.At key d' a' b' := by
  unfold Wirestack.performActive at hop
  split_ifs at hop with hpossible
  split at hop
  · next e c hperform =>
    cases hop
    have hafter := Traced.step_at hd.active hperform
    have hremoves := Traced.removes_of_kept hafter
    refine ⟨_, .step d _ hd.run hd.live (.active op ?_), hremoves, hafter, hd.passive⟩
    rw [(Prod.mk.inj hd.passive).1]
    exact Op.possible.genuine hpossible
  · cases hop

theorem Duo.At.performPassive (hd : d.At key a b) (hop : performPassive key a b op = some (a', b')) :
    ∃ d', Duo.At key d' a' b' := by
  unfold Wirestack.performPassive at hop
  split_ifs at hop with hpossible
  split at hop
  · next e c hperform =>
    cases hop
    have hafter := Traced.step_at hd.passive hperform
    have hremoves := Traced.removes_of_kept hafter
    refine ⟨_, .step d _ hd.run hd.live (.passive op ?_ fun now =>
      Op.possible.not_connect hpossible _ now), hremoves, hd.active, hafter⟩
    rw [(Prod.mk.inj hd.active).1]
    exact Op.possible.genuine hpossible
  · cases hop

theorem Duo.At.performMove (hd : d.At key a b) {move : Move}
    (hmove : performMove key a b move = some (a', b')) : ∃ d', Duo.At key d' a' b' := by
  cases move with
  | active op => exact hd.performActive hmove
  | passive op => exact hd.performPassive hmove
  | toActive n =>
    obtain ⟨segment, -, hop⟩ := bind_eq_some_iff.1 hmove
    exact hd.performActive hop
  | toPassive n =>
    obtain ⟨segment, -, hop⟩ := bind_eq_some_iff.1 hmove
    exact hd.performPassive hop

theorem Duo.At.replay (hd : d.At key a b) (hmoves : performDuo key moves a b = some (a', b')) :
    ∃ d', Duo.At key d' a' b' := by
  induction moves generalizing d a b with
  | nil =>
    cases hmoves
    exact ⟨d, hd⟩
  | cons move moves ih =>
    obtain ⟨⟨a₁, b₁⟩, hmove, hrest⟩ := bind_eq_some_iff.1 hmoves
    obtain ⟨d₁, hd₁⟩ := hd.performMove hmove
    exact ih hd₁ hrest

end Replay

/-! ## An example pair -/

/-- The other end of `exampleKey`: it listens on port 80 and draws the number 5000. -/
def exampleListener : TcpConnectionTable :=
  { listenPort := 80
    isnGenerator := fun _ => some 5000 }

/-- The SYN of `exampleKey`, as `beginConnect` emits it, and the options it offers. -/
def exampleSyn : TcpSegment := makeActiveSyn exampleKey (activeConnection 1000)

def exampleOffer : TcpParsedOptions :=
  { maximumSegmentSize := some 1460
    windowScale := some 2
    sackPermitted := true }

/-- The listener's end after the SYN. -/
def exampleAccepted : History × Connection :=
  ([.handle exampleSyn
      { reply := some (makeSynAck exampleKey.peer
          (passiveConnection exampleSyn exampleOffer 5000)) }],
    acceptedWith exampleSyn exampleOffer 5000 0)

def exampleConnected : History × Connection :=
  ([.beginConnect { accepted := true, syn := some exampleSyn }], connectedWith 1000 0)

theorem exampleListener_accept :
    (Traced.step ⟨exampleListener, fun _ => []⟩ (.handle noMemory exampleKey.peer exampleSyn 0)).at
        exampleKey.peer = (exampleAccepted.1, some exampleAccepted.2) := by
  have hnone : exampleListener.find? exampleKey.peer = none := find?_empty rfl _
  have hcapacity : exampleListener.atCapacity = false := by
    have hnil : exampleListener.connections.toList = [] := by
      rw [← List.length_eq_zero_iff, Std.ExtTreeMap.length_toList]
      rfl
    simp only [atCapacity, halfOpenCount, hnil]
    simp [exampleListener]
  have hhandle : exampleListener.handle noMemory exampleKey.peer exampleSyn 0 =
      ({ exampleListener with
          isnDraws := 1
          lastIsn := some 5000
          connections := exampleListener.connections.insert exampleKey.peer exampleAccepted.2 },
        { reply := some (makeSynAck exampleKey.peer
            (passiveConnection exampleSyn exampleOffer 5000)) }) := by
    have hoptions : parseTcpOptions exampleSyn.options = .ok exampleOffer := by decide +kernel
    rw [handle, hnone]
    unfold handleUnknown acceptSyn
    rw [if_neg (by decide), if_neg (by decide), if_neg (by decide), hoptions, hcapacity]
    rfl
  have hsome : (exampleListener.handle noMemory exampleKey.peer exampleSyn 0).1.find?
      exampleKey.peer = some exampleAccepted.2 := by
    rw [hhandle]
    exact Std.ExtTreeMap.getElem?_insert_self
  simp only [Traced.at, Traced.step, apply, eventFor, hsome, hnone, if_true]
  rw [hhandle]
  rfl

theorem exampleDuo : ∃ d, Duo.At exampleKey d exampleConnected exampleAccepted := by
  have hstart : Duo.Run exampleKey ⟨exampleStart, ⟨exampleListener, fun _ => []⟩, false⟩ :=
    .start exampleTable exampleListener rfl rfl rfl
  have hopen := Duo.Run.step _ _ hstart rfl (.active (.beginConnect exampleKey 0) nofun)
  have hactive := exampleStart_connect
  have hkept := Traced.removes_of_kept hactive
  have haccept := Duo.Run.step _ _ hopen hkept
    (.passive (.handle noMemory exampleKey.peer exampleSyn 0) ?_ fun _ => by simp)
  · exact ⟨_, haccept, Traced.removes_of_kept exampleListener_accept, hactive,
      exampleListener_accept⟩
  · rintro memory segment now ⟨⟩
    rw [show (exampleStart.step (.beginConnect exampleKey 0)).history exampleKey = _ from
      (Prod.mk.inj hactive).1]
    exact List.mem_singleton_self _

theorem exampleDuo_at {α : Type} {f : (History × Connection) × (History × Connection) → α} {v : α}
    (hrun : (performDuo exampleKey moves exampleConnected exampleAccepted).map f = some v) :
    ∃ d ca cb, Duo.Run exampleKey d ∧ d.ended = false ∧ d.active.table.find? exampleKey = some ca ∧
      d.passive.table.find? exampleKey.peer = some cb ∧
      f ((d.active.history exampleKey, ca), (d.passive.history exampleKey.peer, cb)) = v := by
  obtain ⟨⟨⟨ha, ca⟩, ⟨hb, cb⟩⟩, houtcome, hf⟩ := map_eq_some_iff.1 hrun
  obtain ⟨d₀, hd₀⟩ := exampleDuo
  obtain ⟨d, hd⟩ := hd₀.replay houtcome
  obtain ⟨hha, hca⟩ := Prod.mk.inj hd.active
  obtain ⟨hhb, hcb⟩ := Prod.mk.inj hd.passive
  exact ⟨d, ca, cb, hd.run, hd.live, hca, hcb, by rw [hha, hhb, hf]⟩

end Wirestack
