import Wirestack.Tcp.Receiving

set_option autoImplicit false

/-! # The received stream

Against a peer whose segments are slices of one byte string `T`, in any order and with any overlap,
the bytes handed to the caller are at every moment the first bytes of `T`, and the end of the stream
is reported once, after all of them. `StreamInv` is the invariant; its step lemma also allows the
segments that lie entirely before `rcvNxt`, whatever they carry. -/

namespace Wirestack

open SerialNumber Chunks List Connection

variable {isn : SeqNum} {n : ℕ} {e : Event} {P : History → TcpSegment → Prop}

variable {T : List Byte} {c : Connection} {h : History}

/-! ## What an honest peer sends -/

/-- Payload and FIN are where they belong in the stream `T`, whose first byte has the sequence number
    `first`. -/
structure Carries (T : List Byte) (first : SeqNum) (segment : TcpSegment) : Prop where
  data : segment.payload ≠ [] →
    ∃ k, segment.sequenceNumber = pos first k ∧ segment.payload <+: T.drop k
  fin : segment.flags.fin = true → segment.segmentEnd = pos first T.length

theorem Slice.carries {segment : TcpSegment} (h : Slice T isn segment) :
    Carries T (isn + 1) segment := by
  refine ⟨h.data, fun hfin => ?_⟩
  obtain ⟨hseq, hpayload⟩ := h.fin hfin
  rw [TcpSegment.segmentEnd, hpayload, hseq]
  exact pos_zero _

/-- The segment ends at or before the `r`-th byte after the SYN and carries no FIN. -/
def Stale (r : ℕ) (isn : SeqNum) (segment : TcpSegment) : Prop :=
  segment.flags.fin = false ∧
    ∃ m, segment.sequenceNumber = pos isn m ∧ m + segment.payload.length ≤ r + 1

/-- The sequence number that the peer's FIN takes, once it is consumed. -/
def Connection.finTaken (c : Connection) : ℕ := if c.state.peerFinConsumed then 1 else 0

/-- The receive side after the first `n` bytes of `T` were handed out. -/
structure StreamInv (T : List Byte) (n : ℕ) (c : Connection) : Prop where
  rcvNxt : c.rcvNxt = pos (c.remoteIsn + 1) (n + c.finTaken)
  le : n ≤ T.length
  buffered : ∀ o b, Holds c.buffered o b → T[n + c.finTaken + o]? = some b
  fin : ∀ f, c.pendingFinSeq = some f → f = pos (c.remoteIsn + 1) T.length
  all : c.state.peerFinConsumed = true → n = T.length

theorem StreamInv.of_receive {c' : Connection} (h : StreamInv T n c)
    (hreceive : c'.view.receive = c.view.receive)
    (hstate : c'.state.peerFinConsumed = c.state.peerFinConsumed) : StreamInv T n c' := by
  obtain ⟨hrcv, hout, hfin, hisn⟩ := bufferOk_congr hreceive
  have htaken : c'.finTaken = c.finTaken := by rw [finTaken, hstate]; rfl
  refine ⟨?_, h.le, ?_, ?_, ?_⟩
  · rw [hrcv, hisn, htaken]
    exact h.rcvNxt
  · rw [Connection.buffered, hrcv, hout, htaken]
    exact h.buffered
  · rw [hfin, hisn]
    exact h.fin
  · rw [hstate]
    exact h.all

theorem Connection.finTaken_le (c : Connection) : c.finTaken ≤ 1 := by
  unfold finTaken
  split_ifs <;> omega

/-! ## One segment -/

section Segment

variable {T : List Byte} {n : ℕ} {c : Connection} {segment : TcpSegment}

theorem Carries.place {first : SeqNum} (h : Carries T first segment)
    (hsome : segment.payload ≠ [] ∨ segment.flags.fin = true) :
    ∃ k, segment.sequenceNumber = pos first k ∧ segment.payload <+: T.drop k ∧
      k + segment.payload.length ≤ T.length := by
  by_cases hne : segment.payload = []
  · have hend := h.fin (hsome.resolve_left fun h => h hne)
    rw [TcpSegment.segmentEnd, hne] at hend
    refine ⟨T.length, (pos_zero _).symm.trans hend, ?_, ?_⟩ <;> rw [hne]
    · exact List.nil_prefix
    · exact le_refl _
  · obtain ⟨k, hseq, hslice⟩ := h.data hne
    have hle := hslice.length_le
    have hpos := length_pos_iff.2 hne
    rw [length_drop] at hle
    exact ⟨k, hseq, hslice, by omega⟩

theorem StreamInv.windowTestExact (h : StreamInv T n c) (hT : T.length < 2 ^ 30)
    (hscale : c.ScaleOk) {k : ℕ} (hseq : segment.sequenceNumber = pos (c.remoteIsn + 1) k)
    (hend : k + segment.payload.length ≤ T.length) : c.WindowTestExact segment := by
  have hwindow := advertisedLogicalWindowFor_le_capacity hscale
  simp only [kTcpReceiveCapacity] at hwindow
  have hle := h.le
  have htaken := c.finTaken_le
  unfold WindowTestExact
  by_cases hahead : n + c.finTaken ≤ k
  · have hdist : ahead c.rcvNxt segment.sequenceNumber = k - (n + c.finTaken) := by
      rw [ahead, hseq, h.rcvNxt, toNat_pos_sub_pos _ hahead (by omega)]
    omega
  · have hback : ahead segment.sequenceNumber c.rcvNxt = n + c.finTaken - k := by
      rw [ahead, hseq, h.rcvNxt, toNat_pos_sub_pos _ (by omega) (by omega)]
    have hdist := ahead_swap (b := segment.sequenceNumber) (x := c.rcvNxt) (by omega)
    omega

theorem acceptsPart_carries (h : c.acceptsPart segment = true) :
    segment.payload ≠ [] ∨ segment.flags.fin = true := by
  simp only [acceptsPart, Bool.and_eq_true, Bool.not_eq_true', Bool.and_eq_false_iff,
    isEmpty_eq_false_iff, Bool.not_eq_false'] at h
  exact h.1

theorem StreamInv.stored (h : StreamInv T n c) (hT : T.length < 2 ^ 30) (hinv : ReceiveInv c)
    (hseg : Carries T (c.remoteIsn + 1) segment) (haccept : c.acceptsPart segment = true)
    (memory : ℕ → Byte) {o : ℕ} {b : Byte}
    (hb : Holds (buffer c.rcvNxt (storeSegment memory c segment).1.outOfOrder) o b) :
    T[n + c.finTaken + o]? = some b := by
  obtain ⟨k, hseq, hslice, hend⟩ := hseg.place (acceptsPart_carries haccept)
  have hexact := h.windowTestExact hT hinv.scale hseq hend
  rcases storeSegment_new_exact hinv.ok memory segment hinv.scale (by omega) hexact hb with
    hold | ⟨hin, j, hj, hpos⟩
  · exact h.buffered o b hold
  · have hwindow := advertisedLogicalWindowFor_le_capacity hinv.scale
    simp only [kTcpReceiveCapacity] at hwindow
    have hlt := (List.getElem?_eq_some_iff.1 hj).1
    have hle := h.le
    have htaken := c.finTaken_le
    rw [hseq, h.rcvNxt, pos_pos, pos_pos] at hpos
    have hsame := pos_inj _ (by omega) (by omega) hpos
    rw [← hsame, ← getElem?_drop]
    obtain ⟨rest, hrest⟩ := hslice
    rw [← hrest, getElem?_append_left hlt, hj]

theorem StreamInv.stale (h : StreamInv T n c) (hT : T.length < 2 ^ 30) (hscale : c.ScaleOk)
    (hseg : Stale (n + c.finTaken) c.remoteIsn segment) : c.acceptsPart segment = false := by
  obtain ⟨hfin, m, hseq, hend⟩ := hseg
  rw [Bool.eq_false_iff]
  intro haccept
  have hne := (acceptsPart_carries haccept).resolve_right (by rw [hfin]; simp)
  have hpos := length_pos_iff.2 hne
  have hwindow := advertisedLogicalWindowFor_le_capacity hscale
  simp only [kTcpReceiveCapacity] at hwindow
  have hle := h.le
  have htaken := c.finTaken_le
  have hrcv : c.rcvNxt = pos segment.sequenceNumber (n + c.finTaken + 1 - m) := by
    rw [hseq, pos_pos, h.rcvNxt, ← pos_one, pos_pos]
    congr 1
    omega
  obtain ⟨-, -, htest⟩ := @usable_behind c segment (by omega) (by omega) _ (by omega) (by omega)
    hrcv (by omega)
  rw [acceptsPart, htest, finInWindow, hfin] at haccept
  simp only [Bool.and_false, Bool.false_and, Bool.or_false, Bool.and_eq_true,
    decide_eq_true_eq] at haccept
  omega

theorem StreamInv.accepted (h : StreamInv T n c) {accepted : List Byte}
    (hin : ∀ i b, accepted[i]? = some b → T[n + c.finTaken + i]? = some b) :
    accepted <+: T.drop n := by
  cases hconsumed : c.state.peerFinConsumed with
  | false =>
    rw [prefix_iff_getElem?]
    intro i hi
    have := hin i accepted[i] (getElem?_eq_getElem hi)
    rwa [finTaken, hconsumed, if_neg (by simp), Nat.add_zero, ← getElem?_drop] at this
  | true =>
    have hnil : accepted = [] := by
      by_contra hne
      have hpos := length_pos_iff.2 hne
      have := hin 0 accepted[0] (getElem?_eq_getElem hpos)
      have hlt := (List.getElem?_eq_some_iff.1 this).1
      have := h.all hconsumed
      omega
    rw [hnil]
    exact List.nil_prefix

theorem finTaken_receivePart (hretained : c.pendingFinSeq.isSome = true → c.finEventsOpen = true)
    (memory : ℕ → Byte) (segment : TcpSegment) (now : TimePoint) :
    (receivePart memory c segment now).connection.finTaken =
      c.finTaken + if (receivePart memory c segment now).peerClosed then 1 else 0 := by
  have hstate := receivePart_peerFinConsumed hretained memory segment now
  unfold finTaken
  generalize receivePart memory c segment now = part at hstate ⊢
  split_ifs at hstate ⊢ <;> simp_all

/-- What the receive side does with an acceptable segment. -/
structure StreamPart (T : List Byte) (n : ℕ) (c : Connection) (part : Received) : Prop where
  accepted : part.accepted <+: T.drop n
  closed : part.peerClosed = true → n + part.accepted.length = T.length
  inv : StreamInv T (n + part.accepted.length) part.connection

theorem StreamInv.receivePart (h : StreamInv T n c) (hT : T.length < 2 ^ 30) (hinv : ReceiveInv c)
    (hretained : c.pendingFinSeq.isSome = true → c.finEventsOpen = true)
    (hseg : Carries T (c.remoteIsn + 1) segment ∨
      Stale (n + c.finTaken) c.remoteIsn segment) (memory : ℕ → Byte) (now : TimePoint) :
    StreamPart T n c (receivePart memory c segment now) := by
  rcases hseg with hseg | hstale
  · obtain ⟨haccepted, hkept⟩ := receivePart_forall hinv.ok memory segment now
      h.buffered fun haccept o b hb => h.stored hT hinv hseg haccept memory hb
    obtain ⟨hclosed, hpending⟩ := receivePart_fin hinv.ok memory segment now h.fin hseg.fin
    have hrcv := receivePart_rcvNxt hinv.ok memory segment now
    have hisn := receivePart_remoteIsn memory c segment now
    have htaken := finTaken_receivePart hretained memory segment now
    generalize Wirestack.receivePart memory c segment now = part at *
    have haccepted := h.accepted haccepted
    have hlen := haccepted.length_le
    have hle := h.le
    have hone := c.finTaken_le
    rw [length_drop] at hlen
    rw [h.rcvNxt, pos_pos] at hclosed hrcv
    have hall : part.peerClosed = true → n + part.accepted.length = T.length := by
      intro hpc
      have hsame := pos_inj _ (by omega) (by omega) (hclosed hpc)
      rw [hpc, if_pos rfl] at htaken
      have := part.connection.finTaken_le
      omega
    refine ⟨haccepted, hall, ?_, by omega, ?_, ?_, ?_⟩
    · rw [hrcv, hisn, htaken]
      congr 1
      omega
    · intro o b hb
      rw [htaken, ← hkept o b hb]
      congr 1
      omega
    · rwa [hisn]
    · intro hconsumed
      cases hpc : part.peerClosed with
      | true => exact hall hpc
      | false =>
        rw [finTaken, hconsumed, hpc] at htaken
        have hc : c.state.peerFinConsumed = true := by
          by_contra hnot
          simp [finTaken, if_neg hnot] at htaken
        have := h.all hc
        omega
  · have hpart : Wirestack.receivePart memory c segment now = { connection := c } := by
      rw [Wirestack.receivePart, h.stale hT hinv.scale hstale]
      rfl
    rw [hpart]
    exact ⟨List.nil_prefix, by simp, h⟩

end Segment

/-! ## One call -/

/-- What a call delivers and leaves behind. -/
structure StreamStep (T : List Byte) (n : ℕ) (c : Connection) (e : Event)
    (after : Option Connection) : Prop where
  delivered : e.delivered <+: T.drop n
  closed : e.peerClosed = true → n + e.delivered.length = T.length
  continues : ∀ c', after = some c' → StreamInv T (n + e.delivered.length) c'

theorem StreamInv.step (h : StreamInv T n c) (hT : T.length < 2 ^ 30) (hinv : ReceiveInv c)
    {after : Option Connection} (hstep : ReceiveStep c e after)
    (hseg : ∀ segment ∈ e.received, segment.flags.syn = false → Carries T (c.remoteIsn + 1) segment
      ∨ Stale (n + c.finTaken) c.remoteIsn segment) : StreamStep T n c e after := by
  cases hstep with
  | still hdelivered hclosed hkeep =>
    refine ⟨?_, ?_, fun c' hc' => ?_⟩
    · rw [hdelivered]
      exact List.nil_prefix
    · simp [hclosed]
    · rw [hdelivered]
      exact h.of_receive (hkeep c' hc').1 (hkeep c' hc').2
  | arrival memory segment result now c₀ part heq harrives hpart hdelivered hclosed hkeep =>
    obtain ⟨options, hproc⟩ := harrives.processes
    have h₀ := h.of_receive harrives.receive harrives.move.peerFinConsumed
    have hinv₀ := hinv.of_receive harrives.receive harrives.move.peerFinConsumed
    have hisn := (bufferOk_congr harrives.receive).2.2.2
    have hseg₀ := hseg segment (by rw [heq]; exact mem_singleton_self _) hproc.syn
    rw [← hisn, show c.finTaken = c₀.finTaken by
      rw [finTaken, ← harrives.move.peerFinConsumed]; rfl] at hseg₀
    have hstream := h₀.receivePart hT hinv₀ harrives.retained hseg₀ memory now
    rw [← hpart] at hstream
    refine ⟨?_, ?_, fun c' hc' => ?_⟩
    · rw [hdelivered]
      exact hstream.accepted
    · rw [hclosed, hdelivered]
      exact hstream.closed
    · rw [hdelivered]
      exact hstream.inv.of_receive (hkeep c' hc').1 (hkeep c' hc').2

theorem Unreceived.streamInv (hun : Unreceived h c) (hsync : c.state.synchronized = true)
    (T : List Byte) : StreamInv T 0 c := by
  have htaken : c.finTaken = 0 := by rw [finTaken, hun.peerFin]; rfl
  refine ⟨?_, Nat.zero_le _, ?_, ?_, ?_⟩
  · rw [htaken, hun.rcvNxt hsync]
    exact (pos_zero _).symm
  · intro o b hb
    rw [Connection.buffered, hun.nothing.outOfOrder] at hb
    exact absurd hb (by simp [Holds, buffer])
  · rw [hun.nothing.pendingFinSeq]
    exact fun f h => absurd h (by simp)
  · simp [hun.peerFin]

/-! ## Every run -/

/-- How much of the peer's sequence space was taken: the bytes delivered and the FIN. -/
def History.taken (h : History) : ℕ := h.delivered.length + h.peerClosedCount

/-- Every segment that came in, SYNs apart, satisfies `P` together with the history up to then. -/
def Hears (P : History → TcpSegment → Prop) (h : History) : Prop :=
  ∀ h₁ e h₂, h = h₁ ++ e :: h₂ → ∀ segment ∈ e.received, segment.flags.syn = false → P h₁ segment

theorem Hears.snoc : Hears P (h ++ [e]) ↔
      Hears P h ∧ ∀ segment ∈ e.received, segment.flags.syn = false → P h segment := by
  constructor
  · intro hears
    exact ⟨fun h₁ e' h₂ heq => hears h₁ e' (h₂ ++ [e]) (by rw [heq]; simp), hears h e [] rfl⟩
  · rintro ⟨hears, hlast⟩ h₁ e' h₂ heq
    rcases eq_nil_or_concat h₂ with rfl | ⟨h₂', e'', rfl⟩
    · obtain ⟨rfl, hsingle⟩ := append_inj' heq rfl
      obtain rfl : e = e' := by simpa using hsingle
      exact hlast
    · rw [concat_eq_append, ← cons_append, ← append_assoc] at heq
      exact hears h₁ e' h₂' (append_inj' heq rfl).1

theorem Hears.mono {Q : History → TcpSegment → Prop} (hears : Hears P h)
    (himp : ∀ h₁ segment, P h₁ segment → Q h₁ segment) : Hears Q h :=
  fun h₁ e h₂ heq segment hmem hsyn => himp h₁ segment (hears h₁ e h₂ heq segment hmem hsyn)

theorem prefix_append_drop {h p : List Byte} (hh : h <+: T) (hp : p <+: T.drop h.length) :
    h ++ p <+: T := by
  rwa [prefix_iff_eq_append.1 hh |>.symm, prefix_append_right_inj]

theorem Run.streamInv {s : Traced} (hs : Reachable s) {key : TcpConnectionKey}
    (hc : s.table.find? key = some c) (hsync : c.state.synchronized = true) (hT : T.length < 2 ^ 30)
    (hpeer : Hears (fun h segment => Carries T (c.remoteIsn + 1) segment ∨
      Stale h.taken c.remoteIsn segment) (s.history key)) :
    (s.history key).delivered <+: T ∧ StreamInv T (s.history key).delivered.length c := by
  refine Run.receive_invariant (fun h c => c.state.synchronized = true →
    Hears (fun h segment => Carries T (c.remoteIsn + 1) segment ∨
      Stale h.taken c.remoteIsn segment) h →
    h.delivered <+: T ∧ StreamInv T h.delivered.length c) ?_ ?_ hs hc hsync hpeer
  · intro h c hun hsync _
    rw [hun.delivered]
    exact ⟨List.nil_prefix, hun.streamInv hsync T⟩
  · intro s op e c c' _ _ hreceives ih _ hpeer
    obtain ⟨u, hsynced⟩ := hreceives.synced
    rw [hreceives.step.remoteIsn] at hpeer
    obtain ⟨hbefore, hlast⟩ := Hears.snoc.1 hpeer
    obtain ⟨hdelivered, hstream⟩ := ih hsynced.synchronized hbefore
    have hinv := Run.receiveInv hreceives.reachable hreceives.found
    obtain ⟨isn, hconn, -⟩ := (Run.keyInv hreceives.reachable key).conn
    rw [History.taken, (hconn c hreceives.found).peerClosed] at hlast
    have hstep := hstream.step hT hinv hreceives.step hlast
    rw [History.delivered_append, length_append]
    exact ⟨prefix_append_drop hdelivered hstep.delivered, hstep.continues c' rfl⟩

/-- Every segment that came in, opening SYNs apart, belongs to the stream `T`. -/
def HonestPeer (T : List Byte) (first : SeqNum) (h : History) : Prop :=
  ∀ segment ∈ h.received, segment.flags.syn = false → Carries T first segment

theorem HonestPeer.hears (hpeer : HonestPeer T (isn + 1) h) :
    Hears (fun h segment => Carries T (isn + 1) segment ∨ Stale h.taken isn segment) h := by
  intro h₁ e h₂ heq segment hmem hsyn
  refine .inl (hpeer segment ?_ hsyn)
  rw [heq, History.received, flatMap_append, flatMap_cons]
  exact mem_append_right _ (mem_append_left _ hmem)

/-- The caller has the first bytes of `T`, as many as `rcvNxt` says, and was told of the end of the
    stream when it had all of them. -/
structure StreamReceived (T : List Byte) (h : History) (c : Connection) : Prop where
  delivered : h.delivered = T.take ((c.rcvNxt - (c.remoteIsn + 1)).toNat - c.finTaken)
  count : (c.rcvNxt - (c.remoteIsn + 1)).toNat = h.delivered.length + c.finTaken
  closed : h.peerClosedCount = c.finTaken
  all : c.state.peerFinConsumed = true → h.delivered = T

/-- The next call delivers the next bytes of `T`, and reports the end of the stream exactly when it
    consumes the FIN. -/
structure StreamCall (T : List Byte) (h : History) (c : Connection) (e : Event)
    (after : Option Connection) : Prop where
  delivered : h.delivered ++ e.delivered <+: T
  closed : e.peerClosed = true ↔ c.state.peerFinConsumed = false ∧
    ∃ c', after = some c' ∧ c'.state.peerFinConsumed = true
  all : e.peerClosed = true → h.delivered ++ e.delivered = T

/-- **The received stream.** -/
theorem receiveStream_correct {s : Traced} (hs : Reachable s) {key : TcpConnectionKey}
    {c : Connection} (hc : s.table.find? key = some c) (hsync : c.state.synchronized = true)
    {T : List Byte} (hT : T.length < 2 ^ 30)
    (hpeer : HonestPeer T (c.remoteIsn + 1) (s.history key)) :
    StreamReceived T (s.history key) c ∧ ∀ op e, s.table.eventFor key op = some e →
        HonestPeer T (c.remoteIsn + 1) (s.history key ++ [e]) →
        StreamCall T (s.history key) c e ((s.step op).table.find? key) := by
  obtain ⟨hdelivered, hstream⟩ := Run.streamInv hs hc hsync hT hpeer.hears
  have hinv := Run.receiveInv hs hc
  obtain ⟨u, hsynced⟩ := Run.synced hs hc hsync
  have hle := hstream.le
  have htaken := c.finTaken_le
  have hcount : (c.rcvNxt - (c.remoteIsn + 1)).toNat =
      (s.history key).delivered.length + c.finTaken := by
    rw [hstream.rcvNxt]
    exact ahead_pos _ (by omega)
  refine ⟨⟨?_, hcount, (Run.connInv hs hc).peerClosed, fun hconsumed => ?_⟩, ?_⟩
  · rw [hcount, Nat.add_sub_cancel]
    exact prefix_iff_eq_take.1 hdelivered
  · exact hdelivered.eq_of_length (hstream.all hconsumed)
  · intro op e hevent hpeer'
    have hkey := Traced.step_of_event hc hevent
    have hcall := hsynced.step hkey
    have hstep := hstream.step hT hinv (receiveStep_of_keyStep hsynced hkey)
      fun segment hmem hsyn => .inl (hpeer' segment (by simp [hmem]) hsyn)
    have hnext := prefix_append_drop hdelivered hstep.delivered
    refine ⟨hnext, ⟨fun hclosed => ?_, ?_⟩, fun hclosed => ?_⟩
    · obtain ⟨hopen, hsome⟩ := hcall.closed hclosed
      obtain ⟨c', hc'⟩ := Option.isSome_iff_exists.1 hsome
      refine ⟨finEventsOpen_not_consumed hopen, c', hc', ?_⟩
      rw [(hcall.continues c' hc').peerFin, hclosed, Bool.or_true]
    · rintro ⟨hnot, c', hc', hconsumed⟩
      rwa [(hcall.continues c' hc').peerFin, hnot, Bool.false_or] at hconsumed
    · refine hnext.eq_of_length ?_
      rw [length_append]
      exact hstep.closed hclosed

/-- The end of the stream, then its beginning. -/
def exampleReordered : List Op :=
  [.handle noMemory exampleKey
      { exampleSegment 5003 [3] with flags := { ack := true, fin := true } } 0,
    .handle noMemory exampleKey (exampleSegment 5001 [1, 2]) 0]

theorem receiveStream_correct_example :
    ∃ c, (exampleRun [] exampleReordered).table.find? exampleKey = some c ∧ c.state = .closeWait ∧
      StreamReceived [1, 2, 3] ((exampleRun [] exampleReordered).history exampleKey) c := by
  obtain ⟨c, hc, hstate, hisn, hreceived⟩ := exampleRun_at [] exampleReordered
    (fun h c => c.state = .closeWait ∧ c.remoteIsn = 5000 ∧ h.received = [exampleSynAck [],
      { exampleSegment 5003 [3] with flags := { ack := true, fin := true } },
      exampleSegment 5001 [1, 2]]) (by decide +kernel)
  refine ⟨c, hc, hstate, (receiveStream_correct (exampleRun_reachable _ _) hc (by rw [hstate]; rfl)
    (by decide) ?_).1⟩
  rw [HonestPeer, hreceived, hisn]
  simp only [forall_mem_cons]
  refine ⟨fun h => absurd h (by decide), fun _ => ⟨fun _ => ⟨2, rfl, by decide⟩, fun _ => rfl⟩,
    fun _ => ⟨fun _ => ⟨0, rfl, by decide⟩, fun h => absurd h (by decide)⟩, by simp⟩

end Wirestack
