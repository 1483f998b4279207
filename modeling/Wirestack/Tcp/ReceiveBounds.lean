import Wirestack.Tcp.Arrival
import Wirestack.Tcp.ReceiveWindow

set_option autoImplicit false

/-! # The receive buffer stays inside what was promised

Whatever arrives, fragments are sorted, disjoint, non-adjacent and few. That they lie inside the
receive capacity, and that nothing outside the advertised window is stored, depends on the window
test: `receiveBuffer_bounded` proves it for the runs in which the test is exact, and
`receiveBuffer_exceeded` is a run in which it is not. A segment that the test takes for one that reaches
across the window makes the source read outside the segment (`farByte_reads_outside`). -/

namespace Wirestack

open SerialNumber Chunks List TcpConnectionTable Connection

variable {c : Connection} {segment : TcpSegment} {s : Traced} {key : TcpConnectionKey}

/-! ## The buffer stays inside what was promised -/

/-- Fragments are sorted by offset, non-empty, disjoint and never adjacent, few, and inside the
    receive capacity. -/
structure ReceiveBounded (c : Connection) : Prop where
  apart : c.outOfOrder.Pairwise fun f g =>
    ahead c.rcvNxt f.sequenceStart + f.payload.length < ahead c.rcvNxt g.sequenceStart
  nonempty : ∀ f ∈ c.outOfOrder, f.payload ≠ []
  count : c.outOfOrder.length ≤ kMaxReassemblyFragments
  within : ∀ f ∈ c.outOfOrder,
    ahead c.rcvNxt f.sequenceStart + f.payload.length ≤ kTcpReceiveCapacity
  bytes : c.bufferedReceiveBytes ≤ kTcpReceiveCapacity

/-- A byte at offset `o` that is the segment's own and lies in the window advertised before. -/
def Connection.Promised (c : Connection) (segment : TcpSegment) (o : ℕ) (b : Byte) : Prop :=
  o < c.advertisedLogicalWindowFor ∧
    ∃ j, segment.payload[j]? = some b ∧ pos segment.sequenceNumber j = pos c.rcvNxt o

/-- Every byte that is delivered, or is buffered afterwards, was buffered before or promised. -/
structure StoresPromised (c : Connection) (segment : TcpSegment) (delivered : List Byte)
    (after : Option Connection) : Prop where
  delivered : ∀ o b, delivered[o]? = some b →
    Holds c.buffered o b ∨ c.Promised segment o b
  buffered : ∀ c', after = some c' → ∀ o b, Holds c'.buffered o b →
    Holds c.buffered (ahead c.rcvNxt c'.rcvNxt + o) b ∨
      c.Promised segment (ahead c.rcvNxt c'.rcvNxt + o) b

/-- The window test compares what it means to compare, for each segment that reaches it. -/
def WindowTestsExact (s : Traced) : Op → Prop
  | .handle _ key segment _ => ∀ c, s.table.find? key = some c → ReachesWindow c segment →
    segment.payload.length ≤ kMaxParsedPayload ∧ c.WindowTestExact segment
  | _ => True

/-- The offsets of the buffered bytes lie inside the capacity. -/
def Connection.InCapacity (c : Connection) : Prop :=
  ∀ o b, Holds c.buffered o b → o < kTcpReceiveCapacity

theorem inCapacity_of_nothing (h : NothingReceived c) : c.InCapacity := by
  intro o b hb
  rw [buffered, h.outOfOrder] at hb
  exact absurd hb (by simp [Holds, buffer])

theorem inCapacity_of_receive {c' : Connection} (h : c.InCapacity)
    (hreceive : c'.view.receive = c.view.receive) : c'.InCapacity := by
  obtain ⟨hrcv, hout, -⟩ := bufferOk_congr hreceive
  rwa [InCapacity, buffered, hrcv, hout]

theorem receivePart_promised (hinv : ReceiveInv c) (hexact : c.acceptsPart segment = true →
      segment.payload.length ≤ kMaxParsedPayload ∧ c.WindowTestExact segment)
    (memory : ℕ → Byte) (now : TimePoint) :
    (∀ o b, (receivePart memory c segment now).accepted[o]? = some b →
      Holds c.buffered o b ∨ c.Promised segment o b) ∧
    ∀ o b, Holds (receivePart memory c segment now).connection.buffered o b →
      Holds c.buffered ((receivePart memory c segment now).accepted.length +
        (if (receivePart memory c segment now).peerClosed then 1 else 0) + o) b ∨
      c.Promised segment ((receivePart memory c segment now).accepted.length +
        (if (receivePart memory c segment now).peerClosed then 1 else 0) + o) b := by
  refine receivePart_forall hinv.ok memory segment now (Q := fun o b => Holds c.buffered o b ∨
    c.Promised segment o b) (fun o b hb => .inl hb) fun haccept o b hb => ?_
  obtain ⟨hlen, hexact⟩ := hexact haccept
  simp only [kMaxParsedPayload] at hlen
  exact storeSegment_new_exact hinv.ok memory segment hinv.scale (by omega) hexact hb

theorem length_accepted_le (hcap : c.InCapacity) (hscale : c.ScaleOk) {delivered : List Byte}
    (h : ∀ o b, delivered[o]? = some b → Holds c.buffered o b ∨ c.Promised segment o b) :
    delivered.length ≤ kTcpReceiveCapacity := by
  rcases eq_nil_or_concat delivered with rfl | ⟨front, b, rfl⟩
  · exact Nat.zero_le _
  · have hlast : (front.concat b)[front.length]? = some b := by simp
    rw [length_concat]
    rcases h _ _ hlast with hb | hb
    · exact hcap _ _ hb
    · exact lt_of_lt_of_le hb.1 (advertisedLogicalWindowFor_le_capacity hscale)

theorem promised_congr {c' : Connection} (h : c'.view.receive = c.view.receive)
    (segment : TcpSegment) : c'.Promised segment = c.Promised segment := by
  funext o b
  rw [Promised, Promised, advertisedLogicalWindowFor_congr h, (bufferOk_congr h).1]

theorem storesPromised_of_step (hinv : ReceiveInv c) (hcap : c.InCapacity) {e : Event}
    {after : Option Connection} (hstep : ReceiveStep c e after)
    (hexact : ∀ segment result, e = .handle segment result → ReachesWindow c segment →
      segment.payload.length ≤ kMaxParsedPayload ∧ c.WindowTestExact segment) :
    (∀ c', after = some c' → c'.InCapacity) ∧ ∀ segment result, e = .handle segment result →
        StoresPromised c segment e.delivered after := by
  cases hstep with
  | still hdelivered _ hkeep =>
    refine ⟨fun c' hc' => inCapacity_of_receive hcap (hkeep c' hc').1,
      fun segment result _ => ⟨?_, ?_⟩⟩
    · rw [hdelivered]
      simp
    · intro c' hc' o b hb
      obtain ⟨hrcv, hout, -⟩ := bufferOk_congr (hkeep c' hc').1
      rw [buffered, hrcv, hout] at hb
      rw [hrcv, ahead_self, Nat.zero_add]
      exact .inl hb
  | arrival memory segment result now c₀ part heq harrives hpart hdelivered hclosed hkeep =>
    have hinv₀ := hinv.of_receive harrives.receive harrives.move.peerFinConsumed
    obtain ⟨hrcv, hout, -⟩ := bufferOk_congr harrives.receive
    have hbuffered : c₀.buffered = c.buffered := by rw [buffered, buffered, hrcv, hout]
    have hexact₀ : c₀.acceptsPart segment = true →
        segment.payload.length ≤ kMaxParsedPayload ∧ c₀.WindowTestExact segment := by
      rw [WindowTestExact, hrcv, advertisedLogicalWindowFor_congr harrives.receive]
      exact fun haccepts => hexact segment result heq (harrives.reachesWindow haccepts)
    obtain ⟨haccepted, hkept⟩ := receivePart_promised hinv₀ hexact₀ memory now
    rw [hbuffered, promised_congr harrives.receive] at haccepted hkept
    have hadvance := receivePart_rcvNxt hinv₀.ok memory segment now
    rw [← hpart] at haccepted hkept hadvance
    rw [hrcv] at hadvance
    have hcount := length_accepted_le hcap hinv.scale haccepted
    simp only [kTcpReceiveCapacity] at hcount
    have hshift : ahead c.rcvNxt part.connection.rcvNxt =
        part.accepted.length + if part.peerClosed then 1 else 0 := by
      rw [hadvance, ahead_pos]
      split_ifs <;> omega
    have hbelow : ∀ o b, Holds part.connection.buffered o b →
        Holds c.buffered (ahead c.rcvNxt part.connection.rcvNxt + o) b ∨
          c.Promised segment (ahead c.rcvNxt part.connection.rcvNxt + o) b := by
      rwa [hshift]
    refine ⟨fun c' hc' => inCapacity_of_receive ?_ (hkeep c' hc').1, fun segment' result' heq' =>
      ⟨?_, fun c' hc' o b hb => ?_⟩⟩
    · intro o b hb
      rcases hbelow o b hb with h | h
      · have := hcap _ _ h
        omega
      · have := lt_of_lt_of_le h.1 (advertisedLogicalWindowFor_le_capacity hinv.scale)
        omega
    · rw [heq] at heq'
      cases heq'
      rwa [hdelivered]
    · rw [heq] at heq'
      cases heq'
      obtain ⟨hrcv', hout', -⟩ := bufferOk_congr (hkeep c' hc').1
      rw [buffered, hrcv', hout'] at hb
      rw [hrcv']
      exact hbelow o b hb

theorem WindowTestsExact.event {op : Op} (h : WindowTestsExact s op)
    (hc : s.table.find? key = some c) {e : Event} (hevent : s.table.eventFor key op = some e)
    {result : TcpReceiveResult} (he : e = .handle segment result) (hreaches : ReachesWindow c segment) :
    segment.payload.length ≤ kMaxParsedPayload ∧ c.WindowTestExact segment := by
  subst he
  obtain ⟨memory, now, rfl⟩ := op_of_handle hevent
  exact h c hc hreaches

theorem Run.inCapacity (hs : Run WindowTestsExact s) (hc : s.table.find? key = some c) :
    c.InCapacity := by
  refine Run.receive_invariant (fun _ c => c.InCapacity)
    (fun h c hun => inCapacity_of_nothing hun.nothing) ?_ hs hc
  intro s op e c c' hok hevent hreceives hcap
  have hinv := Run.receiveInv hreceives.reachable hreceives.found
  exact (storesPromised_of_step hinv hcap hreceives.step
    fun segment result he => hok.event hreceives.found hevent he).1 c' rfl

theorem receiveBounded_of_inCapacity (hinv : ReceiveInv c) (hcap : c.InCapacity)
    (hretained : c.pendingFinSeq.isSome = true → c.finEventsOpen = true) : ReceiveBounded c := by
  have hstop : ∀ d ∈ c.buffered, d.stop ≤ kTcpReceiveCapacity := by
    intro d hd
    have hne := hinv.ok.canonical.nonempty d hd
    have hlt := Chunk.start_lt_stop hne
    obtain ⟨b, hb⟩ := d.exists_has (o := d.stop - 1) ⟨by simp only [Chunk.range]; omega,
      by simp only [Chunk.range]; omega⟩
    have := hcap (d.stop - 1) b ⟨d, hd, hb⟩
    omega
  refine ⟨?_, ?_, hinv.ok.limit, ?_, ?_⟩
  · exact pairwise_map.1 hinv.ok.canonical.apart
  · intro f hf
    exact hinv.ok.canonical.nonempty _ (mem_map_of_mem hf)
  · intro f hf
    exact hstop _ (mem_map_of_mem hf)
  · have hlo : ∀ d ∈ c.buffered, (if c.pendingFinSeq.isSome then 1 else 0) ≤ d.start := by
      intro d hd
      split_ifs with hfin
      · exact hinv.ahead (finEventsOpen_not_consumed (hretained hfin)) d hd
      · exact Nat.zero_le _
    have hsum := hinv.ok.canonical.sum_length_le fun d hd => ⟨hlo d hd, hstop d hd⟩
    have hmap : (c.buffered.map fun d => d.data.length) = c.outOfOrder.map (·.payload.length) := by
      simp [buffered, buffer, TcpReassemblyFragment.toChunk, Function.comp_def]
    rw [hmap] at hsum
    unfold bufferedReceiveBytes
    simp only [kTcpReceiveCapacity] at hsum ⊢
    split_ifs at hsum ⊢ <;> omega

theorem Run.retained (hs : Reachable s) (hc : s.table.find? key = some c) :
    c.pendingFinSeq.isSome = true → c.finEventsOpen = true := by
  cases (Run.connInv hs hc).ok with
  | halfOpen hopen =>
    rw [hopen.received.pendingFinSeq]
    exact nofun
  | synced u hsynced => exact hsynced.retained

/-- **The receive buffer stays inside what was promised** in every run in which the window test is
    exact for each segment that reaches it. -/
theorem receiveBuffer_bounded {s : Traced} (hs : Run WindowTestsExact s) {key : TcpConnectionKey}
    {c : Connection} (hc : s.table.find? key = some c) :
    ReceiveBounded c ∧ ∀ memory segment now, WindowTestsExact s (.handle memory key segment now) →
      StoresPromised c segment (s.table.handle memory key segment now).2.acceptedPayload
        ((s.table.handle memory key segment now).1.find? key) := by
  have hreach := hs.reachable
  have hinv := Run.receiveInv hreach hc
  have hcap := Run.inCapacity hs hc
  refine ⟨receiveBounded_of_inCapacity hinv hcap (Run.retained hreach hc), ?_⟩
  intro memory segment now hok
  rw [handle_of_some hc, find?_put, if_pos rfl]
  have hkey : KeyStep s.table.listenPort key (some c)
      (.handle segment (handleExisting memory key c segment now).2)
      (handleExisting memory key c segment now).1 := .handle memory c segment now
  obtain ⟨isn, hconn, -⟩ := (Run.keyInv hreach key).conn
  cases (hconn c hc).ok with
  | halfOpen hopen =>
      have hhalf := hopen.step hkey
      have hdelivered : (handleExisting memory key c segment now).2.acceptedPayload = [] :=
        hhalf.delivered
      refine ⟨by simp [hdelivered], fun c' hc' o b hb => ?_⟩
      have hnothing : NothingReceived c' := by
        rcases hhalf.continues c' hc' with hview | ⟨_, _, -, hest⟩
        · exact (hopen.of_view hview).received
        · exact hest.fresh.received
      rw [buffered, hnothing.outOfOrder] at hb
      exact absurd hb (by simp [Holds, buffer])
  | synced u hsynced =>
      refine (storesPromised_of_step hinv hcap (receiveStep_of_keyStep hsynced hkey) ?_).2
        segment _ rfl
      intro segment' result heq
      cases heq
      exact hok c hc

/-- An out-of-order byte is buffered, then the bytes before it arrive. -/
theorem receiveBuffer_bounded_example :
    ∃ c, (exampleRun [] [.handle noMemory exampleKey (exampleSegment 5003 [0xbb]) 0]).table.find?
        exampleKey = some c ∧
      c.outOfOrder = [⟨5003, [0xbb]⟩] ∧ ReceiveBounded c ∧
      StoresPromised c (exampleSegment 5001 [0xaa, 0xaa])
        ((exampleRun [] [.handle noMemory exampleKey (exampleSegment 5003 [0xbb]) 0]).table.handle
          noMemory exampleKey (exampleSegment 5001 [0xaa, 0xaa]) 0).2.acceptedPayload
        (((exampleRun [] [.handle noMemory exampleKey (exampleSegment 5003 [0xbb]) 0]).table.handle
          noMemory exampleKey (exampleSegment 5001 [0xaa, 0xaa]) 0).1.find? exampleKey) := by
  obtain ⟨c₁, hc₁, hval₁⟩ := exampleRun_at [] []
    (fun _ c => c.rcvNxt = 5001 ∧ c.advertisedLogicalWindowFor = 65535) (by decide +kernel)
  obtain ⟨c₂, hc₂, hval₂⟩ := exampleRun_at []
    [.handle noMemory exampleKey (exampleSegment 5003 [0xbb]) 0]
    (fun _ c => c.rcvNxt = 5001 ∧ c.advertisedLogicalWindowFor = 65535 ∧
      c.outOfOrder = [⟨5003, [0xbb]⟩]) (by decide +kernel)
  have hsyn : ∀ s : Traced, WindowTestsExact s (.beginConnect exampleKey 0) ∧
      WindowTestsExact s (.handle noMemory exampleKey (exampleSynAck []) 0) := fun s =>
    ⟨trivial, fun c _ hreaches => by simpa [exampleSynAck] using hreaches.carries⟩
  have hfirst : WindowTestsExact (exampleRun [] [])
      (.handle noMemory exampleKey (exampleSegment 5003 [0xbb]) 0) := by
    intro c hc _
    rw [hc₁, Option.some.injEq] at hc
    rw [← hc, WindowTestExact, hval₁.1, hval₁.2]
    decide
  have hsecond : WindowTestsExact
      (exampleRun [] [.handle noMemory exampleKey (exampleSegment 5003 [0xbb]) 0])
      (.handle noMemory exampleKey (exampleSegment 5001 [0xaa, 0xaa]) 0) := by
    intro c hc _
    rw [hc₂, Option.some.injEq] at hc
    rw [← hc, WindowTestExact, hval₂.1, hval₂.2.1]
    decide
  have hrun : Run WindowTestsExact
      (exampleRun [] [.handle noMemory exampleKey (exampleSegment 5003 [0xbb]) 0]) :=
    .step _ _ (.step _ _ (.step _ _ (.start exampleTable rfl) (hsyn _).1) (hsyn _).2) hfirst
  obtain ⟨hbounded, hstores⟩ := receiveBuffer_bounded hrun hc₂
  exact ⟨c₂, hc₂, hval₂.2.2, hbounded, hstores noMemory _ 0 hsecond⟩

theorem receivePart_far (hinv : ReceiveInv c) (hstate : c.state.peerFinConsumed = false)
    (hnofin : c.pendingFinSeq = none) (hfin : segment.flags.fin = false)
    (hdist : ahead c.rcvNxt segment.sequenceNumber = 2 ^ 31)
    (hlen : c.advertisedLogicalWindowFor ≤ segment.payload.length)
    (hshort : segment.payload.length ≤ kMaxParsedPayload)
    (hroom : c.outOfOrder.length < kMaxReassemblyFragments)
    (hfree : ∀ d ∈ c.buffered, d.stop ≤ 2 ^ 31) {b : Byte} (hb : segment.payload[0]? = some b)
    (memory : ℕ → Byte) (now : TimePoint) :
    (receivePart memory c segment now).connection.rcvNxt = c.rcvNxt ∧
      Holds (receivePart memory c segment now).connection.buffered (2 ^ 31) b := by
  have hwindow := advertisedLogicalWindowFor_le_capacity hinv.scale
  simp only [kTcpReceiveCapacity, kMaxParsedPayload] at hwindow hshort
  have hpos : 0 < segment.payload.length := (List.getElem?_eq_some_iff.1 hb).1
  have hseq : segment.sequenceNumber = pos c.rcvNxt (2 ^ 31) := by rw [← hdist, pos_ahead]
  have hsegEnd : segment.segmentEnd = pos c.rcvNxt (2 ^ 31 + segment.payload.length) := by
    rw [← pos_pos, ← hseq]
    rfl
  have hstart : c.usableStart segment = segment.sequenceNumber := by
    rw [usableStart_eq, if_pos hdist.le]
  have hend : c.usableEnd segment = segment.segmentEnd := by
    have hless : sequenceGreater segment.segmentEnd c.windowEnd = false := by
      rw [Bool.eq_false_iff, Ne, sequenceGreater_iff, hsegEnd,
        show c.windowEnd = pos c.rcvNxt c.advertisedLogicalWindowFor from rfl, ahead,
        toNat_pos_sub_pos _ (by omega) (by omega)]
      omega
    rw [usableEnd, sequenceMin, hless]
    rfl
  have hcount : ahead (c.usableStart segment) (c.usableEnd segment) = segment.payload.length := by
    rw [hstart, hend, hsegEnd, hseq, ahead, toNat_pos_sub_pos _ (by omega) (by omega)]
    omega
  have hany : c.anyPayloadInWindow segment = true := by
    rw [anyPayloadInWindow, sequenceGreater_iff, hcount]
    omega
  have hstored := storeSegment_stored hinv.ok memory segment
  have hholds : Holds (buffer c.rcvNxt (storeSegment memory c segment).1.outOfOrder) (2 ^ 31) b := by
    have hat : ahead c.rcvNxt (c.usableStart segment) = 2 ^ 31 := by rw [hstart, hdist]
    rw [← hat]
    refine storeSegment_first hinv.ok memory segment hroom hany ?_ ?_
    · rintro ⟨d, hd, -, hhi⟩
      have := hfree d hd
      simp only [Chunk.range] at hhi
      omega
    · rw [usablePayload, show (c.usableEnd segment - c.usableStart segment).toNat = _ from hcount, hstart,
        BitVec.sub_self, BitVec.toNat_zero, readRange_eq (by omega), drop_zero, take_length,
        hb]
  have hpart : (receivePart memory c segment now).connection = (storeSegment memory c segment).1 :=
    receivePart_beyond hnofin hfin hany (length_pos_iff.1 hpos) ?_ now
  · have hrcv : (storeSegment memory c segment).1.rcvNxt = c.rcvNxt := by rw [storeSegment_eq]
    rw [hpart, buffered, hrcv]
    exact ⟨rfl, hholds⟩
  · intro d hd
    obtain ⟨b', hb'⟩ := d.exists_has
      ⟨le_refl _, Chunk.start_lt_stop (hstored.ok.canonical.nonempty d hd)⟩
    rcases hstored.new _ _ ⟨d, hd, hb'⟩ with ⟨d', hd', hle, -⟩ | ⟨-, -, hle, -⟩
    · exact (hinv.ahead hstate d' hd').trans_le hle
    · rw [hstart, hdist] at hle
      exact lt_of_lt_of_le (by norm_num) hle

/-- Fragments that leave a window of 65512 bytes, and no byte at `rcvNxt`. -/
def exampleNarrow : List (ℕ × ℕ) := [(65500, 80), (65592, 65515), (131108, 65515), (196625, 65515)]

/-- The longest segment a parser can return, half the sequence space ahead of `rcvNxt`. -/
def exampleFar : TcpSegment := exampleSegment (pos 5001 (2 ^ 31)) (replicate 65515 0xaa)

theorem receiveBuffer_exceeded :
    ∃ c c', (exampleRun (exampleOptions true) (exampleFill exampleNarrow)).table.find? exampleKey =
        some c ∧
      c.rcvNxt = 5001 ∧ c.advertisedLogicalWindowFor = 65512 ∧
      ((exampleRun (exampleOptions true) (exampleFill exampleNarrow)).table.handle noMemory
        exampleKey exampleFar 0).1.find? exampleKey = some c' ∧
      c'.rcvNxt = 5001 ∧ Holds c'.buffered (2 ^ 31) 0xaa ∧ ¬ ReceiveBounded c' := by
  have hfits : fits true exampleNarrow = true := by decide +kernel
  obtain ⟨c, hc⟩ := exampleFill_filled (exampleStart_filled true) hfits
  have hwindow : c.advertisedLogicalWindowFor = 65512 := hc.window.trans (by decide +kernel)
  have hinv := Run.receiveInv hc.reachable hc.found
  have hsync : c.state.synchronized = true := by rw [hc.established]; rfl
  have hwait : c.state ≠ .timeWait := by rw [hc.established]; simp
  have hlast : c.state ≠ .lastAck := by rw [hc.established]; simp
  obtain ⟨u, hsynced⟩ := Run.synced hc.reachable hc.found hsync
  have hproc : Processes c exampleFar {} := by
    refine ⟨rfl, rfl, rfl, rfl, ?_⟩
    rw [hc.sndNxt]
    decide
  have harrives := hsynced.arrives hwait exampleKey hproc 0
  obtain ⟨c', hc'⟩ := hsynced.handle_kept (show exampleFar.flags.rst = false from rfl) hlast noMemory
    exampleKey 0
  have hfind : ((exampleRun (exampleOptions true) (exampleFill exampleNarrow)).table.handle noMemory
      exampleKey exampleFar 0).1.find? exampleKey = some c' := by
    rw [handle_of_some hc.found, find?_put, if_pos rfl, hc']
  rw [handleExisting_of_synchronized _ _ _ _ hsync hwait] at hc'
  have hreceive := (processed_receive hproc
    (handleSynchronized_processed noMemory exampleKey hproc 0) hsynced c' hc').1
  obtain ⟨hrcv, hfragments, hfin, -⟩ := bufferOk_congr harrives.receive
  have hlen : exampleFar.payload.length = 65515 := length_replicate
  have hfront : exampleFar.payload[0]? = some 0xaa :=
    getElem?_replicate.trans (if_pos (Nat.succ_pos _))
  have hdist : ahead (5001 : SeqNum) exampleFar.sequenceNumber = 2 ^ 31 :=
    ahead_pos _ (Nat.pow_lt_pow_right (by decide) (by decide))
  have hfree : ∀ d ∈ buffer 5001 (exampleNarrow.map exampleFragment), d.stop ≤ 2 ^ 31 := by
    intro d hd
    obtain ⟨f, hf, rfl⟩ := mem_map.1 hd
    obtain ⟨q, hq, rfl⟩ := mem_map.1 hf
    have hall : ∀ q ∈ exampleNarrow, q.1 + q.2 ≤ 2 ^ 31 := by decide
    have hq' := hall q hq
    have hstop : ((exampleFragment q).toChunk 5001).stop = q.1 + q.2 := by
      rw [Chunk.stop, TcpReassemblyFragment.toChunk, exampleFragment, ahead_pos _ (by omega)]
      exact congrArg _ length_replicate
    rwa [hstop]
  obtain ⟨hstay, hholds⟩ := receivePart_far
    (hinv.of_receive harrives.receive harrives.move.peerFinConsumed)
    (harrives.move.peerFinConsumed.trans (congrArg TcpState.peerFinConsumed hc.established))
    (hfin.trans hc.noFin) (show exampleFar.flags.fin = false from rfl)
    (by rw [hrcv, hc.rcvNxt, hdist])
    (by rw [advertisedLogicalWindowFor_congr harrives.receive, hwindow, hlen]; omega)
    (by rw [hlen, kMaxParsedPayload])
    (by rw [hfragments, hc.outOfOrder]; decide)
    (by rw [buffered, hrcv, hfragments, hc.rcvNxt, hc.outOfOrder]; exact hfree)
    hfront noMemory 0
  obtain ⟨hrcv', hout', -⟩ := bufferOk_congr hreceive
  have hnext : c'.rcvNxt = 5001 := by rw [hrcv', hstay, hrcv, hc.rcvNxt]
  have hholds' : Holds c'.buffered (2 ^ 31) 0xaa := by rwa [buffered, hrcv', hout']
  refine ⟨c, c', hc.found, hc.rcvNxt, hwindow, hfind, hnext, hholds', fun hbounded => ?_⟩
  obtain ⟨d, hd, hhas⟩ := hholds'
  obtain ⟨f, hf, rfl⟩ := mem_map.1 hd
  have hin := Chunk.within_of_has hhas
  have hle : (f.toChunk c'.rcvNxt).stop ≤ kTcpReceiveCapacity := hbounded.within f hf
  have := hin.2
  simp only [Chunk.range, kTcpReceiveCapacity] at this hle
  omega

theorem usable_farByte (hinv : ReceiveInv c)
    (hdist : ahead c.rcvNxt segment.sequenceNumber = 2 ^ 31 + 1) (hlen : segment.payload.length = 1)
    (hwindow : 2 < c.advertisedLogicalWindowFor) :
    c.usableStart segment = c.rcvNxt ∧ c.usableEnd segment = c.windowEnd ∧
      c.anyPayloadInWindow segment = true := by
  have hle := advertisedLogicalWindowFor_le_capacity hinv.scale
  simp only [kTcpReceiveCapacity] at hle
  have hend : c.windowEnd = pos c.rcvNxt c.advertisedLogicalWindowFor := rfl
  have hstart : c.usableStart segment = c.rcvNxt := by rw [usableStart_eq, hdist, if_neg (by omega)]
  have husable : c.usableEnd segment = c.windowEnd := by
    have hseg : segment.segmentEnd = pos c.rcvNxt (2 ^ 31 + 2) := by
      rw [TcpSegment.segmentEnd, hlen, ← pos_ahead c.rcvNxt segment.sequenceNumber, hdist]
      exact pos_pos _ _ 1
    have hgreater : sequenceGreater segment.segmentEnd c.windowEnd = true := by
      rw [sequenceGreater_iff, hseg, hend, ahead, toNat_pos_sub_pos _ (by omega) (by omega)]
      omega
    rw [usableEnd, sequenceMin, hgreater]
    rfl
  refine ⟨hstart, husable, ?_⟩
  rw [anyPayloadInWindow, sequenceGreater_iff, hstart, husable, hend, ahead_pos _ (by omega)]
  omega

theorem farByte_reads_outside (hs : Reachable s) (hc : s.table.find? key = some c)
    (hsync : c.state.synchronized = true) (hwait : c.state ≠ .timeWait)
    {options : TcpParsedOptions} (hproc : Processes c segment options)
    (hdist : ahead c.rcvNxt segment.sequenceNumber = 2 ^ 31 + 1) (hlen : segment.payload.length = 1)
    (hwindow : 2 < c.advertisedLogicalWindowFor) (hempty : c.outOfOrder = []) (memory : ℕ → Byte)
    (now : TimePoint) :
    (s.table.handle memory key segment now).2.acceptedPayload =
      (range c.advertisedLogicalWindowFor).map fun i => memory (2 ^ 31 - 1 + i) := by
  obtain ⟨u, hsynced⟩ := Run.synced hs hc hsync
  have hinv := Run.receiveInv hs hc
  obtain ⟨hstart, hend, hany⟩ := usable_farByte hinv hdist hlen hwindow
  have hle := advertisedLogicalWindowFor_le_capacity hinv.scale
  simp only [kTcpReceiveCapacity] at hle
  have hcount : (c.usableEnd segment - c.usableStart segment).toNat =
      c.advertisedLogicalWindowFor := by
    rw [hstart, hend]
    exact ahead_pos _ (by omega)
  have hskip : (c.usableStart segment - segment.sequenceNumber).toNat = 2 ^ 31 - 1 := by
    have hswap := ahead_swap (b := c.rcvNxt) (x := segment.sequenceNumber) (by omega)
    rw [hdist] at hswap
    rwa [hstart]
  have haccepts : c.acceptsPart segment = true := by
    simp [acceptsPart, hany, ← length_eq_zero_iff, hlen]
  have hout := handleSynchronized_processed memory key hproc now
  have harrival := (hsynced.arrives hwait key hproc now).arrival hinv.ok memory now
  rw [handle_of_some hc, handleExisting_of_synchronized _ _ _ _ hsync hwait,
    eraseIfRemoved_result, hout.accepted, harrival.accepted,
    received_of_empty memory hempty haccepts hany hstart, usablePayload, hcount, hskip,
    readRange]
  refine map_congr_left fun i _ => ?_
  rw [getD_eq_getElem?_getD, getElem?_eq_none (by omega), Option.getD_none]

theorem farByte_reads_outside_example (memory : ℕ → Byte) :
    ((exampleRun [] []).table.handle memory exampleKey (exampleSegment (pos 5001 (2 ^ 31 + 1)) [7])
      0).2.acceptedPayload = (range 65535).map fun i => memory (2 ^ 31 - 1 + i) := by
  obtain ⟨c, hc, hstate, hrcv, hnxt, hempty, hwindow⟩ := exampleRun_at [] []
    (fun _ c => c.state = .established ∧ c.rcvNxt = 5001 ∧ c.sndNxt = 1001 ∧ c.outOfOrder = [] ∧
      c.advertisedLogicalWindowFor = 65535) (by decide +kernel)
  have hproc : Processes c (exampleSegment (pos 5001 (2 ^ 31 + 1)) [7]) {} :=
    ⟨rfl, rfl, rfl, rfl, by rw [hnxt]; decide⟩
  have hfar := farByte_reads_outside (exampleRun_reachable _ _) hc (by rw [hstate]; rfl)
    (by rw [hstate]; decide) hproc (by rw [hrcv]; exact ahead_pos _ (by omega)) rfl
    (by rw [hwindow]; decide) hempty memory 0
  rwa [hwindow] at hfar

end Wirestack
