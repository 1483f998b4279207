import Wirestack.Tcp.FirstArrival
import Wirestack.Tcp.Receiving

set_option autoImplicit false

/-! # What a segment brings, said about the connection before it

Storing, releasing and consuming are told here from the connection as it is when the segment arrives:
`byteAt` is the byte known at an offset from `rcvNxt` once the segment is there, `received` the run of
such bytes that starts at `rcvNxt`, `closes` whether a FIN stands at its end. What `receivePart`
computes by sorting, merging and cutting fragments is read off these (`receivePart_arrival`). -/

namespace Wirestack

open SerialNumber Chunks Intervals List Connection

variable {c : Connection} {segment : TcpSegment}

/-! ## Runs of a partial map -/

/-- The values from `o` on, up to the first one that is missing. -/
def takeRun {α : Type} (f : ℕ → Option α) : ℕ → ℕ → List α
  | 0, _ => []
  | fuel + 1, o =>
    match f o with
    | none => []
    | some b => b :: takeRun f fuel (o + 1)

theorem takeRun_eq {α : Type} {f : ℕ → Option α} {l : List α} :
    ∀ {fuel o : ℕ}, (∀ i b, l[i]? = some b → f (o + i) = some b) → f (o + l.length) = none →
    l.length < fuel → takeRun f fuel o = l := by
  induction l with
  | nil =>
    intro fuel o _ hend hfuel
    obtain ⟨fuel, rfl⟩ := Nat.exists_eq_succ_of_ne_zero (Nat.ne_zero_of_lt hfuel)
    rw [takeRun, show f o = none from hend]
  | cons b l ih =>
    intro fuel o hl hend hfuel
    obtain ⟨fuel, rfl⟩ := Nat.exists_eq_succ_of_ne_zero (Nat.ne_zero_of_lt hfuel)
    have hrest : takeRun f fuel (o + 1) = l := by
      refine ih (fun i b' hb => ?_) ?_ (Nat.lt_of_succ_lt_succ hfuel)
      · rw [Nat.add_right_comm]
        exact hl (i + 1) b' hb
      · rwa [Nat.add_right_comm]
    rw [takeRun, show f o = some b from hl 0 b rfl, hrest]

/-! ## The state before the segment -/

section

variable (memory : ℕ → Byte) (c : Connection) (segment : TcpSegment)

/-- The byte at an offset from `rcvNxt` once the segment is there: the buffered one, or the
    segment's. -/
def Connection.byteAt (o : ℕ) : Option Byte :=
  (bufferedByte c.outOfOrder (pos c.rcvNxt o)).or
    (if (c.newRanges segment).any fun r => r.1 ≤ o && o < r.2 then
      (usablePayload memory c segment)[o - ahead c.rcvNxt (c.usableStart segment)]?
    else none)

/-- The bytes that the segment makes available at `rcvNxt`. -/
def Connection.received : List Byte :=
  if c.acceptsPart segment then takeRun (c.byteAt memory segment) (2 ^ 32) 0 else []

/-- The FIN that is known once the segment is there. -/
def Connection.knownFin : Option SeqNum :=
  if c.finInWindow segment then some segment.segmentEnd else c.pendingFinSeq

/-- The known FIN comes right after the bytes that are available. -/
def Connection.closes : Bool :=
  c.acceptsPart segment &&
    c.knownFin segment == some (pos c.rcvNxt (c.received memory segment).length)

/-- Something is buffered behind a hole once the segment is there. -/
def Connection.leavesGap : Bool :=
  (c.outOfOrder.map (fragmentRange c.rcvNxt) ++ c.newRanges segment).any fun r =>
    (c.received memory segment).length < r.1

/-- The buffered total with what the segment adds to it. -/
def Connection.bufferedWith : ℕ :=
  c.bufferedReceiveBytes + ((c.newRanges segment).map fun r => r.2 - r.1).sum +
    if c.finInWindow segment && c.pendingFinSeq.isNone then 1 else 0

/-- The window field for a given buffered total. -/
def Connection.windowFor (buffered : ℕ) : UInt16 :=
  let available := if buffered ≥ kTcpReceiveCapacity then 0 else kTcpReceiveCapacity - buffered
  UInt16.ofNat (min (if c.windowScalingEnabled then available >>> c.localWindowScale.toNat
    else min available 65535) 65535)

end

theorem advertisedWindowFor_eq (c : Connection) :
    c.advertisedWindowFor c.windowScalingEnabled = c.windowFor c.bufferedReceiveBytes := by
  unfold advertisedWindowFor windowFor
  rw [Bool.and_self]

theorem received_of_empty (memory : ℕ → Byte) (hempty : c.outOfOrder = [])
    (haccepts : c.acceptsPart segment = true) (hany : c.anyPayloadInWindow segment = true)
    (hstart : c.usableStart segment = c.rcvNxt) :
    c.received memory segment = usablePayload memory c segment := by
  have hlen := (usablePayload_fits memory hany).2
  have hranges : c.newRanges segment = [(0, (usablePayload memory c segment).length)] := by
    simp [newRanges, hany, hstart, hempty, length_usablePayload, subtractAll,
      kMaxReassemblyFragments]
  have hbyte : ∀ o, c.byteAt memory segment o =
      if o < (usablePayload memory c segment).length then (usablePayload memory c segment)[o]?
      else none := by
    intro o
    simp [byteAt, hempty, bufferedByte, hranges, hstart]
  rw [received, if_pos haccepts]
  refine takeRun_eq (fun i b hb => ?_) ?_ (by omega)
  · rw [hbyte, Nat.zero_add, if_pos (List.getElem?_eq_some_iff.1 hb).1, hb]
  · rw [hbyte, Nat.zero_add, if_neg (lt_irrefl _)]

/-! ## Storing and releasing -/

theorem releaseFragments_kept {rcvNxt : SeqNum} {fragments : List TcpReassemblyFragment}
    (hne : ∀ f ∈ fragments, f.payload ≠ []) (hnone : (releaseFragments rcvNxt fragments).1 = []) :
    (releaseFragments rcvNxt fragments).2.2 = fragments := by
  cases fragments with
  | nil => rfl
  | cons f rest =>
    rw [releaseFragments] at hnone ⊢
    split_ifs at hnone ⊢
    · exact absurd (append_eq_nil_iff.1 hnone).1 (hne f (mem_cons_self ..))
    · rfl

section Stored

variable {c : Connection} (hok : BufferOk c.rcvNxt c.outOfOrder) (memory : ℕ → Byte)
  (segment : TcpSegment)

include hok

theorem byteAt_eq_some_iff {o : ℕ} (ho : o < 2 ^ 32) (b : Byte) :
    c.byteAt memory segment o = some b ↔
      Holds (buffer c.rcvNxt (storeSegment memory c segment).1.outOfOrder) o b := by
  have hold := bufferedByte_eq_some_iff hok (pos c.rcvNxt o)
  have hnone := bufferedByte_eq_none_iff hok (pos c.rcvNxt o)
  rw [ahead_pos _ ho] at hold hnone
  have hrange : ((c.newRanges segment).any fun r => r.1 ≤ o && o < r.2) = true ↔
      ∃ r ∈ c.newRanges segment, Within r o := by
    simp [Within]
  rw [holds_stored_iff hok, byteAt, Option.or_eq_some_iff, hold, ← hrange]
  refine or_congr_right ⟨fun h => ?_, fun h => ?_⟩
  · replace h := h.2
    split_ifs at h with hin
    exact ⟨hin, h⟩
  obtain ⟨hin, h⟩ := h
  rw [if_pos hin, hnone]
  refine ⟨fun hcovers => ?_, h⟩
  obtain ⟨r, hr, ho⟩ := hrange.1 hin
  by_cases hany : c.anyPayloadInWindow segment = true
  · rw [newRanges_eq hok memory segment hany] at hr
    exact ((mem_missing hok.canonical o).1 ⟨r, mem_of_mem_take hr, ho⟩).2 hcovers
  · simp [newRanges, hany] at hr

theorem covers_stored_iff (o : ℕ) :
    Covers (buffer c.rcvNxt (storeSegment memory c segment).1.outOfOrder) o ↔
      ∃ r ∈ c.outOfOrder.map (fragmentRange c.rcvNxt) ++ c.newRanges segment, Within r o := by
  have hnew : (∃ b, (∃ r ∈ c.newRanges segment, Within r o) ∧
      (usablePayload memory c segment)[o - ahead c.rcvNxt (c.usableStart segment)]? = some b) ↔
      ∃ r ∈ c.newRanges segment, Within r o := by
    refine ⟨fun ⟨_, h, _⟩ => h, fun h => ?_⟩
    obtain ⟨r, hr, ho⟩ := id h
    by_cases hany : c.anyPayloadInWindow segment = true
    · rw [newRanges_eq hok memory segment hany] at hr
      have hbounds := ((mem_missing hok.canonical o).1 ⟨r, mem_of_mem_take hr, ho⟩).1
      simp only [Within] at hbounds
      exact ⟨_, h, getElem?_eq_getElem (by omega)⟩
    · simp [newRanges, hany] at hr
  rw [fragmentRanges_eq hok, covers_iff_holds]
  simp only [holds_stored_iff hok, exists_or, hnew, ← covers_iff_holds, mem_append, or_and_right]
  simp [Covers]

theorem ranges_nonempty :
    ∀ r ∈ c.outOfOrder.map (fragmentRange c.rcvNxt) ++ c.newRanges segment, r.1 < r.2 := by
  intro r hr
  rw [fragmentRanges_eq hok] at hr
  rcases mem_append.1 hr with hr | hr
  · exact hok.canonical.ranges_nonempty r hr
  · by_cases hany : c.anyPayloadInWindow segment = true
    · rw [newRanges_eq hok (fun _ => 0) segment hany] at hr
      exact (missing_gaps hok.canonical (usablePayload_fits _ hany).1).nonempty r
        (mem_of_mem_take hr)
    · simp [newRanges, hany] at hr

theorem length_releasedBy_lt : (releasedBy memory c segment).length < 2 ^ 32 := by
  by_contra hge
  obtain ⟨d, hd, hhas⟩ := (receivedWith_spec hok memory segment).handedOut (2 ^ 32 - 1) _
    (getElem?_eq_getElem (by omega))
  have := (storeSegment_stored hok memory segment).ok.below d hd
  have := (Chunk.within_of_has hhas).2
  simp only [Chunk.range] at this
  omega

theorem releasedBy_eq : releasedBy memory c segment =
    takeRun (c.byteAt memory segment) (2 ^ 32) 0 := by
  have hspec := receivedWith_spec hok memory segment
  have hlen := length_releasedBy_lt hok memory segment
  refine (takeRun_eq (fun i b hb => ?_) ?_ hlen).symm
  · obtain ⟨hi, -⟩ := List.getElem?_eq_some_iff.1 hb
    rw [Nat.zero_add, byteAt_eq_some_iff hok memory segment (by omega)]
    exact hspec.handedOut i b hb
  · rw [Nat.zero_add, Option.eq_none_iff_forall_ne_some]
    intro b hb
    rw [byteAt_eq_some_iff hok memory segment hlen] at hb
    exact hspec.gap (covers_iff_holds.2 ⟨b, hb⟩)

theorem receivedWith_leavesGap (haccepts : c.acceptsPart segment = true) :
    (receivedWith memory c segment).outOfOrder ≠ [] ↔ c.leavesGap memory segment = true := by
  obtain ⟨kept, heq, hrel⟩ := receivedWith_release hok memory segment
  have hcovers := covers_stored_iff hok memory segment
  have hne := ranges_nonempty hok segment
  rw [leavesGap, received, if_pos haccepts, ← releasedBy_eq hok, heq]
  generalize releasedBy memory c segment = released at hrel ⊢
  generalize c.outOfOrder.map (fragmentRange c.rcvNxt) ++ c.newRanges segment = ranges
    at hcovers hne ⊢
  rw [any_eq_true]
  constructor
  · intro hkept
    obtain ⟨f, hf⟩ := exists_mem_of_ne_nil kept hkept
    have hbeyond := hrel.beyond _ (mem_map_of_mem hf)
    obtain ⟨r, hr, hlo, hhi⟩ := (hcovers (f.toChunk c.rcvNxt).start).1
      ⟨_, mem_map_of_mem (hrel.sublist.subset hf), le_rfl, Chunk.start_lt_stop <|
        (storeSegment_stored hok memory segment).ok.canonical.nonempty _
          (mem_map_of_mem (hrel.sublist.subset hf))⟩
    refine ⟨r, hr, decide_eq_true (not_le.1 fun hle => hrel.gap ?_)⟩
    exact (hcovers _).2 ⟨r, hr, hle, hbeyond.trans hhi⟩
  · rintro ⟨r, hr, hlt⟩ hnil
    obtain ⟨b, hb⟩ := covers_iff_holds.1 ((hcovers r.1).2 ⟨r, hr, le_rfl, hne r hr⟩)
    rcases hrel.split r.1 b hb with h | ⟨d, hd, -⟩
    · exact absurd (of_decide_eq_true hlt) (not_lt.2 h.le)
    · rw [show kept = [] from hnil] at hd
      cases hd

theorem storeSegment_bufferedReceiveBytes :
    (storeSegment memory c segment).1.bufferedReceiveBytes = c.bufferedWith segment := by
  have hlengths : ∀ fragments : List TcpReassemblyFragment,
      fragments.map (·.payload.length) = (buffer c.rcvNxt fragments).map (·.data.length) :=
    fun fragments => by rw [buffer, map_map]; rfl
  have hbytes : (((storeSegment memory c segment).1.outOfOrder).map (·.payload.length)).sum =
      (c.outOfOrder.map (·.payload.length)).sum +
        ((c.newRanges segment).map fun r => r.2 - r.1).sum := by
    rw [storeSegment_eq]
    by_cases hany : c.anyPayloadInWindow segment = true
    · obtain ⟨hne, hend⟩ := usablePayload_fits memory hany
      rw [newRanges_eq hok memory segment hany, hlengths c.outOfOrder,
        ← sum_length_insert hok.canonical hne, ← buffer_insertReassemblyFragment hok hne hend,
        ← hlengths]
      simp only [hany, if_true]
    · simp [newRanges, hany]
  rw [bufferedWith, bufferedReceiveBytes, hbytes, storeSegment_eq, bufferedReceiveBytes]
  cases c.finInWindow segment <;> cases c.pendingFinSeq <;> simp <;> omega

theorem length_releasedBy_le : (releasedBy memory c segment).length ≤ c.bufferedReceiveBytes +
      ((c.newRanges segment).map fun r => r.2 - r.1).sum + 1 := by
  have hrelease : ∀ (fragments : List TcpReassemblyFragment) (rcvNxt : SeqNum),
      (releaseFragments rcvNxt fragments).1.length ≤ (fragments.map (·.payload.length)).sum := by
    intro fragments
    induction fragments with
    | nil => exact fun _ => le_rfl
    | cons f rest ih =>
      intro rcvNxt
      rw [releaseFragments, map_cons, sum_cons]
      split_ifs
      · rw [length_append]
        exact Nat.add_le_add_left (ih _) _
      · exact Nat.zero_le _
  refine (hrelease _ _).trans ((Nat.le_add_right _ _).trans
    (storeSegment_bufferedReceiveBytes hok memory segment).le) |>.trans ?_
  unfold bufferedWith
  split_ifs <;> omega

theorem receivedWith_bufferedReceiveBytes (hnone : releasedBy memory c segment = []) :
    (receivedWith memory c segment).bufferedReceiveBytes = c.bufferedWith segment := by
  have hne := forall_mem_map.1 (storeSegment_stored hok memory segment).ok.canonical.nonempty
  rw [← storeSegment_bufferedReceiveBytes hok memory]
  unfold releasedBy at hnone
  unfold receivedWith bufferedReceiveBytes
  generalize (storeSegment memory c segment).1 = stored at hnone hne ⊢
  have hkept : (releaseContiguous stored).1.outOfOrder = stored.outOfOrder :=
    releaseFragments_kept hne hnone
  rw [hkept]
  rfl

end Stored

theorem window_of_newRanges (hinv : ReceiveInv c) (hfirst : ∃ r ∈ c.newRanges segment, Within r 0) :
    c.bufferedReceiveBytes < kTcpReceiveCapacity ∧
      ((c.newRanges segment).map fun r => r.2 - r.1).sum < 2 ^ 31 := by
  obtain ⟨r, hr, hzero, -⟩ := hfirst
  have hany : c.anyPayloadInWindow segment = true := by
    by_contra hnot
    simp [newRanges, hnot] at hr
  obtain ⟨-, -, hlt⟩ := usable_bounds hany
  obtain ⟨hne, -⟩ := usablePayload_fits (fun _ => 0) hany
  rw [← length_usablePayload (fun _ => 0)] at hlt
  rw [newRanges_eq hinv.ok (fun _ => 0) segment hany] at hr ⊢
  have hbounds : ∀ g ∈ missing c.buffered (ahead c.rcvNxt (c.usableStart segment))
      (usablePayload (fun _ => 0) c segment), _ :=
    fun g hg => missing_bounds hinv.ok.canonical hne hg
  constructor
  · have hstart : c.usableStart segment = c.rcvNxt := by
      have := (hbounds r (mem_of_mem_take hr)).1
      rw [← pos_ahead c.rcvNxt (c.usableStart segment), Nat.le_zero.1 (this.trans hzero), pos_zero]
    by_contra hfull
    have hclosed : c.windowEnd = c.rcvNxt := by
      have hle := advertisedLogicalWindowFor_le hinv.scale
      rw [availableReceive, Nat.sub_eq_zero_of_le (not_lt.1 hfull)] at hle
      rw [windowEnd, Nat.le_zero.1 hle]
      exact pos_zero _
    unfold anyPayloadInWindow at hany
    rw [hstart, usableEnd, sequenceMin, hclosed] at hany
    split_ifs at hany with hgt
    · simp [sequenceGreater_self] at hany
    · exact hgt hany
  · have hgaps : Gaps (missing c.buffered (ahead c.rcvNxt (c.usableStart segment))
        (usablePayload (fun _ => 0) c segment)) := missing_gaps hinv.ok.canonical hne
    have hsum := Gaps.sum_le ⟨fun g hg => hgaps.nonempty g (mem_of_mem_take hg),
      hgaps.apart.sublist (take_sublist (kMaxReassemblyFragments - c.buffered.length) _)⟩
      fun g hg => ⟨(hbounds g (mem_of_mem_take hg)).1, (hbounds g (mem_of_mem_take hg)).2.2⟩
    rw [Nat.add_sub_cancel_left] at hsum
    exact lt_of_le_of_lt hsum hlt

theorem length_received_lt (hinv : ReceiveInv c)
    (hretained : c.pendingFinSeq.isSome = true → c.finEventsOpen = true) (memory : ℕ → Byte)
    (segment : TcpSegment) :
    (c.received memory segment).length + (if c.closes memory segment then 1 else 0) < 2 ^ 32 := by
  have hlen := length_releasedBy_lt hinv.ok memory segment
  have hle := length_releasedBy_le hinv.ok memory segment
  have hcovers := covers_stored_iff hinv.ok memory segment 0
  have hspec := receivedWith_spec hinv.ok memory segment
  unfold closes received
  cases haccepts : c.acceptsPart segment with
  | false => simp
  | true =>
    rw [if_pos rfl, ← releasedBy_eq hinv.ok, Bool.true_and]
    generalize releasedBy memory c segment = released at *
    split_ifs with hcloses
    · have hopen : c.finEventsOpen = true := by
        rw [beq_iff_eq, knownFin] at hcloses
        split_ifs at hcloses with hin
        · simp only [finInWindow, Bool.and_eq_true] at hin
          exact hin.1.1.1
        · exact hretained (by rw [hcloses]; rfl)
      cases released with
      | nil => simp
      | cons b rest =>
        obtain ⟨r, hr, hzero⟩ := hcovers.1 (covers_iff_holds.2 ⟨b, hspec.handedOut 0 b rfl⟩)
        rw [fragmentRanges_eq hinv.ok] at hr
        rcases mem_append.1 hr with hold | hnew
        · obtain ⟨d, hd, rfl⟩ := mem_map.1 hold
          have hahead := hinv.ahead (finEventsOpen_not_consumed hopen) d hd
          exact absurd hzero.1 (not_le.2 hahead)
        · obtain ⟨hbuffered, hsum⟩ := window_of_newRanges hinv ⟨r, hnew, hzero⟩
          simp only [kTcpReceiveCapacity] at hbuffered
          omega
    · exact hlen

/-- What `receivePart` makes of the segment, in terms of the connection before it. -/
structure Arrival (memory : ℕ → Byte) (c : Connection) (segment : TcpSegment) (part : Received) :
    Prop where
  accepted : part.accepted = c.received memory segment
  peerClosed : part.peerClosed = c.closes memory segment
  ignored : c.acceptsPart segment = false → part.connection.view.receive = c.view.receive
  rcvNxt : part.connection.rcvNxt = pos c.rcvNxt
    ((c.received memory segment).length + if c.closes memory segment then 1 else 0)
  gap : c.acceptsPart segment = true →
    (part.connection.outOfOrder ≠ [] ↔ c.leavesGap memory segment = true)
  window : c.acceptsPart segment = true → c.received memory segment = [] →
    c.closes memory segment = false →
    part.connection.advertisedWindowFor part.connection.windowScalingEnabled =
      c.windowFor (c.bufferedWith segment)

theorem receivePart_arrival (hok : BufferOk c.rcvNxt c.outOfOrder) (memory : ℕ → Byte)
    (segment : TcpSegment) (now : TimePoint) :
    Arrival memory c segment (receivePart memory c segment now) := by
  have hgap := receivedWith_leavesGap hok memory segment
  have hbuffered := receivedWith_bufferedReceiveBytes hok memory segment
  have hfin : (receivedWith memory c segment).pendingFinSeq = c.knownFin segment :=
    receivedWith_pendingFinSeq memory c segment
  have hnext := (receivedWith_spec hok memory segment).rcvNxt
  have hscale := (receivedWith_eq memory c segment).elim fun _ h => h.elim fun _ heq =>
    show (receivedWith memory c segment).windowFor = c.windowFor by rw [heq]; rfl
  have hreceived : c.received memory segment =
      if c.acceptsPart segment then releasedBy memory c segment else [] := by
    rw [releasedBy_eq hok]
    rfl
  have hcloses : c.closes memory segment = (c.acceptsPart segment &&
      c.knownFin segment == some (pos c.rcvNxt (c.received memory segment).length)) := rfl
  have hcases := receivePart_cases memory c segment now
  generalize receivePart memory c segment now = part at hcases ⊢
  generalize receivedWith memory c segment = received at *
  generalize releasedBy memory c segment = released at *
  cases hcases with
  | ignored haccept =>
    rw [haccept] at hreceived hcloses
    exact ⟨hreceived.symm, hcloses.symm, fun _ => rfl,
      by rw [hreceived, hcloses]; exact (pos_zero _).symm, by simp [haccept], by simp [haccept]⟩
  | stored _ haccept hnot =>
    rw [haccept, if_pos rfl] at hreceived
    rw [hfin, hnext, ← hreceived] at hnot
    have hopen : c.closes memory segment = false := by
      rw [hcloses, beq_eq_false_iff_ne.2 hnot, Bool.and_false]
    refine ⟨hreceived.symm, hopen.symm, by simp [haccept], ?_, hgap, fun _ hnone _ => ?_⟩
    · rw [hnext, hopen, hreceived]
      rfl
    · rw [advertisedWindowFor_eq, hscale, hbuffered (hreceived.symm.trans hnone)]
  | consumed _ haccept hyes =>
    rw [haccept, if_pos rfl] at hreceived
    rw [hfin, hnext, ← hreceived] at hyes
    have hclosed : c.closes memory segment = true := by
      rw [hcloses, haccept, hyes, beq_self_eq_true, Bool.and_self]
    obtain ⟨hrcv, hout, -⟩ := bufferOk_congr (peerFinTransition_receive
      { received with rcvNxt := received.rcvNxt + 1, pendingFinSeq := none } now)
    refine ⟨hreceived.symm, hclosed.symm, by simp [haccept], hrcv.trans ?_, fun haccept => ?_,
      fun _ _ h => ?_⟩
    · rw [hclosed, hreceived]
      show received.rcvNxt + 1 = _
      rw [hnext, pos_add_one]
      rfl
    · rw [← hgap haccept]
      exact iff_of_eq (congrArg (· ≠ []) hout)
    · simp [hclosed] at h

theorem Arrival.congr {c' : Connection} {memory : ℕ → Byte} {part : Received}
    (h : Arrival memory c' segment part) (hview : c'.view.receive = c.view.receive)
    (hopen : c'.finEventsOpen = c.finEventsOpen) : Arrival memory c segment part := by
  have hlogical := advertisedLogicalWindowFor_congr hview
  obtain ⟨-, -, hrcv, hout, hfin, hscaling, hscale⟩ := ReceiveView.mk.inj hview
  have hin : c'.finInWindow segment = c.finInWindow segment := by
    simp only [finInWindow, windowEnd, hopen, hrcv, hlogical]
  have hstart : c'.usableStart segment = c.usableStart segment := by
    rw [usableStart, hrcv, usableStart]
  have hend : c'.usableEnd segment = c.usableEnd segment := by
    simp only [usableEnd, windowEnd, hrcv, hlogical]
  have hany : c'.anyPayloadInWindow segment = c.anyPayloadInWindow segment := by
    rw [anyPayloadInWindow, hstart, hend, anyPayloadInWindow]
  have haccepts : c'.acceptsPart segment = c.acceptsPart segment := by
    rw [acceptsPart, hany, hin, acceptsPart]
  have hranges : c'.newRanges segment = c.newRanges segment := by
    simp only [newRanges, hany, hstart, hend, hrcv, hout]
  have hbyte : c'.byteAt memory segment = c.byteAt memory segment := by
    funext o
    simp only [byteAt, hranges, hrcv, hout, hstart, hend, usablePayload]
  have hreceived : c'.received memory segment = c.received memory segment := by
    rw [received, haccepts, hbyte, received]
  have hcloses : c'.closes memory segment = c.closes memory segment := by
    simp only [closes, knownFin, haccepts, hin, hfin, hrcv, hreceived]
  have hgap : c'.leavesGap memory segment = c.leavesGap memory segment := by
    simp only [leavesGap, hout, hrcv, hranges, hreceived]
  have hwindow : c'.windowFor (c'.bufferedWith segment) = c.windowFor (c.bufferedWith segment) := by
    unfold windowFor bufferedWith bufferedReceiveBytes
    rw [hscaling, hscale, hout, hfin, hin, hranges]
  constructor
  · rw [← hreceived, h.accepted]
  · rw [← hcloses, h.peerClosed]
  · rw [← haccepts]
    exact fun hnot => (h.ignored hnot).trans hview
  · rw [← hreceived, ← hcloses, ← hrcv, h.rcvNxt]
  · rw [← haccepts, ← hgap]
    exact h.gap
  · rw [← haccepts, ← hreceived, ← hcloses, ← hwindow]
    exact h.window

theorem Arrives.arrival {c₀ : Connection} (h : Arrives c segment c₀)
    (hok : BufferOk c.rcvNxt c.outOfOrder) (memory : ℕ → Byte) (now : TimePoint) :
    Arrival memory c segment (receivePart memory c₀ segment now) := by
  have hok₀ : BufferOk c₀.rcvNxt c₀.outOfOrder := by
    obtain ⟨hrcv, hout, -⟩ := bufferOk_congr h.receive
    rwa [hrcv, hout]
  exact (receivePart_arrival hok₀ memory segment now).congr h.receive h.move.finEventsOpen

end Wirestack
