import Wirestack.Tcp.Input
import Wirestack.Tcp.Sequence

set_option autoImplicit false

/-! # What the window acceptance test computes

The test compares the edges of a segment with the edges of the receive window by signed differences.
Those are exact only while the compared positions are less than half the sequence space apart, and
the test itself does not check that they are. `Connection.WindowTestExact` is the condition under
which both of its comparisons agree with comparisons of offsets from `rcvNxt`; `usable_exact` says
what is copied then. Without the condition only `usable_bounds` holds. -/

namespace Wirestack

open SerialNumber List Connection

/-! ## The logical window -/

/-- What is left of the receive capacity. -/
def Connection.availableReceive (c : Connection) : ℕ :=
  kTcpReceiveCapacity - c.bufferedReceiveBytes

/-- The scale that Window Scale negotiation settles. -/
def Connection.ScaleOk (c : Connection) : Prop :=
  c.windowScalingEnabled = true → c.localWindowScale = kLocalWindowScaleShift

theorem advertisedLogicalWindowFor_eq {c : Connection} (hscale : c.ScaleOk) :
    c.advertisedLogicalWindowFor = if c.windowScalingEnabled then c.availableReceive / 4 * 4
      else min c.availableReceive 65535 := by
  have hcap : c.availableReceive ≤ 262140 := Nat.sub_le _ _
  have hif : (if c.bufferedReceiveBytes ≥ kTcpReceiveCapacity then 0
      else kTcpReceiveCapacity - c.bufferedReceiveBytes) = c.availableReceive := by
    unfold availableReceive
    split_ifs <;> omega
  unfold advertisedLogicalWindowFor expandLocalAdvertisedWindow advertisedWindowFor
  simp only [hif]
  cases henabled : c.windowScalingEnabled with
  | false =>
    simp only [Bool.false_and, Bool.false_eq_true, if_false, UInt16.toNat_ofNat']
    omega
  | true =>
    have hshift : c.localWindowScale.toNat = 2 := by
      rw [hscale henabled]
      rfl
    simp only [Bool.true_and, if_true, UInt16.toNat_ofNat', hshift, Nat.shiftRight_eq_div_pow,
      Nat.shiftLeft_eq]
    omega

theorem advertisedLogicalWindowFor_le {c : Connection} (hscale : c.ScaleOk) :
    c.advertisedLogicalWindowFor ≤ c.availableReceive := by
  rw [advertisedLogicalWindowFor_eq hscale]
  split_ifs <;> omega

theorem advertisedLogicalWindowFor_le_capacity {c : Connection} (hscale : c.ScaleOk) :
    c.advertisedLogicalWindowFor ≤ kTcpReceiveCapacity :=
  (advertisedLogicalWindowFor_le hscale).trans (Nat.sub_le _ _)

/-! ## The usable part of a segment -/

section Usable

variable {c : Connection} {segment : TcpSegment}

theorem usableStart_eq (c : Connection) (segment : TcpSegment) :
    c.usableStart segment = if ahead c.rcvNxt segment.sequenceNumber ≤ 2 ^ 31
      then segment.sequenceNumber else c.rcvNxt := by
  unfold usableStart sequenceMax
  have hiff := sequenceGreater_iff c.rcvNxt segment.sequenceNumber
  by_cases hzero : ahead c.rcvNxt segment.sequenceNumber = 0
  · have hsame : segment.sequenceNumber = c.rcvNxt := by
      rw [← pos_ahead c.rcvNxt segment.sequenceNumber, hzero, pos_zero]
    rw [hsame, ite_self, ite_self]
  · have hswap := ahead_swap (Nat.pos_of_ne_zero hzero)
    have hlt := ahead_lt c.rcvNxt segment.sequenceNumber
    rw [hswap] at hiff
    split_ifs with h₁ h₂ h₂
    · have := hiff.1 h₁
      omega
    · rfl
    · rfl
    · exact absurd (hiff.2 ⟨by omega, by omega⟩) h₁

theorem usable_bounds (hany : c.anyPayloadInWindow segment = true) :
    ahead c.rcvNxt (c.usableStart segment) ≤ 2 ^ 31 ∧
      0 < ahead (c.usableStart segment) (c.usableEnd segment) ∧
      ahead (c.usableStart segment) (c.usableEnd segment) < 2 ^ 31 := by
  refine ⟨?_, (sequenceGreater_iff _ _).1 hany⟩
  rw [usableStart_eq]
  split_ifs with h
  · exact h
  · rw [ahead_self]
    exact Nat.zero_le _

theorem length_usablePayload (memory : ℕ → Byte) (c : Connection) (segment : TcpSegment) :
    (usablePayload memory c segment).length =
      ahead (c.usableStart segment) (c.usableEnd segment) := by
  simp [usablePayload, readRange, ahead]

theorem usablePayload_fits (memory : ℕ → Byte) (hany : c.anyPayloadInWindow segment = true) :
    usablePayload memory c segment ≠ [] ∧
      ahead c.rcvNxt (c.usableStart segment) + (usablePayload memory c segment).length < 2 ^ 32 := by
  obtain ⟨hstart, hpos, hlt⟩ := usable_bounds hany
  rw [← length_pos_iff, length_usablePayload]
  omega

/-- The condition under which both comparisons of the test agree with comparisons of offsets: a
    segment that starts in the first half of the space, seen from `rcvNxt`, ends less than half the
    space beyond the window, and one that starts in the second half ends at most half the space
    before the window's end. -/
def Connection.WindowTestExact (c : Connection) (segment : TcpSegment) : Prop :=
  ahead c.rcvNxt segment.sequenceNumber ≤ 2 ^ 31 ↔
    ahead c.rcvNxt segment.sequenceNumber + segment.payload.length <
      2 ^ 31 + c.advertisedLogicalWindowFor

instance (c : Connection) (segment : TcpSegment) : Decidable (c.WindowTestExact segment) :=
  inferInstanceAs (Decidable (_ ↔ _))

theorem usable_ahead (hwindow : c.advertisedLogicalWindowFor ≤ 2 ^ 30)
    (hstart : ahead c.rcvNxt segment.sequenceNumber ≤ 2 ^ 31)
    (hend : ahead c.rcvNxt segment.sequenceNumber + segment.payload.length <
      2 ^ 31 + c.advertisedLogicalWindowFor) :
    c.usableStart segment = segment.sequenceNumber ∧ c.usableEnd segment = pos c.rcvNxt (min
        (ahead c.rcvNxt segment.sequenceNumber + segment.payload.length)
        c.advertisedLogicalWindowFor) ∧
      c.anyPayloadInWindow segment = decide (ahead c.rcvNxt segment.sequenceNumber < min
        (ahead c.rcvNxt segment.sequenceNumber + segment.payload.length)
        c.advertisedLogicalWindowFor) := by
  have hseq := pos_ahead c.rcvNxt segment.sequenceNumber
  have hfrom : c.usableStart segment = segment.sequenceNumber := by
    rw [usableStart_eq, if_pos hstart]
  have hsegEnd : segment.segmentEnd =
      pos c.rcvNxt (ahead c.rcvNxt segment.sequenceNumber + segment.payload.length) := by
    rw [← pos_pos, hseq]
    rfl
  have hto : c.usableEnd segment = pos c.rcvNxt (min
      (ahead c.rcvNxt segment.sequenceNumber + segment.payload.length)
      c.advertisedLogicalWindowFor) := by
    rw [usableEnd, sequenceMin, hsegEnd,
      show c.windowEnd = pos c.rcvNxt c.advertisedLogicalWindowFor from rfl,
      sequenceGreater_pos _ (by omega) (by omega)]
    split_ifs with h <;> simp only [decide_eq_true_eq] at h
    · rw [Nat.min_eq_right (by omega)]
    · rw [Nat.min_eq_left (by omega)]
  refine ⟨hfrom, hto, ?_⟩
  rw [anyPayloadInWindow, hfrom, hto]
  nth_rewrite 2 [← hseq]
  rw [sequenceGreater_pos _ (by omega) (by omega)]

theorem usable_behind (hwindow : c.advertisedLogicalWindowFor ≤ 2 ^ 30)
    (hlen : segment.payload.length < 2 ^ 31) {t : ℕ} (ht : t < 2 ^ 31) (hpos : 0 < t)
    (hrcv : c.rcvNxt = pos segment.sequenceNumber t)
    (hend : t + c.advertisedLogicalWindowFor ≤ 2 ^ 31 + segment.payload.length) :
    c.usableStart segment = c.rcvNxt ∧ c.usableEnd segment = pos segment.sequenceNumber
        (min segment.payload.length (t + c.advertisedLogicalWindowFor)) ∧
      c.anyPayloadInWindow segment =
        decide (t < min segment.payload.length (t + c.advertisedLogicalWindowFor)) := by
  have hdist : ahead c.rcvNxt segment.sequenceNumber = 2 ^ 32 - t := by
    rw [ahead_swap (by rw [hrcv, ahead_pos _ (by omega)]; exact hpos), hrcv, ahead_pos _ (by omega)]
  have hfrom : c.usableStart segment = c.rcvNxt := by rw [usableStart_eq, if_neg (by omega)]
  have hto : c.usableEnd segment = pos segment.sequenceNumber
      (min segment.payload.length (t + c.advertisedLogicalWindowFor)) := by
    rw [usableEnd, sequenceMin,
      show segment.segmentEnd = pos segment.sequenceNumber segment.payload.length from rfl,
      show c.windowEnd = pos segment.sequenceNumber (t + c.advertisedLogicalWindowFor) by
        rw [← pos_pos, ← hrcv]; rfl,
      sequenceGreater_pos _ (by omega) (by omega)]
    split_ifs with h <;> simp only [decide_eq_true_eq] at h
    · rw [Nat.min_eq_right (by omega)]
    · rw [Nat.min_eq_left (by omega)]
  refine ⟨hfrom, hto, ?_⟩
  rw [anyPayloadInWindow, hfrom, hto]
  nth_rewrite 1 [hrcv]
  rw [sequenceGreater_pos _ (by omega) (by omega)]

/-- The bytes of the payload that lie in the window: `skip` bytes are trimmed on the left. -/
structure UsableRange (memory : ℕ → Byte) (c : Connection) (segment : TcpSegment)
    (skip len : ℕ) : Prop where
  payload : usablePayload memory c segment = (segment.payload.drop skip).take len
  start : c.usableStart segment = pos segment.sequenceNumber skip
  nonempty : 0 < len
  inPayload : skip + len ≤ segment.payload.length
  inWindow : ahead c.rcvNxt (c.usableStart segment) + len ≤ c.advertisedLogicalWindowFor

theorem readRange_eq {memory : ℕ → Byte} {v : List Byte} {start len : ℕ}
    (h : start + len ≤ v.length) : readRange memory v start len = (v.drop start).take len := by
  apply ext_getElem?
  intro i
  simp only [readRange, getElem?_map, getElem?_take, getElem?_drop]
  by_cases hi : i < len
  · rw [getElem?_range hi, if_pos hi, Option.map_some, getD_eq_getElem?_getD,
      getElem?_eq_getElem (by omega), Option.getD_some]
  · rw [if_neg hi, getElem?_eq_none (by simpa using hi), Option.map_none]

theorem usable_exact (memory : ℕ → Byte) (hwindow : c.advertisedLogicalWindowFor ≤ 2 ^ 30)
    (hlen : segment.payload.length ≤ 2 ^ 30) (hexact : c.WindowTestExact segment)
    (hany : c.anyPayloadInWindow segment = true) :
    ∃ skip len, UsableRange memory c segment skip len := by
  have hlt := ahead_lt c.rcvNxt segment.sequenceNumber
  by_cases hstart : ahead c.rcvNxt segment.sequenceNumber ≤ 2 ^ 31
  · obtain ⟨hfrom, hto, htest⟩ := usable_ahead hwindow hstart (hexact.1 hstart)
    rw [hany] at htest
    have hoff := of_decide_eq_true htest.symm
    have hseq := pos_ahead c.rcvNxt segment.sequenceNumber
    have hcount : ahead (c.usableStart segment) (c.usableEnd segment) =
        min (ahead c.rcvNxt segment.sequenceNumber + segment.payload.length)
          c.advertisedLogicalWindowFor - ahead c.rcvNxt segment.sequenceNumber := by
      rw [hfrom, hto, ahead]
      nth_rewrite 2 [← hseq]
      exact toNat_pos_sub_pos _ (by omega) (by omega)
    refine ⟨0, min (ahead c.rcvNxt segment.sequenceNumber + segment.payload.length)
      c.advertisedLogicalWindowFor - ahead c.rcvNxt segment.sequenceNumber, ?_, ?_, ?_, ?_, ?_⟩
    · rw [usablePayload, show (c.usableEnd segment - c.usableStart segment).toNat = _ from hcount, hfrom,
        BitVec.sub_self, BitVec.toNat_zero, readRange_eq (by omega)]
    · rw [pos_zero, hfrom]
    · omega
    · omega
    · rw [hfrom]
      omega
  · have hend : ¬ ahead c.rcvNxt segment.sequenceNumber + segment.payload.length <
        2 ^ 31 + c.advertisedLogicalWindowFor := fun h => hstart (hexact.2 h)
    have hback := ahead_swap (b := c.rcvNxt) (x := segment.sequenceNumber) (by omega)
    have hrcv := (pos_ahead segment.sequenceNumber c.rcvNxt).symm
    set t := ahead segment.sequenceNumber c.rcvNxt with ht
    obtain ⟨hfrom, hto, htest⟩ := usable_behind hwindow (by omega) (t := t) (by omega) (by omega) hrcv
      (by omega)
    rw [hany] at htest
    have hoff := of_decide_eq_true htest.symm
    have hcount : ahead (c.usableStart segment) (c.usableEnd segment) =
        min segment.payload.length (t + c.advertisedLogicalWindowFor) - t := by
      rw [hfrom, hto, ahead]
      nth_rewrite 1 [hrcv]
      exact toNat_pos_sub_pos _ (by omega) (by omega)
    have hskip : (c.usableStart segment - segment.sequenceNumber).toNat = t := by
      rw [hfrom, ht, ahead]
    refine ⟨t, min segment.payload.length (t + c.advertisedLogicalWindowFor) - t, ?_, ?_, ?_, ?_, ?_⟩
    · rw [usablePayload, show (c.usableEnd segment - c.usableStart segment).toNat = _ from hcount, hskip,
        readRange_eq (by omega)]
    · rwa [hfrom]
    · omega
    · omega
    · rw [hfrom, ahead_self]
      omega

end Usable

end Wirestack
