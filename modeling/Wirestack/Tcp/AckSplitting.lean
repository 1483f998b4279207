import Wirestack.Tcp.CongestionBounds

set_option autoImplicit false

/-! # Cutting acknowledgments into pieces

A peer may acknowledge the same bytes with one segment or with many. Growth by pieces is compared
with growth in one call: a piece never buys more than its own bytes (`applyCongestionGrowth_le`), and
in congestion avoidance the credit that a call leaves behind makes the pieces add up exactly
(`applyCongestionGrowth_add`). -/

namespace Wirestack

/-! ## The congestion-avoidance loop -/

theorem congestionAvoidanceGrowth_le {smss : ℕ} (hmax : smss ≤ kMaxCongestionWindow) (fuel : ℕ) :
    ∀ {cwnd : ℕ} (acked : ℕ), smss ≤ cwnd →
    smss ≤ (congestionAvoidanceGrowth smss fuel cwnd acked).1 ∧
      (congestionAvoidanceGrowth smss fuel cwnd acked).1 +
        (congestionAvoidanceGrowth smss fuel cwnd acked).2 ≤ cwnd + acked := by
  induction fuel with
  | zero => exact fun _ hmss => ⟨hmss, le_rfl⟩
  | succ fuel ih =>
    intro cwnd acked hmss
    rw [congestionAvoidanceGrowth]
    split_ifs with hround
    · have hgrown : smss ≤ clampCwnd (cwnd + smss) := le_clampCwnd (by omega) hmax
      have hclamp : clampCwnd (cwnd + smss) ≤ cwnd + smss := min_le_left _ _
      obtain ⟨hge, hsum⟩ := ih (acked - cwnd) hgrown
      exact ⟨hge, by omega⟩
    · exact ⟨hmss, le_rfl⟩

/-- The loop as the source runs it, until less than a window of credit is left. -/
def growthLoop (smss cwnd acked : ℕ) : ℕ × ℕ := congestionAvoidanceGrowth smss acked cwnd acked

theorem growthLoop_eq (smss acked : ℕ) {cwnd : ℕ} (hcwnd : 0 < cwnd) : growthLoop smss cwnd acked =
      if acked ≥ cwnd then growthLoop smss (clampCwnd (cwnd + smss)) (acked - cwnd)
      else (cwnd, acked) := by
  unfold growthLoop
  cases acked with
  | zero => exact (if_neg (by omega)).symm
  | succ acked =>
    rw [congestionAvoidanceGrowth]
    by_cases hround : acked + 1 ≥ cwnd
    · rw [if_pos ⟨hcwnd, hround⟩, if_pos hround]
      have hgrown : 0 < clampCwnd (cwnd + smss) := le_clampCwnd (by omega) (by decide)
      -- The loop has more fuel left than the credit needs.
      obtain ⟨more, hmore⟩ := Nat.exists_eq_add_of_le (show acked + 1 - cwnd ≤ acked by omega)
      have hfuel := congestionAvoidanceGrowth_fuel smss (acked + 1 - cwnd) more le_rfl hgrown
      rwa [← hmore] at hfuel
    · rw [if_neg fun h => hround h.2, if_neg hround]

theorem growthLoop_add (smss more acked : ℕ) : ∀ {cwnd : ℕ}, 0 < cwnd →
    growthLoop smss cwnd (acked + more) =
      growthLoop smss (growthLoop smss cwnd acked).1 ((growthLoop smss cwnd acked).2 + more) := by
  -- On the credit: a round takes a positive `cwnd` off it.
  induction acked using Nat.strong_induction_on with
  | _ acked ih =>
    intro cwnd hcwnd
    by_cases hround : acked ≥ cwnd
    · have hgrown : 0 < clampCwnd (cwnd + smss) := le_clampCwnd (by omega) (by decide)
      rw [growthLoop_eq smss _ hcwnd, if_pos (by omega), growthLoop_eq smss acked hcwnd,
        if_pos hround, Nat.sub_add_comm hround]
      exact ih (acked - cwnd) (by omega) hgrown
    · rw [growthLoop_eq smss acked hcwnd, if_neg hround]

/-! ## One call -/

theorem applyCongestionGrowth_zero (c : Connection) : c.applyCongestionGrowth 0 = c := if_pos rfl

theorem applyCongestionGrowth_of_avoidance {c : Connection} (hthresh : c.ssthresh ≤ c.cwnd)
    (hacked : c.congestionAvoidanceAckedBytes < c.cwnd) {dataBytes : ℕ}
    (hwrap : c.congestionAvoidanceAckedBytes + dataBytes < 2 ^ 32) :
    c.applyCongestionGrowth dataBytes = { c with
        cwnd := (growthLoop c.effectiveSendMss.toNat c.cwnd
          (c.congestionAvoidanceAckedBytes + dataBytes)).1
        congestionAvoidanceAckedBytes := (growthLoop c.effectiveSendMss.toNat c.cwnd
          (c.congestionAvoidanceAckedBytes + dataBytes)).2 } := by
  by_cases hzero : dataBytes = 0
  · rw [hzero, applyCongestionGrowth_zero, Nat.add_zero, growthLoop_eq _ _ (by omega),
      if_neg (by omega)]
  · rw [Connection.applyCongestionGrowth, if_neg hzero]
    rw [if_neg (not_lt.2 hthresh), Nat.mod_eq_of_lt hwrap]
    rfl

theorem applyCongestionGrowth_le {c : Connection} (hmss : c.effectiveSendMss.toNat ≤ c.cwnd)
    (dataBytes : ℕ) :
    (c.applyCongestionGrowth dataBytes).effectiveSendMss.toNat ≤
        (c.applyCongestionGrowth dataBytes).cwnd ∧
      (c.applyCongestionGrowth dataBytes).cwnd +
          (c.applyCongestionGrowth dataBytes).congestionAvoidanceAckedBytes ≤
        c.cwnd + c.congestionAvoidanceAckedBytes + dataBytes := by
  have hmax : c.effectiveSendMss.toNat ≤ kMaxCongestionWindow :=
    (Nat.le_of_lt c.effectiveSendMss.toNat_lt).trans (by decide)
  unfold Connection.applyCongestionGrowth
  split_ifs with hzero hstart
  · exact ⟨hmss, by omega⟩
  · have hclamp : clampCwnd (c.cwnd + min dataBytes c.effectiveSendMss.toNat) ≤
        c.cwnd + min dataBytes c.effectiveSendMss.toNat := min_le_left _ _
    refine ⟨le_clampCwnd (hmss.trans (Nat.le_add_right _ _)) hmax, ?_⟩
    show clampCwnd _ + c.congestionAvoidanceAckedBytes ≤ _
    omega
  · obtain ⟨hge, hsum⟩ := congestionAvoidanceGrowth_le hmax
      ((c.congestionAvoidanceAckedBytes + dataBytes) % 2 ^ 32)
      ((c.congestionAvoidanceAckedBytes + dataBytes) % 2 ^ 32) hmss
    exact ⟨hge, hsum.trans (by omega)⟩

/-- What congestion avoidance keeps as long as the window is within its cap. -/
structure Avoiding (c : Connection) : Prop where
  mss : c.effectiveSendMss.toNat ≤ c.cwnd
  ssthresh : c.ssthresh ≤ c.cwnd
  acked : c.congestionAvoidanceAckedBytes < c.cwnd
  cwnd_le : c.cwnd ≤ kMaxCongestionWindow

namespace Avoiding

variable {c : Connection}

theorem cwnd_pos (h : Avoiding c) : 0 < c.cwnd := lt_of_le_of_lt (Nat.zero_le _) h.acked

theorem applyCongestionGrowth (h : Avoiding c) (dataBytes : ℕ)
    (hwrap : c.congestionAvoidanceAckedBytes + dataBytes < 2 ^ 32) :
    Avoiding (c.applyCongestionGrowth dataBytes) ∧
      (c.applyCongestionGrowth dataBytes).congestionAvoidanceAckedBytes ≤
        c.congestionAvoidanceAckedBytes + dataBytes := by
  obtain ⟨hmss, hsum⟩ := applyCongestionGrowth_le h.mss dataBytes
  rw [applyCongestionGrowth_of_avoidance h.ssthresh h.acked hwrap] at hmss hsum ⊢
  obtain ⟨hge, hle⟩ := congestionAvoidanceGrowth_range c.effectiveSendMss.toNat
    (c.congestionAvoidanceAckedBytes + dataBytes) (c.congestionAvoidanceAckedBytes + dataBytes)
    h.cwnd_le
  refine ⟨⟨hmss, h.ssthresh.trans hge, ?_, hle⟩, ?_⟩
  · exact congestionAvoidanceGrowth_lt _ _ le_rfl h.cwnd_pos
  · change c.cwnd ≤ (growthLoop _ _ _).1 at hge
    dsimp only at hsum ⊢
    omega

theorem applyCongestionGrowth_add (h : Avoiding c) {first second : ℕ}
    (hwrap : c.congestionAvoidanceAckedBytes + (first + second) < 2 ^ 32) :
    (c.applyCongestionGrowth first).applyCongestionGrowth second =
      c.applyCongestionGrowth (first + second) := by
  obtain ⟨hfirst, hcredit⟩ := h.applyCongestionGrowth first (by omega)
  rw [applyCongestionGrowth_of_avoidance hfirst.ssthresh hfirst.acked (by omega),
    applyCongestionGrowth_of_avoidance h.ssthresh h.acked hwrap,
    applyCongestionGrowth_of_avoidance h.ssthresh h.acked (by omega), ← Nat.add_assoc,
    growthLoop_add _ second _ h.cwnd_pos]

theorem foldl_applyCongestionGrowth (pieces : List ℕ) : ∀ {c : Connection}, Avoiding c →
    c.congestionAvoidanceAckedBytes + pieces.sum < 2 ^ 32 →
    pieces.foldl Connection.applyCongestionGrowth c = c.applyCongestionGrowth pieces.sum := by
  induction pieces with
  | nil => exact fun _ _ => (applyCongestionGrowth_zero _).symm
  | cons piece rest ih =>
    intro c h hwrap
    rw [List.sum_cons] at hwrap ⊢
    obtain ⟨hpiece, hcredit⟩ := h.applyCongestionGrowth piece (by omega)
    rw [List.foldl_cons, ih hpiece (by omega)]
    exact h.applyCongestionGrowth_add hwrap

end Avoiding

/-! ## Any way of cutting -/

theorem foldl_applyCongestionGrowth_le (pieces : List ℕ) :
    ∀ {c : Connection}, c.effectiveSendMss.toNat ≤ c.cwnd →
    (pieces.foldl Connection.applyCongestionGrowth c).cwnd +
        (pieces.foldl Connection.applyCongestionGrowth c).congestionAvoidanceAckedBytes ≤
      c.cwnd + c.congestionAvoidanceAckedBytes + pieces.sum := by
  induction pieces with
  | nil => exact fun _ => le_rfl
  | cons piece rest ih =>
    intro c hmss
    obtain ⟨hmss', hpiece⟩ := applyCongestionGrowth_le hmss piece
    have hrest := ih hmss'
    rw [List.foldl_cons, List.sum_cons]
    omega

/-- **Splitting acknowledgments buys nothing.** -/
theorem ackSplitting_no_gain {c : Connection} (hmss : c.effectiveSendMss.toNat ≤ c.cwnd)
    (hacked : c.congestionAvoidanceAckedBytes < c.cwnd) {pieces : List ℕ}
    (htotal : pieces.sum < 2 ^ 31) :
    (pieces.foldl Connection.applyCongestionGrowth c).cwnd +
        (pieces.foldl Connection.applyCongestionGrowth c).congestionAvoidanceAckedBytes ≤
      c.cwnd + c.congestionAvoidanceAckedBytes + pieces.sum ∧
    (c.ssthresh ≤ c.cwnd → c.cwnd ≤ kMaxCongestionWindow →
      pieces.foldl Connection.applyCongestionGrowth c = c.applyCongestionGrowth pieces.sum) := by
  refine ⟨foldl_applyCongestionGrowth_le pieces hmss, fun hthresh hmax => ?_⟩
  have hcap : kMaxCongestionWindow = 2 ^ 30 := rfl
  exact Avoiding.foldl_applyCongestionGrowth pieces ⟨hmss, hthresh, hacked, hmax⟩ (by omega)

/-- A window of one segment, with one byte of credit missing for the next increase. -/
def exampleAvoiding : Connection :=
  { activeConnection 1000 with
    cwnd := 1460
    ssthresh := 1460
    congestionAvoidanceAckedBytes := 1459 }

/-- Three pieces grow the window as their sum does. -/
theorem ackSplitting_no_gain_example :
    ([1, 1000, 1000].foldl Connection.applyCongestionGrowth exampleAvoiding).cwnd = 2920 ∧
    ([1, 1000, 1000].foldl Connection.applyCongestionGrowth exampleAvoiding) =
      exampleAvoiding.applyCongestionGrowth 2001 := by
  have hsplit := (@ackSplitting_no_gain exampleAvoiding (by decide) (by decide) [1, 1000, 1000]
    (by decide)).2 (by decide) (by decide)
  exact ⟨by decide +kernel, hsplit⟩

/-- A window above the cap, with a threshold to match. No call leaves such a window behind. -/
def exampleAboveCap : Connection :=
  { activeConnection 1000 with
    cwnd := 2147483648
    ssthresh := 2147483648
    congestionAvoidanceAckedBytes := 2147483647 }

/-- Above the cap the first increase clamps the window below the threshold, and the second piece is
    counted by slow start. -/
theorem ackSplitting_aboveCap : exampleAboveCap.effectiveSendMss.toNat ≤ exampleAboveCap.cwnd ∧
    exampleAboveCap.congestionAvoidanceAckedBytes < exampleAboveCap.cwnd ∧
    exampleAboveCap.ssthresh ≤ exampleAboveCap.cwnd ∧ [1, 1].sum < 2 ^ 31 ∧
    ([1, 1].foldl Connection.applyCongestionGrowth
      exampleAboveCap).congestionAvoidanceAckedBytes = 0 ∧
    (exampleAboveCap.applyCongestionGrowth [1, 1].sum).congestionAvoidanceAckedBytes = 1 := by
  decide +kernel

end Wirestack
