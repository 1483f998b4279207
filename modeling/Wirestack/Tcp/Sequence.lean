import Wirestack.Tcp.Connection

set_option autoImplicit false

/-! # Sequence comparisons as comparisons of offsets

The signed-difference tests are total functions on 32-bit values, but an order only within half the
sequence space. `sequenceGreater_iff` and `sequenceLessOrEqual_iff` say exactly what they compute;
the lemmas on `pos` are the two cases in which they compare offsets. -/

namespace Wirestack

open SerialNumber

theorem sequenceGreater_iff (a b : SeqNum) :
    sequenceGreater a b = true ↔ 0 < ahead b a ∧ ahead b a < 2 ^ 31 := by
  simp only [sequenceGreater, decide_eq_true_eq, ahead, BitVec.toInt_eq_toNat_cond]
  have := (a - b).isLt
  split_ifs <;> omega

theorem sequenceLessOrEqual_iff (a b : SeqNum) :
    sequenceLessOrEqual a b = true ↔ ahead a b < 2 ^ 31 := by
  simp only [sequenceLessOrEqual, decide_eq_true_eq, ahead, BitVec.toInt_eq_toNat_cond]
  have := (b - a).isLt
  split_ifs <;> omega

theorem sequenceGreater_self (a : SeqNum) : sequenceGreater a a = false := by
  simp [sequenceGreater]

/-- Within half the space the test compares offsets. -/
theorem sequenceGreater_pos (b : SeqNum) {i j : ℕ} (hij : i < j + 2 ^ 31) (hji : j ≤ i + 2 ^ 31) :
    sequenceGreater (pos b i) (pos b j) = decide (j < i) := by
  rw [sequenceGreater, toInt_pos_sub_pos b i j (by omega) (by omega) (by omega)]
  exact decide_eq_decide.2 (by omega)

theorem sequenceLessOrEqual_pos (b : SeqNum) {i j : ℕ} (hij : i < j + 2 ^ 31)
    (hji : j < i + 2 ^ 31) : sequenceLessOrEqual (pos b i) (pos b j) = decide (i ≤ j) := by
  rw [sequenceLessOrEqual, toInt_pos_sub_pos b j i (by omega) (by omega) (by omega)]
  exact decide_eq_decide.2 (by omega)

end Wirestack
