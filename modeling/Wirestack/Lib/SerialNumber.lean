import Mathlib.Data.BitVec
import Mathlib.Tactic.Ring

set_option autoImplicit false

/-! # Serial numbers: positions on a circle of `2 ^ w` values

A protocol that numbers an unbounded stream with a `w`-bit counter sees only positions modulo
`2 ^ w`. Proofs about such a protocol are carried out over natural-number offsets: `pos b k` is the
counter value `k` steps after the base `b`, and `ahead b x` is the least offset at which `x` is met
when walking forward from `b`.

The two facts that everything else rests on are `toInt_pos_sub_pos` (the signed difference of two
positions is the difference of their offsets, as long as the offsets are less than half the circle
apart) and `toNat_pos_sub_pos` (the unsigned one, for offsets less than a full circle apart). -/

namespace SerialNumber

variable {w : ℕ}

/-- The counter value `k` steps after `b`. -/
def pos (b : BitVec w) (k : ℕ) : BitVec w := b + BitVec.ofNat w k

/-- How many steps forward from `b` the value `x` is first met. -/
def ahead (b x : BitVec w) : ℕ := (x - b).toNat

@[simp]
theorem pos_zero (b : BitVec w) : pos b 0 = b := by simp [pos]

theorem pos_pos (b : BitVec w) (i j : ℕ) : pos (pos b i) j = pos b (i + j) := by
  simp only [pos, BitVec.ofNat_add, BitVec.add_assoc]

theorem pos_add_one (b : BitVec w) (i : ℕ) : pos b i + 1 = pos b (i + 1) := by
  rw [← pos_pos]
  rfl

theorem pos_one (b : BitVec w) : pos b 1 = b + 1 := rfl

theorem pos_add_ofNat (b : BitVec w) (i j : ℕ) : pos b i + BitVec.ofNat w j = pos b (i + j) :=
  pos_pos b i j

theorem ahead_lt (b x : BitVec w) : ahead b x < 2 ^ w := (x - b).isLt

@[simp]
theorem ahead_self (b : BitVec w) : ahead b b = 0 := by simp [ahead]

@[simp]
theorem pos_ahead (b x : BitVec w) : pos b (ahead b x) = x := by
  simp only [pos, ahead, BitVec.ofNat_toNat, BitVec.setWidth_eq]
  rw [BitVec.add_comm, BitVec.sub_add_cancel]

theorem pos_sub_base (b : BitVec w) (k : ℕ) : pos b k - b = BitVec.ofNat w k := by
  rw [pos, BitVec.add_comm, BitVec.add_sub_cancel]

/-- Walking less than a full circle meets each value at its own offset. -/
theorem ahead_pos (b : BitVec w) {k : ℕ} (hk : k < 2 ^ w) : ahead b (pos b k) = k := by
  rw [ahead, pos_sub_base, BitVec.toNat_ofNat, Nat.mod_eq_of_lt hk]

theorem pos_sub_pos (b : BitVec w) {i j : ℕ} (h : j ≤ i) :
    pos b i - pos b j = BitVec.ofNat w (i - j) := by
  obtain ⟨d, rfl⟩ := Nat.exists_eq_add_of_le h
  rw [← pos_pos, pos_sub_base, Nat.add_sub_cancel_left]

/-- Unsigned differences of positions less than a full circle apart are exact. -/
theorem toNat_pos_sub_pos (b : BitVec w) {i j : ℕ} (h : j ≤ i) (hlt : i - j < 2 ^ w) :
    (pos b i - pos b j).toNat = i - j := by
  rw [pos_sub_pos b h, BitVec.toNat_ofNat, Nat.mod_eq_of_lt hlt]

/-- Offsets less than a full circle apart are recovered from the positions. -/
theorem pos_inj (b : BitVec w) {i j : ℕ} (hij : i < j + 2 ^ w) (hji : j < i + 2 ^ w)
    (h : pos b i = pos b j) : i = j := by
  rcases Nat.le_total j i with hle | hle
  · have := toNat_pos_sub_pos b hle (by omega)
    rw [h, BitVec.sub_self, BitVec.toNat_zero] at this
    omega
  · have := toNat_pos_sub_pos b hle (by omega)
    rw [h, BitVec.sub_self, BitVec.toNat_zero] at this
    omega

/-- Moving the base forward, up to a value, brings that value nearer. -/
theorem ahead_pos_base (b x : BitVec w) {n : ℕ} (h : n ≤ ahead b x) :
    ahead (pos b n) x = ahead b x - n := by
  obtain ⟨k, hk⟩ := Nat.exists_eq_add_of_le h
  have hx : pos (pos b n) k = x := by rw [pos_pos, ← hk, pos_ahead]
  have hlt := ahead_lt b x
  rw [← hx, ahead_pos _ (by omega), hx]
  omega

/-- A value that lies ahead of `b` is met from the other side after the rest of the circle. -/
theorem ahead_swap {b x : BitVec w} (h : 0 < ahead b x) : ahead x b = 2 ^ w - ahead b x := by
  have hlt := ahead_lt b x
  have hx := pos_ahead b x
  have hfull : pos b (ahead b x + (2 ^ w - ahead b x)) = b := by
    have hzero : BitVec.ofNat w (2 ^ w) = 0#w := by
      apply BitVec.eq_of_toNat_eq
      rw [BitVec.toNat_ofNat, Nat.mod_self, BitVec.toNat_zero]
    rw [Nat.add_sub_cancel' hlt.le, pos, hzero, BitVec.add_zero]
  rw [← pos_pos, hx] at hfull
  rw [← ahead_pos x (k := 2 ^ w - ahead b x) (by omega), hfull]

theorem pos_eq_ofInt (b : BitVec w) (k : ℕ) : pos b k = b + BitVec.ofInt w k := by
  rw [pos, BitVec.ofInt_natCast]

/-- Signed differences of positions at most half the circle apart are exact. -/
theorem toInt_pos_sub_pos (b : BitVec w) (i j : ℕ) (hw : 0 < w)
    (hlo : (j : ℤ) - 2 ^ (w - 1) ≤ i) (hhi : (i : ℤ) < j + 2 ^ (w - 1)) :
    (pos b i - pos b j).toInt = (i : ℤ) - j := by
  have hdiff : pos b i - pos b j = BitVec.ofInt w ((i : ℤ) - j) := by
    rw [pos_eq_ofInt, pos_eq_ofInt, sub_eq_add_neg (i : ℤ), BitVec.ofInt_add, BitVec.ofInt_neg]
    ring
  have hpow : (2 : ℤ) ^ w = 2 * 2 ^ (w - 1) := by
    rw [← pow_succ', Nat.sub_add_cancel hw]
  rw [hdiff, BitVec.toInt_ofInt]
  apply Int.bmod_eq_of_le
  · push_cast; omega
  · push_cast; omega

end SerialNumber
