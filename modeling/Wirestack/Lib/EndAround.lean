import Mathlib.Algebra.Order.Ring.Nat

set_option autoImplicit false

/-! # End-around carry

One's-complement addition in base `B` adds numbers as they are and then folds what carried out of the
lowest digit back in, until nothing carries. `fold` is that loop. What it computes is a residue
modulo `B - 1` (`fold_eq_residue`), with `B - 1` in place of zero unless the sum itself was zero; it
is also what comes out when the carry is put back after every addition (`sum_eq_residue`).
Hence a number and the complement of its residue add up to all ones (`residue_add_complement`), which
is what a receiver checks. Two sums that differ in one digit are not both all ones
(`DigitChanged.residue_ne`), unless the digit went from zero to all ones or back. -/

namespace EndAround

variable {n s t : ℕ}

/-- Fold the carry back in until there is none. A round that folds makes the number smaller, so the
    number itself is enough fuel. -/
def fold (B : ℕ) : ℕ → ℕ → ℕ
  | 0, n => n
  | fuel + 1, n => if n / B ≠ 0 then fold B fuel (n % B + n / B) else n

def residue (B n : ℕ) : ℕ := if n = 0 then 0 else (n - 1) % (B - 1) + 1

variable {B : ℕ}

theorem residue_le (hB : 2 ≤ B) (n : ℕ) : residue B n ≤ B - 1 := by
  unfold residue
  split_ifs
  · exact Nat.zero_le _
  · have := Nat.mod_lt (n - 1) (show 0 < B - 1 by omega)
    omega

theorem residue_of_lt (hB : 2 ≤ B) (h : n < B) : residue B n = n := by
  unfold residue
  split_ifs with hzero
  · exact hzero.symm
  · rw [Nat.mod_eq_of_lt (by omega)]
    omega

theorem residue_add_mul (n q : ℕ) (hn : n ≠ 0) : residue B (n + (B - 1) * q) = residue B n := by
  unfold residue
  rw [if_neg (by omega), if_neg hn]
  have hsub : n + (B - 1) * q - 1 = n - 1 + (B - 1) * q := by omega
  rw [hsub, Nat.add_mul_mod_self_left]

theorem residue_round (hB : 2 ≤ B) (n : ℕ) : residue B (n % B + n / B) = residue B n := by
  have hdiv := Nat.mod_add_div n B
  generalize n / B = q at hdiv ⊢
  generalize n % B = r at hdiv ⊢
  have hsplit : B * q = (B - 1) * q + q := by
    rw [← Nat.succ_mul, Nat.succ_eq_add_one, Nat.sub_add_cancel (by omega)]
  by_cases hzero : r + q = 0
  · obtain ⟨rfl, rfl⟩ : r = 0 ∧ q = 0 := by omega
    rw [← hdiv, Nat.mul_zero]
  · rw [← residue_add_mul (r + q) q hzero]
    congr 1
    omega

theorem fold_eq_residue (hB : 2 ≤ B) :
    ∀ (fuel : ℕ) {n : ℕ}, n ≤ fuel → fold B fuel n = residue B n := by
  intro fuel
  induction fuel with
  | zero =>
    intro n hn
    obtain rfl : n = 0 := by omega
    rfl
  | succ fuel ih =>
    intro n hn
    rw [fold]
    split_ifs with hcarry
    · have hdiv := Nat.mod_add_div n B
      have hless : 2 * (n / B) ≤ B * (n / B) := Nat.mul_le_mul_right _ hB
      rw [ih (by omega), residue_round hB]
    · have hlt : n < B := by
        by_contra hge
        have := Nat.div_pos (not_lt.1 hge) (by omega)
        omega
      exact (residue_of_lt hB hlt).symm

/-! ## Rounds of the loop -/

/-- What one round of the loop makes of a number. -/
def round (B n : ℕ) : ℕ := n % B + n / B

theorem residue_iterate_round (hB : 2 ≤ B) (rounds n : ℕ) :
    residue B ((round B)^[rounds] n) = residue B n := by
  induction rounds with
  | zero => rfl
  | succ rounds ih => rw [Function.iterate_succ_apply', round, residue_round hB, ih]

theorem round_lt (hB : 2 ≤ B) (hn : n ≤ 2 * (B - 1)) : round B n < B := by
  have hlow := Nat.mod_lt n (show 0 < B by omega)
  have hdiv := Nat.mod_add_div n B
  have hquot : n / B < 2 := Nat.div_lt_of_lt_mul (by omega)
  unfold round
  rcases Nat.le_one_iff_eq_zero_or_eq_one.1 (Nat.le_of_lt_succ hquot) with hcarry | hcarry
  · rwa [hcarry, Nat.add_zero]
  · rw [hcarry] at hdiv ⊢
    omega

theorem exists_rounds (hB : 2 ≤ B) (hn : n < B * B) : ∃ rounds ≤ 2,
    (∀ r < rounds, B ≤ (round B)^[r] n) ∧ (round B)^[rounds] n < B := by
  by_cases hzero : n < B
  · exact ⟨0, by omega, by omega, hzero⟩
  · by_cases hone : round B n < B
    · refine ⟨1, by omega, fun r hr => ?_, hone⟩
      obtain rfl : r = 0 := by omega
      exact not_lt.1 hzero
    · refine ⟨2, le_rfl, fun r hr => ?_, ?_⟩
      · obtain rfl | rfl : r = 0 ∨ r = 1 := by omega
        · exact not_lt.1 hzero
        · exact not_lt.1 hone
      · -- The first round leaves the sum of the two digits.
        have hhigh : n / B < B := Nat.div_lt_of_lt_mul hn
        have hlow : n % B < B := Nat.mod_lt _ (by omega)
        exact round_lt hB (by unfold round; omega)

theorem fold_eq_iterate (hB : 2 ≤ B) {fuel rounds : ℕ} (hfuel : n ≤ fuel)
    (hdone : (round B)^[rounds] n < B) : fold B fuel n = (round B)^[rounds] n := by
  rw [fold_eq_residue hB fuel hfuel, ← residue_iterate_round hB rounds, residue_of_lt hB hdone]

/-! ## The one's-complement sum -/

/-- One's-complement addition of two digits: what carries out goes back in. -/
def add (B a b : ℕ) : ℕ := round B (a + b)

def sum (B : ℕ) (digits : List ℕ) : ℕ := digits.foldl (add B) 0

theorem residue_residue_add (m n : ℕ) : residue B (residue B m + n) = residue B (m + n) := by
  by_cases hzero : m = 0
  · rw [hzero]
    rfl
  · have hres : residue B m = (m - 1) % (B - 1) + 1 := if_neg hzero
    have hdiv := Nat.mod_add_div (m - 1) (B - 1)
    have hsplit : m + n = residue B m + n + (B - 1) * ((m - 1) / (B - 1)) := by omega
    rw [hsplit, residue_add_mul _ _ (by omega)]

theorem add_eq_residue (hB : 2 ≤ B) {a b : ℕ} (ha : a < B) (hb : b < B) :
    add B a b = residue B (a + b) := by
  have hlt : round B (a + b) < B := round_lt hB (by omega)
  rw [← residue_iterate_round hB 1, Function.iterate_one, residue_of_lt hB hlt]
  rfl

theorem sum_eq_residue (hB : 2 ≤ B) {digits : List ℕ} (h : ∀ d ∈ digits, d < B) :
    sum B digits = residue B digits.sum := by
  have hfold : ∀ acc < B, digits.foldl (add B) acc = residue B (acc + digits.sum) := by
    induction digits with
    | nil => exact fun acc hacc => (residue_of_lt hB hacc).symm
    | cons d digits ih =>
      intro acc hacc
      obtain ⟨hd, hdigits⟩ := List.forall_mem_cons.1 h
      have hle := residue_le hB (acc + d)
      rw [List.foldl_cons, add_eq_residue hB hacc hd, ih hdigits _ (by omega),
        residue_residue_add, List.sum_cons, Nat.add_assoc]
  rw [sum, hfold 0 (by omega), Nat.zero_add]

theorem residue_eq_iff (hB : 2 ≤ B) (n : ℕ) : residue B n = B - 1 ↔ 0 < n ∧ B - 1 ∣ n := by
  constructor
  · intro h
    unfold residue at h
    split_ifs at h with hzero
    · omega
    · have hdiv := Nat.mod_add_div (n - 1) (B - 1)
      refine ⟨by omega, (n - 1) / (B - 1) + 1, ?_⟩
      rw [Nat.mul_add, Nat.mul_one]
      omega
  · rintro ⟨hpos, q, rfl⟩
    obtain ⟨p, rfl⟩ : ∃ p, q = p + 1 := Nat.exists_eq_succ_of_ne_zero (by rintro rfl; omega)
    rw [Nat.mul_add, Nat.mul_one, Nat.add_comm, residue_add_mul _ _ (by omega),
      residue_of_lt hB (by omega)]

theorem residue_add_complement (hB : 2 ≤ B) (n : ℕ) :
    residue B (n + (B - 1 - residue B n)) = B - 1 := by
  by_cases hzero : n = 0
  · have hres : residue B n = 0 := if_pos hzero
    rw [hres, hzero, Nat.zero_add, Nat.sub_zero, residue_of_lt hB (by omega)]
  · have hmod := Nat.mod_lt (n - 1) (show 0 < B - 1 by omega)
    have hdiv := Nat.mod_add_div (n - 1) (B - 1)
    have hres : residue B n = (n - 1) % (B - 1) + 1 := if_neg hzero
    have hsum : n + (B - 1 - residue B n) = (B - 1) + (B - 1) * ((n - 1) / (B - 1)) := by
      rw [hres]
      omega
    rw [hsum, residue_add_mul _ _ (by omega), residue_of_lt hB (by omega)]

/-! ## One digit changed -/

/-- Two sums that differ in one digit. Zero and all ones are the same digit to the fold, so neither may
    take the place of the other. -/
def DigitChanged (B s t : ℕ) : Prop :=
  ∃ rest digit digit', s = rest + digit ∧ t = rest + digit' ∧ digit < B ∧ digit' < B ∧
    digit ≠ digit' ∧ ¬ (digit = 0 ∧ digit' = B - 1) ∧ ¬ (digit = B - 1 ∧ digit' = 0)

theorem DigitChanged.add_left (h : DigitChanged B s t) (n : ℕ) :
    DigitChanged B (n + s) (n + t) := by
  obtain ⟨rest, digit, digit', rfl, rfl, hdigits⟩ := h
  exact ⟨n + rest, digit, digit', (Nat.add_assoc _ _ _).symm, (Nat.add_assoc _ _ _).symm, hdigits⟩

theorem DigitChanged.add_right (h : DigitChanged B s t) (n : ℕ) :
    DigitChanged B (s + n) (t + n) := by
  rw [Nat.add_comm s, Nat.add_comm t]
  exact h.add_left n

theorem DigitChanged.residue_ne (hB : 2 ≤ B) (h : DigitChanged B s t) (hs : residue B s = B - 1) :
    residue B t ≠ B - 1 := by
  intro ht
  obtain ⟨rest, digit, digit', rfl, rfl, hlt, hlt', hne, hup, hdown⟩ := h
  -- the digits differ by a multiple of `B - 1`, which only zero and all ones do
  obtain hless | hless := Nat.lt_or_gt_of_ne hne
  · have hdvd : B - 1 ∣ digit' - digit := by
      have := Nat.dvd_sub ((residue_eq_iff hB _).1 ht).2 ((residue_eq_iff hB _).1 hs).2
      rwa [Nat.add_sub_add_left] at this
    have hle := Nat.le_of_dvd (by omega) hdvd
    exact hup ⟨by omega, by omega⟩
  · have hdvd : B - 1 ∣ digit - digit' := by
      have := Nat.dvd_sub ((residue_eq_iff hB _).1 hs).2 ((residue_eq_iff hB _).1 ht).2
      rwa [Nat.add_sub_add_left] at this
    have hle := Nat.le_of_dvd (by omega) hdvd
    exact hdown ⟨by omega, by omega⟩

end EndAround
