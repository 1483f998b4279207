import Mathlib.Tactic.IntervalCases
import Wirestack.Http.Text

set_option autoImplicit false

/-! # Decimal numbers in text

What a string of digits means (`decimal`), and how numbers are printed. A printed number is read back
(`decimal_toString`), and digits without a leading zero are how the number they mean is printed
(`ascii_toString_decimal`): a number has one such spelling. -/

namespace Wirestack

open List

variable {digits : List Byte}

def isAllDigits (s : List Byte) : Bool := !s.isEmpty && s.all isDigit

/-- The value of a decimal digit. -/
def digitValue (c : Byte) : ℕ := c.toNat - 0x30

theorem isAllDigits_iff {s : List Byte} :
    isAllDigits s = true ↔ s ≠ [] ∧ ∀ c ∈ s, isDigit c = true := by
  rw [isAllDigits, Bool.and_eq_true, Bool.not_eq_true', isEmpty_eq_false_iff, all_eq_true]

/-- The number that the digits write behind those that have been read. -/
def decimalFrom (v : ℕ) (digits : List Byte) : ℕ :=
  digits.foldl (fun v c => 10 * v + digitValue c) v

def decimal (digits : List Byte) : ℕ := decimalFrom 0 digits

theorem digitValue_le_nine : ∀ c : Byte, isDigit c = true → digitValue c ≤ 9 :=
  forall_byte (by decide +kernel)

theorem le_decimalFrom (v : ℕ) (digits : List Byte) : v ≤ decimalFrom v digits := by
  induction digits generalizing v with
  | nil => exact le_rfl
  | cons c digits ih => exact le_trans (by omega) (ih (10 * v + digitValue c))

theorem decimalFrom_lt (h : ∀ c ∈ digits, isDigit c = true) (v : ℕ) :
    decimalFrom v digits < (v + 1) * 10 ^ digits.length := by
  induction digits generalizing v with
  | nil => exact (Nat.lt_succ_self v).trans_eq (Nat.mul_one _).symm
  | cons c digits ih =>
    obtain ⟨hdigit, hdigits⟩ := forall_mem_cons.1 h
    have hnine := digitValue_le_nine c hdigit
    calc decimalFrom v (c :: digits) = decimalFrom (10 * v + digitValue c) digits := rfl
      _ < (10 * v + digitValue c + 1) * 10 ^ digits.length := ih hdigits _
      _ ≤ (v + 1) * 10 * 10 ^ digits.length := Nat.mul_le_mul_right _ (by omega)
      _ = (v + 1) * 10 ^ (c :: digits).length := by rw [length_cons, pow_succ', mul_assoc]

/-- A number is bounded by how many digits it has. -/
theorem decimal_lt (h : ∀ c ∈ digits, isDigit c = true) : decimal digits < 10 ^ digits.length := by
  have hlt := decimalFrom_lt h 0
  rwa [Nat.zero_add, Nat.one_mul] at hlt

/-! ## Printed numbers -/

/-- A digit as a byte. -/
theorem digit_byte {c : Char} (h : c.isDigit = true) : isDigit (UInt8.ofNat c.toNat) = true ∧
    digitValue (UInt8.ofNat c.toNat) = c.toNat - '0'.toNat := by
  obtain ⟨hlow, hhigh⟩ : 48 ≤ c.toNat ∧ c.toNat ≤ 57 := Char.isDigit_iff_toNat.1 h
  generalize c.toNat = n at hlow hhigh
  interval_cases n <;> decide

theorem ascii_toString (n : ℕ) :
    ascii (toString n) = (Nat.toDigits 10 n).map fun c => UInt8.ofNat c.toNat := by
  rw [ascii, Nat.toString_eq_ofList_toDigits, String.toList_ofList]

theorem isAllDigits_toString (n : ℕ) : isAllDigits (ascii (toString n)) = true := by
  rw [isAllDigits_iff, ascii_toString]
  refine ⟨fun hnil => Nat.toDigits_ne_nil (map_eq_nil_iff.1 hnil), fun b hb => ?_⟩
  obtain ⟨c, hc, rfl⟩ := mem_map.1 hb
  exact (digit_byte (Nat.isDigit_of_mem_toDigits (by decide) (by decide) hc)).1

theorem decimalFrom_map {digits : List Char} (h : ∀ c ∈ digits, c.isDigit = true) (v : ℕ) :
    decimalFrom v (digits.map fun c => UInt8.ofNat c.toNat) = Nat.ofDigitChars 10 digits v := by
  induction digits generalizing v with
  | nil => rfl
  | cons c digits ih =>
    obtain ⟨hdigit, hdigits⟩ := forall_mem_cons.1 h
    rw [Nat.ofDigitChars_cons, ← ih hdigits, ← (digit_byte hdigit).2]
    rfl

/-- A printed number is read back. -/
theorem decimal_toString (n : ℕ) : decimal (ascii (toString n)) = n := by
  have hdigits : ∀ c ∈ Nat.toDigits 10 n, c.isDigit = true := fun c hc =>
    Nat.isDigit_of_mem_toDigits (by decide) (by decide) hc
  rw [ascii_toString, decimal, decimalFrom_map hdigits, Nat.ofDigitChars_ten_toDigits]

theorem ascii_toString_digit : ∀ c : Byte, isDigit c = true → ascii (toString (digitValue c)) = [c] :=
  forall_byte (by decide +kernel)

theorem digitValue_pos : ∀ c : Byte, isDigit c = true → c ≠ 0x30 → 0 < digitValue c :=
  forall_byte (by decide +kernel)

/-- A digit read behind a number that is not zero is printed behind it. -/
theorem ascii_toString_snoc {v : ℕ} (hv : 0 < v) {c : Byte} (hc : isDigit c = true) :
    ascii (toString (10 * v + digitValue c)) = ascii (toString v) ++ [c] := by
  have hlt : digitValue c < 10 := Nat.lt_succ_of_le (digitValue_le_nine c hc)
  rw [← ascii_toString_digit c hc, ascii_toString, ascii_toString, ascii_toString,
    ← Nat.toDigits_append_toDigits (by decide) hv hlt, map_append]

theorem ascii_toString_decimalFrom (h : ∀ c ∈ digits, isDigit c = true) :
    ∀ {v : ℕ}, 0 < v → ascii (toString (decimalFrom v digits)) = ascii (toString v) ++ digits := by
  induction digits with
  | nil => exact fun _ => (append_nil _).symm
  | cons c digits ih =>
    intro v hv
    obtain ⟨hdigit, hdigits⟩ := forall_mem_cons.1 h
    have hrest : ascii (toString (decimalFrom v (c :: digits))) =
        ascii (toString (10 * v + digitValue c)) ++ digits :=
      ih hdigits (Nat.add_pos_left (Nat.mul_pos (by decide) hv) _)
    rw [hrest, ascii_toString_snoc hv hdigit, append_assoc]
    rfl

/-- Digits without a leading zero are how their number is printed. -/
theorem ascii_toString_decimal (h : isAllDigits digits = true)
    (hlead : 1 < digits.length → digits.head? ≠ some 0x30) :
    ascii (toString (decimal digits)) = digits := by
  obtain ⟨hne, hdigits⟩ := isAllDigits_iff.1 h
  cases digits with
  | nil => exact absurd rfl hne
  | cons c rest =>
    obtain ⟨hdigit, hrest⟩ := forall_mem_cons.1 hdigits
    have hfirst : decimal (c :: rest) = decimalFrom (digitValue c) rest := by
      show decimalFrom (10 * 0 + digitValue c) rest = _
      rw [Nat.mul_zero, Nat.zero_add]
    rw [hfirst]
    cases rest with
    | nil => exact ascii_toString_digit c hdigit
    | cons d rest =>
      have hpos := digitValue_pos c hdigit fun hzero =>
        hlead (Nat.succ_lt_succ (Nat.succ_pos _)) (by rw [hzero]; rfl)
      rw [ascii_toString_decimalFrom hrest hpos, ascii_toString_digit c hdigit]
      rfl

end Wirestack
