import Mathlib.Data.List.Basic
import Wirestack.Tcp.Segment

set_option autoImplicit false

/-! # Reads at an offset

The parsers read their input by position. A read behind a bounds test is total here, with `getD`; the
checked reads return `none` outside the bytes, and a parser that is written with them and still returns
is one whose every read is within its input. -/

namespace Wirestack

open List

variable {data front rest : List Byte} {i offset : ℕ}

/-! ## Bytes at an offset -/

theorem getElem?_of_drop (h : data.drop i = front ++ rest) {k : ℕ} (hk : k < front.length) :
    data[i + k]? = front[k]? := by
  rw [← getElem?_drop, h, getElem?_append_left hk]

theorem getD_of_drop (h : data.drop i = front ++ rest) {k : ℕ} (hk : k < front.length) :
    data.getD (i + k) 0 = front.getD k 0 := by
  rw [getD_eq_getElem?_getD, getElem?_of_drop h hk, getD_eq_getElem?_getD]

theorem lt_length_of_drop (h : data.drop i = front ++ rest) (hfront : front ≠ []) :
    i + front.length + rest.length = data.length := by
  have hlen := congrArg length h
  rw [length_drop, length_append] at hlen
  have hpos := length_pos_iff.2 hfront
  omega

theorem drop_add_of_drop (h : data.drop i = front ++ rest) :
    data.drop (i + front.length) = rest := by
  rw [← drop_drop, h, drop_left]

theorem drop_eq_getD_cons (h : i < data.length) :
    data.drop i = data.getD i 0 :: data.drop (i + 1) := by
  rw [drop_eq_getElem_cons h, getD_eq_getElem?_getD, getElem?_eq_getElem h, Option.getD_some]

theorem mapM_eq_some_map {α β : Type} {f : α → Option β} {g : α → β} (l : List α)
    (h : ∀ a ∈ l, f a = some (g a)) : l.mapM f = some (l.map g) := by
  induction l with
  | nil => rfl
  | cons a l ih =>
    rw [mapM_cons, h a (mem_cons_self ..), ih fun b hb => h b (mem_cons_of_mem _ hb)]
    rfl

/-! ## Checked reads -/

def readBigEndian16Checked (data : List Byte) (offset : ℕ) : Option UInt16 := do
  let high ← data[offset]?
  let low ← data[offset + 1]?
  return (high.toUInt16 <<< 8) ||| low.toUInt16

def readBigEndian32Checked (data : List Byte) (offset : ℕ) : Option SeqNum := do
  let b₀ ← data[offset]?
  let b₁ ← data[offset + 1]?
  let b₂ ← data[offset + 2]?
  let b₃ ← data[offset + 3]?
  return (b₀.toBitVec.setWidth 32 <<< 24) ||| (b₁.toBitVec.setWidth 32 <<< 16) |||
    (b₂.toBitVec.setWidth 32 <<< 8) ||| b₃.toBitVec.setWidth 32

def readBytesChecked (data : List Byte) (offset n : ℕ) : Option (List Byte) :=
  (range n).mapM fun i => data[offset + i]?

theorem getElem?_eq_some_getD (h : i < data.length) : data[i]? = some (data.getD i 0) := by
  rw [getD_eq_getElem?_getD, getElem?_eq_getElem h]
  rfl

theorem readBigEndian16Checked_eq (h : offset + 2 ≤ data.length) :
    readBigEndian16Checked data offset = some (readBigEndian16 data offset) := by
  rw [readBigEndian16Checked, getElem?_eq_some_getD (by omega), getElem?_eq_some_getD (by omega)]
  rfl

theorem readBigEndian32Checked_eq (h : offset + 4 ≤ data.length) :
    readBigEndian32Checked data offset = some (readBigEndian32 data offset) := by
  rw [readBigEndian32Checked, getElem?_eq_some_getD (by omega), getElem?_eq_some_getD (by omega),
    getElem?_eq_some_getD (by omega), getElem?_eq_some_getD (by omega)]
  rfl

theorem readBytesChecked_eq {n : ℕ} (h : offset + n ≤ data.length) :
    readBytesChecked data offset n = some ((data.drop offset).take n) := by
  have hread : ∀ i ∈ range n, data[offset + i]? = some (data.getD (offset + i) 0) := by
    intro i hi
    have hi := mem_range.1 hi
    exact getElem?_eq_some_getD (by omega)
  have hlength : ((data.drop offset).take n).length = n := by
    rw [length_take, length_drop]
    omega
  rw [readBytesChecked, mapM_eq_some_map _ hread, Option.some_inj]
  refine ext_getElem (by rw [length_map, length_range, hlength]) ?_
  intro i hi _
  rw [length_map, length_range] at hi
  rw [getElem_map, getElem_range, getElem_take, getElem_drop,
    getD_eq_getElem?_getD, getElem?_eq_getElem (by omega), Option.getD_some]

end Wirestack
