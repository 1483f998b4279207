import Mathlib.Data.List.Basic
import Wirestack.Tcp.Segment

set_option autoImplicit false

/-! # Text in byte strings

The character classes and the line and field splitting that `http.cpp` and `http_client.cpp` both
have. The two files keep copies of the same small functions; where a copy differs, as in what is
trimmed from a header value, the difference is a parameter here. Strings are lists of bytes, since
nothing in either parser restricts them to ASCII. -/

namespace Wirestack

open List Option

variable {b c : Byte} {more : List Byte}

/-- The bytes of an ASCII text (`toBytes`). -/
def ascii (text : String) : List Byte := text.toList.map fun c => UInt8.ofNat c.toNat

def crlf : List Byte := ascii "\r\n"

def headTerminator : List Byte := ascii "\r\n\r\n"

/-- The byte `.`. -/
def dot : Byte := 0x2e

/-- `view.find(pattern)`: where the pattern first occurs. -/
def findText (pattern : List Byte) : List Byte → Option ℕ
  | [] => if pattern.isEmpty then some 0 else none
  | b :: rest =>
    if pattern.isPrefixOf (b :: rest) then some 0 else (findText pattern rest).map (· + 1)

/-! ## The first occurrence in a longer text -/

section

variable {pattern text : List Byte} {i : ℕ}

theorem findText_cons_some (h : findText pattern (b :: text) = some i) :
    pattern <+: b :: text ∧ i = 0 ∨
      ¬pattern <+: b :: text ∧ ∃ j, findText pattern text = some j ∧ i = j + 1 := by
  rw [findText] at h
  split_ifs at h with hstart
  · exact .inl ⟨ isPrefixOf_iff_prefix.1 hstart, (some.inj h).symm⟩
  · obtain ⟨j, hj, rfl⟩ := map_eq_some_iff.1 h
    exact .inr ⟨fun hleads => hstart ( isPrefixOf_iff_prefix.2 hleads), j, hj, rfl⟩

theorem findText_cons_start (h : pattern <+: b :: text) :
    findText pattern (b :: text) = some 0 := by
  rw [findText, if_pos ( isPrefixOf_iff_prefix.2 h)]

theorem findText_cons_next (h : ¬pattern <+: b :: text) :
    findText pattern (b :: text) = (findText pattern text).map (· + 1) := by
  rw [findText, if_neg fun hleads => h ( isPrefixOf_iff_prefix.1 hleads)]

theorem findText_le (h : findText pattern text = some i) : i + pattern.length ≤ text.length := by
  induction text generalizing i with
  | nil =>
    rw [findText] at h
    split_ifs at h with hempty
    rw [← some.inj h, isEmpty_iff.1 hempty]
    exact le_rfl
  | cons b text ih =>
    obtain ⟨hleads, rfl⟩ | ⟨-, j, hj, rfl⟩ := findText_cons_some h
    · rw [Nat.zero_add]
      exact hleads.length_le
    · have hle := ih hj
      rw [length_cons]
      omega

theorem findText_split (h : findText pattern text = some i) :
    text = text.take i ++ (pattern ++ text.drop (i + pattern.length)) := by
  induction text generalizing i with
  | nil =>
    rw [findText] at h
    split_ifs at h with hempty
    rw [isEmpty_iff.1 hempty, take_nil, drop_nil]
    rfl
  | cons b text ih =>
    obtain ⟨⟨rest, hrest⟩, rfl⟩ | ⟨-, j, hj, rfl⟩ := findText_cons_some h
    · rw [take_zero, nil_append, Nat.zero_add, ← hrest, drop_left]
    · rw [take_succ_cons, Nat.add_right_comm, drop_succ_cons, cons_append, ← ih hj]

theorem findText_append_iff : findText pattern text = some i ↔
    findText pattern (text ++ more) = some i ∧ i + pattern.length ≤ text.length := by
  constructor
  · intro h
    refine ⟨?_, findText_le h⟩
    induction text generalizing i with
    | nil =>
      rw [findText] at h
      split_ifs at h with hempty
      rw [isEmpty_iff.1 hempty, nil_append, ← some.inj h]
      cases more with
      | nil => rfl
      | cons b more => exact findText_cons_start nil_prefix
    | cons b text ih =>
      obtain ⟨hleads, rfl⟩ | ⟨hleads, j, hj, rfl⟩ := findText_cons_some h
      · exact findText_cons_start (hleads.trans (prefix_append _ _))
      · -- A later occurrence fits, so the pattern would have fitted here as well.
        have hfits : pattern.length ≤ (b :: text).length := by
          have hle := findText_le hj
          rw [length_cons]
          omega
        have hnext : ¬pattern <+: b :: (text ++ more) := fun hlonger =>
          hleads (prefix_of_prefix_length_le hlonger (prefix_append (b :: text) more) hfits)
        rw [cons_append, findText_cons_next hnext, ih hj]
        rfl
  · rintro ⟨h, hle⟩
    induction text generalizing i with
    | nil =>
      have hpattern : pattern = [] := length_eq_zero_iff.1 (by
        rw [length_nil] at hle
        omega)
      have hi : i = 0 := by
        rw [length_nil] at hle
        omega
      rw [hpattern, hi]
      rfl
    | cons b text ih =>
      obtain ⟨hleads, rfl⟩ | ⟨hleads, j, hj, rfl⟩ := findText_cons_some h
      · exact findText_cons_start (prefix_of_prefix_length_le hleads
          (prefix_append (b :: text) more) (by rwa [Nat.zero_add] at hle))
      · have hnext : ¬pattern <+: b :: text := fun hshorter =>
          hleads (hshorter.trans (prefix_append (b :: text) more))
        rw [length_cons] at hle
        rw [findText_cons_next hnext, ih hj (by omega)]
        rfl

theorem findText_append (h : findText pattern text = some i) :
    findText pattern (text ++ more) = some i :=
  (findText_append_iff.1 h).1

theorem lt_of_findText_append (hnone : findText pattern text = none)
    (h : findText pattern (text ++ more) = some i) : text.length < i + pattern.length := by
  by_contra hle
  simp [findText_append_iff.2 ⟨h, not_lt.1 hle⟩] at hnone

theorem findText_eq_none_of_append (h : findText pattern (text ++ more) = some i)
    (hlt : text.length < i + pattern.length) : findText pattern text = none := by
  refine eq_none_iff_forall_ne_some.2 fun j hj => ?_
  obtain ⟨hfound, hle⟩ := findText_append_iff.1 hj
  rw [h] at hfound
  rw [← some.inj hfound] at hle
  exact absurd hle (not_le.2 hlt)

theorem findText_skip {first : Byte} {front : List Byte} (h : first ∉ front) (rest : List Byte) :
    findText (first :: pattern) (front ++ rest) =
      (findText (first :: pattern) rest).map (· + front.length) := by
  induction front with
  | nil =>
    rw [nil_append]
    exact map_id'.symm
  | cons b front ih =>
    obtain ⟨hb, hfront⟩ := not_or.1 (mem_cons.not.1 h)
    have hnext : ¬first :: pattern <+: b :: (front ++ rest) := fun hleads =>
      hb (cons_prefix_cons.1 hleads).1
    rw [cons_append, findText_cons_next hnext, ih hfront, Option.map_map]
    congr 1

theorem findText_start {start : List Byte} (hstart : start <+: pattern)
    (h : findText pattern text = some i) : ∃ j ≤ i, findText start text = some j := by
  induction text generalizing i with
  | nil =>
    rw [findText] at h
    split_ifs at h with hempty
    rw [isEmpty_iff.1 hempty, prefix_nil] at hstart
    exact ⟨0, Nat.zero_le i, by rw [hstart]; rfl⟩
  | cons b text ih =>
    by_cases hhere : start <+: b :: text
    · exact ⟨0, Nat.zero_le i, findText_cons_start hhere⟩
    · obtain ⟨hleads, -⟩ | ⟨-, j, hj, rfl⟩ := findText_cons_some h
      · exact absurd (hstart.trans hleads) hhere
      · obtain ⟨k, hk, hfound⟩ := ih hj
        exact ⟨k + 1, Nat.succ_le_succ hk, by rw [findText_cons_next hhere, hfound]; rfl⟩

theorem findText_byte_eq_none_iff : findText [c] text = none ↔ c ∉ text := by
  induction text with
  | nil => exact iff_of_true rfl not_mem_nil
  | cons b text ih =>
    by_cases hb : c = b
    · rw [findText_cons_start (cons_prefix_cons.2 ⟨hb, nil_prefix⟩)]
      exact iff_of_false (nofun) (not_not.2 (hb ▸ mem_cons_self))
    · rw [findText_cons_next fun h => hb (cons_prefix_cons.1 h).1, map_eq_none_iff, ih,
        mem_cons, not_or]
      exact (and_iff_right hb).symm

theorem findText_byte_eq_some_iff : findText [c] text = some i ↔
    ∃ front rest, text = front ++ c :: rest ∧ c ∉ front ∧ front.length = i := by
  constructor
  · intro h
    induction text generalizing i with
    | nil => exact nomatch h
    | cons b text ih =>
      obtain ⟨hleads, rfl⟩ | ⟨hleads, j, hj, rfl⟩ := findText_cons_some h
      · exact ⟨[], text, by rw [(cons_prefix_cons.1 hleads).1]; rfl, not_mem_nil, rfl⟩
      · obtain ⟨front, rest, rfl, hfront, rfl⟩ := ih hj
        refine ⟨b :: front, rest, rfl, ?_, rfl⟩
        rw [mem_cons, not_or]
        exact ⟨fun hb => hleads (cons_prefix_cons.2 ⟨hb, nil_prefix⟩), hfront⟩
  · rintro ⟨front, rest, rfl, hfront, rfl⟩
    rw [findText_skip hfront, findText_cons_start (cons_prefix_cons.2 ⟨rfl, nil_prefix⟩), map_some,
      Nat.zero_add]

end

/-! ## Character classes -/

theorem forall_byte {P : Byte → Prop} (h : ∀ i : Fin 256, P (UInt8.ofNat i)) (c : Byte) : P c := by
  have hc := h ⟨c.toNat, c.toNat_lt⟩
  rwa [UInt8.ofNat_toNat] at hc

def between (lo hi : Char) (c : Byte) : Bool :=
  decide (lo.toNat ≤ c.toNat) && decide (c.toNat ≤ hi.toNat)

def isTokenChar (c : Byte) : Bool :=
  between 'A' 'Z' c || between 'a' 'z' c || between '0' '9' c ||
    (ascii "!#$%&'*+-.^_`|~").contains c

def isControlByte (c : Byte) : Bool := decide (c.toNat < 0x20) || c == 0x7f

def isDigit (c : Byte) : Bool := between '0' '9' c

/-- A space or a tab. -/
def isBlank (c : Byte) : Bool := c == 0x20 || c == 0x09

/-- `std::tolower` in the C locale. -/
def toLower (s : List Byte) : List Byte :=
  s.map fun c => if between 'A' 'Z' c then c + 0x20 else c

/-- Structural check only: `HTTP/` DIGIT `.` DIGIT. -/
def isValidVersionSyntax (version : List Byte) : Bool :=
  match version.drop 5 with
  | [major, dot, minor] =>
    version.take 5 == ascii "HTTP/" && isDigit major && dot == 0x2e && isDigit minor
  | _ => false

/-- A control byte other than a tab, which no field value may contain. -/
def isForbiddenInValue (c : Byte) : Bool := c != 0x09 && isControlByte c

/-! ## Lines and fields -/

/-- Split on `sep`, requiring exactly `count` non-empty fields; nothing if that fails. -/
def splitExact (s : List Byte) (sep : Byte) (count : ℕ) : List (List Byte) :=
  let fields := s.splitOn sep
  if fields.length ≠ count then []
  else if fields.any isEmpty then []
  else fields

/-- The lines of a header block up to and including the first empty one; `none` when a line contains
    a bare CR or LF or the block ends before the empty line. Every line that is not the last takes
    at least two bytes, so the length of the block is enough fuel. -/
def headLines : ℕ → List Byte → Option (List (List Byte))
  | 0, _ => none
  | fuel + 1, block =>
    match findText crlf block with
    | none => none
    | some i =>
      let line := block.take i
      if line.contains 0x0d || line.contains 0x0a then none
      else if line.isEmpty then some [line]
      else (headLines fuel (block.drop (i + 2))).map (line :: ·)

theorem headLines_line {line : List Byte} (hcr : 0x0d ∉ line) (hlf : 0x0a ∉ line) (hne : line ≠ [])
    (fuel : ℕ) (rest : List Byte) :
    headLines (fuel + 1) (line ++ (crlf ++ rest)) = (headLines fuel rest).map (line :: ·) := by
  have hfind : findText crlf (line ++ (crlf ++ rest)) = some line.length := by
    have hskip : findText crlf (line ++ (crlf ++ rest)) =
        (findText crlf (crlf ++ rest)).map (· + line.length) := findText_skip hcr (crlf ++ rest)
    have hstart : findText crlf (crlf ++ rest) = some 0 :=
      findText_cons_start (prefix_append crlf rest)
    rw [hskip, hstart, map_some, Nat.zero_add]
  rw [headLines, hfind]
  dsimp only
  rw [take_left, if_neg (by simp [hcr, hlf]), if_neg (by simpa using hne), ← drop_drop, drop_left]
  rfl

theorem headLines_end (fuel : ℕ) (rest : List Byte) :
    headLines (fuel + 1) (crlf ++ rest) = some [[]] := rfl

/-- The name and value of a header line; `none` when the line is malformed. `trim` is what is done
    to the value after its leading blanks are gone. -/
def headerField (trim : List Byte → List Byte) (line : List Byte) :
    Option (List Byte × List Byte) :=
  match line with
  | [] => none
  | first :: _ =>
    -- A line that starts with a blank is an obsolete folded continuation.
    if isBlank first then none
    else
      match findText [0x3a] line with
      | none => none
      | some 0 => none
      | some colon =>
        let name := line.take colon
        if !name.all isTokenChar then none
        else
          let value := trim ((line.drop (colon + 1)).dropWhile isBlank)
          if value.any isForbiddenInValue then none else some (name, value)

/-- The header lines: all but the first line and the empty one that ends the block. -/
def headerLines (lines : List (List Byte)) : List (List Byte) := (lines.drop 1).dropLast

end Wirestack
