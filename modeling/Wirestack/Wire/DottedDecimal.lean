import Mathlib.Data.List.TakeWhile
import Wirestack.Http.Decimal
import Wirestack.Tcp.Connection

set_option autoImplicit false

/-! # Addresses in dotted decimal (`ipv4_address.cpp`)

`Ipv4Address::parse` walks over the text by position, one group of digits for each byte of the address.
It accepts a text iff that is how the address is printed (`Ipv4Address.parse_iff_toString`): there is one
spelling of every address. Positions are dealt with in the two lemmas on a single group,
`parseGroup_inner_iff` and `parseGroup_last_iff`, which speak of what is left of the text. -/

namespace Wirestack

open Option

variable {text rest front : List Byte} {i : Fin 4}

/-! ## The standard library -/

/-- What `std::from_chars` can report for an integer. -/
inductive FromCharsError where
  | invalidArgument
  | resultOutOfRange
  deriving DecidableEq, Repr

/-- `std::from_chars` into an `unsigned` that is `value` before: what the variable is afterwards, how many
    characters were read, and the error if there is one. -/
def fromChars (text : List Byte) (value : ℕ) : ℕ × ℕ × Option FromCharsError :=
  let digits := text.takeWhile isDigit
  if digits.isEmpty then (value, 0, some .invalidArgument)
  else if 2 ^ 32 ≤ decimal digits then (value, digits.length, some .resultOutOfRange)
  else (decimal digits, digits.length, none)

/-- `%u` of `snprintf`. -/
def printUnsigned (value : ℕ) : List Byte := ascii (toString value)

/-- `text.find(c, pos)`. -/
def findFrom (text : List Byte) (c : Byte) (pos : ℕ) : Option ℕ :=
  (findText [c] (text.drop pos)).map (· + pos)

/-- `text.substr(pos, count)`; `none` is `std::out_of_range`. -/
def substr (text : List Byte) (pos count : ℕ) : Option (List Byte) :=
  if text.length < pos then none else some ((text.drop pos).take count)

/-! ## Parsing and printing -/

def parseOctet (group : List Byte) : Option Byte :=
  if group.isEmpty || decide (group.length > 3) then none
  -- Leading zeros, as in "01".
  else if decide (group.length > 1) && group.head? == some 0x30 then none
  else if group.any fun c => !isDigit c then none
  else
    let (value, ptr, ec) := fromChars group 0
    if ec.isSome || ptr != group.length || decide (value > 255) then none
    else some (UInt8.ofNat value)

/-- The body of the loop over the groups, with the bytes parsed so far and where the group starts. -/
def parseGroup (text : List Byte) (state : Vector Byte 4 × ℕ) (i : Fin 4) :
    Option (Vector Byte 4 × ℕ) :=
  let (bytes, groupStart) := state
  let dotPos := findFrom text dot groupStart
  let isLastGroup := i == 3
  match if isLastGroup then some text.length else dotPos with
  | none => none
  | some groupEnd =>
    -- A trailing dot or an extra group.
    if isLastGroup && dotPos.isSome then none
    else
      (substr text groupStart (groupEnd - groupStart)).bind fun group =>
        (parseOctet group).map fun octet => (bytes.set i octet i.isLt, groupEnd + 1)

def Ipv4Address.parse (text : List Byte) : Option Ipv4Address :=
  ((List.finRange 4).foldlM (parseGroup text) (Vector.replicate 4 0, 0)).map fun state => ⟨state.1⟩

/-- The format "%u.%u.%u.%u". -/
def printDotted (bytes : Vector Byte 4) : List Byte :=
  printUnsigned bytes[0].toNat ++ dot :: (printUnsigned bytes[1].toNat ++
    dot :: (printUnsigned bytes[2].toNat ++ dot :: printUnsigned bytes[3].toNat))

/-- `snprintf` writes at most 15 characters into the buffer of 16. -/
def Ipv4Address.toString (ip : Ipv4Address) : List Byte := (printDotted ip.bytes).take 15

/-! ## One octet -/

theorem printUnsigned_octet : ∀ octet : Byte, (printUnsigned octet.toNat).length ≤ 3 ∧
    dot ∉ printUnsigned octet.toNat ∧ parseOctet (printUnsigned octet.toNat) = some octet :=
  forall_byte (by decide +kernel)

theorem fromChars_digits (h : isAllDigits text = true) (hfits : decimal text < 2 ^ 32) (value : ℕ) :
    fromChars text value = (decimal text, text.length, none) := by
  obtain ⟨hne, hdigits⟩ := isAllDigits_iff.1 h
  have hall : text.takeWhile isDigit = text := List.takeWhile_eq_self_iff.2 hdigits
  rw [fromChars, hall, if_neg (by rwa [List.isEmpty_iff]), if_neg (not_le.2 hfits)]

theorem parseOctet_eq_some_iff {group : List Byte} {octet : Byte} :
    parseOctet group = some octet ↔ group = printUnsigned octet.toNat := by
  constructor
  · intro h
    unfold parseOctet at h
    split_ifs at h with hlength hlead hdigits
    rw [Bool.or_eq_true, not_or, decide_eq_true_eq, not_lt, List.isEmpty_iff] at hlength
    rw [Bool.and_eq_true, decide_eq_true_eq, beq_iff_eq, not_and] at hlead
    have hall : ∀ c ∈ group, isDigit c = true := by simpa using hdigits
    have hgroup : isAllDigits group = true := isAllDigits_iff.2 ⟨hlength.1, hall⟩
    have hlt : decimal group < 2 ^ 32 := calc decimal group < 10 ^ group.length := decimal_lt hall
      _ ≤ 10 ^ 3 := Nat.pow_le_pow_right (by decide) hlength.2
      _ < 2 ^ 32 := by decide
    rw [fromChars_digits hgroup hlt] at h
    dsimp only at h
    split_ifs at h with hlarge
    simp only [isSome_none, bne_self_eq_false, Bool.or_self, Bool.false_or,
      decide_eq_true_eq, not_lt] at hlarge
    rw [← some.inj h, UInt8.toNat_ofNat_of_lt' (Nat.lt_succ_of_le hlarge)]
    exact (ascii_toString_decimal hgroup hlead).symm
  · rintro rfl
    exact (printUnsigned_octet octet).2.2

/-! ## One group -/

section Group

variable {text : List Byte} {bytes : Vector Byte 4} {groupStart : ℕ} {next : Vector Byte 4 × ℕ}

theorem printUnsigned_ne_nil (value : ℕ) : printUnsigned value ≠ [] :=
  (isAllDigits_iff.1 (isAllDigits_toString value)).1

theorem substr_eq (hrest : text.drop groupStart = rest) (hne : rest ≠ []) (count : ℕ) :
    substr text groupStart count = some (rest.take count) := by
  have hle : ¬text.length < groupStart := fun hlt => hne (hrest ▸ List.drop_eq_nil_of_le hlt.le)
  rw [substr, if_neg hle, hrest]

theorem parseGroup_inner (hi : i ≠ 3) (htext : text.drop groupStart = front ++ dot :: rest)
    (hfront : dot ∉ front) :
    parseGroup text (bytes, groupStart) i = (parseOctet front).map fun octet =>
      (bytes.set i octet i.isLt, groupStart + front.length + 1) := by
  have hdot : findFrom text dot groupStart = some (front.length + groupStart) := by
    rw [findFrom, htext, findText_byte_eq_some_iff.2 ⟨front, rest, rfl, hfront, rfl⟩]
    rfl
  have hlast : (i == 3) = false := beq_eq_false_iff_ne.2 hi
  unfold parseGroup
  dsimp only
  rw [hdot, hlast, if_neg Bool.false_ne_true]
  dsimp only
  rw [Bool.false_and, if_neg Bool.false_ne_true, substr_eq htext (by simp), Nat.add_sub_cancel,
    List.take_left, bind_some, Nat.add_comm front.length]

theorem parseGroup_without_dot (hi : i ≠ 3) (h : dot ∉ text.drop groupStart) :
    parseGroup text (bytes, groupStart) i = none := by
  have hdot : findFrom text dot groupStart = none := by
    rw [findFrom, findText_byte_eq_none_iff.2 h]
    rfl
  have hlast : (i == 3) = false := beq_eq_false_iff_ne.2 hi
  unfold parseGroup
  dsimp only
  rw [hdot, hlast, if_neg Bool.false_ne_true]

theorem parseGroup_inner_iff (hi : i ≠ 3) :
    parseGroup text (bytes, groupStart) i = some next ↔ ∃ octet rest,
      text.drop groupStart = printUnsigned octet.toNat ++ dot :: rest ∧
      (bytes.set i octet i.isLt, groupStart + (printUnsigned octet.toNat).length + 1) = next := by
  constructor
  · intro h
    by_cases hdot : dot ∈ text.drop groupStart
    · obtain ⟨front, rest, htext, hfront⟩ := List.eq_append_cons_of_mem hdot
      rw [parseGroup_inner hi htext hfront] at h
      obtain ⟨octet, hoctet, hnext⟩ := map_eq_some_iff.1 h
      rw [parseOctet_eq_some_iff] at hoctet
      rw [hoctet] at htext hnext
      exact ⟨octet, rest, htext, hnext⟩
    · simp [parseGroup_without_dot hi hdot] at h
  · rintro ⟨octet, rest, htext, rfl⟩
    obtain ⟨-, hfree, hparse⟩ := printUnsigned_octet octet
    rw [parseGroup_inner hi htext hfree, hparse]
    rfl

theorem parseGroup_last_iff : parseGroup text (bytes, groupStart) 3 = some next ↔ ∃ octet,
      text.drop groupStart = printUnsigned octet.toNat ∧
      (bytes.set 3 octet, text.length + 1) = next := by
  have hlast : ((3 : Fin 4) == 3) = true := rfl
  unfold parseGroup
  dsimp only
  rw [hlast, if_pos rfl]
  dsimp only
  rw [Bool.true_and]
  constructor
  · intro h
    split_ifs at h with hdot
    obtain ⟨group, hgroup, h⟩ := bind_eq_some_iff.1 h
    obtain ⟨octet, hoctet, hnext⟩ := map_eq_some_iff.1 h
    rw [parseOctet_eq_some_iff] at hoctet
    unfold substr at hgroup
    split_ifs at hgroup with hpos
    rw [List.take_of_length_le (by rw [List.length_drop]), some.injEq] at hgroup
    exact ⟨octet, hgroup.trans hoctet, hnext⟩
  · rintro ⟨octet, htext, rfl⟩
    obtain ⟨-, hfree, hparse⟩ := printUnsigned_octet octet
    have hdot : findFrom text dot groupStart = none := by
      rw [findFrom, htext, findText_byte_eq_none_iff.2 hfree]
      rfl
    rw [hdot, if_neg (by decide), substr_eq htext (printUnsigned_ne_nil _), bind_some,
      List.take_of_length_le (by rw [← htext, List.length_drop]), hparse]
    rfl

theorem parseGroup_groupStart_le (hi : i ≠ 3)
    (h : parseGroup text (bytes, groupStart) i = some next) : next.2 ≤ text.length := by
  obtain ⟨octet, rest, htext, rfl⟩ := (parseGroup_inner_iff hi).1 h
  have hlength := congrArg List.length htext
  rw [List.length_drop, List.length_append, List.length_cons] at hlength
  omega

theorem drop_group (htext : text.drop groupStart = front ++ dot :: rest) :
    text.drop (groupStart + front.length + 1) = rest := by
  rw [Nat.add_assoc, ← List.drop_drop, htext, ← List.drop_drop, List.drop_left]
  rfl

end Group

/-! ## The address -/

theorem Ipv4Address.parse_eq (text : List Byte) : Ipv4Address.parse text =
    ((parseGroup text (Vector.replicate 4 0, 0) 0).bind fun state =>
      (parseGroup text state 1).bind fun state =>
      (parseGroup text state 2).bind fun state =>
      parseGroup text state 3).map fun state => ⟨state.1⟩ := by
  have hgroups : List.finRange 4 = [0, 1, 2, 3] := by decide
  rw [Ipv4Address.parse, hgroups]
  simp only [List.foldlM_cons, List.foldlM_nil, bind_pure, bind_eq_bind]

theorem set_octets (bytes octets : Vector Byte 4) :
    (((bytes.set 0 octets[0]).set 1 octets[1]).set 2 octets[2]).set 3 octets[3] = octets := by
  ext i hi
  interval_cases i
  all_goals simp

theorem Ipv4Address.parse_eq_some_iff {ip : Ipv4Address} :
    Ipv4Address.parse text = some ip ↔ text = printDotted ip.bytes := by
  rw [Ipv4Address.parse_eq]
  constructor
  · intro h
    obtain ⟨last, hlast, rfl⟩ := map_eq_some_iff.1 h
    obtain ⟨state₁, h₀, hlast⟩ := bind_eq_some_iff.1 hlast
    obtain ⟨state₂, h₁, hlast⟩ := bind_eq_some_iff.1 hlast
    obtain ⟨state₃, h₂, h₃⟩ := bind_eq_some_iff.1 hlast
    obtain ⟨first, rest₀, htext₀, rfl⟩ := (parseGroup_inner_iff (by decide)).1 h₀
    obtain ⟨second, rest₁, htext₁, rfl⟩ := (parseGroup_inner_iff (by decide)).1 h₁
    obtain ⟨third, rest₂, htext₂, rfl⟩ := (parseGroup_inner_iff (by decide)).1 h₂
    obtain ⟨fourth, htext₃, rfl⟩ := parseGroup_last_iff.1 h₃
    -- Put the groups together from the last one on.
    rw [drop_group htext₂] at htext₃
    rw [drop_group htext₁, htext₃] at htext₂
    rw [drop_group htext₀, htext₂] at htext₁
    rwa [List.drop_zero, htext₁] at htext₀
  · intro htext
    have htext₀ : text.drop 0 = printUnsigned ip.bytes[0].toNat ++ dot :: _ := htext
    have htext₁ := drop_group htext₀
    have htext₂ := drop_group htext₁
    have htext₃ := drop_group htext₂
    rw [(parseGroup_inner_iff (by decide)).2 ⟨_, _, htext₀, rfl⟩, bind_some,
      (parseGroup_inner_iff (by decide)).2 ⟨_, _, htext₁, rfl⟩, bind_some,
      (parseGroup_inner_iff (by decide)).2 ⟨_, _, htext₂, rfl⟩, bind_some,
      parseGroup_last_iff.2 ⟨_, htext₃, rfl⟩, map_some]
    exact congrArg (fun bytes => some (⟨bytes⟩ : Ipv4Address)) (set_octets _ ip.bytes)

theorem Ipv4Address.toString_eq (ip : Ipv4Address) : ip.toString = printDotted ip.bytes := by
  have hoctet : ∀ octet : Byte, (printUnsigned octet.toNat).length ≤ 3 :=
    fun octet => (printUnsigned_octet octet).1
  have h₀ := hoctet ip.bytes[0]
  have h₁ := hoctet ip.bytes[1]
  have h₂ := hoctet ip.bytes[2]
  have h₃ := hoctet ip.bytes[3]
  refine List.take_of_length_le ?_
  simp only [printDotted, List.length_append, List.length_cons]
  omega

/-- **An address has one spelling.** What is printed is what is accepted, so every address is read back
    and no two texts name the same address. -/
theorem Ipv4Address.parse_iff_toString : (∀ (text : List Byte) (ip : Ipv4Address),
        Ipv4Address.parse text = some ip ↔ text = ip.toString) ∧
      (∀ (text text' : List Byte) (ip : Ipv4Address), Ipv4Address.parse text = some ip →
        Ipv4Address.parse text' = some ip → text = text') ∧
      ∀ ip : Ipv4Address, Ipv4Address.parse ip.toString = some ip := by
  have hiff : ∀ (text : List Byte) (ip : Ipv4Address),
      Ipv4Address.parse text = some ip ↔ text = ip.toString := by
    intro text ip
    rw [Ipv4Address.toString_eq]
    exact Ipv4Address.parse_eq_some_iff
  refine ⟨hiff, fun text text' ip h h' => ?_, fun ip => (hiff _ ip).2 rfl⟩
  rw [(hiff text ip).1 h, (hiff text' ip).1 h']

theorem Ipv4Address.parse_iff_toString_example : let ip : Ipv4Address := ⟨#v[10, 0, 255, 2]⟩
    Ipv4Address.parse (ascii "10.0.255.2") = some ip ∧
      (∀ text, Ipv4Address.parse text = some ip → text = ascii "10.0.255.2") ∧
      Ipv4Address.parse ip.toString = some ip ∧ Ipv4Address.parse (ascii "10.0.0255.2") = none := by
  obtain ⟨hiff, hunique, hroundTrip⟩ := Ipv4Address.parse_iff_toString
  have hparse := (hiff (ascii "10.0.255.2") ⟨#v[10, 0, 255, 2]⟩).2 (by decide +kernel)
  exact ⟨hparse, fun text h => hunique text _ _ h hparse, hroundTrip _, by decide +kernel⟩

end Wirestack
