import Mathlib.Data.BitVec

set_option autoImplicit false

/-! # TCP segments and their options (`tcp.hpp`, `tcp.cpp`)

The segment record that the connection table exchanges with the wire, and the option scanner
`parseTcpOptions`. Sequence and acknowledgment numbers are 32-bit vectors, so `+` and `-` wrap as
`std::uint32_t` does; the 16- and 8-bit header fields keep their fixed width. -/

namespace Wirestack

abbrev Byte := UInt8

variable {options : List Byte}

abbrev SeqNum := BitVec 32

structure TcpFlags where
  fin : Bool := false
  syn : Bool := false
  rst : Bool := false
  psh : Bool := false
  ack : Bool := false
  urg : Bool := false
  ece : Bool := false
  cwr : Bool := false
  deriving DecidableEq, Repr

structure TcpSegment where
  sourcePort : UInt16
  destinationPort : UInt16
  sequenceNumber : SeqNum
  acknowledgmentNumber : SeqNum
  flags : TcpFlags := {}
  windowSize : UInt16
  urgentPointer : UInt16 := 0
  options : List Byte := []
  payload : List Byte := []
  deriving DecidableEq, Repr

/-- The longest payload `parseTcpSegment` can produce: `kMaxTcpSegmentLength` less the 20-byte base
    header. -/
def kMaxParsedPayload : ℕ := 65535 - 20

/-! ## Options -/

/-- A SACK block `[leftEdge, rightEdge)` in sequence-number space. -/
structure TcpSackBlock where
  leftEdge : SeqNum
  rightEdge : SeqNum
  deriving DecidableEq, Repr

structure TcpParsedOptions where
  maximumSegmentSize : Option UInt16 := none
  windowScale : Option UInt8 := none
  sackPermitted : Bool := false
  sackBlocks : List TcpSackBlock := []
  deriving DecidableEq, Repr

variable {parsed : TcpParsedOptions}

inductive TcpOptionParseError where
  | missingLength
  | invalidLength
  | truncatedOption
  | duplicateMss
  | duplicateWindowScale
  | invalidMss
  | duplicateSackPermitted
  | duplicateSack
  | invalidSackPermittedLength
  | invalidSackLength
  deriving DecidableEq, Repr

def kOptionKindEndOfList : Byte := 0
def kOptionKindNoOperation : Byte := 1
def kOptionKindMss : Byte := 2
def kOptionKindWindowScale : Byte := 3
def kOptionKindSackPermitted : Byte := 4
def kOptionKindSack : Byte := 5

def readBigEndian16 (data : List Byte) (offset : ℕ) : UInt16 :=
  ((data.getD offset 0).toUInt16 <<< 8) ||| (data.getD (offset + 1) 0).toUInt16

def readBigEndian32 (data : List Byte) (offset : ℕ) : SeqNum :=
  ((data.getD offset 0).toBitVec.setWidth 32 <<< 24) |||
    ((data.getD (offset + 1) 0).toBitVec.setWidth 32 <<< 16) |||
    ((data.getD (offset + 2) 0).toBitVec.setWidth 32 <<< 8) |||
    (data.getD (offset + 3) 0).toBitVec.setWidth 32

/-- The `b`-th SACK block of an option whose kind byte is at index `i`. -/
def readSackBlock (options : List Byte) (i b : ℕ) : TcpSackBlock :=
  { leftEdge := readBigEndian32 options (i + 2 + b * 8)
    rightEdge := readBigEndian32 options (i + 2 + b * 8 + 4) }

/-- What the scan does with one complete option (kind at index `i`, declared `length`). Unknown
    kinds are skipped by the caller, never interpreted. -/
def parseTcpOption (options : List Byte) (kind : Byte) (i length : ℕ) (parsed : TcpParsedOptions) :
    Except TcpOptionParseError TcpParsedOptions :=
  if kind = kOptionKindMss then
    if length ≠ 4 then .error .truncatedOption
    else if parsed.maximumSegmentSize.isSome then .error .duplicateMss
    else if readBigEndian16 options (i + 2) = 0 then .error .invalidMss
    else .ok { parsed with maximumSegmentSize := some (readBigEndian16 options (i + 2)) }
  else if kind = kOptionKindWindowScale then
    if length ≠ 3 then .error .truncatedOption
    else if parsed.windowScale.isSome then .error .duplicateWindowScale
    else .ok { parsed with windowScale := some (options.getD (i + 2) 0) }
  else if kind = kOptionKindSackPermitted then
    if length ≠ 2 then .error .invalidSackPermittedLength
    else if parsed.sackPermitted then .error .duplicateSackPermitted
    else .ok { parsed with sackPermitted := true }
  else if kind = kOptionKindSack then
    if length ≠ 10 ∧ length ≠ 18 ∧ length ≠ 26 ∧ length ≠ 34 then .error .invalidSackLength
    else if !parsed.sackBlocks.isEmpty then .error .duplicateSack
    else .ok { parsed with
      sackBlocks := (List.range ((length - 2) / 8)).map (readSackBlock options i) }
  else .ok parsed

/-- The option scan from index `i`. Every round moves `i` forward, so a fuel of `options.length`
    never runs out before `i` reaches the end. -/
def parseTcpOptionsFrom (options : List Byte) :
    ℕ → ℕ → TcpParsedOptions → Except TcpOptionParseError TcpParsedOptions
  | 0, _, parsed => .ok parsed
  | fuel + 1, i, parsed =>
    if i < options.length then
      let kind := options.getD i 0
      if kind = kOptionKindEndOfList then .ok parsed
      else if kind = kOptionKindNoOperation then parseTcpOptionsFrom options fuel (i + 1) parsed
      else if i + 1 ≥ options.length then .error .missingLength
      else
        let length := (options.getD (i + 1) 0).toNat
        if length < 2 then .error .invalidLength
        else if i + length > options.length then .error .truncatedOption
        else
          match parseTcpOption options kind i length parsed with
          | .error e => .error e
          | .ok parsed => parseTcpOptionsFrom options fuel (i + length) parsed
    else .ok parsed

def parseTcpOptions (options : List Byte) : Except TcpOptionParseError TcpParsedOptions :=
  parseTcpOptionsFrom options options.length 0 {}

/-! A maximum segment size of zero is rejected, so a negotiated one is positive. -/

theorem parseTcpOption_mss_ne_zero {kind : Byte} {i length : ℕ} {parsed' : TcpParsedOptions}
    (hprev : ∀ v, parsed.maximumSegmentSize = some v → v ≠ 0)
    (h : parseTcpOption options kind i length parsed = .ok parsed') :
    ∀ v, parsed'.maximumSegmentSize = some v → v ≠ 0 := by
  unfold parseTcpOption at h
  split_ifs at h with hmss hlen hdup hzero
  case neg =>
    cases h
    intro v hv
    cases hv
    exact hzero
  all_goals
    cases h
    exact hprev

theorem parseTcpOptionsFrom_mss_ne_zero : ∀ (fuel i : ℕ) (parsed parsed' : TcpParsedOptions),
    (∀ v, parsed.maximumSegmentSize = some v → v ≠ 0) →
    parseTcpOptionsFrom options fuel i parsed = .ok parsed' →
    ∀ v, parsed'.maximumSegmentSize = some v → v ≠ 0 := by
  intro fuel
  induction fuel with
  | zero =>
    intro i parsed parsed' hprev h
    cases h
    exact hprev
  | succ fuel ih =>
    intro i parsed parsed' hprev h
    simp only [parseTcpOptionsFrom] at h
    split_ifs at h with hi hend hnop hmissing hshort htrunc
    · cases h
      exact hprev
    · exact ih _ _ _ hprev h
    · split at h
      · cases h
      · next parsed₁ hone =>
        exact ih _ _ _ (parseTcpOption_mss_ne_zero hprev hone) h
    · cases h
      exact hprev

theorem parseTcpOptions_mss_ne_zero (h : parseTcpOptions options = .ok parsed) :
    ∀ v, parsed.maximumSegmentSize = some v → v ≠ 0 :=
  parseTcpOptionsFrom_mss_ne_zero _ _ _ _ (by simp) h

end Wirestack
