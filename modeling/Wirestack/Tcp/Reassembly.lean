import Wirestack.Lib.Intervals
import Wirestack.Tcp.Connection

set_option autoImplicit false

/-! # Out-of-order reassembly

`insertReassemblyFragment` stores the bytes of a payload that are not buffered yet, as far as the
fragment limit allows, and keeps the buffer sorted and coalesced; `releaseContiguous` hands out what
has become contiguous with `rcvNxt`. Offsets from `rcvNxt` are `std::uint32_t` in the source and
natural numbers below `2 ^ 32` here. -/

namespace Wirestack

open SerialNumber

/-- The half-open offset range a fragment occupies, with the source's wrapping addition. -/
def fragmentRange (base : SeqNum) (f : TcpReassemblyFragment) : ℕ × ℕ :=
  (ahead base f.sequenceStart, (ahead base f.sequenceStart + f.payload.length) % 2 ^ 32)

/-- Append one fragment for each non-empty gap, until the fragment limit is met. -/
def storeGaps (base : SeqNum) (newStart : ℕ) (payload : List Byte) :
    List (ℕ × ℕ) → List TcpReassemblyFragment → List TcpReassemblyFragment
  | [], fragments => fragments
  | (gapStart, gapEnd) :: gaps, fragments =>
    if gapStart ≥ gapEnd then storeGaps base newStart payload gaps fragments
    else if fragments.length ≥ kMaxReassemblyFragments then fragments
    else
      storeGaps base newStart payload gaps (fragments ++
        [{ sequenceStart := pos base gapStart
           payload := (payload.drop (gapStart - newStart)).take (gapEnd - gapStart) }])

/-- The coalescing loop; `back` is the last merged fragment. -/
def coalesceInto (back : TcpReassemblyFragment) :
    List TcpReassemblyFragment → List TcpReassemblyFragment
  | [] => [back]
  | f :: rest =>
    if back.sequenceEnd = f.sequenceStart then
      coalesceInto { back with payload := back.payload ++ f.payload } rest
    else back :: coalesceInto f rest

/-- Adjacent fragments become one. -/
def coalesce : List TcpReassemblyFragment → List TcpReassemblyFragment
  | [] => []
  | f :: rest => coalesceInto f rest

/-- Buffers what is new of a range. Bytes that are there already stay, and beyond the fragment limit
    nothing is added. -/
def insertReassemblyFragment (c : Connection) (sequenceStart : SeqNum) (payload : List Byte) :
    Connection :=
  let base := c.rcvNxt
  let newStart := ahead base sequenceStart
  let newEnd := (newStart + payload.length) % 2 ^ 32
  let gaps := Intervals.subtractAll (c.outOfOrder.map (fragmentRange base)) [(newStart, newEnd)]
  let stored := storeGaps base newStart payload gaps c.outOfOrder
  let sorted := stored.insertionSort fun a b =>
    ahead base a.sequenceStart ≤ ahead base b.sequenceStart
  { c with outOfOrder := coalesce sorted }

/-- The release loop: the bytes handed out, the new `rcvNxt` and the fragments that stay. -/
def releaseFragments (rcvNxt : SeqNum) :
    List TcpReassemblyFragment → List Byte × SeqNum × List TcpReassemblyFragment
  | [] => ([], rcvNxt, [])
  | f :: rest =>
    if f.sequenceStart = rcvNxt then
      let (released, rcvNxt, kept) :=
        releaseFragments (rcvNxt + BitVec.ofNat 32 f.payload.length) rest
      (f.payload ++ released, rcvNxt, kept)
    else ([], rcvNxt, f :: rest)

/-- Takes the bytes at `rcv_nxt` out of the buffer. -/
def releaseContiguous (c : Connection) : Connection × List Byte :=
  let (released, rcvNxt, kept) := releaseFragments c.rcvNxt c.outOfOrder
  ({ c with rcvNxt := rcvNxt, outOfOrder := kept }, released)

end Wirestack
