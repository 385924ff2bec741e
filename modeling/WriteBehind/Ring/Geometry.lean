import WriteBehind.Fault

/-!
# Geometry — where frames stand in a ring

A ring of `capacity` bytes, a power of two, holds frames: a 32-bit length and a payload of that
length.  Two counters run over it, and a counter's place in the ring is the counter modulo the
capacity.  A frame never crosses the physical end: where less than one largest frame is left there,
writer and reader both skip to offset zero.

* `wrapPad` is the padding to skip at a counter;
* `plan` places the next frame, and says whether it would run over unread bytes;
* `growTarget` is the capacity to grow to.

Counters and capacities are 64-bit words.  What is computed here may exceed them; whoever computes it with
words asks `checkWord` first, and goes no further if it does.
-/

namespace WriteBehind
namespace Ring

/-! ## Words -/

/-- Ends the thread over a number that a 64-bit word does not hold. -/
def checkWord (n : Nat) : Except Cause Unit := if n < 2 ^ 64 then .ok () else .error .overflow

/-- Powers of two. -/
def IsPowerOfTwo (n : Nat) : Prop := 2 ^ n.log2 = n

instance (n : Nat) : Decidable (IsPowerOfTwo n) := inferInstanceAs (Decidable (2 ^ n.log2 = n))

/-- The least power of two that is at least `n`. -/
def nextPowerOfTwo (n : Nat) : Nat := if n ≤ 1 then 1 else 2 ^ ((n - 1).log2 + 1)

/-! ## Sizes -/

/-- The bytes of a frame in front of its payload. -/
def prefixLength : Nat := 4

/-- Refuses a record limit that leaves no room for a record or that a length prefix cannot hold. -/
def checkRecordLimit (limit : Nat) : Except Cause Unit :=
  if limit < 2 ∨ limit > 2 ^ 32 - 1 then .error (.recordLimitRange limit) else .ok ()

/-- The room kept for one frame: a frame is always shorter. -/
def frameReserve (limit : Nat) : Nat := limit + prefixLength

/-- The least capacity of a ring, room for two frames. -/
def minCapacity (limit : Nat) : Nat := nextPowerOfTwo (2 * frameReserve limit)

/-- The capacity to grow to: at least twice the present one and at least `requested`. -/
def growTarget (capacity requested : Nat) : Nat :=
  nextPowerOfTwo (max (min (2 * capacity) (2 ^ 64 - 1)) requested)

/-! ## Places -/

/-- The place of a counter in the ring: its low bits. -/
def physicalOffset (counter capacity : Nat) : Nat := counter &&& (capacity - 1)

/-- The bytes to skip at a counter so that the next frame starts at offset zero, or zero where a
largest frame still fits before the physical end. -/
def wrapPad (counter capacity limit : Nat) : Nat :=
  let offset := physicalOffset counter capacity
  if offset + frameReserve limit > capacity then capacity - offset else 0

/-- Where a frame goes. -/
structure Plan where
  /-- Padding in front of the frame. -/
  pad : Nat
  /-- Place of the length prefix. -/
  offset : Nat
  frameLength : Nat
  /-- Whether the frame leaves all unread bytes alone. -/
  fits : Bool
  deriving DecidableEq, Repr

/-- The write counter once the planned frame is published. -/
def Plan.nextWrite (p : Plan) (write : Nat) : Nat := write + (p.pad + p.frameLength)

/-- Places a payload of `length` bytes behind the write counter, in a ring where the unread bytes and a
largest frame together fit a word. -/
def plan (write read capacity limit length : Nat) : Except Cause Plan :=
  if length = 0 ∨ length ≥ limit then .error (.payloadLength length limit)
  else if read > write then .error (.readAhead read)
  else
    let pad := wrapPad write capacity limit
    let frameLength := length + prefixLength
    .ok {
      pad
      offset := if pad > 0 then 0 else physicalOffset write capacity
      frameLength
      fits := write - read + pad + frameLength ≤ capacity
    }

end Ring
end WriteBehind
