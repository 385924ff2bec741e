import WriteBehind.Bytes

/-!
# KeyHash — the worker that a key belongs to

Keys are spread over workers by SipHash with one round for each word and three at the end, under the
key zero.  What is hashed is the length of the key as a 64-bit word, and the key.

* `KeyHash.hash` is the hash of a byte string, `KeyHash.workerFor` the worker of a key.
-/

namespace WriteBehind
namespace KeyHash

/-- The state of the hash. -/
structure State where
  v0 : UInt64
  v1 : UInt64
  v2 : UInt64
  v3 : UInt64
  deriving DecidableEq, Repr

/-- A word with its bits moved round to the left. -/
def rotate (x n : UInt64) : UInt64 := (x <<< n) ||| (x >>> (64 - n))

namespace State

/-- The state at the start, under the key zero. -/
def start : State where
  v0 := 0x736f6d6570736575
  v1 := 0x646f72616e646f6d
  v2 := 0x6c7967656e657261
  v3 := 0x7465646279746573

/-- One round. -/
def round (s : State) : State :=
  let v0 := s.v0 + s.v1
  let v1 := rotate s.v1 13 ^^^ v0
  let v0 := rotate v0 32
  let v2 := s.v2 + s.v3
  let v3 := rotate s.v3 16 ^^^ v2
  let v0 := v0 + v3
  let v3 := rotate v3 21 ^^^ v0
  let v2 := v2 + v1
  let v1 := rotate v1 17 ^^^ v2
  let v2 := rotate v2 32
  ⟨v0, v1, v2, v3⟩

/-- Takes in a word. -/
def absorb (s : State) (word : UInt64) : State :=
  let s := round { s with v3 := s.v3 ^^^ word }
  { s with v0 := s.v0 ^^^ word }

/-- The hash of what was taken in. -/
def finish (s : State) : UInt64 :=
  let s := round (round (round { s with v2 := s.v2 ^^^ 0xff }))
  s.v0 ^^^ s.v1 ^^^ s.v2 ^^^ s.v3

end State

/-- Takes in bytes by words.  The last word holds what is left over, and the length of everything in
its top byte. -/
def absorbAll (length : Nat) (s : State) : Bytes → State
  | a :: b :: c :: d :: e :: f :: g :: h :: rest =>
    absorbAll length (s.absorb (UInt64.ofNat (Bytes.toWord [a, b, c, d, e, f, g, h]))) rest
  | rest => s.absorb (UInt64.ofNat (Bytes.toWord rest + length % 256 * 2 ^ 56))

/-- The hash of a byte string. -/
def hash (bytes : Bytes) : UInt64 := (absorbAll bytes.length .start bytes).finish

/-- The worker of a key, of `workers`. -/
def workerFor (key : Bytes) (workers : Nat) : Nat :=
  (hash (Bytes.ofWord64 key.length ++ key)).toNat % workers

end KeyHash
end WriteBehind
