import WriteBehind.Bytes
import WriteBehind.Ring.Geometry

/-!
# Walk — unread frames between two counters

A walk goes from the read counter to the write counter over padding and frames, and stops early at
the first byte that cannot be either.  It ends as well where padding or a frame would end at a counter
that no word holds.  It consumes nothing.

* `View.classify` says what stands at a position;
* `View.walk` collects the frames up to the end or to the first defect;
* `View.linearize` puts all frames, length prefixes included, into one byte string.
-/

namespace WriteBehind
namespace Ring

/-- The ring as a reader sees it. -/
structure View where
  /-- The byte at each place of the ring. -/
  byte : Nat → UInt8
  capacity : Nat
  /-- Records are strictly shorter. -/
  limit : Nat
  /-- The last padding that was written. -/
  dirty : Nat

/-- What stands at a position. -/
inductive Piece
  /-- Wrap padding of this length. -/
  | padding (length : Nat)
  /-- A frame with a payload of this length. -/
  | frame (length : Nat)
  deriving DecidableEq, Repr

/-- The bytes that a piece takes up. -/
def Piece.size : Piece → Nat
  | .padding n => n
  | .frame n => n + prefixLength

/-- An unread record and the counter at which its length prefix starts. -/
structure Frame where
  counter : Nat
  payload : Bytes
  deriving DecidableEq, Repr

/-- The frames that a walk came across, and the defect that stopped it early. -/
structure Trail where
  frames : List Frame := []
  defect : Option Cause := none
  deriving DecidableEq, Repr

/-- A frame in front of a trail. -/
def Trail.cons (f : Frame) (t : Trail) : Trail := { t with frames := f :: t.frames }

namespace View

/-! ## One step -/

/-- The bytes of a range of the ring. -/
def slice (v : View) (offset length : Nat) : Bytes :=
  (List.range length).map fun i => v.byte (offset + i)

/-- The length prefix at a place of the ring. -/
def lengthAt (v : View) (offset : Nat) : Nat := Bytes.toWord (v.slice offset prefixLength)

/-- The payload of the frame that starts at `position`. -/
def payload (v : View) (position length : Nat) : Bytes :=
  v.slice (physicalOffset position v.capacity + prefixLength) length

/-- What stands at `position`, which is below `stop`. -/
def classify (v : View) (position stop : Nat) : Except Cause Piece :=
  let pad := wrapPad position v.capacity v.limit
  if pad > 0 then
    if pad ≠ v.dirty then .error (.paddingMismatch pad v.dirty position)
    else if position + pad ≥ 2 ^ 64 then .error .overflow
    else if position + pad > stop then .error (.paddingPastEnd position)
    else .ok (.padding pad)
  else
    let length := v.lengthAt (physicalOffset position v.capacity)
    if length = 0 ∨ length ≥ v.limit then .error (.frameLength length position)
    else if position + (length + prefixLength) ≥ 2 ^ 64 then .error .overflow
    else if position + (length + prefixLength) > stop then .error (.framePastEnd position)
    else .ok (.frame length)

/-- A piece takes up bytes, and they end in a word and at `stop` at the latest. -/
theorem classify_size {v : View} {position stop : Nat} {p : Piece}
    (h : v.classify position stop = .ok p) :
    0 < p.size ∧ position + p.size < 2 ^ 64 ∧ position + p.size ≤ stop := by
  simp only [classify] at h
  split at h
  · split at h
    · contradiction
    · split at h
      · contradiction
      · split at h
        · contradiction
        · cases h
          simp only [Piece.size]
          omega
  · split at h
    · contradiction
    · split at h
      · contradiction
      · split at h
        · contradiction
        · cases h
          simp only [Piece.size, prefixLength] at *
          omega

/-! ## All steps -/

/-- The frames from `position` up to `stop`. -/
def walk (v : View) (position stop : Nat) : Trail :=
  if position < stop then
    match h : v.classify position stop with
    | .error cause => { defect := some cause }
    | .ok (.padding n) =>
      have := classify_size h
      walk v (position + n) stop
    | .ok (.frame n) =>
      have := classify_size h
      (walk v (position + (n + prefixLength)) stop).cons ⟨position, v.payload position n⟩
  else {}
termination_by stop - position
decreasing_by
  all_goals simp only [Piece.size] at *
  all_goals omega

/-- A frame as it stands in a ring: the length and the payload. -/
def encodeFrame (payload : Bytes) : Bytes := Bytes.ofWord32 payload.length ++ payload

/-- All frames from `position` up to `stop`, one behind the other. -/
def linearize (v : View) (position stop : Nat) : Except Cause Bytes :=
  let trail := v.walk position stop
  match trail.defect with
  | some cause => .error cause
  | none => .ok (trail.frames.flatMap fun f => encodeFrame f.payload)

end View

end Ring
end WriteBehind
