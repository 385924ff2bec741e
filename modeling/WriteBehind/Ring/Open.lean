import WriteBehind.Ring.Basic

/-!
# Open — rings from memory and from queue files

Opening a queue file takes the file's bytes and gives them back, with the ring or with the reason
why there is none.

* `Ring.create` starts an empty ring in memory;
* `Ring.attach` opens a queue file, empty or not, and lengthens it if more room is asked for.
-/

namespace WriteBehind
namespace Ring

/-- How a ring is to be opened. -/
structure Options where
  /-- The capacity asked for, rounded up to a power of two. -/
  capacity : Nat
  /-- Records are strictly shorter. -/
  limit : Nat
  /-- The queue file; without one the ring is kept in memory. -/
  path : Option String := none
  deriving DecidableEq, Repr

/-- The capacity that options ask for: room for two frames at least. -/
def Options.requested (o : Options) : Nat := max (nextPowerOfTwo o.capacity) (minCapacity o.limit)

/-- An empty ring in memory. -/
def create (capacity limit : Nat) : Ring where
  image := .zeros (Header.size + capacity)
  backing := .heap
  capacity
  limit

/-- Checks that what options ask for can be asked for: the record limit, and the capacity once it is
rounded up. -/
def Options.check (o : Options) : Except Cause Unit :=
  match checkRecordLimit o.limit with
  | .error cause => .error cause
  | .ok () => checkWord o.requested

/-- The ring that a header describes, with no request and nothing told to the consumer. -/
def ofHeader (path : String) (image : Image) (capacity limit : Nat) (h : Header) : Ring where
  image
  backing := .file path
  capacity
  limit
  write := h.write
  read := h.read
  dirty := h.dirty.toNat

/-- The header of a queue file that holds something, and its capacity. -/
def readHeader (content : Image) : Except Cause (Header × Nat) :=
  let capacity := content.size - Header.size
  if content.size ≤ Header.size then .error .queueTooShort
  else if ¬ IsPowerOfTwo capacity then .error .queueCapacity
  else
    let bytes := content.slice 0 Header.size
    if Header.resizeInterrupted bytes then .error .resizeInterrupted
    else
      match Header.decode bytes with
      | .error cause => .error cause
      | .ok h =>
        match h.validate capacity with
        | .error cause => .error cause
        | .ok () => .ok (h, capacity)

/-- Opens a queue file with these bytes.  An empty file becomes an empty ring; one that is smaller
than `requested` is resized. -/
def attach (path : String) (content : Image) (requested limit : Nat) :
    Except Fault Ring × Image :=
  if content.size = 0 then
    if Header.size + requested > maxFileLength then
      (.error ⟨.system .lengthTooLarge, some path⟩, content)
    else
      let image := content.resize (Header.size + requested)
      (.ok (ofHeader path image requested limit {}), image)
  else
    match readHeader content with
    | .error cause => (.error ⟨cause, some path⟩, content)
    | .ok (h, capacity) =>
      let r := ofHeader path content capacity limit h
      if requested > capacity then
        match r.resize requested with
        | (.error fault, r) => (.error fault, r.image)
        | (.ok (), r) => (.ok r, r.image)
      else (.ok r, content)

end Ring
end WriteBehind
