import WriteBehind.Ring.Header
import WriteBehind.Ring.Store
import WriteBehind.Ring.Walk
import WriteBehind.Signal

/-!
# Ring — a durable queue of byte strings

A `Ring` has one producer and one consumer.  The producer appends payloads, the consumer reads the
oldest one and releases it once it has been dealt with.  When a payload does not fit, the producer
asks for more room and waits; the consumer serves the request the next time it looks for a payload.

Every operation is given as the list of stores it makes, in order:

* `publishStores`, `readStores` and `relayStores` for push, release and resize;
* the ring afterwards holds the image with all of them carried out.

An operation that computes a number which its word does not hold ends in the middle: its fault is
`Cause.overflow`, and the ring afterwards holds the stores that were made until then.

The counters are kept in the ring and written through to its image; they are read from the image
only when a ring is opened.
-/

namespace WriteBehind

namespace Ring

/-! ## The state -/

/-- Where a ring keeps its bytes. -/
inductive Backing
  | heap
  | file (path : String)
  deriving DecidableEq, Repr

/-- The file behind a ring. -/
def Backing.path? : Backing → Option String
  | heap => none
  | file path => some path

/-- A producer's request for more room. -/
structure Request where
  /-- The capacity asked for. -/
  target : Nat
  /-- The length of the frame that waits, zero for a plain growth. -/
  pending : Nat
  deriving DecidableEq, Repr

end Ring

/-- A queue of byte strings over an image of header and ring bytes. -/
structure Ring where
  image : Image
  backing : Ring.Backing
  capacity : Nat
  /-- Records are strictly shorter. -/
  limit : Nat
  write : Nat := 0
  read : Nat := 0
  /-- The last padding that was written. -/
  dirty : Nat := 0
  request : Option Ring.Request := none
  consumerOpen : Bool := true
  /-- Tells the consumer of new data and of requests. -/
  dataReady : Signal := {}

namespace Ring

/-- The counters and sizes of a ring, as an observer sees them. -/
structure Snapshot where
  write : Nat
  read : Nat
  dirty : Nat
  capacity : Nat
  deriving DecidableEq, Repr

/-- The unread bytes, padding included. -/
def Snapshot.outstanding (s : Snapshot) : Nat := s.write - s.read

/-- What an observer sees. -/
def snapshot (r : Ring) : Snapshot := ⟨r.write, r.read, r.dirty, r.capacity⟩

/-- The ring bytes, as a reader sees them. -/
def view (r : Ring) : View where
  byte i := r.image.byte (Header.size + i)
  capacity := r.capacity
  limit := r.limit
  dirty := r.dirty

/-- The unread records, and the defect behind them if there is one. -/
def backlog (r : Ring) : Trail := r.view.walk r.read r.write

/-- All unread frames, one behind the other. -/
def linearize (r : Ring) : Except Cause Bytes := r.view.linearize r.read r.write

/-- The ring with stores carried out on its image. -/
def store (r : Ring) (stores : List Store) : Ring := { r with image := r.image.applyAll stores }

/-! ## The producer -/

/-- How far a call of the producer has come. -/
inductive Progress
  | done
  /-- The call waits for the consumer to serve its request. -/
  | parked
  deriving DecidableEq, Repr

/-- The stores that put a payload in its place and note the padding in front of it. -/
def placeStores (p : Plan) (payload : Bytes) : List Store :=
  [.bytes (Header.size + p.offset) (Bytes.ofWord32 payload.length),
    .bytes (Header.size + p.offset + prefixLength) payload]
    ++ if p.pad > 0 then [.bytes Header.dirtyOffset (Bytes.ofWord32 p.pad)] else []

/-- The stores that put a payload in its place and then publish it. -/
def publishStores (p : Plan) (write : Nat) (payload : Bytes) : List Store :=
  placeStores p payload ++ [.bytes Header.writeOffset (Bytes.ofWord64 (p.nextWrite write))]

/-- The ring with a payload in its place and nobody told of it.  The padding is kept in 32 bits. -/
def place (r : Ring) (p : Plan) (payload : Bytes) : Ring :=
  { r.store (placeStores p payload) with
    dirty := if p.pad > 0 then p.pad % 2 ^ 32 else r.dirty }

/-- The ring with a payload published according to a plan. -/
def publish (r : Ring) (p : Plan) (payload : Bytes) : Ring :=
  { r.store (publishStores p r.write payload) with
    write := p.nextWrite r.write
    dirty := if p.pad > 0 then p.pad % 2 ^ 32 else r.dirty
    dataReady := r.dataReady.post }

/-- Asks the consumer for more room.  Without a consumer nobody could serve the request, and it is
withdrawn at once. -/
def askForRoom (r : Ring) (request : Request) : Except Fault Progress × Ring :=
  let r := { r with dataReady := r.dataReady.post }
  if r.consumerOpen then (.ok .parked, { r with request := some request })
  else (.error Cause.consumerClosed.fault, { r with request := none })

/-- Asks for a capacity of at least `capacity` and of twice the present one, where a frame of `pending`
bytes waits. -/
def askToGrow (r : Ring) (capacity pending : Nat) : Except Fault Progress × Ring :=
  match checkWord (growTarget r.capacity capacity) with
  | .error cause => (.error cause.fault, r)
  | .ok () => r.askForRoom ⟨growTarget r.capacity capacity, pending⟩

/-- Appends a payload, or asks for room if it does not fit.  The write counter is computed once the payload
is in its place. -/
def push (r : Ring) (payload : Bytes) : Except Fault Progress × Ring :=
  match plan r.write r.read r.capacity r.limit payload.length with
  | .error cause => (.error cause.fault, r)
  | .ok p =>
    if p.fits then
      match checkWord (p.nextWrite r.write) with
      | .error cause => (.error cause.fault, r.place p payload)
      | .ok () => (.ok .done, r.publish p payload)
    else r.askToGrow 0 p.frameLength

/-- Asks for a capacity of at least `capacity`. -/
def grow (r : Ring) (capacity : Nat) : Except Fault Progress × Ring :=
  if capacity ≤ r.capacity then (.ok .done, r) else r.askToGrow capacity 0

/-! ## Resizing -/

/-- The greatest length of a file. -/
def maxFileLength : Nat := 2 ^ 63 - 1

/-- The greatest length of a region in memory. -/
def maxRegionLength : Nat := 2 ^ 63 - 1

/-- Ends the thread over a capacity that no word holds, and in memory over one that no region holds. -/
def Backing.checkCapacity (b : Backing) (capacity : Nat) : Except Cause Unit :=
  match b with
  | heap => if Header.size + capacity > maxRegionLength then .error .overflow else .ok ()
  | file _ => checkWord capacity

/-- The stores that give a ring's storage room for `capacity` bytes: a file is lengthened, a heap
region is replaced. -/
def Backing.growth (b : Backing) (capacity : Nat) : Except OsError (List Store) :=
  match b with
  | heap => .ok [.fresh (Header.size + capacity)]
  | file _ =>
    if Header.size + capacity > maxFileLength then .error .lengthTooLarge
    else .ok [.length (Header.size + capacity)]

/-- The store that sets the resize mark. -/
def setMark : Store := .bytes Header.markOffset (Bytes.ofWord32 1)

/-- The store that clears the resize mark. -/
def clearMark : Store := .bytes Header.markOffset (Bytes.ofWord32 0)

/-- The stores that lay out the staged frames from offset zero on and describe them in the header.
The mark is cleared last. -/
def relayStores (staged : Bytes) : List Store :=
  [.bytes Header.size staged,
    .bytes Header.writeOffset (Header.fields { write := staged.length }),
    clearMark]

/-- The unread frames, before a resize to `goal` bytes stores anything.  Nobody reads the header of a ring in
memory, so it makes no difference that its mark is set by the time when no region holds it. -/
def stage (r : Ring) (goal : Nat) : Except Cause Bytes :=
  match r.linearize with
  | .error cause => .error cause
  | .ok staged =>
    if staged.length > r.capacity ∨ staged.length > r.write - r.read then
      .error (.backupTooLarge staged.length r.write)
    else (r.backing.checkCapacity goal).map fun () => staged

/-- The frames laid out from offset zero on, in storage that has grown to `capacity` bytes. -/
def relaid (r : Ring) (growth : List Store) (capacity : Nat) (staged : Bytes) : Ring :=
  { r.store (setMark :: growth ++ relayStores staged) with
    capacity
    write := staged.length
    read := 0
    dirty := 0 }

/-- Moves the unread frames to the front of a ring of at least `target` bytes.  If that fails, the
old layout stays. -/
def resize (r : Ring) (target : Nat) : Except Fault Unit × Ring :=
  let goal := nextPowerOfTwo (max target r.capacity)
  match r.stage goal with
  | .error cause => (.error cause.fault, r)
  | .ok staged =>
    match if goal > r.capacity then r.backing.growth goal else .ok [] with
    | .error e => (.error ⟨.system e, r.backing.path?⟩, r.store [setMark, clearMark])
    | .ok growth =>
      (.ok (), r.relaid growth (if goal > r.capacity then goal else r.capacity) staged)

/-- Whether the frame that waits fits by now, since records were released in the meantime. -/
def pendingFits (r : Ring) (request : Request) : Bool :=
  request.pending > 0 &&
    r.write - r.read + wrapPad r.write r.capacity r.limit + request.pending ≤ r.capacity

/-- Takes the request away once it was dealt with, whatever has come of it.  A thread that ends over it
leaves it behind. -/
def answered : Except Fault Unit × Ring → Except Fault Unit × Ring
  | (.error ⟨.overflow, path⟩, r) => (.error ⟨.overflow, path⟩, r)
  | (result, r) => (result, { r with request := none })

/-- Serves a request: does nothing if the frame that waits fits by now, and otherwise resizes. -/
def serve (r : Ring) (request : Request) : Except Fault Unit × Ring :=
  if r.pendingFits request then (.ok (), { r with request := none })
  else answered (r.resize (max request.target (growTarget r.capacity 0)))

/-! ## The consumer -/

/-- The oldest record, on loan to the consumer. -/
structure Lease where
  /-- Where the frame starts. -/
  start : Nat
  payload : Bytes
  /-- The read counter once the record is released. -/
  next : Nat
  deriving DecidableEq, Repr

/-- The store that moves the read counter. -/
def readStores (read : Nat) : List Store := [.bytes Header.readOffset (Bytes.ofWord64 read)]

/-- Moves the read counter. -/
def moveRead (r : Ring) (read : Nat) : Ring := { r.store (readStores read) with read }

/-- The frame of this length at the read counter, on loan. -/
def lease (r : Ring) (length : Nat) : Lease where
  start := r.read
  payload := r.view.payload r.read length
  next := r.read + (length + prefixLength)

/-- The oldest record.  Padding in front of it is passed for good. -/
def front (r : Ring) : Except Fault (Option Lease) × Ring :=
  if r.read > r.write then (.error (Cause.readAhead r.read).fault, r)
  else if r.read = r.write then (.ok none, r)
  else
    match r.view.classify r.read r.write with
    | .error cause => (.error cause.fault, r)
    | .ok (.frame n) => (.ok (some (r.lease n)), r)
    | .ok (.padding n) =>
      let r := r.moveRead (r.read + n)
      if r.read = r.write then (.ok none, r)
      else
        match r.view.classify r.read r.write with
        | .error cause => (.error cause.fault, r)
        | .ok (.frame n) => (.ok (some (r.lease n)), r)
        | .ok (.padding _) => (.error (Cause.consecutivePadding r.read).fault, r)

/-- Serves a request if there is one, and then looks at the oldest record. -/
def pop (r : Ring) : Except Fault (Option Lease) × Ring :=
  match r.request with
  | none => r.front
  | some request =>
    match r.serve request with
    | (.error fault, r) => (.error fault, r)
    | (.ok (), r) => r.front

/-- Gives up the oldest record for good. -/
def release (r : Ring) (l : Lease) : Ring := r.moveRead l.next

/-- The bytes of a record on loan as they are in the ring now. -/
def leased (r : Ring) (l : Lease) : Bytes := r.view.payload l.start l.payload.length

/-- Closes the consumer's end.  A producer that waits is turned away. -/
def closeConsumer (r : Ring) : Ring := { r with consumerOpen := false }

/-- Whether the consumer has been told of something, and the ring once it has taken note. -/
def takeNotice (r : Ring) : Bool × Ring :=
  (r.dataReady.wait.1, { r with dataReady := r.dataReady.wait.2 })

end Ring

end WriteBehind
