import WriteBehind.Ring.Basic

/-!
# Channel — a ring and the producer's call that may be waiting on it

A producer whose payload does not fit waits until the consumer has served its request, and then
tries again.

* `Channel.submit` starts a call, which is done, refused or left waiting;
* `Channel.resume` lets a waiting call go on once its request is gone;
* `Channel.consume` takes the oldest record and then lets the waiting call go on, `Channel.drain`
  does so until nothing is left.
-/

namespace WriteBehind
namespace Ring

/-- A call of the producer. -/
inductive Call
  | push (payload : Bytes)
  | grow (capacity : Nat)
  deriving DecidableEq, Repr

/-- A ring and the call that waits on it. -/
structure Channel where
  ring : Ring
  waiting : Option Call := none

namespace Channel

/-- The first attempt of a call. -/
def attempt (r : Ring) : Call → Except Fault Progress × Ring
  | .push payload => r.push payload
  | .grow capacity => r.grow capacity

/-- What a call comes to when its request has been served: a growth is done, a payload is tried
again. -/
def retry (r : Ring) : Call → Except Fault Progress × Ring
  | .push payload => r.push payload
  | .grow _ => (.ok .done, r)

/-- The channel after a call has come this far. -/
def settle (call : Call) : Except Fault Progress × Ring → Except Fault Progress × Channel
  | (.ok .parked, r) => (.ok .parked, ⟨r, some call⟩)
  | (result, r) => (result, ⟨r, none⟩)

/-- Starts a call. -/
def submit (c : Channel) (call : Call) : Except Fault Progress × Channel :=
  settle call (attempt c.ring call)

/-- Lets the waiting call go on as far as it can, and says how far that is. -/
def resume (c : Channel) : Option (Except Fault Progress) × Channel :=
  match c.waiting with
  | none => (none, c)
  | some call =>
    match c.ring.request with
    | some request =>
      if c.ring.consumerOpen then (some (.ok .parked), c)
      else
        let (result, r) := c.ring.askForRoom request
        (some result, ⟨r, none⟩)
    | none =>
      let (result, c) := settle call (retry c.ring call)
      (some result, c)

/-! ## Taking records while a call waits -/

/-- What taking a record came to. -/
structure Taken where
  record : Except Fault (Option Lease)
  /-- How far the call has come that waited before. -/
  producer : Option (Except Fault Progress) := none

/-- The ring after a record was dealt with: `keep` leaves it in the ring. -/
def dealWith (keep : Bool) (r : Ring) : Except Fault (Option Lease) → Ring
  | .ok (some lease) => if keep then r else r.release lease
  | _ => r

/-- Looks for the oldest record and deals with it, and lets the waiting call go on. -/
def takeOnce (keep : Bool) (c : Channel) : Taken × Channel :=
  let (record, r) := c.ring.pop
  let (producer, c) := resume { c with ring := dealWith keep r record }
  (⟨record, producer⟩, c)

/-- Takes the oldest record.  Where there was none and the waiting call has returned, its payload
may be there now, so it looks once more. -/
def consume (keep : Bool) (c : Channel) : Taken × Channel :=
  match c.takeOnce keep with
  | (⟨.ok none, some producer⟩, c) =>
    if c.waiting.isSome then (⟨.ok none, some producer⟩, c)
    else
      let (again, c) := c.takeOnce keep
      (⟨again.record, some producer⟩, c)
  | taken => taken

/-- What draining came to. -/
structure Drained where
  payloads : List Bytes := []
  fault : Option Fault := none
  /-- How far the call has come that waited before. -/
  producer : Option (Except Fault Progress) := none

/-- Takes records until none is left, at most `n` of them. -/
def drain : Nat → Channel → Drained × Channel
  | 0, c => ({}, c)
  | n + 1, c =>
    match c.consume false with
    | (⟨.error fault, producer⟩, c) => ({ fault := some fault, producer }, c)
    | (⟨.ok none, producer⟩, c) => ({ producer }, c)
    | (⟨.ok (some lease), producer⟩, c) =>
      let (rest, c) := drain n c
      ({ rest with
        payloads := lease.payload :: rest.payloads
        producer := rest.producer.or producer }, c)

/-- More than the number of records that can be taken: each takes up more than four bytes, and the
call that waits adds one. -/
def recordBound (c : Channel) : Nat := c.ring.write - c.ring.read + 2

end Channel

end Ring
end WriteBehind
