import WriteBehind.Pipeline.Dispatcher
import WriteBehind.Session.Rings

/-!
# Desk — a dispatcher worked by hand

The mailboxes have no workers; somebody else empties them.

* `Desk.runOnce` makes one cycle, and may empty a mailbox when the cycle has to wait;
* `Desk.finish` lets the dispatcher go on until it has nothing to do, and stops it for good.
-/

namespace WriteBehind

/-- A dispatcher over a disk. -/
structure Desk where
  disk : Disk := {}
  dispatcher : Dispatcher
  /-- The dispatcher is to stop. -/
  stop : Bool := false
  /-- Whether the count of idle cycles depends on steps alone, not on how long a cycle waited. -/
  countsIdle : Bool := true

namespace Desk

/-- Opens a ring and sets up the mailboxes. -/
def openOn (disk : Disk) (o : Ring.Options) (routing : Routing) (workers mailboxSize : Nat) :
    Except Fault Desk :=
  match disk.openRing o with
  | (.error fault, _) => .error fault
  | (.ok r, disk) =>
    .ok {
      disk
      dispatcher := {
        channel := { ring := r }
        mailboxes := List.replicate workers (.ofSize mailboxSize)
        routing } }

/-- Carries out an operation of the dispatcher, whose ring may share its bytes with a file. -/
def on {α : Type} (s : Desk) (f : Dispatcher → α × Dispatcher) : α × Desk :=
  let (a, d) := f (s.dispatcher.setRing (s.disk.load s.dispatcher.ring))
  (a, { s with disk := s.disk.save d.ring, dispatcher := d })

/-- Starts a call of the producer. -/
def submit (s : Desk) (call : Ring.Call) : Except Fault Ring.Progress × Desk :=
  s.on fun d =>
    let (result, channel) := d.channel.submit call
    (result, { d with channel })

/-- Empties a mailbox. -/
def take (s : Desk) (worker : Nat) : Option Bytes × Desk :=
  match s.dispatcher.mailboxes[worker]?.bind Mailbox.take? with
  | none => (none, s)
  | some (payload, m) => (some payload, { s with dispatcher := s.dispatcher.setMailbox worker m })

/-- The dispatcher with a mailbox emptied. -/
def emptied (d : Dispatcher) (worker : Nat) : Dispatcher :=
  { d with mailboxes := d.mailboxes.modify worker Mailbox.clear }

/-- What a cycle came to, and how far the call has come that waited before. -/
structure Turn where
  result : Except Fault Cycle
  producer : Option (Except Fault Ring.Progress) := none

/-- A cycle.  While it waits, the mailbox `rescue` is emptied; one that waits still is stopped. -/
def cycle (stop : Bool) (rescue : Option Nat) (d : Dispatcher) : Except Fault Cycle × Dispatcher :=
  match d.runOnce stop with
  | (some result, d) => (result, d)
  | (none, d) =>
    let d := match rescue with | some worker => emptied d worker | none => d
    match d.proceed true with
    | (some result, d) => (result, d)
    | (none, d) => (.ok .stopped, d.giveUp)

/-- Whether a cycle has to wait for a mailbox. -/
def waits (d : Dispatcher) (stop : Bool) : Bool := (d.runOnce stop).1.isNone

/-- Makes one cycle, and then lets the call go on that waits. -/
def runOnce (s : Desk) (rescue : Option Nat) : Turn × Desk :=
  let (waited, s) := s.on fun d => (waits d s.stop, d)
  let (turn, s) := s.on fun d =>
    let (result, d) := cycle s.stop rescue d
    let (producer, d) := d.resumeProducer
    ({ result, producer : Turn }, d)
  (turn, { s with countsIdle := s.countsIdle && rescue.isNone && !waited })

/-- More cycles than are needed where every request for room can be served: a record takes up more
than four bytes. -/
def cycleBound (d : Dispatcher) : Nat := d.ring.snapshot.outstanding + 4

/-- Lets the dispatcher go on until it has nothing to do, unless it is to stop at once, and stops it
for good.  Says how far the call has come that waited before. -/
def finish (s : Desk) : Option (Except Fault Ring.Progress) × Desk :=
  let (producer, s) := s.on fun d =>
    let (producer, d) := d.drain (if s.stop then 0 else cycleBound d)
    let (last, d) := d.leave.resumeProducer
    (last.or producer, d)
  (producer, { s with countsIdle := false })

end Desk

end WriteBehind
