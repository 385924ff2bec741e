import WriteBehind.Pipeline.Dispatcher
import WriteBehind.Pipeline.Worker

/-!
# State — the pipeline as a machine of atomic steps

A caller, a dispatcher and any number of workers share a ring and one mailbox for each worker.  Each
of them advances by atomic steps, and the steps of different actors may follow each other in any
order.

* `Pipeline.Action` names the steps;
* `Pipeline.act?` carries a step out, where it is possible;
* `Pipeline.Step` and `Pipeline.Reachable` are the relations that this gives.
-/

namespace WriteBehind

/-- A caller who waits for the pipeline to be idle reads the ring first, and then one mailbox after
the other. -/
inductive Watch
  | off
  /-- The ring was empty, and so were this many mailboxes. -/
  | reading (mailboxes : Nat)
  /-- What the last look found. -/
  | found (idle : Bool)
  deriving DecidableEq, Repr

/-- The state of all actors. -/
structure Pipeline where
  dispatcher : Dispatcher
  /-- By mailbox. -/
  workers : List Worker
  /-- The dispatcher is to stop. -/
  stop : Bool := false
  /-- The workers are to stop once their mailboxes are empty. -/
  workersStop : Bool := false
  ledger : Ledger := {}
  /-- The caller's buffer for records. -/
  scratch : Bytes := []
  watch : Watch := .off
  /-- The corruption that made an actor give up the whole process. -/
  aborted : Option Cause := none

namespace Pipeline

/-- A pipeline over a ring, with everybody about to start. -/
def ofRing (r : Ring) (routing : Routing) (workers mailboxSize : Nat) : Pipeline where
  dispatcher := {
    channel := { ring := r }
    mailboxes := List.replicate workers (.ofSize mailboxSize)
    routing }
  workers := List.replicate workers .ready

/-! ## Parts of the state -/

/-- The ring and the caller's call that may wait on it. -/
def channel (p : Pipeline) : Ring.Channel := p.dispatcher.channel

/-- The ring. -/
def ring (p : Pipeline) : Ring := p.dispatcher.ring

/-- Replaces the ring and the call that waits on it. -/
def setChannel (p : Pipeline) (c : Ring.Channel) : Pipeline :=
  { p with dispatcher := { p.dispatcher with channel := c } }

/-- Replaces what a worker is about. -/
def setWorker (p : Pipeline) (i : Nat) (w : Worker) : Pipeline :=
  { p with workers := p.workers.set i w }

/-- The record in a worker's mailbox. -/
def inbox? (p : Pipeline) (i : Nat) : Option Bytes :=
  p.dispatcher.mailboxes[i]?.bind Mailbox.contents?

/-- Frees a worker's mailbox. -/
def clearMailbox (p : Pipeline) (i : Nat) : Pipeline :=
  { p with dispatcher := { p.dispatcher with
      mailboxes := p.dispatcher.mailboxes.modify i Mailbox.clear } }

/-- The process is given up. -/
def abort (p : Pipeline) (cause : Cause) : Pipeline := { p with aborted := some cause }

/-! ## The caller -/

/-- Packs a command and appends the record to the ring.  A command that is refused leaves the ring
alone; where the ring is too full, the caller waits. -/
def enqueue (p : Pipeline) (command : Command) (timestamp : Nat) (args : List Bytes) :
    Except Fault Ring.Progress × Pipeline :=
  match Record.pack command timestamp args p.ring.limit p.scratch with
  | (.error cause, scratch) => (.error cause.fault, { p with scratch })
  | (.ok _, scratch) =>
    let (result, c) := p.channel.submit (.push scratch)
    (result, { p.setChannel c with scratch })

/-- Whether the ring is drained and every mailbox is empty. -/
def isIdle (p : Pipeline) : Bool :=
  p.ring.snapshot.outstanding == 0 && p.dispatcher.mailboxes.all Mailbox.isFree

/-! ## Steps -/

/-- The atomic steps, by actor. -/
inductive Action
  -- the caller
  | enqueue (command : Command) (timestamp : Nat) (args : List Bytes)
  /-- The call that waits goes on, once its request was served. -/
  | resume
  | raiseStop
  /-- The workers are told to stop; only after the dispatcher is gone. -/
  | raiseWorkersStop
  -- the dispatcher
  /-- It sees that it is not to stop. -/
  | goOn
  | look
  | place
  /-- No mailbox is free for the record in hand, and the dispatcher waits for a while. -/
  | wait
  | release
  /-- The record in hand stays in the ring, since the dispatcher is to stop. -/
  | giveUp
  | leave
  -- a worker
  /-- The store answers a call, and takes the job or not. -/
  | serve (worker : Nat) (accepted : Bool)
  | free (worker : Nat)
  | findEmpty (worker : Nat)
  | checkStop (worker : Nat)
  -- somebody who waits for idleness
  | readRing
  | readMailbox
  deriving DecidableEq, Repr

/-- A step of the dispatcher.  Corruption gives up the process, and a counter that no word holds the
dispatcher's thread; after other faults it goes on. -/
def dispatch? (p : Pipeline) : Action → Option Pipeline
  | .goOn =>
    if p.dispatcher.hand = .empty ∧ ¬ p.stop then
      some { p with dispatcher := { p.dispatcher with hand := .reaching } }
    else none
  | .look =>
    if p.dispatcher.hand = .reaching then
      match p.dispatcher.look with
      | (.error fault, d) =>
        if fault.kind = .corrupt then some ({ p with dispatcher := d }.abort fault.cause)
        else if fault.kind = .panic then some { p with dispatcher := d.depart }
        else some { p with dispatcher := d }
      | (.ok (), d) => some { p with dispatcher := d }
    else none
  | .place =>
    match p.dispatcher.hand with
    | .holding lease home =>
      match p.dispatcher.place lease home with
      | (none, _) => none
      | (some _, d) => some { p with dispatcher := d }
    | _ => none
  | .wait =>
    match p.dispatcher.hand with
    | .holding _ home =>
      if ¬ p.stop ∧ p.dispatcher.candidate? home = none then
        some { p with dispatcher := p.dispatcher.tick }
      else none
    | _ => none
  | .release =>
    match p.dispatcher.hand with
    | .placed lease _ => some { p with dispatcher := p.dispatcher.release lease }
    | _ => none
  | .giveUp =>
    match p.dispatcher.hand with
    | .holding _ home =>
      if p.stop ∧ p.dispatcher.candidate? home = none then
        some { p with dispatcher := p.dispatcher.giveUp }
      else none
    | _ => none
  | .leave =>
    if p.dispatcher.hand = .empty ∧ p.stop then some { p with dispatcher := p.dispatcher.leave }
    else none
  | _ => none

/-- A step of a worker. -/
def work? (p : Pipeline) : Action → Option Pipeline
  | .serve i accepted =>
    match p.workers[i]?, p.inbox? i with
    | some .ready, some payload =>
      match Worker.serve i (fun _ => accepted) payload p.ledger with
      | .error cause => some ((p.clearMailbox i).abort cause)
      | .ok ledger => some { p.setWorker i .served with ledger }
    | _, _ => none
  | .free i =>
    if p.workers[i]? = some .served then some ((p.clearMailbox i).setWorker i .ready) else none
  | .findEmpty i =>
    if p.workers[i]? = some .ready ∧ p.inbox? i = none then some (p.setWorker i .foundEmpty)
    else none
  | .checkStop i =>
    if p.workers[i]? = some .foundEmpty then
      some (p.setWorker i (if p.workersStop then .gone else .ready))
    else none
  | _ => none

/-- A step of the caller. -/
def call? (p : Pipeline) : Action → Option Pipeline
  | .enqueue command timestamp args =>
    if p.channel.waiting.isNone then some (p.enqueue command timestamp args).2 else none
  | .resume =>
    if p.channel.waiting.isSome ∧ (p.ring.request.isNone ∨ ¬ p.ring.consumerOpen) then
      some (p.setChannel p.channel.resume.2)
    else none
  | .raiseStop => some { p with stop := true }
  | .raiseWorkersStop =>
    if p.dispatcher.hand = .gone then some { p with workersStop := true } else none
  | _ => none

/-- A step of somebody who waits for idleness. -/
def watch? (p : Pipeline) : Action → Option Pipeline
  | .readRing =>
    if p.ring.snapshot.outstanding = 0 then some { p with watch := .reading 0 }
    else some { p with watch := .found false }
  | .readMailbox =>
    match p.watch with
    | .reading n =>
      match p.dispatcher.mailboxes[n]? with
      | none => some { p with watch := .found true }
      | some m => some { p with watch := if m.isFree then .reading (n + 1) else .found false }
    | _ => none
  | _ => none

/-- Carries out a step, where it is possible.  Nothing is possible once the process was given up. -/
def act? (p : Pipeline) (a : Action) : Option Pipeline :=
  if p.aborted.isSome then none
  else
    match a with
    | .enqueue .. | .resume | .raiseStop | .raiseWorkersStop => p.call? a
    | .goOn | .look | .place | .wait | .release | .giveUp | .leave => p.dispatch? a
    | .serve .. | .free _ | .findEmpty _ | .checkStop _ => p.work? a
    | .readRing | .readMailbox => p.watch? a

/-- One step leads from `p` to `q`. -/
def Step (p q : Pipeline) : Prop := ∃ a, p.act? a = some q

/-- The states that steps lead to. -/
inductive Reachable (start : Pipeline) : Pipeline → Prop
  | refl : Reachable start start
  | step {p q : Pipeline} : Reachable start p → Step p q → Reachable start q

/-- Carries out steps in order. -/
def run? (p : Pipeline) : List Action → Option Pipeline
  | [] => some p
  | a :: as => (p.act? a).bind fun p => p.run? as

end Pipeline

end WriteBehind
