import WriteBehind.Pipeline.State

/-!
# Schedule — letting the pipeline run until nothing is left to do

Of all the orders in which the actors' steps may follow each other, one is chosen here: workers go
first, then the caller who waits, then the dispatcher.

* `Pipeline.nextAction?` chooses the next step, `Pipeline.settle` carries out all of them.
-/

namespace WriteBehind
namespace Pipeline

/-- How the store behaves. -/
structure Outlook where
  /-- The jobs that the store takes. -/
  accepts : Job → Bool
  /-- The store does not answer. -/
  blocked : Bool := false

/-- The next step of a worker.  A record that cannot be decoded is found out even while the store
does not answer. -/
def workerAction? (o : Outlook) (p : Pipeline) (i : Nat) : Option Action :=
  match p.workers[i]?, p.inbox? i with
  | some .served, _ => some (.free i)
  | some .foundEmpty, _ => some (.checkStop i)
  | some .ready, none => if p.workersStop then some (.findEmpty i) else none
  | some .ready, some payload =>
    match Record.unpack payload with
    | .error _ => some (.serve i false)
    | .ok job => if o.blocked then none else some (.serve i (o.accepts job))
  | _, _ => none

/-- The next step of the caller who waits. -/
def callerAction? (p : Pipeline) : Option Action :=
  if p.channel.waiting.isSome ∧ (p.ring.request.isNone ∨ ¬ p.ring.consumerOpen) then some .resume
  else none

/-- The next step of the dispatcher. -/
def dispatcherAction? (p : Pipeline) : Option Action :=
  match p.dispatcher.hand with
  | .empty =>
    if p.stop then some .leave
    else if p.ring.request.isSome ∨ p.ring.read ≠ p.ring.write then some .goOn
    else none
  | .reaching => some .look
  | .holding _ home =>
    if (p.dispatcher.candidate? home).isSome then some .place
    else if p.stop then some .giveUp
    else none
  | .placed _ _ => some .release
  | .gone => none

/-- The next step of all actors. -/
def nextAction? (o : Outlook) (p : Pipeline) : Option Action :=
  ((List.range p.workers.length).findSome? (p.workerAction? o)).or
    (p.callerAction?.or p.dispatcherAction?)

/-- Carries out steps until none is left, at most `n` of them. -/
def settleWithin (o : Outlook) (p : Pipeline) : Nat → Pipeline
  | 0 => p
  | n + 1 =>
    match (p.nextAction? o).bind p.act? with
    | none => p
    | some q => q.settleWithin o n

/-- More than the number of steps that are needed where every request for room can be served: a
record takes seven steps and more than four bytes. -/
def effort (p : Pipeline) : Nat :=
  8 * (p.ring.snapshot.outstanding + p.workers.length + 8)

/-- Carries out steps until none is left. -/
def settle (o : Outlook) (p : Pipeline) : Pipeline := p.settleWithin o p.effort

/-- Stops everybody, dispatcher first. -/
def shutDown (o : Outlook) (p : Pipeline) : Pipeline :=
  let p := { p with stop := true }.settle o
  { p with workersStop := true }.settle o

end Pipeline
end WriteBehind
