import WriteBehind.Pipeline.Mailbox
import WriteBehind.Record

/-!
# Worker — from a mailbox to the store

A worker decodes the record in its mailbox, hands the job to the store, and frees the mailbox once
the store has answered.  A job that the store refuses is counted and dropped.

* `Worker` is what a worker is about;
* `Write` is one call of the store, `Ledger` all of them;
* `Worker.serve` makes one call, `Worker.runOnce` serves a whole record.
-/

namespace WriteBehind

/-- What a worker is about. -/
inductive Worker
  /-- About to look into its mailbox. -/
  | ready
  /-- The store has answered and the mailbox is still to be freed. -/
  | served
  /-- It found its mailbox empty and is about to see whether to stop. -/
  | foundEmpty
  | gone
  deriving DecidableEq, Repr

/-- One call of the store. -/
structure Write where
  worker : Nat
  job : Job
  /-- Whether the store took the job. -/
  accepted : Bool
  deriving DecidableEq, Repr

/-- The calls of the store so far, and how they ended. -/
structure Ledger where
  /-- Oldest first. -/
  writes : List Write := []
  written : Nat := 0
  failed : Nat := 0
  deriving DecidableEq, Repr

namespace Ledger

/-- The ledger with one more call. -/
def add (l : Ledger) (w : Write) : Ledger where
  writes := l.writes ++ [w]
  written := if w.accepted then l.written + 1 else l.written
  failed := if w.accepted then l.failed else l.failed + 1

/-- All jobs that were handed to the store. -/
def jobs (l : Ledger) : List Job := l.writes.map Write.job

end Ledger

namespace Worker

/-- Decodes a record and hands the job to a store that takes the jobs for which `accepts` holds. -/
def serve (worker : Nat) (accepts : Job → Bool) (payload : Bytes) (l : Ledger) :
    Except Cause Ledger :=
  match Record.unpack payload with
  | .error cause => .error cause
  | .ok job => .ok (l.add ⟨worker, job, accepts job⟩)

/-- Serves the record in a mailbox, if there is one, and frees the mailbox. -/
def runOnce (worker : Nat) (accepts : Job → Bool) (m : Mailbox) (l : Ledger) :
    Option (Except Cause Ledger) × Mailbox :=
  match m.contents? with
  | none => (none, m)
  | some payload => (some (serve worker accepts payload l), m.clear)

/-- Serves the record in a mailbox, and then further ones, each delivered once the mailbox is free.
Says which of them the mailbox took. -/
def serveAll (worker : Nat) (accepts : Job → Bool) (m : Mailbox) (l : Ledger) :
    List Bytes → List Bool × Mailbox × Ledger
  | [] =>
    match runOnce worker accepts m l with
    | (some (.ok l), m) => ([], m, l)
    | (_, m) => ([], m, l)
  | payload :: payloads =>
    let (m, l) :=
      match runOnce worker accepts m l with
      | (some (.ok l), m) => (m, l)
      | (_, m) => (m, l)
    let (taken, m) := match m.deliver? payload with | some m => (true, m) | none => (false, m)
    let (rest, m, l) := serveAll worker accepts m l payloads
    (taken :: rest, m, l)

end Worker

end WriteBehind
