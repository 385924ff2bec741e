import WriteBehind.Pipeline.KeyHash
import WriteBehind.Pipeline.Mailbox
import WriteBehind.Ring.Channel
import WriteBehind.Settings.Basic

/-!
# Dispatcher — from the ring into mailboxes

The dispatcher is the ring's consumer.  It takes the oldest record on loan, waits for a mailbox that
may have it, puts a copy there, and only then gives the record up.

* `Dispatcher.look`, `place`, `tick`, `release` and `giveUp` are the steps of one cycle;
* `Dispatcher.runOnce` makes a whole cycle, as far as that is possible without waiting.
-/

namespace WriteBehind

/-- What the dispatcher is about. -/
inductive Hand
  /-- Between two records, about to see whether to stop. -/
  | empty
  /-- It is not to stop, and about to look for a record. -/
  | reaching
  /-- A record is on loan; with a home, it may go to that worker only. -/
  | holding (lease : Ring.Lease) (home : Option Nat)
  /-- A mailbox has a copy of the record that is still on loan. -/
  | placed (lease : Ring.Lease) (worker : Nat)
  /-- The dispatcher has stopped. -/
  | gone
  deriving DecidableEq, Repr

/-- How a cycle ended. -/
inductive Cycle
  /-- The ring was empty. -/
  | idle
  /-- The record went to this worker. -/
  | delivered (worker : Nat)
  /-- The dispatcher was to stop while the record waited; it stays in the ring. -/
  | stopped
  deriving DecidableEq, Repr

/-- The ring with its producer, the mailboxes by worker, and what the dispatcher is about. -/
structure Dispatcher where
  channel : Ring.Channel
  mailboxes : List Mailbox
  routing : Routing := .roundRobin
  /-- Where the next search for a free mailbox starts. -/
  next : Nat := 0
  hand : Hand := .empty
  dispatched : Nat := 0
  idleCycles : Nat := 0

namespace Dispatcher

/-! ## Parts of the state -/

/-- The ring. -/
def ring (d : Dispatcher) : Ring := d.channel.ring

/-- Replaces the ring. -/
def setRing (d : Dispatcher) (r : Ring) : Dispatcher :=
  { d with channel := { d.channel with ring := r } }

/-- Whether a worker has a free mailbox. -/
def isFree (d : Dispatcher) (worker : Nat) : Bool :=
  match d.mailboxes[worker]? with
  | some m => m.isFree
  | none => false

/-- Replaces a mailbox. -/
def setMailbox (d : Dispatcher) (worker : Nat) (m : Mailbox) : Dispatcher :=
  { d with mailboxes := d.mailboxes.set worker m }

/-- The worker that alone may have a record, if there is such a one. -/
def home? (d : Dispatcher) (payload : Bytes) : Except Cause (Option Nat) :=
  match d.routing with
  | .roundRobin => .ok none
  | .keyAffinity =>
    match Record.peekKey payload with
    | .error cause => .error cause
    | .ok key => .ok (some (KeyHash.workerFor key d.mailboxes.length))

/-- The workers in the order in which a search that starts at `next` asks them, one lap. -/
def lap (next count : Nat) : List Nat := (List.range count).map fun step => (next + step) % count

/-- The worker to get the record, if one is free. -/
def candidate? (d : Dispatcher) : Option Nat → Option Nat
  | some home => if d.isFree home then some home else none
  | none => (lap d.next d.mailboxes.length).find? d.isFree

/-- The count of idle cycles restarts at zero when it reaches this value. -/
def idleWrap : Nat := 2147483640

/-- Counts one more idle cycle. -/
def tick (d : Dispatcher) : Dispatcher :=
  { d with idleCycles := if d.idleCycles + 1 ≥ idleWrap then 0 else d.idleCycles + 1 }

/-! ## The view -/

section View

variable {d : Dispatcher} {home : Option Nat}

/-- A mailbox that may get the record with this home. -/
def Eligible (d : Dispatcher) (home : Option Nat) (i : Nat) : Prop :=
  i < d.mailboxes.length ∧ ∀ h, home = some h → i = h

/-- A search of one lap comes to every mailbox. -/
theorem mem_lap {next count i : Nat} (hi : i < count) : i ∈ lap next count := by
  -- From `next % count` on it is found after as many mailboxes as lie between, round the end.
  have hpos := Nat.zero_lt_of_lt hi
  have hnext := Nat.mod_lt next hpos
  have hsum : next % count + (i + count - next % count) = i + count := by omega
  refine List.mem_map.2 ⟨(i + count - next % count) % count, ?_, ?_⟩
  · exact List.mem_range.2 (Nat.mod_lt _ hpos)
  · rw [Nat.add_mod_mod, ← Nat.mod_add_mod, hsum, Nat.add_mod_right, Nat.mod_eq_of_lt hi]

theorem isFree_eq_true {i : Nat} (h : d.isFree i = true) :
    ∃ m, d.mailboxes[i]? = some m ∧ m.isFree = true := by
  simp only [isFree] at h
  split at h
  · rename_i m hm
    exact ⟨m, hm, h⟩
  · cases h

theorem lt_of_isFree {i : Nat} (h : d.isFree i = true) : i < d.mailboxes.length := by
  rcases isFree_eq_true h with ⟨m, hm, -⟩
  exact (List.getElem?_eq_some_iff.1 hm).1

/-- Whoever is found has a free mailbox. -/
theorem isFree_of_candidate? {i : Nat} (h : d.candidate? home = some i) : d.isFree i = true := by
  cases home with
  | some k =>
    simp only [candidate?] at h
    split at h
    · rename_i hk
      cases h
      exact hk
    · cases h
  | none => exact List.find?_some h

/-- Nobody is found exactly if no mailbox that may get the record is free. -/
theorem candidate?_eq_none_iff :
    d.candidate? home = none ↔ ∀ i, d.Eligible home i → d.isFree i = false := by
  cases home with
  | none =>
    simp only [candidate?, List.find?_eq_none, Bool.not_eq_true]
    refine ⟨fun h i hi => h i (mem_lap hi.1), ?_⟩
    intro h i _
    cases hfree : d.isFree i with
    | false => rfl
    | true => exact hfree.symm.trans (h i ⟨lt_of_isFree hfree, by rintro _ ⟨⟩⟩)
  | some k =>
    simp only [candidate?]
    refine ⟨?_, ?_⟩
    · intro h i hi
      cases hi.2 k rfl
      split at h
      · cases h
      · rwa [Bool.not_eq_true] at *
    · intro h
      split
      · rename_i hfree
        have hbusy := h k ⟨lt_of_isFree hfree, fun _ hc => Option.some.inj hc⟩
        cases hbusy.symm.trans hfree
      · rfl

end View

/-! ## The steps of a cycle -/

/-- Looks for a record and takes it in hand.  A record whose key cannot be read is given up. -/
def look (d : Dispatcher) : Except Fault Unit × Dispatcher :=
  match d.ring.pop with
  | (.error fault, r) => (.error fault, { d.setRing r with hand := .empty })
  | (.ok none, r) => (.ok (), { (d.setRing r).tick with hand := .empty })
  | (.ok (some lease), r) =>
    match d.home? lease.payload with
    | .error cause => (.error cause.fault, { d.setRing (r.release lease) with hand := .empty })
    | .ok home => (.ok (), { d.setRing r with hand := .holding lease home })

/-- Puts a copy of the record in hand into a mailbox.  Says nothing if no mailbox is free. -/
def place (d : Dispatcher) (lease : Ring.Lease) (home : Option Nat) :
    Option (Except Fault Unit) × Dispatcher :=
  match d.candidate? home with
  | none => (none, d)
  | some worker =>
    let d := if home.isNone then { d with next := (worker + 1) % d.mailboxes.length } else d
    let payload := d.ring.leased lease
    match d.mailboxes[worker]?.bind fun m => m.deliver? payload with
    | none =>
      (some (.error (Cause.mailboxRefused worker payload.length).fault),
        { d with hand := .empty })
    | some m =>
      (some (.ok ()), { d.setMailbox worker m with
        hand := .placed lease worker
        dispatched := d.dispatched + 1 })

/-- Gives up the record of which a mailbox has a copy. -/
def release (d : Dispatcher) (lease : Ring.Lease) : Dispatcher :=
  { d.setRing (d.ring.release lease) with hand := .empty }

/-- Lets the record in hand stay in the ring. -/
def giveUp (d : Dispatcher) : Dispatcher := { d with hand := .empty }

/-! ## Whole cycles -/

/-- Goes on with the record in hand.  Says nothing if the cycle has to wait for a mailbox and is not
to stop: it counts as idle for as long as it waits, once at the least. -/
def proceed (d : Dispatcher) (stop : Bool) : Option (Except Fault Cycle) × Dispatcher :=
  match d.hand with
  | .holding lease home =>
    match d.place lease home with
    | (none, d) => if stop then (some (.ok .stopped), d.giveUp) else (none, d.tick)
    | (some (.error fault), d) => (some (.error fault), d)
    | (some (.ok ()), d) =>
      match d.hand with
      | .placed lease worker => (some (.ok (.delivered worker)), d.release lease)
      | _ => (none, d)
  | _ => (some (.ok .idle), d)

/-- One cycle, with the flag to stop down or up all the while.  Says nothing if the cycle has to
wait for a mailbox; the record is in hand then. -/
def runOnce (d : Dispatcher) (stop : Bool) : Option (Except Fault Cycle) × Dispatcher :=
  match d.look with
  | (.error fault, d) => (some (.error fault), d)
  | (.ok (), d) => d.proceed stop

/-- Lets the producer's call that waits go on, and says how far it has come. -/
def resumeProducer (d : Dispatcher) : Option (Except Fault Ring.Progress) × Dispatcher :=
  let (producer, channel) := d.channel.resume
  (producer, { d with channel })

/-- Cycles until the ring is empty or a cycle has to wait, and lets the record in hand stay in the
ring.  The producer's call that waits goes on after every cycle; what is said is how far it has come
last.  Faults are passed over; at most `n` cycles are made. -/
def drain (d : Dispatcher) : Nat → Option (Except Fault Ring.Progress) × Dispatcher
  | 0 => (none, d)
  | n + 1 =>
    let (result, d) := d.runOnce false
    let (producer, d) := d.resumeProducer
    match result with
    | none => (producer, d.giveUp)
    | some (.ok .idle) =>
      if d.ring.snapshot.outstanding = 0 ∧ d.ring.request.isNone then (producer, d)
      else
        let (later, d) := d.drain n
        (later.or producer, d)
    | some _ =>
      let (later, d) := d.drain n
      (later.or producer, d)

/-- The dispatcher once its thread has ended: the ring has lost its consumer. -/
def depart (d : Dispatcher) : Dispatcher := { d.setRing d.ring.closeConsumer with hand := .gone }

/-- The dispatcher once it has stopped: it has told every worker to look, and its thread has ended. -/
def leave (d : Dispatcher) : Dispatcher := { d.depart with mailboxes := d.mailboxes.map .nudge }

end Dispatcher

end WriteBehind
