import WriteBehind.Pipeline.State
import WriteBehind.Proofs.Record
import WriteBehind.Proofs.Ring.Opening

/-!
# Journal — what becomes of each record

Records are numbered in the order in which they came into the ring.  A `Journal` notes, beside the
steps of a pipeline, which records came in, which were given up by the ring, which went into which
mailbox and which were handed to the store.

* `Journal.after` notes one step;
* `Pipeline.Onward within p j q k`: steps of all actors, in any order, lead from one state and journal to
  another;
* `Pipeline.Course limit p j` says that `p` is reached with the journal `j` from any ring of decodable
  records, as long as each padding fits the dirty size that notes it;
* `Pipeline.replay?` carries out one schedule, and `Onward.replay` says that it is one.
-/

namespace WriteBehind

/-- What has become of the records since the pipeline was started. -/
structure Journal where
  /-- The records that were in the ring at the start and those that came in since. -/
  accepted : List Bytes
  /-- How many of them the ring has given up. -/
  released : Nat := 0
  /-- The worker whose mailbox each record went into. -/
  homes : List Nat := []
  /-- The numbers of the records that were handed to the store, in the order of the calls. -/
  served : List Nat := []
  /-- The number of the record that each mailbox got last. -/
  slot : Nat → Nat := fun _ => 0
  /-- How many records were in mailboxes or beyond when a worker last found its mailbox empty. -/
  looked : Nat → Nat := fun _ => 0

namespace Journal

def accept (j : Journal) (records : List Bytes) : Journal :=
  { j with accepted := j.accepted ++ records }

/-- The next record went into the mailbox of a worker. -/
def place (j : Journal) (worker : Nat) : Journal :=
  { j with
    homes := j.homes ++ [worker]
    slot := fun i => if i = worker then j.homes.length else j.slot i }

/-- The record in a worker's mailbox was handed to the store. -/
def serve (j : Journal) (worker : Nat) : Journal :=
  { j with served := j.served ++ [j.slot worker] }

/-- A worker found its mailbox empty. -/
def look (j : Journal) (worker : Nat) : Journal :=
  { j with looked := fun i => if i = worker then j.homes.length else j.looked i }

/-- Other workers get nothing when a record is placed. -/
theorem homes_place_of_ne {j : Journal} {w i k : Nat} (h : i ≠ w) :
    (j.place w).homes[k]? = some i ↔ j.homes[k]? = some i := by
  by_cases hk : k < j.homes.length
  · simp only [place, List.getElem?_append_left hk]
  · -- The one that is placed has gone to `w`.
    have hnone : j.homes[k]? = none := List.getElem?_eq_none (Nat.not_lt.1 hk)
    simp only [place, List.getElem?_append_right (Nat.not_lt.1 hk), hnone, List.getElem?_singleton]
    split
    · simp only [Option.some.injEq, reduceCtorEq, iff_false]
      exact fun hc => h hc.symm
    · rfl

/-- Notes a step from `p` to `q`. -/
def after (j : Journal) (p : Pipeline) (a : Pipeline.Action) (q : Pipeline) : Journal :=
  match a with
  | .enqueue command timestamp args =>
    j.accept (Ring.added q.scratch (p.enqueue command timestamp args).1)
  | .resume => j.accept p.channel.resumed
  | .place =>
    match q.dispatcher.hand with
    | .placed _ worker => j.place worker
    | _ => j
  | .release => { j with released := j.released + 1 }
  | .serve worker _ => j.serve worker
  | .findEmpty worker => j.look worker
  | .raiseStop | .raiseWorkersStop | .goOn | .look | .wait | .giveUp | .leave | .free _
  | .checkStop _ | .readRing | .readMailbox => j

end Journal

namespace Pipeline

/-- The record that a step of the caller tries to put into the ring. -/
def offered? (p : Pipeline) : Action → Option Bytes
  | .enqueue command timestamp args =>
    match Record.pack command timestamp args p.ring.limit p.scratch with
    | (.ok _, record) => some record
    | (.error _, _) => none
  | .resume =>
    match p.channel.waiting with
    | some (.push payload) => some payload
    | _ => none
  | _ => none

/-- Steps of all actors, in any order, lead from one state and journal on to another, each of them
`within` what is asked of steps. -/
inductive Onward (within : Pipeline → Action → Pipeline → Prop) (p₀ : Pipeline) (j₀ : Journal) :
    Pipeline → Journal → Prop
  | refl : Onward within p₀ j₀ p₀ j₀
  | step {p q : Pipeline} {j : Journal} {a : Action} (steps : Onward within p₀ j₀ p j)
      (hwithin : within p a q) (hact : p.act? a = some q) : Onward within p₀ j₀ q (j.after p a q)

/-- Every step will do. -/
def AnyStep (_ : Pipeline) (_ : Action) (_ : Pipeline) : Prop := True

/-- The padding in front of a record that comes in fits the dirty size. -/
def NotesPads (p : Pipeline) (a : Action) (_ : Pipeline) : Prop :=
  ∀ record, p.offered? a = some record → p.ring.NotesPad record

/-- A pipeline is reached, with a journal, from its start on a ring of decodable records, whatever its
counters have come to and whatever room a producer has asked for. -/
inductive Course (limit : Nat) (p : Pipeline) (j : Journal) : Prop
  | onward {r : Ring} {records : List Bytes} {routing : Routing} {workers : Nat}
      (hsound : Ring.Sound r records) (hasked : r.WellAsked) (hlimit : r.limit = limit)
      (hdecodable : ∀ record ∈ records, Record.Decodable record)
      (steps : Onward NotesPads (.ofRing r routing workers limit) { accepted := records } p j)

namespace Onward

variable {within : Pipeline → Action → Pipeline → Prop} {p₀ p : Pipeline} {j₀ j : Journal}

/-- What holds at the start and is kept by every step holds of all that is reached. -/
theorem keeps {I : Pipeline → Journal → Prop} (steps : Onward within p₀ j₀ p j) (hstart : I p₀ j₀)
    (hstep : ∀ {p q a j}, I p j → within p a q → p.act? a = some q → I q (j.after p a q)) : I p j := by
  induction steps with
  | refl => exact hstart
  | step _ hwithin hact ih => exact hstep ih hwithin hact

end Onward

/-! ## Schedules -/

/-- Carries out steps in order and notes them. -/
def replay? (p : Pipeline) (j : Journal) : List Action → Option (Pipeline × Journal)
  | [] => some (p, j)
  | a :: as => (p.act? a).bind fun q => q.replay? (j.after p a q) as

theorem Onward.replay {within : Pipeline → Action → Pipeline → Prop} {p₀ p q : Pipeline}
    {j₀ j k : Journal} (steps : Onward within p₀ j₀ p j) {as : List Action}
    (hwithin : ∀ a ∈ as, ∀ p q, within p a q) (h : p.replay? j as = some (q, k)) :
    Onward within p₀ j₀ q k := by
  induction as generalizing p j with
  | nil =>
    cases h
    exact steps
  | cons a as ih =>
    simp only [replay?, Option.bind_eq_some_iff] at h
    rcases h with ⟨r, hact, hrest⟩
    exact ih (steps.step (hwithin a List.mem_cons_self p r) hact)
      (fun b hb => hwithin b (List.mem_cons_of_mem a hb)) hrest

/-- What is seen at the end of a schedule is seen in a state that steps lead to. -/
theorem exists_of_replay {p : Pipeline} {j : Journal} (as : List Action) {α : Type}
    (f : Pipeline × Journal → α) {x : α} (h : (p.replay? j as).map f = some x) :
    ∃ q k, Onward AnyStep p j q k ∧ f (q, k) = x := by
  rcases Option.map_eq_some_iff.1 h with ⟨⟨q, k⟩, hreplay, hx⟩
  exact ⟨q, k, Onward.refl.replay (fun _ _ _ _ => trivial) hreplay, hx⟩

end Pipeline
end WriteBehind
