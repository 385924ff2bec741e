import WriteBehind.Proofs.Pipeline.Followed

/-!
# KeyOrder — with key affinity each key's commands reach the store in order

With key affinity all records of a key are in one lane, and lanes are in order.

* `Pipeline.KeyOrder workers p j` says for every key that the calls of the store are a prefix of the
  commands that came in, and that one worker makes them;
* `key_order_of_onward` has it for every run.
-/

namespace WriteBehind
namespace Pipeline

/-- For every key the calls of the store are a prefix of the commands that came in, and one worker makes
them. -/
structure KeyOrder (workers : Nat) (p : Pipeline) (j : Journal) : Prop where
  order : ∀ key, (p.ledger.jobs.filter fun job => job.key == key) <+:
    j.jobs.filter fun job => job.key == key
  worker : ∀ w ∈ p.ledger.writes, w.worker = KeyHash.workerFor w.job.key workers
  /-- What came in are the records of these commands. -/
  decoded : j.accepted.map Record.unpack = j.jobs.map .ok
  commands : ∀ command timestamp args record q, p.act? (.enqueue command timestamp args) = some q →
    p.offered? (.enqueue command timestamp args) = some record →
    Record.unpack record = .ok ⟨timestamp % 2 ^ 32, command, args⟩

theorem Followed.keyOrder {limit workers : Nat} {p : Pipeline} {j : Journal}
    (h : Followed limit .keyAffinity workers p j) : p.KeyOrder workers j := by
  have hcalls := h.books.slots.calls
  refine ⟨?_, ?_, ?_, ?_⟩
  · intro key
    refine keyed_prefix h.books.slots h.lanes.order h.lanes.homes_le
      (i := KeyHash.workerFor key workers) ?_
    -- The records of a key are all in one lane.
    intro k job hk hjob hkey
    rcases h.lanes.homed k _ (List.getElem?_eq_getElem hk) with ⟨other, hother, hhome⟩
    cases hjob.symm.trans hother
    rw [List.getElem?_eq_getElem hk, hhome rfl, beq_iff_eq.1 hkey]
  · intro w hw
    rcases List.mem_iff_getElem.1 hw with ⟨n, hn, rfl⟩
    have hn' : n < j.served.length := hcalls.length_eq ▸ hn
    rcases hcalls.get hn hn' with ⟨hhome, record, hrecord, hunpack⟩
    rcases h.lanes.homed _ _ hhome with ⟨job, hjob, hworker⟩
    have hsame : j.job? (j.served.get ⟨n, hn'⟩) = some (p.ledger.writes.get ⟨n, hn⟩).job := by
      simp only [Journal.job?, hrecord, Option.bind_some, hunpack, Except.toOption]
    cases hsame.symm.trans hjob
    exact hworker rfl
  · have hall := h.books.custody.decodable
    rw [Journal.jobs]
    generalize j.accepted = records at hall
    induction records with
    | nil => rfl
    | cons record records ih =>
      rcases hall record List.mem_cons_self with ⟨job, hunpack⟩
      have hrest := ih (fun other hmem => hall other (List.mem_cons_of_mem record hmem))
      simp only [List.map_cons, List.filterMap_cons, hunpack, Except.toOption, hrest]
  · intro command timestamp args record q hact hoffered
    simp only [offered?] at hoffered
    split at hoffered
    · rename_i n other hpack
      cases hoffered
      exact (Record.pack_eq_ok hpack h.books.custody.gives.sized.limit_lt).2.2
    · cases hoffered

/-- With key affinity, from any ring on, for any number of workers, and through any steps of all actors
in any order: the calls of the store for each key are a prefix of the commands with this key that came
in, all by the worker of the key.  The key that a record is routed by is that of its command. -/
theorem key_order_of_onward {limit workers : Nat} {r : Ring} {records : List Bytes} {p : Pipeline}
    {j : Journal} (hsound : Ring.Sound r records) (hlimit : r.limit = limit)
    (hdecodable : ∀ record ∈ records, Record.Decodable record)
    (steps : Onward AnyStep (.ofRing r .keyAffinity workers limit) { accepted := records } p j) :
    p.KeyOrder workers j ∧ ∀ record job, Record.unpack record = .ok job →
      Record.peekKey record = .ok job.key :=
  ⟨(followed_of_onward hsound.gives hlimit hdecodable steps).keyOrder,
    fun _ _ hunpack => Record.peekKey_of_unpack hunpack⟩

/-- Two workers: the second record is handed to the store before the first one, and the third one waits
for the mailbox of its key's worker although the other mailbox is free. -/
theorem key_order_of_onward_waiting :
    ∃ (p : Pipeline) (j : Journal), p.KeyOrder 2 j ∧ j.jobs.map Job.timestamp = [1, 2, 3] ∧
      p.ledger.jobs.map Job.timestamp = [2, 1] ∧ p.dispatcher.isFree 1 = true ∧
      (p.ledger.jobs.filter fun job => job.key == [97]).map Job.timestamp = [1] ∧
      (j.jobs.filter fun job => job.key == [97]).map Job.timestamp = [1, 3] := by
  have hsound : Ring.Sound (.create 64 16) [] :=
    Ring.sound_create (by decide) (by decide) (by decide) (by decide)
  rcases Pipeline.exists_of_replay (p := ofRing (.create 64 16) .keyAffinity 2 16)
    (j := { accepted := [] })
    [.enqueue .incr 1 [[97]], .enqueue .incr 2 [[101]], .enqueue .incr 3 [[97]],
      .goOn, .look, .place, .release, .goOn, .look, .place, .release, .goOn, .look,
      .serve 1 true, .free 1, .serve 0 true]
    (fun s => (s.2.jobs.map Job.timestamp, s.1.ledger.jobs.map Job.timestamp,
      s.1.dispatcher.isFree 1,
      (s.1.ledger.jobs.filter fun job => job.key == [97]).map Job.timestamp,
      (s.2.jobs.filter fun job => job.key == [97]).map Job.timestamp))
    (x := ([1, 2, 3], [2, 1], true, [1], [1, 3])) (by decide +kernel) with ⟨p, j, steps, hseen⟩
  simp only [Prod.mk.injEq] at hseen
  exact ⟨p, j, (key_order_of_onward hsound rfl (fun _ hmem => nomatch hmem) steps).1, hseen⟩

end Pipeline
end WriteBehind
