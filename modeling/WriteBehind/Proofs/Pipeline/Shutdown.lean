import WriteBehind.Proofs.Pipeline.Delivery

/-!
# Shutdown — what is left once everybody has stopped

The dispatcher stops first, and the workers are told to stop only after it.  A worker stops when it
has found its mailbox empty and then sees that it is to stop; between these two looks the dispatcher
may still have filled the mailbox.

* `shutdown_of_course` says when a shutdown leaves every record with the store or in the ring: when
  no mailbox was filled after its worker had looked into it for the last time;
* `record_left_behind` is a shutdown that does not.
-/

namespace WriteBehind

/-- Every record was placed before its worker looked into the mailbox for the last time. -/
def Journal.LookedLast (j : Journal) : Prop := ∀ k i, j.homes[k]? = some i → k < j.looked i

namespace Pipeline

/-- Dispatcher and workers have stopped. -/
structure Stopped (p : Pipeline) : Prop where
  dispatcher : p.dispatcher.hand = .gone
  workers : ∀ w ∈ p.workers, w = .gone

instance (p : Pipeline) : Decidable p.Stopped :=
  decidable_of_iff (p.dispatcher.hand = .gone ∧ ∀ w ∈ p.workers, w = .gone)
    ⟨fun h => ⟨h.1, h.2⟩, fun h => ⟨h.dispatcher, h.workers⟩⟩

section Stopped

variable {limit : Nat} {p : Pipeline} {j : Journal}

theorem Stopped.not_inFlight (hstopped : p.Stopped) (k : Nat) : ¬ p.InFlight j k := by
  rintro ⟨-, l, worker, hplaced⟩
  cases hstopped.dispatcher.symm.trans hplaced

theorem Stopped.worker (hstopped : p.Stopped) {i : Nat} (hi : i < p.workers.length) :
    p.worker? i = some .gone := by
  rw [worker?, List.getElem?_eq_getElem hi, hstopped.workers _ (List.getElem_mem hi)]

theorem Stopped.worker_ne (hstopped : p.Stopped) (i : Nat) : p.worker? i ≠ some .served := by
  intro hserved
  cases hstopped.workers _ (List.mem_of_getElem? hserved)

/-! ## Mailboxes -/

theorem Books.inbox_none_iff (h : Books limit p j) (hstopped : p.Stopped) :
    (∀ i, p.inbox? i = none) ↔ j.LookedLast := by
  -- Every worker has stopped, so the books say when its mailbox is empty.
  constructor
  · intro hempty k i hk
    have hi := h.tallied.home_lt i (List.mem_of_getElem? hk)
    exact (h.stopping.looked i (.inr (hstopped.worker hi))).1 (hempty i) k hk
  · intro hlooked i
    by_cases hi : i < p.workers.length
    · refine (h.stopping.looked i (.inr (hstopped.worker hi))).2 ?_
      intro k hk
      exact hlooked k i hk
    · -- There is no such mailbox.
      rw [h.shaped.length_eq] at hi
      rw [inbox?, List.getElem?_eq_none (Nat.not_lt.1 hi)]
      rfl

/-- Once everybody has stopped, a record that is left in a mailbox is nowhere else. -/
theorem Books.lost_of_inbox (h : Books limit p j) (hstopped : p.Stopped) {i : Nat}
    (hi : p.inbox? i ≠ none) :
    j.slot i < j.accepted.length ∧ j.slot i ∉ j.served ∧ ¬ j.InRing (j.slot i) := by
  have hunserved := h.slots.waiting i hi (hstopped.worker_ne i)
  have hmailbox := h.inMailbox_of_slot hi
  have hlt : j.slot i < j.accepted.length := by
    rcases hmailbox with ⟨-, record, -, hrecord⟩
    exact (List.getElem?_eq_some_iff.1 hrecord).1
  refine ⟨hlt, hunserved, ?_⟩
  rcases h.ring_or_inMailbox hlt hunserved (hstopped.not_inFlight _) with hring | hgone
  · exact absurd hmailbox (hring.2 i)
  · exact hgone.1

theorem Books.served_iff_of_inbox (h : Books limit p j) (hstopped : p.Stopped)
    (hempty : ∀ i, p.inbox? i = none) {k : Nat} (hk : k < j.accepted.length) :
    k ∈ j.served ↔ ¬ j.InRing k := by
  constructor
  · -- Only a record in flight is in both, and nothing is in flight any more.
    intro hserved hring
    exact hstopped.not_inFlight k (h.inFlight_of_served hserved hring)
  · intro hgone
    by_contra hunserved
    rcases h.ring_or_inMailbox hk hunserved (hstopped.not_inFlight k) with
      hring | ⟨-, i, ⟨-, record, hrecord, -⟩, -⟩
    · exact hgone hring.1
    · cases (hempty i).symm.trans hrecord

/-! ## The law of a shutdown -/

/-- Once everybody has stopped, no record was handed to the store twice; and the mailboxes are empty,
and each record either was handed to the store or is in the ring, exactly if no mailbox was filled
after its worker had looked into it for the last time. -/
theorem shutdown_of_course (course : Course limit p j) (hstopped : p.Stopped) :
    List.Forall₂ j.Calls p.ledger.writes j.served ∧ j.served.Nodup ∧
      p.ring.backlog.payloads = j.accepted.drop j.released ∧ p.ring.backlog.defect = none ∧
      ((∀ i, p.inbox? i = none) ↔ j.LookedLast) ∧
      ((∀ k, k < j.accepted.length → (k ∈ j.served ↔ ¬ j.InRing k)) ↔ j.LookedLast) := by
  have h := course.books
  rcases course.intact.sound.backlog with ⟨hpayloads, hdefect⟩
  refine ⟨h.slots.calls, h.slots.nodup, hpayloads, hdefect, h.inbox_none_iff hstopped, ?_⟩
  rw [← h.inbox_none_iff hstopped]
  constructor
  · -- A record in a mailbox would be with neither.
    intro hall i
    by_contra hi
    rcases h.lost_of_inbox hstopped hi with ⟨hlt, hunserved, hgone⟩
    exact hunserved ((hall _ hlt).2 hgone)
  · intro hempty k hk
    exact h.served_iff_of_inbox hstopped hempty hk

end Stopped

/-- The worker looks once more after its record, and then stops. -/
theorem shutdown_of_course_drained :
    ∃ (p : Pipeline) (j : Journal), Course 16 p j ∧ p.Stopped ∧ j.accepted.length = 1 ∧
      (∀ i, p.inbox? i = none) ∧ 0 ∈ j.served := by
  have hseen : ∃ p j, Course 16 p j ∧
      (decide p.Stopped, j.accepted.length, j.released, j.homes, j.looked 0) =
        (true, 1, 1, [0], 1) :=
    Course.exists_of_replay 64 rfl (by decide) .roundRobin 1
      [.enqueue .incr 0 [[97]], .goOn, .look, .place, .release, .raiseStop, .leave,
        .raiseWorkersStop, .serve 0 true, .free 0, .findEmpty 0, .checkStop 0]
      (fun s => (decide s.1.Stopped, s.2.accepted.length, s.2.released, s.2.homes, s.2.looked 0))
      (by decide +kernel)
  rcases hseen with ⟨p, j, course, hview⟩
  simp only [Prod.mk.injEq, decide_eq_true_eq] at hview
  rcases hview with ⟨hstopped, haccepted, hreleased, hhomes, hlooked⟩
  -- The only record was placed before the last look.
  have hlast : j.LookedLast := by
    intro k i hk
    rw [hhomes] at hk
    rcases List.getElem?_eq_some_iff.1 hk with ⟨hlt, rfl⟩
    have hzero : k = 0 := Nat.lt_one_iff.1 hlt
    subst hzero
    rw [List.getElem_cons_zero, hlooked]
    exact Nat.zero_lt_one
  rcases shutdown_of_course course hstopped with ⟨-, -, -, -, hempty, hsettled⟩
  refine ⟨p, j, course, hstopped, haccepted, hempty.2 hlast, ?_⟩
  refine (hsettled.2 hlast 0 (haccepted ▸ Nat.zero_lt_one)).2 ?_
  intro hring
  rw [Journal.InRing, hreleased] at hring
  exact absurd hring.1 (by decide)

/-- A shutdown that leaves a record behind: the worker finds its mailbox empty, the dispatcher fills
it and stops, and the worker sees that it is to stop. -/
theorem record_left_behind :
    ∃ (p : Pipeline) (j : Journal), Course 16 p j ∧ p.Stopped ∧ j.accepted.length = 1 ∧
      p.inbox? 0 ≠ none ∧ 0 ∉ j.served ∧ ¬ j.InRing 0 := by
  have hseen : ∃ p j, Course 16 p j ∧
      (decide p.Stopped, j.accepted.length, j.released, j.served, (p.inbox? 0).isSome) =
        (true, 1, 1, [], true) :=
    Course.exists_of_replay 64 rfl (by decide) .roundRobin 1
      [.findEmpty 0, .enqueue .incr 0 [[97]], .goOn, .look, .place, .release, .raiseStop, .leave,
        .raiseWorkersStop, .checkStop 0]
      (fun s => (decide s.1.Stopped, s.2.accepted.length, s.2.released, s.2.served,
        (s.1.inbox? 0).isSome))
      (by decide +kernel)
  rcases hseen with ⟨p, j, course, hview⟩
  simp only [Prod.mk.injEq, decide_eq_true_eq] at hview
  rcases hview with ⟨hstopped, haccepted, hreleased, hserved, hinbox⟩
  refine ⟨p, j, course, hstopped, haccepted, ?_, ?_, ?_⟩
  · exact Option.isSome_iff_ne_none.1 hinbox
  · rw [hserved]
    exact List.not_mem_nil
  · intro hring
    rw [Journal.InRing, hreleased] at hring
    exact absurd hring.1 (by decide)

end Pipeline
end WriteBehind
