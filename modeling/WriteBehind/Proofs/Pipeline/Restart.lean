import Mathlib.Data.List.Nodup
import WriteBehind.Proofs.Pipeline.Delivery
import WriteBehind.Proofs.Pipeline.Followed

/-!
# Restart — which records the store sees twice when a process stops anywhere

A process may stop behind any step.  What it leaves is the queue file; mailboxes and all that workers
knew are gone.  A second process that opens the file starts with the records that the ring has not given
up.  The dispatcher copies a record to a mailbox first and has the ring give it up then, so a worker may
be done with a record that the ring still has: the one in flight, and no other.

* `Journal.acceptedOver` and `Journal.servedOver` number the records and list the calls of two runs;
* `Pipeline.Resumed p j q k` says that no record but the one in flight was handed over in both;
* `resumed_of_onward` has it for every two runs, wherever the first one stops;
* `served_twice` is a stop behind which the store sees a record again.
-/

namespace WriteBehind

namespace Journal

/-- The records of two runs: those that the ring gave up in the first one, and those of the second. -/
def acceptedOver (j k : Journal) : List Bytes := j.accepted.take j.released ++ k.accepted

/-- The numbers of the records that were handed to the store in two runs.  The second run counts from
what the ring had given up in the first one. -/
def servedOver (j k : Journal) : List Nat := j.served ++ k.served.map (j.released + ·)

variable {j k : Journal}

/-- The second run starts with what was left of the first one, so that all records keep their numbers. -/
theorem accepted_prefix_acceptedOver (h : j.accepted.drop j.released <+: k.accepted) :
    j.accepted <+: j.acceptedOver k := by
  have hsplit := (List.prefix_append_right_inj (j.accepted.take j.released)).2 h
  rwa [List.take_append_drop] at hsplit

theorem getElem?_acceptedOver (hle : j.released ≤ j.accepted.length) (n : Nat) :
    (j.acceptedOver k)[j.released + n]? = k.accepted[n]? := by
  have hlength : (j.accepted.take j.released).length = j.released := List.length_take_of_le hle
  rw [acceptedOver, List.getElem?_append_right (by omega), hlength, Nat.add_sub_cancel_left]

/-- No record is listed twice in the part of the second run. -/
theorem nodup_map_served (h : k.served.Nodup) : (k.served.map (j.released + ·)).Nodup :=
  h.map (fun _ _ => Nat.add_left_cancel)

/-- A run lists each record once, so two runs list it twice at most. -/
theorem count_servedOver_le_two (h : j.served.Nodup) (h' : k.served.Nodup) (n : Nat) :
    (j.servedOver k).count n ≤ 2 := by
  rw [servedOver, List.count_append]
  exact Nat.add_le_add (List.nodup_iff_count_le_one.1 h n)
    (List.nodup_iff_count_le_one.1 (nodup_map_served h') n)

end Journal

namespace Pipeline

/-- The calls of the store in two runs, the second one on the file that the first one has left. -/
structure Resumed (p : Pipeline) (j : Journal) (q : Pipeline) (k : Journal) : Prop where
  /-- Records keep their numbers. -/
  numbered : j.accepted <+: j.acceptedOver k
  /-- Each call is for the record whose number is listed. -/
  calls : List.Forall₂
    (fun w n => ∃ record, (j.acceptedOver k)[n]? = some record ∧ Record.unpack record = .ok w.job)
    (p.ledger.writes ++ q.ledger.writes) (j.servedOver k)
  once : ∀ n, ¬ p.InFlight j n → (j.servedOver k).count n ≤ 1
  /-- The record that was in flight when the first run stopped may be handed over once more. -/
  twice : ∀ n, (j.servedOver k).count n ≤ 2
  nodup : (j.servedOver k).Nodup ↔ ¬ (j.released ∈ j.served ∧ 0 ∈ k.served)

/-! ## Two runs -/

namespace Onward

variable {within : Pipeline → Action → Pipeline → Prop} {p₀ p : Pipeline} {j₀ j : Journal}

/-- Records come in behind those that are there. -/
theorem accepted_prefix (steps : Onward within p₀ j₀ p j) : j₀.accepted <+: j.accepted := by
  induction steps with
  | refl => exact List.prefix_refl _
  | @step p q j a _ _ _ ih =>
    refine ih.trans ?_
    cases a with
    | enqueue command timestamp args => exact List.prefix_append _ _
    | resume => exact List.prefix_append _ _
    | place =>
      simp only [Journal.after]
      split <;> exact List.prefix_refl _
    | _ => exact List.prefix_refl _

end Onward

namespace Followed

variable {limit workers workers' : Nat} {routing routing' : Routing} {p q : Pipeline}
  {j k : Journal} {n : Nat}

/-- What was handed to the store was placed before. -/
theorem lt_or_inFlight (h : Followed limit routing workers p j) (hserved : n ∈ j.served) :
    n < j.released ∨ p.InFlight j n :=
  (placed_iff h.books.custody.placed).1 (h.books.slots.lt_of_mem_served hserved)

/-- What both runs have handed over is the record in flight, the first one of the second run. -/
theorem inFlight_of_both (h : Followed limit routing workers p j)
    (hserved : j.released + n ∈ j.served) : n = 0 ∧ p.InFlight j (j.released + n) := by
  rcases h.lt_or_inFlight hserved with hlt | hflight
  · omega
  · refine ⟨?_, hflight⟩
    have heq := hflight.1
    omega

/-- Every other record is listed in one run only. -/
theorem count_servedOver_le_one (h : Followed limit routing workers p j) (h' : k.served.Nodup)
    (hgrounded : ¬ p.InFlight j n) : (j.servedOver k).count n ≤ 1 := by
  have hfirst := List.nodup_iff_count_le_one.1 h.books.slots.nodup n
  have hsecond := List.nodup_iff_count_le_one.1 (Journal.nodup_map_served (j := j) h') n
  rw [Journal.servedOver, List.count_append]
  by_cases hserved : n ∈ j.served
  · have hnot : n ∉ k.served.map (j.released + ·) := by
      rw [List.mem_map]
      rintro ⟨m, -, rfl⟩
      exact hgrounded (h.inFlight_of_both hserved).2
    rw [List.count_eq_zero.2 hnot]
    exact hfirst
  · rw [List.count_eq_zero.2 hserved, Nat.zero_add]
    exact hsecond

theorem nodup_servedOver_iff (h : Followed limit routing workers p j) (h' : k.served.Nodup) :
    (j.servedOver k).Nodup ↔ ¬ (j.released ∈ j.served ∧ 0 ∈ k.served) := by
  rw [Journal.servedOver, List.nodup_append]
  refine ⟨?_, ?_⟩
  · rintro ⟨-, -, hdisjoint⟩ ⟨hserved, hagain⟩
    exact hdisjoint _ hserved _ (List.mem_map.2 ⟨0, hagain, rfl⟩) rfl
  · intro hnot
    refine ⟨h.books.slots.nodup, Journal.nodup_map_served h', ?_⟩
    rintro n hserved _ hmem rfl
    rcases List.mem_map.1 hmem with ⟨m, hm, rfl⟩
    rcases h.inFlight_of_both hserved with ⟨rfl, -⟩
    exact hnot ⟨hserved, hm⟩

theorem resumed (h : Followed limit routing workers p j)
    (h' : Followed limit routing' workers' q k)
    (hkept : j.accepted.drop j.released <+: k.accepted) : p.Resumed j q k := by
  have hnumbered := Journal.accepted_prefix_acceptedOver hkept
  have hsecond := h'.books.slots.nodup
  refine ⟨hnumbered, List.rel_append ?_ ?_, fun n => h.count_servedOver_le_one hsecond,
    Journal.count_servedOver_le_two h.books.slots.nodup hsecond, h.nodup_servedOver_iff hsecond⟩
  · -- The first run's records keep their numbers.
    refine h.books.slots.calls.imp ?_
    rintro w n ⟨-, record, hrecord, hunpack⟩
    refine ⟨record, ?_, hunpack⟩
    rcases hnumbered with ⟨more, hmore⟩
    rw [← hmore, List.getElem?_append_left (List.getElem?_eq_some_iff.1 hrecord).1, hrecord]
  · refine List.forall₂_map_right_iff.2 (h'.books.slots.calls.imp ?_)
    rintro w n ⟨-, record, hrecord, hunpack⟩
    refine ⟨record, ?_, hunpack⟩
    rw [Journal.getElem?_acceptedOver h.books.custody.released_le, hrecord]

end Followed

/-- Whatever the two runs are, and wherever the first one stops: no record is handed to the store more
than once, but for the one that was in flight, and that one at most twice. -/
theorem resumed_of_onward {hint limit workers workers' : Nat} {routing routing' : Routing}
    {d : Disk} {path : String} {r r' : Ring} {records : List Bytes} {p q : Pipeline} {j k : Journal}
    (hsound : Ring.Sound r records) (hlimit : r.limit = limit)
    (hdecodable : ∀ record ∈ records, Record.Decodable record)
    (first : Onward AnyStep (.ofRing r routing workers limit) { accepted := records } p j)
    (hoffers : d.Offers path p.ring.image)
    (hopen : (d.openRing ⟨hint, limit, some path⟩).1 = .ok r')
    (second : Onward AnyStep (.ofRing r' routing' workers' limit)
      { accepted := j.accepted.drop j.released } q k) :
    p.Resumed j q k := by
  have h := followed_of_onward hsound.gives hlimit hdecodable first
  -- The second process finds what the ring has not given up.
  have hsame : p.ring.limit = limit := h.books.custody.limit_eq
  rw [← hsame] at hopen
  rcases h.books.custody.gives.reopen hoffers hopen with ⟨hgives, hlimit', -⟩
  refine h.resumed (followed_of_onward hgives (hlimit'.trans hsame) ?_ second)
    second.accepted_prefix
  intro record hmem
  exact h.books.custody.decodable record (List.mem_of_mem_drop hmem)

/-! ## Schedules -/

/-- A disk with nothing but a queue file of these bytes. -/
def leftOver (content : Image) : Disk := { files := [("q", content)] }

theorem offers_leftOver (content : Image) : (leftOver content).Offers "q" content :=
  (Disk.hasFile_single content).offers

/-- Carries out steps on a new queue file, stops there, and carries out other steps on the file that is
left. -/
def rerun? (o : Ring.Options) (workers : Nat) (first second : List Action) :
    Option ((Pipeline × Journal) × (Pipeline × Journal)) :=
  match (Ring.attach "q" {} o.requested o.limit).1 with
  | .error _ => none
  | .ok r =>
    ((ofRing r .roundRobin workers o.limit).replay? { accepted := [] } first).bind fun s =>
      match (Ring.attach "q" s.1.ring.image o.requested o.limit).1 with
      | .error _ => none
      | .ok r' =>
        ((ofRing r' .roundRobin workers o.limit).replay?
          { accepted := s.2.accepted.drop s.2.released } second).map fun t => (s, t)

/-- What is seen at the end of two schedules is seen behind two runs on one file. -/
theorem exists_of_rerun (hint limit workers : Nat) (first second : List Action) {α : Type}
    (hcheck : Ring.Options.check ⟨hint, limit, some "q"⟩ = .ok ())
    (f : (Pipeline × Journal) × (Pipeline × Journal) → α) {x : α}
    (h : (rerun? ⟨hint, limit, some "q"⟩ workers first second).map f = some x) :
    ∃ (r r' : Ring) (p q : Pipeline) (j k : Journal),
      ((leftOver {}).openRing ⟨hint, limit, some "q"⟩).1 = .ok r ∧
      Onward AnyStep (.ofRing r .roundRobin workers limit) { accepted := [] } p j ∧
      ((leftOver p.ring.image).openRing ⟨hint, limit, some "q"⟩).1 = .ok r' ∧
      Onward AnyStep (.ofRing r' .roundRobin workers limit)
        { accepted := j.accepted.drop j.released } q k ∧
      f ((p, j), (q, k)) = x := by
  rcases Option.map_eq_some_iff.1 h with ⟨⟨⟨p, j⟩, ⟨q, k⟩⟩, hrerun, hx⟩
  simp only [rerun?] at hrerun
  split at hrerun
  · cases hrerun
  · rename_i r hopen
    rcases Option.bind_eq_some_iff.1 hrerun with ⟨⟨p', j'⟩, hfirst, hrest⟩
    simp only at hrest
    split at hrest
    · cases hrest
    · rename_i r' hopen'
      rcases Option.map_eq_some_iff.1 hrest with ⟨t, hsecond, heq⟩
      cases heq
      have steps : Onward AnyStep _ _ p j := Onward.refl.replay (fun _ _ _ _ => trivial) hfirst
      have steps' : Onward AnyStep _ _ q k := Onward.refl.replay (fun _ _ _ _ => trivial) hsecond
      exact ⟨r, r', p, q, j, k,
        (Ring.openRing_of_offers (offers_leftOver {}) hcheck).trans hopen, steps,
        (Ring.openRing_of_offers (offers_leftOver p.ring.image) hcheck).trans hopen', steps', hx⟩

/-- Two workers.  When the process stops, the first record is in a mailbox and the ring has given it up:
it is never handed over.  The second one is in flight, and is handed over once. -/
theorem resumed_of_onward_unserved :
    ∃ (p q : Pipeline) (j k : Journal), p.Resumed j q k ∧ j.released = 1 ∧
      p.dispatcher.hand.inFlight = 1 ∧ j.servedOver k = [1, 2] ∧
      (p.ledger.jobs ++ q.ledger.jobs).map Job.timestamp = [12, 13] := by
  rcases exists_of_rerun 64 16 2
    [.enqueue .incr 11 [[97]], .enqueue .incr 12 [[98]], .enqueue .incr 13 [[99]],
      .goOn, .look, .place, .release, .goOn, .look, .place]
    [.goOn, .look, .place, .serve 0 true, .release, .goOn, .look, .place, .serve 1 true]
    rfl (fun s => (s.1.2.released, s.1.1.dispatcher.hand.inFlight, s.1.2.servedOver s.2.2,
      (s.1.1.ledger.jobs ++ s.2.1.ledger.jobs).map Job.timestamp))
    (x := (1, 1, [1, 2], [12, 13])) (by decide +kernel) with
    ⟨r, r', p, q, j, k, hopen, first, hopen', second, hseen⟩
  rcases Ring.open_blank (offers_leftOver {}) rfl hopen with ⟨hsound, hlimit, -⟩
  simp only [Prod.mk.injEq] at hseen
  exact ⟨p, q, j, k, resumed_of_onward hsound hlimit (fun _ hmem => nomatch hmem) first
    (offers_leftOver p.ring.image) hopen' second, hseen⟩

/-- One record comes in.  A worker hands it to the store before the ring has given it up; there the
process stops, and the next one finds it in the ring and hands it to the store again. -/
theorem served_twice :
    ∃ (r r' : Ring) (p q : Pipeline) (j k : Journal),
      ((leftOver {}).openRing ⟨64, 16, some "q"⟩).1 = .ok r ∧
      Onward AnyStep (.ofRing r .roundRobin 1 16) { accepted := [] } p j ∧
      ((leftOver p.ring.image).openRing ⟨64, 16, some "q"⟩).1 = .ok r' ∧
      Onward AnyStep (.ofRing r' .roundRobin 1 16)
        { accepted := j.accepted.drop j.released } q k ∧
      (j.acceptedOver k).length = 1 ∧ j.servedOver k = [0, 0] ∧
      p.ledger.jobs = [⟨11, .incr, [[97]]⟩] ∧ q.ledger.jobs = [⟨11, .incr, [[97]]⟩] := by
  rcases exists_of_rerun 64 16 1
    [.enqueue .incr 11 [[97]], .goOn, .look, .place, .serve 0 true]
    [.goOn, .look, .place, .serve 0 true]
    rfl (fun s => ((s.1.2.acceptedOver s.2.2).length, s.1.2.servedOver s.2.2,
      s.1.1.ledger.jobs, s.2.1.ledger.jobs))
    (x := (1, [0, 0], [⟨11, .incr, [[97]]⟩], [⟨11, .incr, [[97]]⟩])) (by decide +kernel) with
    ⟨r, r', p, q, j, k, hopen, first, hopen', second, hseen⟩
  simp only [Prod.mk.injEq] at hseen
  exact ⟨r, r', p, q, j, k, hopen, first, hopen', second, hseen⟩

end Pipeline
end WriteBehind
