import Mathlib.Data.List.Induction
import WriteBehind.Proofs.Pipeline.Slots

/-!
# Lanes — each worker gets its records one after the other

The records that are placed for one worker are its lane.  There is one mailbox, so they are handed to
the store in the order in which they were placed.

* `Journal.lane` and `Journal.servedIn` are the lane of a worker and the part of it that was handed over;
* `InOrder inbox worker j` says that this part, with the record in the mailbox, is all of the lane;
* `InOrder.place`, `InOrder.serve`, `InOrder.free` and `InOrder.move` keep it through the steps that
  concern mailboxes and workers;
* `keyed_prefix`: where all jobs of one kind are in one lane, the calls for them are a prefix of what
  came in.
-/

namespace WriteBehind

namespace Journal

/-- The numbers of the records that were placed for a worker, in order. -/
def lane (j : Journal) (i : Nat) : List Nat :=
  (List.range j.homes.length).filter fun k => j.homes[k]? == some i

/-- Those of them that were handed to the store, in the order of the calls. -/
def servedIn (j : Journal) (i : Nat) : List Nat := j.served.filter fun k => j.homes[k]? == some i

/-- The job of record `k`. -/
def job? (j : Journal) (k : Nat) : Option Job :=
  j.accepted[k]?.bind fun record => (Record.unpack record).toOption

/-- The commands that came in, in order. -/
def jobs (j : Journal) : List Job :=
  j.accepted.filterMap fun record => (Record.unpack record).toOption

/-! ## Lanes that grow -/

section Growing

variable {j : Journal} {w i : Nat}

theorem lane_place : (j.place w).lane i = j.lane i ++ if i = w then [j.homes.length] else [] := by
  have hold : (List.range j.homes.length).filter (fun k => (j.homes ++ [w])[k]? == some i) =
      j.lane i := by
    refine List.filter_congr ?_
    intro k hk
    rw [List.getElem?_append_left (List.mem_range.1 hk)]
  simp only [lane, place, List.length_append, List.length_singleton, List.range_succ,
    List.filter_append, List.filter_singleton, List.getElem?_concat_length]
  rw [hold]
  congr 1
  by_cases hi : i = w
  · simp only [hi, beq_self_eq_true, if_true]
    rfl
  · have hne : (some w == some i) = false := by
      rw [beq_eq_false_iff_ne]
      exact fun hc => hi (Option.some.inj hc).symm
    rw [hne, if_neg hi]
    rfl

theorem servedIn_place (hlt : ∀ k ∈ j.served, k < j.homes.length) :
    (j.place w).servedIn i = j.servedIn i := by
  refine List.filter_congr ?_
  intro k hk
  show ((j.homes ++ [w])[k]? == some i) = _
  rw [List.getElem?_append_left (hlt k hk)]

theorem servedIn_serve (hhome : j.homes[j.slot w]? = some w) :
    (j.serve w).servedIn i = j.servedIn i ++ if i = w then [j.slot w] else [] := by
  simp only [servedIn, serve, List.filter_append, List.filter_singleton, hhome]
  congr 1
  by_cases hi : i = w
  · simp only [hi, beq_self_eq_true, if_true]
    rfl
  · have hne : (some w == some i) = false := by
      rw [beq_eq_false_iff_ne]
      exact fun hc => hi (Option.some.inj hc).symm
    rw [hne, if_neg hi]
    rfl

end Growing

end Journal

/-! ## Order within lanes -/

/-- The record in a worker's mailbox, if it is still to be handed to the store. -/
def pending (inbox : Nat → Option Bytes) (worker : Nat → Option Worker) (j : Journal) (i : Nat) :
    List Nat :=
  if inbox i ≠ none ∧ worker i ≠ some .served then [j.slot i] else []

/-- Each lane has been handed to the store in order, up to the record in the mailbox. -/
def InOrder (inbox : Nat → Option Bytes) (worker : Nat → Option Worker) (j : Journal) : Prop :=
  ∀ i, j.servedIn i ++ pending inbox worker j i = j.lane i

namespace InOrder

variable {inbox inbox' : Nat → Option Bytes} {worker worker' : Nat → Option Worker} {j : Journal}
  {i : Nat}

theorem servedIn_prefix (h : InOrder inbox worker j) (i : Nat) : j.servedIn i <+: j.lane i :=
  ⟨_, h i⟩

theorem start (records : List Bytes) (hinbox : ∀ i, inbox i = none) :
    InOrder inbox worker { accepted := records } := by
  intro i
  rw [pending, if_neg]
  · rfl
  · exact fun hc => hc.1 (hinbox i)

theorem congr (h : InOrder inbox worker j) {j' : Journal} (hhomes : j'.homes = j.homes)
    (hserved : j'.served = j.served) (hslot : j'.slot = j.slot) : InOrder inbox worker j' := by
  intro i
  simp only [Journal.servedIn, Journal.lane, pending, hhomes, hserved, hslot]
  exact h i

/-- The next record goes into the free mailbox of worker `i`: it comes last in the lane. -/
theorem place (h : InOrder inbox worker j) (hlt : ∀ k ∈ j.served, k < j.homes.length)
    (hfree : inbox i = none) (hfilled : inbox' i ≠ none) (hidle : worker i ≠ some .served)
    (hother : ∀ k, k ≠ i → inbox' k = inbox k) : InOrder inbox' worker (j.place i) := by
  intro n
  have hbefore := h n
  rw [Journal.lane_place, Journal.servedIn_place hlt]
  by_cases hn : n = i
  · subst hn
    have hnone : pending inbox worker j n = [] := if_neg fun hc => hc.1 hfree
    rw [hnone, List.append_nil] at hbefore
    rw [hbefore, if_pos rfl, pending, if_pos ⟨hfilled, hidle⟩]
    simp only [Journal.place, if_true]
  · simp only [pending, Journal.place, if_neg hn, hother n hn, List.append_nil] at hbefore ⊢
    exact hbefore

/-- The record in a mailbox is handed to the store. -/
theorem serve (h : InOrder inbox worker j) (hoccupied : inbox i ≠ none)
    (hidle : worker i ≠ some .served) (hhome : j.homes[j.slot i]? = some i)
    (hself : worker' i = some .served) (hother : ∀ k, k ≠ i → worker' k = worker k) :
    InOrder inbox worker' (j.serve i) := by
  intro n
  have hbefore := h n
  rw [Journal.servedIn_serve hhome]
  show _ = j.lane n
  by_cases hn : n = i
  · subst hn
    have hone : pending inbox worker j n = [j.slot n] := if_pos ⟨hoccupied, hidle⟩
    have hnone : pending inbox worker' (j.serve n) n = [] := if_neg fun hc => hc.2 hself
    rw [hnone, if_pos rfl, List.append_nil, ← hbefore, hone]
  · rw [if_neg hn, List.append_nil, ← hbefore]
    simp only [pending, Journal.serve, hother n hn]

/-- A mailbox is freed once its record was handed over. -/
theorem free (h : InOrder inbox worker j) (hserved : worker i = some .served)
    (hfreed : inbox' i = none) (hinbox : ∀ k, k ≠ i → inbox' k = inbox k)
    (hother : ∀ k, k ≠ i → worker' k = worker k) : InOrder inbox' worker' j := by
  intro n
  have hbefore := h n
  by_cases hn : n = i
  · -- Nothing was pending, and nothing is.
    subst hn
    have hnone : pending inbox worker j n = [] := if_neg fun hc => hc.2 hserved
    have hnone' : pending inbox' worker' j n = [] := if_neg fun hc => hc.1 hfreed
    rw [hnone] at hbefore
    rw [hnone', hbefore]
  · simp only [pending, hinbox n hn, hother n hn] at hbefore ⊢
    exact hbefore

/-- A worker goes on without having called the store. -/
theorem move (h : InOrder inbox worker j)
    (hsame : ∀ k, worker' k = some .served ↔ worker k = some .served) : InOrder inbox worker' j := by
  intro n
  have hbefore := h n
  simp only [pending, ne_eq, hsame n] at hbefore ⊢
  exact hbefore

end InOrder

/-! ## Jobs of one kind -/

/-- A list is met place by place. -/
theorem filterMap_range {α β : Type} (l : List α) (f : α → Option β) :
    (List.range l.length).filterMap (fun k => l[k]?.bind f) = l.filterMap f := by
  induction l using List.reverseRecOn with
  | nil => rfl
  | append_singleton l x ih =>
    have hinit : (List.range l.length).filterMap (fun k => (l ++ [x])[k]?.bind f) =
        (List.range l.length).filterMap (fun k => l[k]?.bind f) := by
      refine List.filterMap_congr ?_
      intro k hk
      rw [List.getElem?_append_left (List.mem_range.1 hk)]
    rw [List.length_append, List.length_singleton, List.range_succ, List.filterMap_append, hinit, ih,
      List.filterMap_append]
    congr 1
    simp only [List.filterMap_cons, List.filterMap_nil, List.getElem?_concat_length,
      Option.bind_some]

theorem Journal.jobs_eq (j : Journal) : j.jobs = (List.range j.accepted.length).filterMap j.job? :=
  (filterMap_range j.accepted _).symm

/-- The jobs that were handed to the store are those of the records that were. -/
theorem jobs_of_calls {j : Journal} {writes : List Write} {served : List Nat}
    (h : List.Forall₂ j.Calls writes served) : writes.map Write.job = served.filterMap j.job? := by
  induction h with
  | nil => rfl
  | cons hcall _ ih =>
    rcases hcall with ⟨-, record, hrecord, hunpack⟩
    rw [List.map_cons, ih, List.filterMap_cons_some]
    simp only [Journal.job?, hrecord, Option.bind_some, hunpack, Except.toOption]

/-- Where all jobs of one kind are in the lane of one worker, the calls for them are a prefix of those
that came in. -/
theorem keyed_prefix {inbox : Nat → Option Bytes} {worker : Nat → Option Worker}
    {writes : List Write} {j : Journal} (hslots : Slots inbox worker writes j)
    (horder : InOrder inbox worker j) (hle : j.homes.length ≤ j.accepted.length) {i : Nat}
    {kind : Job → Bool}
    (hlane : ∀ k job, k < j.homes.length → j.job? k = some job → kind job = true →
      j.homes[k]? = some i) :
    (writes.map Write.job).filter kind <+: j.jobs.filter kind := by
  -- Other lanes have no such job, so it makes no difference whether they are looked at.
  have hskip : ∀ l : List Nat, (∀ k ∈ l, k < j.homes.length) →
      (l.filter fun k => j.homes[k]? == some i).filterMap
          (fun k => (j.job? k).filter kind) =
        l.filterMap fun k => (j.job? k).filter kind := by
    intro l hl
    rw [List.filterMap_filter]
    refine List.filterMap_congr ?_
    intro k hk
    split
    · rfl
    · rename_i hother
      symm
      rw [Option.filter_eq_none_iff]
      intro job hjob hkind
      exact hother (beq_iff_eq.2 (hlane k job (hl k hk) hjob hkind))
  have hserved : (writes.map Write.job).filter kind =
      (j.servedIn i).filterMap fun k => (j.job? k).filter kind := by
    rw [jobs_of_calls hslots.calls, List.filter_filterMap]
    exact (hskip j.served fun k hk => hslots.lt_of_mem_served hk).symm
  have hplaced : (j.lane i).filterMap (fun k => (j.job? k).filter kind) =
      (List.range j.homes.length).filterMap fun k => (j.job? k).filter kind :=
    hskip _ fun k hk => List.mem_range.1 hk
  rw [hserved, j.jobs_eq, List.filter_filterMap]
  refine ((horder.servedIn_prefix i).filterMap _).trans ?_
  -- What was placed is the front of what came in.
  rw [hplaced]
  obtain ⟨rest, hrest⟩ := Nat.exists_eq_add_of_le hle
  rw [hrest, List.range_add]
  exact (List.prefix_append _ _).filterMap _

end WriteBehind
