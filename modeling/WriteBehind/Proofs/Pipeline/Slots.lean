import Mathlib.Data.List.Forall2
import WriteBehind.Proofs.Pipeline.Journal

/-!
# Slots — where the records are that have left the dispatcher

`Slots inbox worker writes j` ties the contents of the mailboxes, what the workers are about and the
calls of the store to the journal.  It is stated for any such functions, and kept by

* `Slots.place`, a record put into a free mailbox;
* `Slots.serve`, the record in a mailbox handed to the store;
* `Slots.free`, a mailbox freed after the store has answered;
* `Slots.move`, a worker that goes from one look to the next.

`unserved` counts the mailboxes whose record was not handed to the store.
-/

namespace WriteBehind

/-- A call of the store was made for the record of this number, by the worker that had it. -/
def Journal.Calls (j : Journal) (w : Write) (k : Nat) : Prop :=
  j.homes[k]? = some w.worker ∧
    ∃ record, j.accepted[k]? = some record ∧ Record.unpack record = .ok w.job

/-- Mailboxes, workers and store agree with the journal. -/
structure Slots (inbox : Nat → Option Bytes) (worker : Nat → Option Worker) (writes : List Write)
    (j : Journal) : Prop where
  /-- A mailbox holds the record that it got last. -/
  carried : ∀ i record, inbox i = some record →
    j.homes[j.slot i]? = some i ∧ j.accepted[j.slot i]? = some record
  /-- A worker that waits to free its mailbox has handed the record to the store. -/
  busy : ∀ i, worker i = some .served → inbox i ≠ none ∧ j.slot i ∈ j.served
  /-- Other records in mailboxes have not been handed to the store. -/
  waiting : ∀ i, inbox i ≠ none → worker i ≠ some .served → j.slot i ∉ j.served
  /-- No record is lost on the way. -/
  settled : ∀ k i, j.homes[k]? = some i → k ∈ j.served ∨ inbox i ≠ none ∧ j.slot i = k
  nodup : j.served.Nodup
  calls : List.Forall₂ j.Calls writes j.served

namespace Slots

variable {inbox inbox' : Nat → Option Bytes} {worker worker' : Nat → Option Worker}
  {writes : List Write} {j : Journal}

theorem lt_of_mem_served (h : Slots inbox worker writes j) {k : Nat} (hk : k ∈ j.served) :
    k < j.homes.length := by
  rcases List.mem_iff_getElem.1 hk with ⟨n, hn, rfl⟩
  -- The call that was made for it names its home.
  have hlength := h.calls.length_eq
  have hcall := h.calls.get (i := n) (by omega) hn
  exact (List.getElem?_eq_some_iff.1 hcall.1).1

theorem slot_lt (h : Slots inbox worker writes j) {i : Nat} (hi : inbox i ≠ none) :
    j.slot i < j.homes.length := by
  rcases Option.ne_none_iff_exists'.1 hi with ⟨record, hrecord⟩
  exact (List.getElem?_eq_some_iff.1 (h.carried i record hrecord).1).1

/-- Two mailboxes never hold the same record. -/
theorem slot_inj (h : Slots inbox worker writes j) {i i' : Nat} (hi : inbox i ≠ none)
    (hi' : inbox i' ≠ none) (heq : j.slot i = j.slot i') : i = i' := by
  rcases Option.ne_none_iff_exists'.1 hi with ⟨record, hrecord⟩
  rcases Option.ne_none_iff_exists'.1 hi' with ⟨record', hrecord'⟩
  have hhome := (h.carried i record hrecord).1
  have hhome' := (h.carried i' record' hrecord').1
  -- A record has one home.
  rw [heq, hhome'] at hhome
  exact (Option.some.inj hhome).symm

theorem start (records : List Bytes) (hinbox : ∀ i, inbox i = none)
    (hworker : ∀ i, worker i ≠ some .served) : Slots inbox worker [] { accepted := records } := by
  refine ⟨?_, ?_, ?_, ?_, List.nodup_nil, .nil⟩
  · intro i record hrecord
    cases (hinbox i).symm.trans hrecord
  · intro i hi
    exact absurd hi (hworker i)
  · intro i hi _
    exact absurd (hinbox i) hi
  · intro k i hk
    cases hk

/-- What comes into the ring, and what it gives up, changes nothing for the records that have left
it. -/
theorem congr (h : Slots inbox worker writes j) {j' : Journal} (hhomes : j'.homes = j.homes)
    (hserved : j'.served = j.served) (hslot : j'.slot = j.slot)
    (haccepted : ∃ more, j'.accepted = j.accepted ++ more) : Slots inbox worker writes j' := by
  rcases haccepted with ⟨more, haccepted⟩
  -- Numbers are places in the list, and the list only grows at its end.
  have hkept : ∀ {k : Nat} {record : Bytes}, j.accepted[k]? = some record →
      j'.accepted[k]? = some record := by
    intro k record hk
    rw [haccepted, List.getElem?_append_left (List.getElem?_eq_some_iff.1 hk).1, hk]
  refine ⟨?_, ?_, ?_, ?_, ?_, ?_⟩
  · intro i record hrecord
    rcases h.carried i record hrecord with ⟨hhome, hnumber⟩
    rw [hhomes, hslot]
    exact ⟨hhome, hkept hnumber⟩
  · rw [hslot, hserved]
    exact h.busy
  · rw [hslot, hserved]
    exact h.waiting
  · rw [hhomes, hslot, hserved]
    exact h.settled
  · rw [hserved]
    exact h.nodup
  · rw [hserved]
    refine h.calls.imp ?_
    rintro w k ⟨hhome, record, hnumber, hunpack⟩
    refine ⟨?_, record, hkept hnumber, hunpack⟩
    rw [hhomes]
    exact hhome

/-- The next record goes into a free mailbox. -/
theorem place (h : Slots inbox worker writes j) {w : Nat} {record : Bytes} (hfree : inbox w = none)
    (haccepted : j.accepted[j.homes.length]? = some record) (hself : inbox' w = some record)
    (hother : ∀ i, i ≠ w → inbox' i = inbox i) : Slots inbox' worker writes (j.place w) := by
  have hkept : ∀ {k i : Nat}, j.homes[k]? = some i → (j.homes ++ [w])[k]? = some i := by
    intro k i hk
    rw [List.getElem?_append_left (List.getElem?_eq_some_iff.1 hk).1, hk]
  -- A worker that still has to free its mailbox has a record in it.
  have hidle : worker w ≠ some .served := by
    intro hserved
    exact (h.busy w hserved).1 hfree
  refine ⟨?_, ?_, ?_, ?_, h.nodup, ?_⟩
  · intro i other hother'
    by_cases hi : i = w
    · subst hi
      rw [hself, Option.some.injEq] at hother'
      subst hother'
      simp only [Journal.place, if_true]
      exact ⟨List.getElem?_concat_length, haccepted⟩
    · rw [hother i hi] at hother'
      rcases h.carried i other hother' with ⟨hhome, hrecord⟩
      simp only [Journal.place, if_neg hi]
      exact ⟨hkept hhome, hrecord⟩
  · intro i hserved
    have hi : i ≠ w := by
      rintro rfl
      exact hidle hserved
    rw [hother i hi]
    simp only [Journal.place, if_neg hi]
    exact h.busy i hserved
  · intro i hoccupied hidle'
    by_cases hi : i = w
    · -- Its number is new.
      simp only [Journal.place, if_pos hi]
      intro hmem
      exact Nat.lt_irrefl _ (h.lt_of_mem_served hmem)
    · rw [hother i hi] at hoccupied
      simp only [Journal.place, if_neg hi]
      exact h.waiting i hoccupied hidle'
  · intro k i hk
    by_cases hlast : k < j.homes.length
    · simp only [Journal.place] at hk ⊢
      rw [List.getElem?_append_left hlast] at hk
      rcases h.settled k i hk with hserved | ⟨hoccupied, hslot⟩
      · exact .inl hserved
      · -- The mailbox was occupied, so it is not the one that was filled.
        have hi : i ≠ w := by
          rintro rfl
          exact hoccupied hfree
        refine .inr ⟨?_, ?_⟩
        · rwa [hother i hi]
        · rwa [if_neg hi]
    · -- The record that was placed is in its mailbox.
      have hk' : k = j.homes.length := by
        have hlt := (List.getElem?_eq_some_iff.1 hk).1
        simp only [Journal.place, List.length_append, List.length_singleton] at hlt
        omega
      subst hk'
      simp only [Journal.place, List.getElem?_concat_length, Option.some.injEq] at hk
      subst hk
      refine .inr ⟨?_, if_pos rfl⟩
      rw [hself]
      exact Option.some_ne_none record
  · refine h.calls.imp ?_
    rintro call k ⟨hhome, hrecord⟩
    exact ⟨hkept hhome, hrecord⟩

/-- The record in a mailbox is handed to the store, which answers. -/
theorem serve (h : Slots inbox worker writes j) {i : Nat} {record : Bytes} {job : Job}
    (hrecord : inbox i = some record) (hidle : worker i ≠ some .served)
    (hunpack : Record.unpack record = .ok job) (hself : worker' i = some .served)
    (hother : ∀ k, k ≠ i → worker' k = worker k) (accepted : Bool) :
    Slots inbox worker' (writes ++ [⟨i, job, accepted⟩]) (j.serve i) := by
  have hoccupied : inbox i ≠ none := by
    rw [hrecord]
    exact Option.some_ne_none record
  have hnew := h.waiting i hoccupied hidle
  rcases h.carried i record hrecord with ⟨hhome, haccepted⟩
  refine ⟨h.carried, ?_, ?_, ?_, ?_, ?_⟩
  · intro k hserved
    by_cases hk : k = i
    · subst hk
      exact ⟨hoccupied, List.mem_append_right _ (List.mem_singleton_self _)⟩
    · rw [hother k hk] at hserved
      rcases h.busy k hserved with ⟨hk', hmem⟩
      exact ⟨hk', List.mem_append_left _ hmem⟩
  · intro k hk hidle'
    have hne : k ≠ i := by
      rintro rfl
      exact hidle' hself
    rw [hother k hne] at hidle'
    simp only [Journal.serve, List.mem_append, List.mem_singleton, not_or]
    refine ⟨h.waiting k hk hidle', ?_⟩
    -- Another mailbox would hold the same record.
    intro heq
    exact hne (h.slot_inj hk hoccupied heq)
  · intro k w hk
    rcases h.settled k w hk with hserved | hrest
    · exact .inl (List.mem_append_left _ hserved)
    · exact .inr hrest
  · refine List.nodup_append.2 ⟨h.nodup, List.pairwise_singleton _ _, ?_⟩
    -- The worker had not handed it over before.
    intro k hk other hmem heq
    rw [List.mem_singleton] at hmem
    rw [heq, hmem] at hk
    exact hnew hk
  · exact List.rel_append h.calls (.cons ⟨hhome, record, haccepted, hunpack⟩ .nil)

/-- A mailbox is freed once its record was handed to the store. -/
theorem free (h : Slots inbox worker writes j) {i : Nat} (hserved : worker i = some .served)
    (hfreed : inbox' i = none) (hinbox : ∀ k, k ≠ i → inbox' k = inbox k)
    (hself : worker' i ≠ some .served) (hother : ∀ k, k ≠ i → worker' k = worker k) :
    Slots inbox' worker' writes j := by
  refine ⟨?_, ?_, ?_, ?_, h.nodup, h.calls⟩
  · intro k record hrecord
    have hk : k ≠ i := by
      rintro rfl
      cases hfreed.symm.trans hrecord
    rw [hinbox k hk] at hrecord
    exact h.carried k record hrecord
  · intro k hk
    have hne : k ≠ i := by
      rintro rfl
      exact hself hk
    rw [hother k hne] at hk
    rw [hinbox k hne]
    exact h.busy k hk
  · intro k hk hidle
    have hne : k ≠ i := by
      rintro rfl
      exact hk hfreed
    rw [hinbox k hne] at hk
    rw [hother k hne] at hidle
    exact h.waiting k hk hidle
  · intro k w hk
    rcases h.settled k w hk with hmem | ⟨hoccupied, hslot⟩
    · exact .inl hmem
    · by_cases hw : w = i
      · -- What leaves its mailbox has been handed to the store.
        subst hw
        rw [← hslot]
        exact .inl (h.busy w hserved).2
      · rw [hinbox w hw]
        exact .inr ⟨hoccupied, hslot⟩

/-- A worker goes on without having called the store. -/
theorem move (h : Slots inbox worker writes j)
    (hsame : ∀ k, worker' k = some .served ↔ worker k = some .served) :
    Slots inbox worker' writes j := by
  refine ⟨h.carried, ?_, ?_, h.settled, h.nodup, h.calls⟩
  · intro k hk
    exact h.busy k ((hsame k).1 hk)
  · intro k hk hidle
    exact h.waiting k hk (fun hc => hidle ((hsame k).2 hc))

end Slots
/-! ## Counting -/

/-- The mailboxes among the first `n` whose record was not handed to the store. -/
def unserved (inbox : Nat → Option Bytes) (worker : Nat → Option Worker) (n : Nat) : Nat :=
  (List.range n).countP fun i => decide (inbox i ≠ none ∧ worker i ≠ some .served)

/-- One place more is counted where a predicate comes to hold at one place. -/
theorem countP_range_update {p q : Nat → Bool} {n i : Nat} (hi : i < n) (hp : p i = false)
    (hq : q i = true) (hother : ∀ k, k ≠ i → q k = p k) :
    (List.range n).countP q = (List.range n).countP p + 1 := by
  induction n with
  | zero => omega
  | succ n ih =>
    -- Either the place is the last one, or the last one counts alike.
    simp only [List.range_succ, List.countP_append, List.countP_singleton]
    by_cases hlast : i = n
    · subst hlast
      have hsame : (List.range i).countP q = (List.range i).countP p := by
        refine List.countP_congr ?_
        intro k hk
        rw [hother k (Nat.ne_of_lt (List.mem_range.1 hk))]
      rw [hsame, hp, hq]
      rfl
    · rw [ih (by omega), hother n (fun hc => hlast hc.symm)]
      omega

section Counting

variable {inbox inbox' : Nat → Option Bytes} {worker worker' : Nat → Option Worker} {n i : Nat}

theorem unserved_congr
    (h : ∀ k, k < n → (inbox' k ≠ none ∧ worker' k ≠ some .served ↔
      inbox k ≠ none ∧ worker k ≠ some .served)) :
    unserved inbox' worker' n = unserved inbox worker n := by
  refine List.countP_congr ?_
  intro k hk
  rw [decide_eq_true_eq, decide_eq_true_eq]
  exact h k (List.mem_range.1 hk)

theorem unserved_place (hi : i < n) (hfree : inbox i = none) (hidle : worker i ≠ some .served)
    (hself : inbox' i ≠ none) (hother : ∀ k, k ≠ i → inbox' k = inbox k) :
    unserved inbox' worker n = unserved inbox worker n + 1 := by
  refine countP_range_update hi ?_ ?_ ?_
  · rw [decide_eq_false_iff_not]
    intro hc
    exact hc.1 hfree
  · exact decide_eq_true ⟨hself, hidle⟩
  · intro k hk
    rw [hother k hk]

theorem unserved_serve (hi : i < n) (hoccupied : inbox i ≠ none) (hidle : worker i ≠ some .served)
    (hself : worker' i = some .served) (hother : ∀ k, k ≠ i → worker' k = worker k) :
    unserved inbox worker n = unserved inbox worker' n + 1 := by
  refine countP_range_update hi ?_ ?_ ?_
  · rw [decide_eq_false_iff_not]
    intro hc
    exact hc.2 hself
  · exact decide_eq_true ⟨hoccupied, hidle⟩
  · intro k hk
    rw [hother k hk]

theorem unserved_free (hserved : worker i = some .served) (hfreed : inbox' i = none)
    (hinbox : ∀ k, k ≠ i → inbox' k = inbox k) (hother : ∀ k, k ≠ i → worker' k = worker k) :
    unserved inbox' worker' n = unserved inbox worker n := by
  refine unserved_congr ?_
  intro k _
  by_cases hk : k = i
  · -- It was not counted before, and it is not counted now.
    subst hk
    constructor
    · intro hc
      exact absurd hfreed hc.1
    · intro hc
      exact absurd hserved hc.2
  · rw [hinbox k hk, hother k hk]

end Counting

end WriteBehind
