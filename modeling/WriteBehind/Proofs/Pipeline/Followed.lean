import WriteBehind.Proofs.Pipeline.Books
import WriteBehind.Proofs.Pipeline.Lanes

/-!
# Following — the lanes of the workers through every step

What was placed is in lanes, one for each worker.

* `Lanes routing workers p j`: each lane is in order, and with key affinity each record is in the lane of its
  key's worker;
* `Followed.step` keeps this beside the books through every step, whatever the counters come to, and
  `followed_of_onward` through every run.
-/

namespace WriteBehind
namespace Pipeline

/-- What was placed is in lanes, and each lane is in order.  With key affinity it is the lane of the
worker that a record's key belongs to. -/
structure Lanes (routing : Routing) (workers : Nat) (p : Pipeline) (j : Journal) : Prop where
  routing_eq : p.dispatcher.routing = routing
  count : p.workers.length = workers
  /-- The record in hand is for the worker that it is routed to, if it is for any one. -/
  holding : ∀ l home, p.dispatcher.hand = .holding l home →
    p.dispatcher.home? l.payload = .ok home
  homed : ∀ k i, j.homes[k]? = some i →
    ∃ job, j.job? k = some job ∧
      (routing = .keyAffinity → i = KeyHash.workerFor job.key workers)
  order : InOrder p.inbox? p.worker? j

namespace Lanes

variable {limit workers : Nat} {routing : Routing} {p q : Pipeline} {j j' : Journal} {i : Nat}

theorem start (r : Ring) (records : List Bytes) (limit : Nat) (routing : Routing) (workers : Nat) :
    Lanes routing workers (.ofRing r routing workers limit) { accepted := records } := by
  refine ⟨rfl, List.length_replicate, ?_, ?_, .start records (inbox?_ofRing r routing workers limit)⟩
  · intro l home hc
    cases hc
  · intro k i hk
    cases hk

/-- A step in front of the mailboxes may bring in records, and keeps all lanes. -/
theorem move (h : Lanes routing workers p j) (hkept : p.BoxesKept q)
    (hrouting : q.dispatcher.routing = p.dispatcher.routing)
    (hholding : ∀ l home, q.dispatcher.hand = .holding l home →
      q.dispatcher.home? l.payload = .ok home)
    (hhomes : j'.homes = j.homes) (hserved : j'.served = j.served) (hslot : j'.slot = j.slot)
    (haccepted : ∃ more, j'.accepted = j.accepted ++ more) : Lanes routing workers q j' := by
  refine ⟨hrouting.trans h.routing_eq, ?_, hholding, ?_, ?_⟩
  · rw [hkept.workers]
    exact h.count
  · intro k i hk
    rw [hhomes] at hk
    rcases h.homed k i hk with ⟨job, hjob, hi⟩
    refine ⟨job, ?_, hi⟩
    -- Its number is a place in the list that was there before.
    rcases Option.bind_eq_some_iff.1 hjob with ⟨record, hrecord, -⟩
    rcases haccepted with ⟨more, hmore⟩
    rw [Journal.job?, hmore, List.getElem?_append_left (List.getElem?_eq_some_iff.1 hrecord).1]
    exact hjob
  · rw [hkept.inbox, hkept.worker]
    exact h.order.congr hhomes hserved hslot

/-- A step that the journal does not note. -/
theorem moveQuietly (h : Lanes routing workers p j) (hkept : p.BoxesKept q)
    (hrouting : q.dispatcher.routing = p.dispatcher.routing)
    (hholding : ∀ l home, q.dispatcher.hand = .holding l home →
      q.dispatcher.home? l.payload = .ok home) : Lanes routing workers q j :=
  h.move hkept hrouting hholding rfl rfl rfl ⟨[], (List.append_nil _).symm⟩

/-- A step of the caller changes nothing but the channel and the scratch buffer. -/
theorem call (h : Lanes routing workers p j) (c : Ring.Channel) (scratch : Bytes) (more : List Bytes) :
    Lanes routing workers { p.setChannel c with scratch } (j.accept more) :=
  h.move (.of_mailboxes rfl rfl rfl rfl rfl) rfl h.holding rfl rfl rfl ⟨more, rfl⟩

/-- A step behind which the dispatcher holds no record. -/
theorem settle (h : Lanes routing workers p j) (hkept : p.BoxesKept q)
    (hrouting : q.dispatcher.routing = p.dispatcher.routing) (hnone : q.dispatcher.hand.lease? = none) :
    Lanes routing workers q j := by
  refine h.moveQuietly hkept hrouting ?_
  intro l home hholding
  rw [hholding] at hnone
  cases hnone

theorem homes_le (h : Lanes routing workers p j) : j.homes.length ≤ j.accepted.length := by
  refine Nat.le_of_not_lt ?_
  intro hlt
  -- The last record that was placed is one that came in.
  have hlast := List.getElem?_eq_getElem (l := j.homes) (i := j.homes.length - 1) (by omega)
  rcases h.homed _ _ hlast with ⟨job, hjob, -⟩
  rcases Option.bind_eq_some_iff.1 hjob with ⟨record, hrecord, -⟩
  have hle := (List.getElem?_eq_some_iff.1 hrecord).1
  omega

/-! ## The workers -/

theorem serve (h : Lanes routing workers p j) (hbooks : Books limit p j) {record : Bytes} (ledger : Ledger)
    (hready : p.worker? i = some .ready) (hrecord : p.inbox? i = some record) :
    Lanes routing workers { p.setWorker i .served with ledger } (j.serve i) := by
  have hidle : p.worker? i ≠ some .served := by
    rw [hready]
    exact fun hc => nomatch hc
  have hoccupied : p.inbox? i ≠ none := by
    rw [hrecord]
    exact Option.some_ne_none record
  have hhome := (hbooks.slots.carried i record hrecord).1
  rcases worker?_setWorker (lt_of_worker? hready) .served with ⟨hself, hother⟩
  exact ⟨h.routing_eq, (List.length_set ..).trans h.count, h.holding, h.homed,
    h.order.serve hoccupied hidle hhome hself hother⟩

theorem free (h : Lanes routing workers p j) (hserved : p.worker? i = some .served) :
    Lanes routing workers ((p.clearMailbox i).setWorker i .ready) j := by
  have hi : i < (p.clearMailbox i).workers.length := lt_of_worker? hserved
  rcases inbox?_clearMailbox p i with ⟨hfreed, hinbox⟩
  rcases worker?_setWorker hi .ready with ⟨hself, hother⟩
  refine ⟨h.routing_eq, (List.length_set ..).trans h.count, ?_, h.homed,
    h.order.free hserved hfreed hinbox hother⟩
  -- The number of mailboxes is what it was.
  intro l home hholding
  have hhome := h.holding l home hholding
  simp only [Dispatcher.home?, setWorker, clearMailbox, List.length_modify] at hhome ⊢
  exact hhome

/-- A worker that has not called the store goes on. -/
theorem turn (h : Lanes routing workers p j) {w w' : Worker} (hworker : p.worker? i = some w)
    (hidle : w ≠ .served) (hidle' : w' ≠ .served) (looked : Nat → Nat) :
    Lanes routing workers (p.setWorker i w') { j with looked } := by
  have hserved := served_setWorker hworker hidle hidle'
  exact ⟨h.routing_eq, (List.length_set ..).trans h.count, h.holding, h.homed,
    (h.order.move hserved).congr rfl rfl rfl⟩

/-! ## The dispatcher -/

/-- What a look takes in hand is for the worker that it is routed to. -/
theorem look (h : Lanes routing workers p j) (hbooks : Books limit p j) :
    Lanes routing workers { p with dispatcher := p.dispatcher.look.2 } j := by
  rcases hbooks.look_cases with ⟨fault, -, hlook⟩ | ⟨-, hlook⟩ | ⟨l, home, -, hhome, hlook⟩ <;> rw [hlook]
  · exact h.settle (.of_mailboxes rfl rfl rfl rfl rfl) rfl rfl
  · exact h.settle (.of_mailboxes rfl rfl rfl rfl rfl) rfl rfl
  · refine h.moveQuietly (.of_mailboxes rfl rfl rfl rfl rfl) rfl ?_
    rintro l' home' ⟨⟩
    exact hhome

/-- The record in hand goes into the mailbox of its key's worker. -/
theorem place (h : Lanes routing workers p j) (hbooks : Books limit p j) {l : Ring.Lease}
    {home : Option Nat} {result : Except Fault Unit} (hholding : p.dispatcher.hand = .holding l home)
    (hresult : (p.dispatcher.place l home).1 = some result) :
    Lanes routing workers { p with dispatcher := (p.dispatcher.place l home).2 }
      (j.after p .place { p with dispatcher := (p.dispatcher.place l home).2 }) := by
  rcases hbooks.fills hholding hresult with ⟨w, hcandidate, -, hnumber, hidle, hfilled, hfills⟩
  have hafter : j.after p .place { p with dispatcher := (p.dispatcher.place l home).2 } =
      j.place w := by
    simp only [Journal.after, hfills.hand]
  rw [hafter]
  generalize (p.dispatcher.place l home).2 = d at hfilled hfills ⊢
  refine ⟨hfills.routing.trans h.routing_eq, h.count, ?_, ?_,
    h.order.place (fun k hmem => hbooks.slots.lt_of_mem_served hmem) hfills.free hfilled hidle
      hfills.other⟩
  · intro l' home' hc
    cases hfills.hand.symm.trans hc
  · intro k i hki
    by_cases hlast : k < j.homes.length
    · rw [Journal.place, List.getElem?_append_left hlast] at hki
      exact h.homed k i hki
    · -- The candidate is the worker of the key that was looked at.
      have hk : k = j.homes.length := by
        have hlt := (List.getElem?_eq_some_iff.1 hki).1
        simp only [Journal.place, List.length_append, List.length_singleton] at hlt
        omega
      subst hk
      simp only [Journal.place, List.getElem?_concat_length, Option.some.injEq] at hki
      subst hki
      rcases hbooks.custody.decodable _ (List.mem_of_getElem? hnumber) with ⟨job, hunpack⟩
      refine ⟨job, ?_, ?_⟩
      · show j.job? j.homes.length = some job
        simp only [Journal.job?, hnumber, Option.bind_some, hunpack, Except.toOption]
      · intro haffinity
        have hhome := h.holding l home hholding
        simp only [Dispatcher.home?, h.routing_eq, haffinity, Record.peekKey_of_unpack hunpack,
          Except.ok.injEq, ← hbooks.shaped.length_eq, h.count] at hhome
        rw [← hhome] at hcandidate
        simp only [Dispatcher.candidate?] at hcandidate
        split at hcandidate
        · exact (Option.some.inj hcandidate).symm
        · cases hcandidate

end Lanes

/-! ## Every step -/

/-- The books are right, and the lanes are in order. -/
structure Followed (limit : Nat) (routing : Routing) (workers : Nat) (p : Pipeline) (j : Journal) :
    Prop where
  books : Books limit p j
  lanes : Lanes routing workers p j

namespace Followed

variable {limit workers : Nat} {routing : Routing} {p q : Pipeline} {j : Journal}

/-- The lanes are kept by every step that is possible. -/
theorem lanes_step (h : Followed limit routing workers p j) {a : Action} (hact : p.act? a = some q) :
    Lanes routing workers q (j.after p a q) := by
  have hlanes := h.lanes
  cases (does_of_act? hact).2 with
  | enqueue command timestamp args _ =>
    rcases p.exists_enqueue command timestamp args with ⟨c, scratch, henqueue⟩
    rw [henqueue]
    exact hlanes.call c scratch _
  | resume => exact hlanes.call p.channel.resume.2 p.scratch _
  | raiseStop | wait | readRing | readMailbox =>
    exact hlanes.moveQuietly (.of_mailboxes rfl rfl rfl rfl rfl) rfl hlanes.holding
  | raiseWorkersStop => exact ⟨hlanes.routing_eq, hlanes.count, hlanes.holding, hlanes.homed, hlanes.order⟩
  | goOn | giveUp => exact hlanes.settle (.of_mailboxes rfl rfl rfl rfl rfl) rfl rfl
  | look | lookFails => exact hlanes.look h.books
  | lookPanics => exact (hlanes.look h.books).settle (.of_mailboxes rfl rfl rfl rfl rfl) rfl rfl
  | lookAborts =>
    have hlooked := hlanes.look h.books
    exact hlooked.moveQuietly (.of_mailboxes rfl rfl rfl rfl rfl) rfl hlooked.holding
  | place hholding hplace => exact hlanes.place h.books hholding hplace
  | @release l _ _ =>
    refine hlanes.move (.of_mailboxes ?_ rfl rfl ?_ rfl) ?_ ?_ rfl rfl rfl
      ⟨[], (List.append_nil _).symm⟩
    all_goals simp only [Dispatcher.release, Dispatcher.setRing, reduceCtorEq, false_implies, implies_true]
  | leave => exact hlanes.settle p.boxesKept_leave rfl rfl
  | serve hready hrecord => exact hlanes.serve h.books _ hready hrecord
  | serveAborts _ hrecord hunpack =>
    -- Only records that can be decoded come into the ring.
    rcases h.books.decodable_inbox hrecord with ⟨job, hjob⟩
    cases hjob.symm.trans hunpack
  | free hserved => exact hlanes.free hserved
  | findEmpty hready => exact hlanes.turn hready (by decide) (by decide) _
  | checkStop hfound =>
    refine hlanes.turn hfound (by decide) ?_ j.looked
    split <;> decide

/-- Every step that is possible is followed. -/
theorem step (h : Followed limit routing workers p j) {a : Action} (hact : p.act? a = some q) :
    Followed limit routing workers q (j.after p a q) :=
  ⟨h.books.step hact, h.lanes_step hact⟩

end Followed

/-- Every run on a ring of decodable records is followed, whatever its steps are. -/
theorem followed_of_onward {limit workers : Nat} {routing : Routing} {r : Ring}
    {records : List Bytes} {p : Pipeline} {j : Journal} {within : Pipeline → Action → Pipeline → Prop}
    (hgives : Ring.Gives r records) (hlimit : r.limit = limit)
    (hdecodable : ∀ record ∈ records, Record.Decodable record)
    (steps : Onward within (.ofRing r routing workers limit) { accepted := records } p j) :
    Followed limit routing workers p j :=
  steps.keeps ⟨.start hgives hlimit hdecodable routing workers, .start r records limit routing workers⟩
    fun h _ hact => h.step hact

end Pipeline
end WriteBehind
