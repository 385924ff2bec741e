import WriteBehind.Proofs.Pipeline.Boxes
import WriteBehind.Proofs.Pipeline.Custody
import WriteBehind.Proofs.Pipeline.Slots

/-!
# Books — the whole pipeline agrees with its journal

`Books limit p j` puts together what holds of the ring, of the mailboxes and the store, of the
counters and of the order in which the actors stop.  There is one lemma for each kind of step, and

* `Books.step` keeps it through every step, whatever the counters of the ring come to;
* `books_of_onward` has it for every state that steps lead to from a ring of decodable records;
* `Course.exists_of_replay`: under most record limits every padding fits the dirty size, so that schedules
  of all steps are courses.
-/

namespace WriteBehind

namespace Pipeline

/-- The counters agree with the journal. -/
structure Tallied (p : Pipeline) (j : Journal) : Prop where
  dispatched : p.dispatcher.dispatched = j.homes.length
  answered : p.ledger.written + p.ledger.failed = p.ledger.writes.length
  placed : j.homes.length = j.served.length + unserved p.inbox? p.worker? p.workers.length
  home_lt : ∀ i ∈ j.homes, i < p.workers.length

/-- Workers stop after the dispatcher.  The mailbox of a worker that has found it empty and not looked
again is empty exactly if nothing was placed there since. -/
structure Stopping (p : Pipeline) (j : Journal) : Prop where
  looked_le : ∀ i, j.looked i ≤ j.homes.length
  dispatcher : p.workersStop = true → p.dispatcher.hand = .gone
  worker : ∀ i, p.worker? i = some .gone → p.workersStop = true
  looked : ∀ i, p.worker? i = some .foundEmpty ∨ p.worker? i = some .gone →
    (p.inbox? i = none ↔ ∀ k, j.homes[k]? = some i → k < j.looked i)

/-- The pipeline agrees with its journal. -/
structure Books (limit : Nat) (p : Pipeline) (j : Journal) : Prop where
  custody : Custody limit p.channel p.dispatcher.hand j
  shaped : p.Shaped limit
  slots : Slots p.inbox? p.worker? p.ledger.writes j
  tallied : p.Tallied j
  stopping : p.Stopping j

/-- Where one worker goes on and its mailbox is at most emptied, no other worker stops, and none of the others
finds anything new. -/
theorem Stopping.turn {p q : Pipeline} {j j' : Journal} (h : p.Stopping j) {i : Nat} {w : Worker}
    (hself : q.worker? i = some w) (hother : ∀ k, k ≠ i → q.worker? k = p.worker? k)
    (hinbox : ∀ k, k ≠ i → q.inbox? k = p.inbox? k) (hstop : q.workersStop = p.workersStop)
    (hhand : q.dispatcher.hand = p.dispatcher.hand) (hhomes : j'.homes = j.homes)
    (hle : ∀ k, j'.looked k ≤ j.homes.length) (hsame : ∀ k, k ≠ i → j'.looked k = j.looked k)
    (hgone : w = .gone → p.workersStop = true)
    (hlooked : w = .foundEmpty ∨ w = .gone →
      (q.inbox? i = none ↔ ∀ k, j.homes[k]? = some i → k < j'.looked i)) : q.Stopping j' := by
  refine ⟨?_, ?_, ?_, ?_⟩
  · rw [hhomes]
    exact hle
  · rw [hstop, hhand]
    exact h.dispatcher
  · intro k hk
    rw [hstop]
    by_cases hki : k = i
    · subst hki
      rw [hself, Option.some.injEq] at hk
      exact hgone hk
    · exact h.worker k ((hother k hki).symm.trans hk)
  · intro k hk
    rw [hhomes]
    by_cases hki : k = i
    · subst hki
      rw [hself, Option.some.injEq, Option.some.injEq] at hk
      exact hlooked hk
    · rw [hother k hki] at hk
      rw [hinbox k hki, hsame k hki]
      exact h.looked k hk

/-! ## Steps of the caller and of the dispatcher on the ring -/

namespace Books

variable {limit : Nat} {p q : Pipeline} {j j' : Journal}

/-- A step in front of the mailboxes keeps all that is behind them. -/
theorem move (h : Books limit p j) (hkept : p.BoxesKept q)
    (hcustody : Custody limit q.channel q.dispatcher.hand j')
    (hgone : p.dispatcher.hand = .gone → q.dispatcher.hand = .gone)
    (hhomes : j'.homes = j.homes) (hserved : j'.served = j.served) (hslot : j'.slot = j.slot)
    (hlooked : j'.looked = j.looked) (haccepted : ∃ more, j'.accepted = j.accepted ++ more) :
    Books limit q j' := by
  refine ⟨hcustody, hkept.shaped limit h.shaped, ?_, ⟨?_, ?_, ?_, ?_⟩, ⟨?_, ?_, ?_, ?_⟩⟩
  · rw [hkept.inbox, hkept.worker, hkept.ledger]
    exact h.slots.congr hhomes hserved hslot haccepted
  · rw [hkept.dispatched, hhomes]
    exact h.tallied.dispatched
  · rw [hkept.ledger]
    exact h.tallied.answered
  · rw [hkept.inbox, hkept.worker, hkept.workers, hhomes, hserved]
    exact h.tallied.placed
  · rw [hkept.workers, hhomes]
    exact h.tallied.home_lt
  · rw [hlooked, hhomes]
    exact h.stopping.looked_le
  · rw [hkept.workersStop]
    intro hstop
    exact hgone (h.stopping.dispatcher hstop)
  · rw [hkept.worker, hkept.workersStop]
    exact h.stopping.worker
  · rw [hkept.worker, hkept.inbox, hhomes, hlooked]
    exact h.stopping.looked

/-- A step that the journal does not note. -/
theorem moveQuietly (h : Books limit p j) (hkept : p.BoxesKept q)
    (hcustody : Custody limit q.channel q.dispatcher.hand j)
    (hgone : p.dispatcher.hand = .gone → q.dispatcher.hand = .gone) : Books limit q j :=
  h.move hkept hcustody hgone rfl rfl rfl rfl ⟨[], (List.append_nil _).symm⟩

/-! ## The caller -/

theorem enqueue (h : Books limit p j) {command : Command} {timestamp : Nat} {args : List Bytes}
    (hq : (p.enqueue command timestamp args).2 = q) :
    Books limit q
      (j.accept (Ring.added q.scratch (p.enqueue command timestamp args).1)) := by
  cases hpack : Record.pack command timestamp args p.ring.limit p.scratch with
  | mk result scratch =>
    cases result with
    | error cause =>
      -- Nothing is submitted, and only the scratch buffer has changed.
      simp only [Pipeline.enqueue, hpack] at hq ⊢
      subst hq
      refine h.move (.of_mailboxes rfl rfl rfl rfl rfl) ?_ id rfl rfl rfl rfl ⟨_, rfl⟩
      refine h.custody.congr ?_ rfl rfl
      exact List.append_nil _
    | ok n =>
      -- What was packed can be decoded, and so may come into the ring.
      have hdecodable : Record.Decodable scratch :=
        ⟨_, (Record.pack_eq_ok hpack h.custody.gives.sized.limit_lt).2.2⟩
      simp only [Pipeline.enqueue, hpack] at hq ⊢
      subst hq
      exact h.move (.of_mailboxes rfl rfl rfl rfl rfl) (h.custody.submit hdecodable) id
        rfl rfl rfl rfl ⟨_, rfl⟩

theorem resume (h : Books limit p j) :
    Books limit (p.setChannel p.channel.resume.2) (j.accept p.channel.resumed) :=
  h.move (.of_mailboxes rfl rfl rfl rfl rfl) h.custody.resume id rfl rfl rfl rfl ⟨_, rfl⟩

theorem raiseStop (h : Books limit p j) : Books limit { p with stop := true } j :=
  h.moveQuietly (.of_mailboxes rfl rfl rfl rfl rfl) h.custody id

theorem watch (h : Books limit p j) (w : Watch) : Books limit { p with watch := w } j :=
  h.moveQuietly (.of_mailboxes rfl rfl rfl rfl rfl) h.custody id

theorem abort (h : Books limit p j) (cause : Cause) : Books limit (p.abort cause) j :=
  h.moveQuietly (.of_mailboxes rfl rfl rfl rfl rfl) h.custody id

theorem raiseWorkersStop (h : Books limit p j) (hgone : p.dispatcher.hand = .gone) :
    Books limit { p with workersStop := true } j := by
  refine ⟨h.custody, ⟨h.shaped.length_eq, h.shaped.room⟩, h.slots,
    ⟨h.tallied.dispatched, h.tallied.answered, h.tallied.placed, h.tallied.home_lt⟩,
    ⟨h.stopping.looked_le, fun _ => hgone, fun _ _ => rfl, h.stopping.looked⟩⟩

/-! ## The dispatcher -/

/-- The dispatcher has no record that is in flight, and is about something else. -/
theorem settle (h : Books limit p j) {hand : Hand} (hflight : hand.inFlight = p.dispatcher.hand.inFlight)
    (hnone : hand.lease? = none) (hgone : p.dispatcher.hand ≠ .gone) :
    Books limit { p with dispatcher := { p.dispatcher with hand } } j :=
  h.moveQuietly (.of_mailboxes rfl rfl rfl rfl rfl) (h.custody.settle hflight hnone)
    fun hc => absurd hc hgone

/-- While it waits for a mailbox, the dispatcher counts. -/
theorem wait (h : Books limit p j) : Books limit { p with dispatcher := p.dispatcher.tick } j :=
  h.moveQuietly (.of_mailboxes rfl rfl rfl rfl rfl) h.custody id

/-- What came in can be decoded, so its key can be read. -/
theorem home?_of_pop (h : Books limit p j) {l : Ring.Lease} (hpop : p.ring.pop.1 = .ok (some l)) :
    ∃ home, p.dispatcher.home? l.payload = .ok home := by
  have hhead := (h.custody.gives.pop.2 l hpop).2
  exact home?_eq_ok p.dispatcher
    (h.custody.decodable _ (List.mem_of_mem_drop (List.mem_of_mem_head? hhead)))

/-- A look comes to what the pop has come to. -/
theorem look_cases (h : Books limit p j) :
    (∃ fault, p.ring.pop.1 = .error fault ∧ p.dispatcher.look =
      (.error fault, { p.dispatcher.setRing p.ring.pop.2 with hand := .empty })) ∨
    (p.ring.pop.1 = .ok none ∧ p.dispatcher.look =
      (.ok (), { (p.dispatcher.setRing p.ring.pop.2).tick with hand := .empty })) ∨
    (∃ l home, p.ring.pop.1 = .ok (some l) ∧ p.dispatcher.home? l.payload = .ok home ∧
      p.dispatcher.look =
        (.ok (), { p.dispatcher.setRing p.ring.pop.2 with hand := .holding l home })) := by
  rcases p.dispatcher.look_cases with hfails | hnothing | ⟨l, cause, hpop, hhome, -⟩ | hfinds
  · exact .inl hfails
  · exact .inr (.inl hnothing)
  · rcases h.home?_of_pop hpop with ⟨home, hhome'⟩
    cases hhome'.symm.trans hhome
  · exact .inr (.inr hfinds)

/-- What a look takes in hand is the next record. -/
theorem look (h : Books limit p j) (hreaching : p.dispatcher.hand = .reaching) :
    Books limit { p with dispatcher := p.dispatcher.look.2 } j := by
  have hflight : p.dispatcher.hand.inFlight = 0 := by
    rw [hreaching]
    rfl
  have hgone : ∀ {hand : Hand}, p.dispatcher.hand = .gone → hand = .gone := by
    rw [hreaching]
    intro hand hc
    cases hc
  have hlimit := p.ring.pop_keeps.1
  rcases h.custody.gives.pop with ⟨hgives, hfound⟩
  have hempty : Custody limit { p.channel with ring := p.ring.pop.2 } .empty j :=
    h.custody.find hgives hlimit hflight rfl fun _ hl => nomatch hl
  rcases h.look_cases with ⟨fault, -, hlook⟩ | ⟨-, hlook⟩ | ⟨l, home, hpop, -, hlook⟩ <;> rw [hlook]
  · exact h.moveQuietly (.of_mailboxes rfl rfl rfl rfl rfl) hempty hgone
  · exact h.moveQuietly (.of_mailboxes rfl rfl rfl rfl rfl) hempty hgone
  · refine h.moveQuietly (.of_mailboxes rfl rfl rfl rfl rfl)
      (h.custody.find hgives hlimit hflight rfl ?_) hgone
    rintro l' ⟨⟩
    exact hfound l hpop

/-- What a worker has found stays true of its mailbox when a record is placed. -/
theorem looked_place {inbox inbox' : Nat → Option Bytes} {w i : Nat}
    (hle : j.looked i ≤ j.homes.length) (hself : inbox' w ≠ none)
    (hother : ∀ k, k ≠ w → inbox' k = inbox k)
    (hlooked : inbox i = none ↔ ∀ k, j.homes[k]? = some i → k < j.looked i) :
    inbox' i = none ↔ ∀ k, (j.place w).homes[k]? = some i → k < j.looked i := by
  by_cases hi : i = w
  · -- The record was placed after the worker had found its mailbox empty.
    subst hi
    refine iff_of_false hself ?_
    intro hall
    exact absurd (hall j.homes.length List.getElem?_concat_length) (Nat.not_lt.2 hle)
  · -- Nothing was placed for the other workers.
    rw [hother i hi, hlooked]
    refine forall_congr' ?_
    intro k
    rw [Journal.homes_place_of_ne hi]

/-- Placing the record in hand fills the free mailbox of a worker that has not just called the store, and
the record is the next one that is numbered. -/
theorem fills (h : Books limit p j) {l : Ring.Lease} {home : Option Nat}
    {result : Except Fault Unit} (hholding : p.dispatcher.hand = .holding l home)
    (hresult : (p.dispatcher.place l home).1 = some result) :
    ∃ w, p.dispatcher.candidate? home = some w ∧ result = .ok () ∧
      j.accepted[j.homes.length]? = some l.payload ∧ p.worker? w ≠ some .served ∧
      ({ p with dispatcher := (p.dispatcher.place l home).2 } : Pipeline).inbox? w ≠ none ∧
      p.Fills (p.dispatcher.place l home).2 l w := by
  have hlease : p.dispatcher.hand.lease? = some l := by
    rw [hholding]
    rfl
  rcases h.custody.loan_spec hlease with ⟨hleased, hnonempty, hshort⟩
  rcases fills_of_place h.shaped hleased hnonempty (Nat.le_of_lt hshort) hresult with
    ⟨w, hcandidate, hok, hfills⟩
  refine ⟨w, hcandidate, hok, ?_, ?_, ?_, hfills⟩
  · rw [h.custody.placed, hholding]
    exact (h.custody.loan l hlease).2
  · intro hserved
    exact (h.slots.busy w hserved).1 hfills.free
  · rw [hfills.filled]
    exact Option.some_ne_none _

/-- The record in hand goes into a free mailbox. -/
theorem place (h : Books limit p j) {l : Ring.Lease} {home : Option Nat}
    {result : Except Fault Unit} (hholding : p.dispatcher.hand = .holding l home)
    (hresult : (p.dispatcher.place l home).1 = some result) :
    result = .ok () ∧ Books limit { p with dispatcher := (p.dispatcher.place l home).2 }
      (j.after p .place { p with dispatcher := (p.dispatcher.place l home).2 }) := by
  rcases h.fills hholding hresult with ⟨w, -, hok, hnumber, hidle, hfilled, hfills⟩
  refine ⟨hok, ?_⟩
  have hafter : j.after p .place { p with dispatcher := (p.dispatcher.place l home).2 } =
      j.place w := by
    simp only [Journal.after, hfills.hand]
  rw [hafter]
  generalize (p.dispatcher.place l home).2 = d at hfilled hfills ⊢
  have hcustody := h.custody
  rw [hholding] at hcustody
  have hw : w < p.workers.length := h.shaped.length_eq ▸ hfills.lt
  refine ⟨?_, hfills.shaped limit h.shaped, h.slots.place hfills.free hnumber hfills.filled
    hfills.other, ⟨?_, h.tallied.answered, ?_, ?_⟩, ⟨?_, ?_, h.stopping.worker, ?_⟩⟩
  · show Custody limit d.channel d.hand (j.place w)
    rw [hfills.channel, hfills.hand]
    exact hcustody.place rfl rfl w
  · show d.dispatched = (j.homes ++ [w]).length
    rw [hfills.dispatched, h.tallied.dispatched, List.length_append, List.length_singleton]
  · have hcount := unserved_place hw hfills.free hidle hfilled hfills.other
    have hplaced := h.tallied.placed
    show (j.homes ++ [w]).length = j.served.length + _
    rw [List.length_append, List.length_singleton, hplaced, Nat.add_assoc]
    exact congrArg (j.served.length + ·) hcount.symm
  · intro i hmem
    rcases List.mem_append.1 hmem with hold | hnew
    · exact h.tallied.home_lt i hold
    · rw [List.mem_singleton.1 hnew]
      exact hw
  · intro i
    have hle := h.stopping.looked_le i
    show j.looked i ≤ (j.homes ++ [w]).length
    rw [List.length_append]
    omega
  · -- The workers are told to stop when the dispatcher has nothing in hand any more.
    intro hstop
    cases (h.stopping.dispatcher hstop).symm.trans hholding
  · intro i hi
    exact looked_place (h.stopping.looked_le i) hfilled hfills.other (h.stopping.looked i hi)

theorem release (h : Books limit p j) {l : Ring.Lease} {w : Nat}
    (hplaced : p.dispatcher.hand = .placed l w) :
    Books limit { p with dispatcher := p.dispatcher.release l }
      { j with released := j.released + 1 } := by
  have hlease : p.dispatcher.hand.lease? = some l := by
    rw [hplaced]
    rfl
  have hflight : p.dispatcher.hand.inFlight = 1 := by
    rw [hplaced]
    rfl
  have hcustody := h.custody.release hlease hflight
  have hrelease : p.dispatcher.release l =
      { p.dispatcher with
        channel := { p.channel with ring := p.channel.ring.release l }
        hand := .empty } := by
    simp only [Dispatcher.release, Dispatcher.setRing, Dispatcher.ring, channel]
  have hgone : p.dispatcher.hand = .gone → Hand.empty = .gone := by
    rw [hplaced]
    intro hc
    cases hc
  rw [hrelease]
  -- From here on it does not matter what the ring is, and images need not be compared.
  generalize p.channel.ring.release l = r at hcustody ⊢
  exact h.move (.of_mailboxes rfl rfl rfl rfl rfl) hcustody hgone rfl rfl rfl rfl
    ⟨[], (List.append_nil _).symm⟩

/-- The dispatcher's thread ends, and the ring loses its consumer. -/
theorem depart (h : Books limit p j) (hempty : p.dispatcher.hand = .empty) :
    Books limit { p with dispatcher := p.dispatcher.depart } j := by
  refine h.moveQuietly (.of_mailboxes rfl rfl rfl rfl rfl) (h.custody.settle ?_ rfl).close fun _ => rfl
  rw [hempty]
  rfl

/-- When the dispatcher leaves, every worker is told to look. -/
theorem leave (h : Books limit p j) (hempty : p.dispatcher.hand = .empty) :
    Books limit { p with dispatcher := p.dispatcher.leave } j :=
  h.moveQuietly p.boxesKept_leave (h.depart hempty).custody fun _ => rfl

/-! ## The workers -/

theorem answered_add {l : Ledger} (h : l.written + l.failed = l.writes.length) (w : Write) :
    (l.add w).written + (l.add w).failed = (l.add w).writes.length := by
  simp only [Ledger.add, List.length_append, List.length_singleton, ← h]
  cases w.accepted
  · exact (Nat.add_assoc _ _ 1).symm
  · exact Nat.add_right_comm _ 1 _

theorem decodable_inbox (h : Books limit p j) {i : Nat} {record : Bytes}
    (hrecord : p.inbox? i = some record) : Record.Decodable record :=
  h.custody.decodable record (List.mem_of_getElem? (h.slots.carried i record hrecord).2)

theorem serve (h : Books limit p j) {i : Nat} {record : Bytes} {job : Job} (accepted : Bool)
    (hready : p.worker? i = some .ready) (hrecord : p.inbox? i = some record)
    (hunpack : Record.unpack record = .ok job) :
    Books limit { p.setWorker i .served with ledger := p.ledger.add ⟨i, job, accepted⟩ }
      (j.serve i) := by
  have hi := lt_of_worker? hready
  have hidle : p.worker? i ≠ some .served := by
    rw [hready]
    intro hc
    cases hc
  have hoccupied : p.inbox? i ≠ none := by
    rw [hrecord]
    exact Option.some_ne_none record
  rcases worker?_setWorker hi .served with ⟨hself, hother⟩
  have hshaped := h.shaped.setWorker i .served
  refine ⟨h.custody.congr rfl rfl rfl, ⟨hshaped.length_eq, hshaped.room⟩,
    h.slots.serve hrecord hidle hunpack hself hother accepted, ⟨h.tallied.dispatched, ?_, ?_, ?_⟩,
    h.stopping.turn hself hother (fun _ _ => rfl) rfl rfl rfl h.stopping.looked_le (fun _ _ => rfl) ?_ ?_⟩
  · exact answered_add h.tallied.answered _
  · -- One call more, and one record less that the store has not seen.
    have hcount := unserved_serve hi hoccupied hidle hself hother
    have hplaced := h.tallied.placed
    have hlength : (p.setWorker i .served).workers.length = p.workers.length := List.length_set ..
    show j.homes.length = (j.served ++ [j.slot i]).length +
      unserved p.inbox? (p.setWorker i .served).worker? (p.setWorker i .served).workers.length
    rw [List.length_append, List.length_singleton, hlength]
    omega
  · intro k hmem
    exact (List.length_set ..).symm ▸ h.tallied.home_lt k hmem
  · rintro ⟨⟩
  · rintro (hc | hc) <;> cases hc

theorem free (h : Books limit p j) {i : Nat} (hserved : p.worker? i = some .served) :
    Books limit ((p.clearMailbox i).setWorker i .ready) j := by
  have hi := lt_of_worker? hserved
  have hi' : i < (p.clearMailbox i).workers.length := hi
  rcases inbox?_clearMailbox p i with ⟨hfreed, hinbox⟩
  rcases worker?_setWorker hi' .ready with ⟨hself, hother⟩
  have hidle : ((p.clearMailbox i).setWorker i .ready).worker? i ≠ some .served := by
    rw [hself]
    intro hc
    cases hc
  refine ⟨h.custody.congr rfl rfl rfl, (h.shaped.clearMailbox i).setWorker i .ready,
    h.slots.free hserved hfreed hinbox hidle hother,
    ⟨h.tallied.dispatched, h.tallied.answered, ?_, ?_⟩,
    h.stopping.turn hself hother hinbox rfl rfl rfl h.stopping.looked_le (fun _ _ => rfl) ?_ ?_⟩
  · have hcount := unserved_free (n := p.workers.length) hserved hfreed hinbox hother
    have hlength : ((p.clearMailbox i).setWorker i .ready).workers.length = p.workers.length :=
      List.length_set ..
    rw [hlength, h.tallied.placed]
    exact congrArg (j.served.length + ·) hcount.symm
  · intro k hmem
    exact (List.length_set ..).symm ▸ h.tallied.home_lt k hmem
  · rintro ⟨⟩
  · rintro (hc | hc) <;> cases hc

/-- A worker that has not called the store goes on to `w'`, and may note what it has found. -/
theorem turn (h : Books limit p j) {i : Nat} {w w' : Worker} (hworker : p.worker? i = some w)
    (hidle : w ≠ .served) (hidle' : w' ≠ .served) (hgone : w' = .gone → p.workersStop = true)
    {looked : Nat → Nat} (hle : ∀ k, looked k ≤ j.homes.length)
    (hsame : ∀ k, k ≠ i → looked k = j.looked k)
    (hlooked : w' = .foundEmpty ∨ w' = .gone →
      (p.inbox? i = none ↔ ∀ k, j.homes[k]? = some i → k < looked i)) :
    Books limit (p.setWorker i w') { j with looked } := by
  have hi := lt_of_worker? hworker
  rcases worker?_setWorker hi w' with ⟨hself, hother⟩
  have hserved := served_setWorker hworker hidle hidle'
  refine ⟨h.custody.congr rfl rfl rfl, h.shaped.setWorker i w',
    (h.slots.move hserved).congr rfl rfl rfl ⟨[], (List.append_nil _).symm⟩,
    ⟨h.tallied.dispatched, h.tallied.answered, ?_, ?_⟩,
    h.stopping.turn hself hother (fun _ _ => rfl) rfl rfl rfl hle hsame hgone hlooked⟩
  · -- The worker was not waiting to free its mailbox, and it is not now.
    have hcount : unserved p.inbox? (p.setWorker i w').worker? p.workers.length =
        unserved p.inbox? p.worker? p.workers.length := by
      refine unserved_congr ?_
      intro k _
      simp only [ne_eq, hserved k]
    have hlength : (p.setWorker i w').workers.length = p.workers.length := List.length_set ..
    rw [hlength]
    exact h.tallied.placed.trans (congrArg (j.served.length + ·) hcount.symm)
  · intro k hmem
    exact (List.length_set ..).symm ▸ h.tallied.home_lt k hmem

/-- A worker finds its mailbox empty. -/
theorem findEmpty (h : Books limit p j) {i : Nat} (hworker : p.worker? i = some .ready)
    (hempty : p.inbox? i = none) : Books limit (p.setWorker i .foundEmpty) (j.look i) := by
  refine h.turn hworker (by decide) ?_ ?_ ?_ ?_ ?_
  · decide
  · intro hc
    cases hc
  · intro k
    split
    · exact Nat.le_refl _
    · exact h.stopping.looked_le k
  · intro k hk
    exact if_neg hk
  · intro _
    rw [if_pos rfl]
    -- Whatever was placed there so far has been taken out again.
    refine iff_of_true hempty ?_
    intro k hk
    exact (List.getElem?_eq_some_iff.1 hk).1

/-- A worker that has found its mailbox empty sees whether to stop. -/
theorem checkStop (h : Books limit p j) {i : Nat} (hworker : p.worker? i = some .foundEmpty) :
    Books limit (p.setWorker i (if p.workersStop then .gone else .ready)) j := by
  refine h.turn hworker (by decide) ?_ ?_ h.stopping.looked_le (fun _ _ => rfl) ?_
  · split <;> decide
  · -- It leaves only if it is to stop.
    intro hgone
    by_contra hstop
    rw [if_neg hstop] at hgone
    cases hgone
  · intro _
    exact h.stopping.looked i (.inl hworker)

/-! ## The start, and a whole step -/

theorem start {r : Ring} {records : List Bytes} (hgives : Ring.Gives r records)
    (hlimit : r.limit = limit) (hdecodable : ∀ record ∈ records, Record.Decodable record)
    (routing : Routing) (workers : Nat) :
    Books limit (.ofRing r routing workers limit) { accepted := records } := by
  have hinbox := inbox?_ofRing r routing workers limit
  have hready : ∀ i w, w ≠ .ready → (ofRing r routing workers limit).worker? i ≠ some w := by
    intro i w hw hc
    exact hw (worker?_ofRing r routing workers limit hc)
  refine ⟨.start hgives hlimit hdecodable, shaped_ofRing r routing workers limit,
    .start records hinbox ?_, ⟨rfl, rfl, ?_, ?_⟩, ⟨fun _ => Nat.le_refl _, ?_, ?_, ?_⟩⟩
  · intro i
    exact hready i .served (by decide)
  · have hnone : unserved (ofRing r routing workers limit).inbox?
        (ofRing r routing workers limit).worker?
        (ofRing r routing workers limit).workers.length = 0 := by
      refine List.countP_eq_zero.2 ?_
      intro i _
      rw [decide_eq_true_eq]
      exact fun hc => hc.1 (hinbox i)
    rw [hnone]
    rfl
  · intro i hmem
    cases hmem
  · intro hc
    cases hc
  · intro i hi
    exact absurd hi (hready i .gone (by decide))
  · intro i hi
    rcases hi with hi | hi
    · exact absurd hi (hready i .foundEmpty (by decide))
    · exact absurd hi (hready i .gone (by decide))

/-- Every step that is possible keeps the books. -/
theorem step (h : Books limit p j) {a : Action} (hact : p.act? a = some q) :
    Books limit q (j.after p a q) := by
  cases (does_of_act? hact).2 with
  | enqueue command timestamp args _ => exact h.enqueue rfl
  | resume => exact h.resume
  | raiseStop => exact h.raiseStop
  | raiseWorkersStop hgone => exact h.raiseWorkersStop hgone
  | goOn hempty =>
    refine h.settle ?_ rfl ?_ <;> rw [hempty]
    · rfl
    · decide
  | look hreaching => exact h.look hreaching
  | lookFails hreaching => exact h.look hreaching
  | lookPanics hreaching hlook =>
    exact (h.look hreaching).depart (hand_look_of_error hlook)
  | lookAborts hreaching => exact (h.look hreaching).abort _
  | place hholding hplace => exact (h.place hholding hplace).2
  | wait => exact h.wait
  | release hplaced => exact h.release hplaced
  | giveUp hholding =>
    refine h.settle ?_ rfl ?_ <;> rw [hholding]
    · rfl
    · exact fun hc => nomatch hc
  | leave hempty => exact h.leave hempty
  | serve hready hrecord hunpack => exact h.serve _ hready hrecord hunpack
  | serveAborts _ hrecord hunpack =>
    -- Only records that can be decoded come into the ring.
    rcases h.decodable_inbox hrecord with ⟨job, hjob⟩
    cases hjob.symm.trans hunpack
  | free hserved => exact h.free hserved
  | findEmpty hready hempty => exact h.findEmpty hready hempty
  | checkStop hfound => exact h.checkStop hfound
  | readRing w => exact h.watch w
  | readMailbox w => exact h.watch w

/-- Where a padding of the longest kind fits the dirty size, every padding does. -/
theorem notesPads (h : Books limit p j) (hlimit : limit + 3 < 2 ^ 32) (a : Action) :
    NotesPads p a q := by
  intro record _ plan hplan _
  rcases Ring.plan_eq_ok hplan with ⟨-, -, -, hpad, -, -, -⟩
  have hlt : Ring.wrapPad p.ring.write p.ring.capacity p.ring.limit < Ring.frameReserve p.ring.limit :=
    Ring.wrapPad_lt h.custody.gives.sized.powerOfTwo
  have hsame : p.ring.limit = limit := h.custody.limit_eq
  rw [← hpad, hsame, Ring.frameReserve, Ring.prefixLength] at hlt
  omega

end Books

/-- Every state that steps lead to agrees with its journal. -/
theorem books_of_onward {limit workers : Nat} {routing : Routing} {r : Ring} {records : List Bytes}
    {p : Pipeline} {j : Journal} {within : Pipeline → Action → Pipeline → Prop}
    (hgives : Ring.Gives r records) (hlimit : r.limit = limit)
    (hdecodable : ∀ record ∈ records, Record.Decodable record)
    (steps : Onward within (.ofRing r routing workers limit) { accepted := records } p j) :
    Books limit p j :=
  steps.keeps (.start hgives hlimit hdecodable routing workers) fun h _ hact => h.step hact

theorem Course.books {limit : Nat} {p : Pipeline} {j : Journal} (course : Course limit p j) :
    Books limit p j := by
  rcases course with ⟨hsound, -, hlimit, hdecodable, steps⟩
  exact books_of_onward hsound.gives hlimit hdecodable steps

/-- What is seen at the end of a schedule on a new ring in memory is seen behind a course. -/
theorem Course.exists_of_replay (hint : Nat) {limit : Nat} {r : Ring}
    (hopen : (({} : Disk).openRing ⟨hint, limit, none⟩).1 = .ok r) (hshort : limit + 3 < 2 ^ 32)
    (routing : Routing) (workers : Nat) (as : List Action) {α : Type} (f : Pipeline × Journal → α) {x : α}
    (h : ((ofRing r routing workers limit).replay? { accepted := [] } as).map f = some x) :
    ∃ p j, Course limit p j ∧ f (p, j) = x := by
  rcases Ring.open_memory hopen with ⟨hsound, hlimit, hnone⟩
  have hdecodable : ∀ record ∈ ([] : List Bytes), Record.Decodable record := List.forall_mem_nil _
  rcases Pipeline.exists_of_replay as f h with ⟨p, j, steps, hx⟩
  -- Each step starts from a state that agrees with its journal.
  have hsteps : Books limit p j ∧
      Onward NotesPads (ofRing r routing workers limit) { accepted := [] } p j :=
    steps.keeps (I := fun p j => Books limit p j ∧
        Onward NotesPads (ofRing r routing workers limit) { accepted := [] } p j)
      ⟨.start hsound.gives hlimit hdecodable routing workers, .refl⟩
      fun hbooks _ hact => ⟨hbooks.1.step hact, hbooks.2.step (hbooks.1.notesPads hshort _) hact⟩
  exact ⟨p, j, .onward hsound (.of_none hnone) hlimit hdecodable hsteps.2, hx⟩

end Pipeline
end WriteBehind
