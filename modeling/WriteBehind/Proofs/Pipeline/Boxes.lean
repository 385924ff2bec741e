import WriteBehind.Proofs.Pipeline.Steps
import WriteBehind.Proofs.Record

/-!
# Boxes — mailboxes and workers, step by step

What each step does to mailboxes and workers, for whatever is to be proved of them.

* `Pipeline.Shaped limit p`: each worker has one mailbox, with room for every record;
* `Pipeline.BoxesKept p q`: a step has left alone what is behind the dispatcher;
* `Pipeline.Fills p d l w`: the record in hand went into the free mailbox of worker `w`, and
  `fills_of_place` says that placing a record comes to this;
* `inbox?_clearMailbox` and `worker?_setWorker` are the frame rules of the workers' steps.
-/

namespace WriteBehind

namespace Pipeline

def worker? (p : Pipeline) (i : Nat) : Option Worker := p.workers[i]?

/-- Each worker has one mailbox, and each mailbox has room for every record. -/
structure Shaped (limit : Nat) (p : Pipeline) : Prop where
  length_eq : p.workers.length = p.dispatcher.mailboxes.length
  room : ∀ m ∈ p.dispatcher.mailboxes, limit ≤ m.buffer.size

/-- A step has left alone what is behind the dispatcher. -/
structure BoxesKept (p q : Pipeline) : Prop where
  inbox : q.inbox? = p.inbox?
  shaped : ∀ limit, p.Shaped limit → q.Shaped limit
  workers : q.workers = p.workers
  ledger : q.ledger = p.ledger
  dispatched : q.dispatcher.dispatched = p.dispatcher.dispatched
  workersStop : q.workersStop = p.workersStop

/-- The dispatcher has put the record in hand into the free mailbox of worker `w`, and has become
`d`. -/
structure Fills (p : Pipeline) (d : Dispatcher) (l : Ring.Lease) (w : Nat) : Prop where
  hand : d.hand = .placed l w
  channel : d.channel = p.dispatcher.channel
  routing : d.routing = p.dispatcher.routing
  dispatched : d.dispatched = p.dispatcher.dispatched + 1
  lt : w < p.dispatcher.mailboxes.length
  free : p.inbox? w = none
  filled : ({ p with dispatcher := d } : Pipeline).inbox? w = some l.payload
  other : ∀ k, k ≠ w → ({ p with dispatcher := d } : Pipeline).inbox? k = p.inbox? k
  shaped : ∀ limit, p.Shaped limit → ({ p with dispatcher := d } : Pipeline).Shaped limit

section Start

variable (r : Ring) (routing : Routing) (workers limit : Nat)

theorem shaped_ofRing : (ofRing r routing workers limit).Shaped limit := by
  refine ⟨?_, ?_⟩
  · show (List.replicate workers Worker.ready).length =
      (List.replicate workers (Mailbox.ofSize limit)).length
    rw [List.length_replicate, List.length_replicate]
  · intro m hm
    rw [List.eq_of_mem_replicate hm]
    exact Nat.le_refl limit

theorem inbox?_ofRing (i : Nat) : (ofRing r routing workers limit).inbox? i = none := by
  show ((List.replicate workers (Mailbox.ofSize limit))[i]?.bind Mailbox.contents?) = none
  rw [List.getElem?_replicate]
  split <;> rfl

theorem worker?_ofRing {i : Nat} {w : Worker}
    (h : (ofRing r routing workers limit).worker? i = some w) : w = .ready :=
  List.eq_of_mem_replicate (List.mem_of_getElem? h)

end Start

/-! ## Steps in front of the mailboxes -/

section Front

variable {p q : Pipeline}

theorem BoxesKept.worker (h : p.BoxesKept q) : q.worker? = p.worker? := by
  funext i
  rw [worker?, worker?, h.workers]

/-- Nothing but the channel, the hand and what only the dispatcher reads has changed. -/
theorem BoxesKept.of_mailboxes (hmailboxes : q.dispatcher.mailboxes = p.dispatcher.mailboxes)
    (hworkers : q.workers = p.workers) (hledger : q.ledger = p.ledger)
    (hdispatched : q.dispatcher.dispatched = p.dispatcher.dispatched)
    (hstop : q.workersStop = p.workersStop) : p.BoxesKept q := by
  refine ⟨?_, ?_, hworkers, hledger, hdispatched, hstop⟩
  · funext i
    rw [inbox?, inbox?, hmailboxes]
  · intro limit h
    refine ⟨?_, ?_⟩
    · rw [hworkers, hmailboxes]
      exact h.length_eq
    · rw [hmailboxes]
      exact h.room

/-- When the dispatcher leaves, mailboxes are nudged and keep what they have. -/
theorem boxesKept_leave (p : Pipeline) :
    p.BoxesKept { p with dispatcher := p.dispatcher.leave } := by
  refine ⟨?_, ?_, rfl, rfl, rfl, rfl⟩
  · funext i
    show ((p.dispatcher.mailboxes.map Mailbox.nudge)[i]?.bind Mailbox.contents?) = p.inbox? i
    rw [List.getElem?_map, inbox?]
    cases p.dispatcher.mailboxes[i]? <;> rfl
  · intro limit hshaped
    refine ⟨?_, ?_⟩
    · show p.workers.length = (p.dispatcher.mailboxes.map Mailbox.nudge).length
      rw [List.length_map]
      exact hshaped.length_eq
    · intro m hm
      rcases List.mem_map.1 hm with ⟨m', hm', rfl⟩
      exact hshaped.room m' hm'

end Front

/-! ## Placing a record -/

theorem home?_eq_ok (d : Dispatcher) {record : Bytes} (h : Record.Decodable record) :
    ∃ home, d.home? record = .ok home := by
  rcases h with ⟨job, hunpack⟩
  -- With key affinity the key is looked at, and it can be read where the record can.
  cases hrouting : d.routing with
  | roundRobin =>
    refine ⟨none, ?_⟩
    simp only [Dispatcher.home?, hrouting]
  | keyAffinity =>
    refine ⟨some (KeyHash.workerFor job.key d.mailboxes.length), ?_⟩
    simp only [Dispatcher.home?, hrouting, Record.peekKey_of_unpack hunpack]

theorem deliver?_eq_some {m : Mailbox} {record : Bytes} (hfree : m.isFree = true)
    (hnonempty : record ≠ []) (hroom : record.length ≤ m.buffer.size) :
    ∃ m', m.deliver? record = some m' ∧ m'.buffer.size = m.buffer.size := by
  have htaken : ¬ (¬ m.isFree ∨ record = [] ∨ record.length > m.buffer.size) := by
    rintro (hbusy | hnil | hlong)
    · exact hbusy hfree
    · exact hnonempty hnil
    · omega
  refine ⟨_, if_neg htaken, ?_⟩
  exact Image.size_write _ _ _

/-- What placing the record in hand comes to.  No mailbox that may have it is free, or one that is
free refuses it or takes it. -/
theorem place_cases {d : Dispatcher} {l : Ring.Lease} {record : Bytes} (home : Option Nat)
    (hleased : d.ring.leased l = record) :
    (d.candidate? home = none ∧ d.place l home = (none, d)) ∨
    ∃ w m next, d.candidate? home = some w ∧ d.mailboxes[w]? = some m ∧ m.isFree = true ∧
      ((m.deliver? record = none ∧
        d.place l home = (some (.error (Cause.mailboxRefused w record.length).fault),
          { d with next, hand := .empty })) ∨
      ∃ m', m.deliver? record = some m' ∧
        d.place l home = (some (.ok ()),
          { d with
            next
            mailboxes := d.mailboxes.set w m'
            hand := .placed l w
            dispatched := d.dispatched + 1 })) := by
  cases hcandidate : d.candidate? home with
  | none =>
    refine .inl ⟨rfl, ?_⟩
    simp only [Dispatcher.place, hcandidate]
  | some w =>
    rcases Dispatcher.isFree_eq_true (Dispatcher.isFree_of_candidate? hcandidate) with ⟨m, hm, hfree⟩
    -- The bytes on loan do not depend on the turn.
    have hbytes : ∀ next, (Dispatcher.ring { d with next }).leased l = record := fun _ => hleased
    have hturn : ∃ next, (if home.isNone then { d with next := (w + 1) % d.mailboxes.length } else d) =
        { d with next } := by
      cases home with
      | none => exact ⟨_, rfl⟩
      | some i => exact ⟨d.next, rfl⟩
    rcases hturn with ⟨next, hturn⟩
    refine .inr ⟨w, m, next, rfl, hm, hfree, ?_⟩
    simp only [Dispatcher.place, hcandidate, hturn, hm, Option.bind_some, hbytes]
    cases m.deliver? record with
    | none => exact .inl ⟨rfl, rfl⟩
    | some m' => exact .inr ⟨m', rfl, rfl⟩

/-- A mailbox that has room for the record takes it. -/
theorem place_eq {d : Dispatcher} {l : Ring.Lease} {record : Bytes} {home : Option Nat} {w : Nat}
    (hcandidate : d.candidate? home = some w) (hleased : d.ring.leased l = record)
    (hnonempty : record ≠ []) (hroom : ∀ m ∈ d.mailboxes, record.length ≤ m.buffer.size) :
    ∃ m m' next, d.mailboxes[w]? = some m ∧ m.isFree = true ∧ m.deliver? record = some m' ∧
      m'.buffer.size = m.buffer.size ∧
      d.place l home = (some (.ok ()),
        { d with
          next
          mailboxes := d.mailboxes.set w m'
          hand := .placed l w
          dispatched := d.dispatched + 1 }) := by
  rcases place_cases home hleased with ⟨hnone, -⟩ | ⟨w', m, next, hsome, hm, hfree, hcase⟩
  · cases hcandidate.symm.trans hnone
  · cases hcandidate.symm.trans hsome
    rcases deliver?_eq_some hfree hnonempty (hroom m (List.mem_of_getElem? hm)) with
      ⟨m', hdeliver, hsize⟩
    rcases hcase with ⟨hrefused, -⟩ | ⟨taken, htaken, hplace⟩
    · cases hdeliver.symm.trans hrefused
    · cases hdeliver.symm.trans htaken
      exact ⟨m, m', next, hm, hfree, hdeliver, hsize, hplace⟩

/-- A mailbox that is filled keeps its buffer. -/
theorem Shaped.setMailbox {limit : Nat} {p : Pipeline} {d : Dispatcher} {w : Nat} {m m' : Mailbox}
    (h : p.Shaped limit) (hm : p.dispatcher.mailboxes[w]? = some m)
    (hsize : m'.buffer.size = m.buffer.size) (hset : d.mailboxes = p.dispatcher.mailboxes.set w m') :
    ({ p with dispatcher := d } : Pipeline).Shaped limit := by
  refine ⟨?_, ?_⟩
  · rw [hset, List.length_set]
    exact h.length_eq
  · intro other hmem
    rw [hset] at hmem
    rcases List.mem_or_eq_of_mem_set hmem with hold | rfl
    · exact h.room other hold
    · rw [hsize]
      exact h.room m (List.mem_of_getElem? hm)

theorem fills_of_place {limit : Nat} {p : Pipeline} {l : Ring.Lease} {home : Option Nat}
    {result : Except Fault Unit} (hshaped : p.Shaped limit)
    (hleased : p.dispatcher.ring.leased l = l.payload) (hnonempty : l.payload ≠ [])
    (hshort : l.payload.length ≤ limit)
    (hresult : (p.dispatcher.place l home).1 = some result) :
    ∃ w, p.dispatcher.candidate? home = some w ∧ result = .ok () ∧
      p.Fills (p.dispatcher.place l home).2 l w := by
  cases hcandidate : p.dispatcher.candidate? home with
  | none =>
    simp only [Dispatcher.place, hcandidate] at hresult
    cases hresult
  | some w =>
    rcases place_eq hcandidate hleased hnonempty
      (fun m hm => Nat.le_trans hshort (hshaped.room m hm)) with
      ⟨m, m', next, hm, hfree, hdeliver, hsize, hplace⟩
    have hw : w < p.dispatcher.mailboxes.length := (List.getElem?_eq_some_iff.1 hm).1
    rw [hplace] at hresult ⊢
    refine ⟨w, rfl, (Option.some.inj hresult).symm, rfl, rfl, rfl, rfl, hw, ?_, ?_, ?_, ?_⟩
    · simp only [inbox?, hm, Option.bind_some, Mailbox.contents?, hfree, if_true]
    · show ((p.dispatcher.mailboxes.set w m')[w]?.bind Mailbox.contents?) = some l.payload
      rw [List.getElem?_set_self hw, Option.bind_some]
      exact Mailbox.contents?_deliver? hdeliver
    · intro k hk
      show ((p.dispatcher.mailboxes.set w m')[k]?.bind Mailbox.contents?) = p.inbox? k
      rw [List.getElem?_set_ne (fun hc => hk hc.symm), inbox?]
    · intro limit hshaped
      exact hshaped.setMailbox hm hsize rfl

/-! ## Steps of the workers -/

section Workers

variable {p : Pipeline} {i : Nat}

theorem worker?_setWorker (hi : i < p.workers.length) (w : Worker) :
    (p.setWorker i w).worker? i = some w ∧
      ∀ k, k ≠ i → (p.setWorker i w).worker? k = p.worker? k := by
  refine ⟨List.getElem?_set_self hi, ?_⟩
  intro k hk
  exact List.getElem?_set_ne (fun hc => hk hc.symm)

theorem lt_of_worker? {w : Worker} (h : p.worker? i = some w) : i < p.workers.length :=
  (List.getElem?_eq_some_iff.1 h).1

theorem inbox?_clearMailbox (p : Pipeline) (i : Nat) :
    (p.clearMailbox i).inbox? i = none ∧
      ∀ k, k ≠ i → (p.clearMailbox i).inbox? k = p.inbox? k := by
  refine ⟨?_, ?_⟩
  · show ((p.dispatcher.mailboxes.modify i Mailbox.clear)[i]?.bind Mailbox.contents?) = none
    rw [List.getElem?_modify]
    cases p.dispatcher.mailboxes[i]? with
    | none => rfl
    | some m =>
      simp only [if_true, Option.map_eq_map, Option.map_some, Option.bind_some]
      exact Mailbox.contents?_clear m
  · intro k hk
    exact contents?_modify p.dispatcher.mailboxes (fun hc => hk hc.symm)

/-- A worker that goes from one state to another that is not `served` either has not touched any
record. -/
theorem served_setWorker {w w' : Worker} (hworker : p.worker? i = some w) (hidle : w ≠ .served)
    (hidle' : w' ≠ .served) (k : Nat) :
    (p.setWorker i w').worker? k = some .served ↔ p.worker? k = some .served := by
  rcases worker?_setWorker (lt_of_worker? hworker) w' with ⟨hself, hother⟩
  by_cases hki : k = i
  · subst hki
    rw [hself, hworker, Option.some.injEq, Option.some.injEq]
    exact ⟨fun hc => absurd hc hidle', fun hc => absurd hc hidle⟩
  · rw [hother k hki]

theorem Shaped.setWorker {limit : Nat} (h : p.Shaped limit) (i : Nat) (w : Worker) :
    (p.setWorker i w).Shaped limit :=
  ⟨(List.length_set ..).trans h.length_eq, h.room⟩

/-- Freeing a mailbox leaves its buffer. -/
theorem Shaped.clearMailbox {limit : Nat} (h : p.Shaped limit) (i : Nat) :
    (p.clearMailbox i).Shaped limit := by
  refine ⟨?_, ?_⟩
  · show p.workers.length = (p.dispatcher.mailboxes.modify i Mailbox.clear).length
    rw [List.length_modify]
    exact h.length_eq
  · intro m hm
    have hmem : m ∈ p.dispatcher.mailboxes.modify i Mailbox.clear := hm
    rcases List.mem_iff_getElem?.1 hmem with ⟨k, hk⟩
    rw [List.getElem?_modify, Option.map_eq_map, Option.map_eq_some_iff] at hk
    rcases hk with ⟨m', hm', rfl⟩
    have hroom := h.room m' (List.mem_of_getElem? hm')
    split <;> exact hroom

end Workers

end Pipeline
end WriteBehind
