import WriteBehind.Proofs.Pipeline.Boxes
import WriteBehind.Proofs.Ring.Clearance

/-!
# Admission — what is packed passes every stage

The length of a record is looked at when it is packed, when it is planned, when a reader comes across it
and when it is put into a mailbox; its arguments are counted when it is packed and when it is unpacked.
All of these go by one limit, and what the first of them lets pass the others do not turn away.

* `Ring.View.HasFrame v position payload`: a frame stands where a reader looks for one;
* `Record.Admitted limit record job`: no stage turns the record of this job away;
* `Pipeline.Housed limit p`: what the dispatcher has in hand fits every mailbox, whatever bytes it was
  found in, and `Housed.step` keeps it so;
* `Pipeline.admitted_of_pack`: a record that is packed is admitted, and no mailbox ever refuses one.
-/

namespace WriteBehind

/-! ## Readers -/

namespace Ring

/-- A frame of this payload stands at a position where a reader looks for one. -/
structure View.HasFrame (v : View) (position : Nat) (payload : Bytes) : Prop where
  unpadded : wrapPad position v.capacity v.limit = 0
  bytes : v.slice (physicalOffset position v.capacity) (View.encodeFrame payload).length =
    View.encodeFrame payload

/-- A reader takes a frame for what it is, unless the write counter stands in front of its end, or its end is
a counter that no word holds. -/
theorem View.HasFrame.classify_eq {v : View} {position : Nat} {payload : Bytes}
    (h : v.HasFrame position payload) (hpos : 0 < payload.length) (hlimit : payload.length < v.limit)
    (hword : payload.length < 2 ^ 32) (stop : Nat) :
    v.classify position stop =
      if position + (payload.length + prefixLength) ≥ 2 ^ 64 then .error .overflow
      else if position + (payload.length + prefixLength) > stop then .error (.framePastEnd position)
      else .ok (.frame payload.length) := by
  have hlength := View.lengthAt_of_slice h.bytes hword
  rw [View.classify]
  simp only [hlength]
  rw [if_neg (Nat.not_lt.2 (Nat.le_of_eq h.unpadded)), if_neg (by omega)]

/-- What is pushed becomes a frame that a reader looks for. -/
theorem Sized.hasFrame_push {r : Ring} {payload : Bytes} (h : Sized r)
    (hdone : (r.push payload).1 = .ok .done) :
    (r.push payload).2.view.HasFrame (r.write + wrapPad r.write r.capacity r.limit) payload := by
  rcases push_eq_done hdone with ⟨p, hplan, -, -, hpush⟩
  rcases plan_eq_ok hplan with ⟨-, -, -, hpad, -, -, -⟩
  have hreserve : frameReserve r.limit ≤ r.capacity := by
    have hroomy := h.roomy
    omega
  rw [hpush, ← hpad]
  exact ⟨plan_wrapPad h.powerOfTwo hreserve hplan, h.slice_publish hplan⟩

end Ring

/-! ## One record -/

namespace Record

/-- No stage turns the record of this job away. -/
structure Admitted (limit : Nat) (record : Bytes) (job : Job) : Prop where
  /-- A place is planned for it, wherever the counters stand. -/
  planned : ∀ write read capacity, read ≤ write →
    ∃ p, Ring.plan write read capacity limit record.length = .ok p ∧
      p.frameLength = record.length + Ring.prefixLength
  /-- Only counters that are in disorder keep it from being planned. -/
  refused : ∀ write read capacity cause,
    Ring.plan write read capacity limit record.length = .error cause → cause = .readAhead read
  /-- Once it is pushed it stands where a reader looks for a frame. -/
  pushed : ∀ r : Ring, Ring.Sized r → r.limit = limit → (r.push record).1 = .ok .done →
    (r.push record).2.view.HasFrame
      (r.write + Ring.wrapPad r.write r.capacity limit) record
  /-- Wherever it stands a reader has nothing to say against its length. -/
  read : ∀ (v : Ring.View) position stop, v.limit = limit → v.HasFrame position record →
    v.classify position stop =
      if position + (record.length + Ring.prefixLength) ≥ 2 ^ 64 then .error .overflow
      else if position + (record.length + Ring.prefixLength) > stop then
        .error (.framePastEnd position)
      else .ok (.frame record.length)
  /-- A free mailbox for records up to the limit takes it. -/
  delivered : ∀ m : Mailbox, m.isFree = true → limit ≤ m.buffer.size →
    ∃ m', m.deliver? record = some m' ∧ m'.contents? = some record
  /-- Its key can be read. -/
  key : ∃ key values, job.args = key :: values ∧ peekKey record = .ok key
  /-- It is read back, with the timestamp in 32 bits. -/
  unpacked : unpack record = .ok { job with timestamp := job.timestamp % 2 ^ 32 }

theorem plan_of_within {write read capacity limit length : Nat} (hpos : 0 < length)
    (hlimit : length < limit) :
    (read ≤ write → ∃ p, Ring.plan write read capacity limit length = .ok p ∧
      p.frameLength = length + Ring.prefixLength) ∧
    ∀ cause, Ring.plan write read capacity limit length = .error cause → cause = .readAhead read := by
  have hwithin : ¬ (length = 0 ∨ length ≥ limit) := by omega
  rw [Ring.plan, if_neg hwithin]
  by_cases hahead : read > write
  · rw [if_pos hahead]
    refine ⟨fun hle => absurd hle (Nat.not_le.2 hahead), ?_⟩
    rintro cause ⟨⟩
    rfl
  · rw [if_neg hahead]
    refine ⟨fun _ => ⟨_, rfl, rfl⟩, ?_⟩
    rintro cause ⟨⟩

/-- It takes no more than a length above zero and below the limit, and a record that can be read. -/
theorem Admitted.of_length {limit : Nat} {record : Bytes} {job : Job} (hword : limit < 2 ^ 32)
    (hpos : 0 < record.length) (hlimit : record.length < limit)
    (hunpack : unpack record = .ok { job with timestamp := job.timestamp % 2 ^ 32 })
    (hargs : job.args ≠ []) : Admitted limit record job := by
  refine ⟨?_, ?_, ?_, ?_, ?_, ?_, hunpack⟩
  · exact fun write read capacity => (plan_of_within hpos hlimit).1
  · exact fun write read capacity => (plan_of_within hpos hlimit).2
  · rintro r hsized rfl hdone
    exact hsized.hasFrame_push hdone
  · rintro v position stop rfl hframe
    exact hframe.classify_eq hpos hlimit (Nat.lt_trans hlimit hword) stop
  · intro m hfree hsize
    rcases Pipeline.deliver?_eq_some hfree (List.ne_nil_of_length_pos hpos)
      (Nat.le_trans (Nat.le_of_lt hlimit) hsize) with ⟨m', hdeliver, -⟩
    exact ⟨m', hdeliver, Mailbox.contents?_deliver? hdeliver⟩
  · rcases List.exists_cons_of_ne_nil hargs with ⟨key, values, hkey⟩
    have hpeek := peekKey_of_unpack hunpack
    rw [Job.key, hkey, List.headD_cons] at hpeek
    exact ⟨key, values, hkey, hpeek⟩

theorem Admitted.of_pack {command : Command} {timestamp : Nat} {args : List Bytes} {limit n : Nat}
    {buffer record : Bytes} (hlimit : Ring.checkRecordLimit limit = .ok ())
    (hpack : pack command timestamp args limit buffer = (.ok n, record)) :
    Admitted limit record ⟨timestamp, command, args⟩ := by
  have hword := (Ring.checkRecordLimit_eq_ok.1 hlimit).2
  rcases pack_eq_ok hpack hword with ⟨hrecord, hlength, hunpack⟩
  have hpos : 0 < record.length := by
    rw [hrecord, length_encode, headerLength]
    omega
  refine .of_length hword hpos hlength hunpack ?_
  rintro rfl
  cases hpack

end Record

/-! ## The dispatcher's hand -/

namespace Pipeline

/-- The ring has this limit, the mailboxes have room for every record below it, and what the dispatcher
has in hand is one that is not empty. -/
structure Housed (limit : Nat) (p : Pipeline) : Prop where
  limit_eq : p.ring.limit = limit
  shaped : p.Shaped limit
  loan : ∀ l home, p.dispatcher.hand = .holding l home →
    0 < l.payload.length ∧ l.payload.length < limit

section Steps

variable {limit : Nat} {p q : Pipeline} {a : Action}

theorem limit_look (d : Dispatcher) : d.look.2.ring.limit = d.ring.limit := by
  rcases ring_look d with hlook | ⟨l, -, hlook⟩
  · rw [hlook, d.ring.pop_keeps.1]
  · rw [hlook, Ring.limit_moveRead, d.ring.pop_keeps.1]

theorem limit_enqueue (p : Pipeline) (command : Command) (timestamp : Nat) (args : List Bytes) :
    (p.enqueue command timestamp args).2.ring.limit = p.ring.limit := by
  rcases ring_enqueue p command timestamp args with hring | ⟨record, hring⟩
  · rw [hring]
  · rw [hring, (Ring.push_keeps _ record).1]

theorem limit_resume (c : Ring.Channel) : c.resume.2.ring.limit = c.ring.limit := by
  rcases c.ring_resume with ⟨notice, request, hring⟩ | ⟨payload, hring⟩
  · rw [hring]
  · rw [hring, (Ring.push_keeps _ payload).1]

theorem hand_enqueue (p : Pipeline) (command : Command) (timestamp : Nat) (args : List Bytes) :
    (p.enqueue command timestamp args).2.dispatcher.hand = p.dispatcher.hand := by
  simp only [enqueue]
  split <;> rfl

/-- A reader gives out nothing that is empty or not below the limit. -/
theorem length_of_look {d : Dispatcher} {l : Ring.Lease} {home : Option Nat}
    (h : d.look.2.hand = .holding l home) :
    0 < l.payload.length ∧ l.payload.length < d.ring.limit := by
  rcases hpop : d.ring.pop with ⟨_ | (_ | found), r⟩
  · simp only [Dispatcher.look, hpop] at h
    cases h
  · simp only [Dispatcher.look, hpop] at h
    cases h
  · have hfound : found = l := by
      simp only [Dispatcher.look, hpop] at h
      split at h
      · cases h
      · cases h
        rfl
    subst hfound
    rcases Ring.pop_eq_some hpop with ⟨n, hclassify, rfl⟩
    rcases Ring.View.classify_eq_frame hclassify with ⟨-, hpos, hlimit, -, -⟩
    have hlength : (r.lease n).payload.length = n := Ring.View.length_slice r.view _ n
    have hsame : r.limit = d.ring.limit := by
      rw [← d.ring.pop_keeps.1, hpop]
    rw [hlength, ← hsame]
    exact ⟨hpos, hlimit⟩

/-- A record in hand goes into a mailbox, or waits for one. -/
theorem Housed.place_cases (h : p.Housed limit) {l : Ring.Lease} {home : Option Nat}
    (hholding : p.dispatcher.hand = .holding l home) :
    (p.dispatcher.place l home = (none, p.dispatcher)) ∨
    ∃ w m m' next, p.dispatcher.mailboxes[w]? = some m ∧ m'.buffer.size = m.buffer.size ∧
      p.dispatcher.place l home = (some (.ok ()),
        { p.dispatcher with
          next
          mailboxes := p.dispatcher.mailboxes.set w m'
          hand := .placed l w
          dispatched := p.dispatcher.dispatched + 1 }) := by
  rcases h.loan l home hholding with ⟨hpos, hlimit⟩
  -- The mailbox is given the bytes that are in the ring now.  There are as many of them.
  have hlength : (p.dispatcher.ring.leased l).length = l.payload.length :=
    Ring.View.length_slice p.ring.view _ _
  have hnonempty : p.dispatcher.ring.leased l ≠ [] :=
    List.ne_nil_of_length_pos (hlength.symm ▸ hpos)
  have hroom : ∀ m ∈ p.dispatcher.mailboxes,
      (p.dispatcher.ring.leased l).length ≤ m.buffer.size := by
    intro m hm
    rw [hlength]
    exact Nat.le_trans (Nat.le_of_lt hlimit) (h.shaped.room m hm)
  cases hcandidate : p.dispatcher.candidate? home with
  | none => exact .inl (by simp only [Dispatcher.place, hcandidate])
  | some w =>
    rcases place_eq hcandidate rfl hnonempty hroom with ⟨m, m', next, hm, -, -, hsize, hplace⟩
    exact .inr ⟨w, m, m', next, hm, hsize, hplace⟩

theorem Housed.frame (h : p.Housed limit) (hring : q.ring.limit = p.ring.limit)
    (hshaped : q.Shaped limit)
    (hhand : q.dispatcher.hand = p.dispatcher.hand ∨ ∀ l home, q.dispatcher.hand ≠ .holding l home) :
    q.Housed limit := by
  refine ⟨hring.trans h.limit_eq, hshaped, ?_⟩
  intro l home hholding
  rcases hhand with hsame | hother
  · exact h.loan l home (hsame ▸ hholding)
  · exact absurd hholding (hother l home)

/-- No step brings a record in hand that does not fit, or takes room from a mailbox. -/
theorem Housed.step (h : p.Housed limit) (hact : p.act? a = some q) : q.Housed limit := by
  have hboxes : ∀ {p' : Pipeline}, p'.dispatcher.mailboxes = p.dispatcher.mailboxes →
      p'.workers = p.workers → p'.Shaped limit := by
    intro p' hmailboxes hworkers
    refine ⟨?_, ?_⟩
    · rw [hmailboxes, hworkers]
      exact h.shaped.length_eq
    · rw [hmailboxes]
      exact h.shaped.room
  cases (does_of_act? hact).2 with
  | enqueue command timestamp args _ =>
    refine h.frame (limit_enqueue p command timestamp args) ?_
      (.inl (hand_enqueue p command timestamp args))
    refine hboxes (mailboxes_enqueue p command timestamp args) ?_
    simp only [enqueue]
    split <;> rfl
  | resume => exact h.frame (limit_resume p.channel) (hboxes rfl rfl) (.inl rfl)
  | look | lookFails | lookAborts =>
    -- Only here a record comes in hand.
    refine ⟨(limit_look p.dispatcher).trans h.limit_eq, hboxes (mailboxes_look p.dispatcher) rfl, ?_⟩
    intro l home hholding
    rw [← h.limit_eq]
    exact length_of_look hholding
  | @place l home result hholding hresult =>
    rcases h.place_cases hholding with hplace | ⟨w, m, m', next, hm, hsize, hplace⟩
    · rw [hplace] at hresult
      cases hresult
    · rw [hplace]
      exact h.frame rfl (h.shaped.setMailbox hm hsize rfl) (.inr (by rintro _ _ ⟨⟩))
  | @release l _ _ =>
    exact h.frame (Ring.limit_moveRead p.ring l.next)
      (hboxes (mailboxes_release p.dispatcher l) rfl) (.inr (by rintro _ _ ⟨⟩))
  | lookPanics =>
    exact h.frame (limit_look p.dispatcher) (hboxes (mailboxes_look p.dispatcher) rfl)
      (.inr (by rintro _ _ ⟨⟩))
  | goOn | giveUp => exact h.frame rfl (hboxes rfl rfl) (.inr (by rintro _ _ ⟨⟩))
  | wait => exact h.frame rfl (hboxes rfl rfl) (.inl rfl)
  | leave =>
    exact h.frame rfl ((boxesKept_leave p).shaped limit h.shaped) (.inr (by rintro _ _ ⟨⟩))
  | @serve i =>
    have hset := h.shaped.setWorker i .served
    exact h.frame rfl ⟨hset.length_eq, hset.room⟩ (.inl rfl)
  | @serveAborts i =>
    have hcleared := h.shaped.clearMailbox i
    exact h.frame rfl ⟨hcleared.length_eq, hcleared.room⟩ (.inl rfl)
  | @free i =>
    exact h.frame rfl ((h.shaped.clearMailbox i).setWorker i .ready) (.inl rfl)
  | @findEmpty i => exact h.frame rfl (h.shaped.setWorker i .foundEmpty) (.inl rfl)
  | @checkStop i => exact h.frame rfl (h.shaped.setWorker i _) (.inl rfl)
  | raiseStop | raiseWorkersStop | readRing | readMailbox =>
    exact h.frame rfl (hboxes rfl rfl) (.inl rfl)

theorem housed_of_reachable {r : Ring} {routing : Routing} {workers : Nat} (hlimit : r.limit = limit)
    (reached : Reachable (.ofRing r routing workers limit) p) : p.Housed limit := by
  refine reached.keeps (I := Housed limit) ⟨hlimit, shaped_ofRing r routing workers limit, ?_⟩
    Housed.step
  rintro l home ⟨⟩

end Steps

/-! ## All stages -/

/-- At every limit that is allowed, what is packed is turned away by no stage: it is planned, read, put
into a free mailbox and unpacked.  And in a pipeline with that limit no free mailbox ever refuses what the
dispatcher has in hand, whatever bytes its ring was opened on. -/
theorem admitted_of_pack {command : Command} {timestamp : Nat} {args : List Bytes} {limit n : Nat}
    {buffer record : Bytes} (hlimit : Ring.checkRecordLimit limit = .ok ())
    (hpack : Record.pack command timestamp args limit buffer = (.ok n, record)) :
    Record.Admitted limit record ⟨timestamp, command, args⟩ ∧
      ∀ (r : Ring) (routing : Routing) (workers : Nat) (p : Pipeline), r.limit = limit →
        Reachable (.ofRing r routing workers limit) p →
        ∀ l home, p.dispatcher.hand = .holding l home →
          ∀ fault, (p.dispatcher.place l home).1 ≠ some (.error fault) := by
  refine ⟨.of_pack hlimit hpack, ?_⟩
  intro r routing workers p hring reached l home hholding fault hfault
  have hhoused := housed_of_reachable hring reached
  rcases hhoused.place_cases hholding with hplace | ⟨w, m, m', next, -, -, hplace⟩
  · rw [hplace] at hfault
    cases hfault
  · rw [hplace] at hfault
    cases hfault

/-- The longest record that the limit allows.  It has come through the ring, and its worker's mailbox
takes it. -/
theorem admitted_of_pack_longest :
    ∃ p l, Record.pack .incr 0 [[97]] 14 [1, 2, 3] = (.ok 13, Job.encode ⟨0, .incr, [[97]]⟩) ∧
      Record.Admitted 14 (Job.encode ⟨0, .incr, [[97]]⟩) ⟨0, .incr, [[97]]⟩ ∧
      Reachable (ofRing (.create 64 14) .keyAffinity 1 14) p ∧
      p.dispatcher.hand = .holding l (some 0) ∧ l.payload = Job.encode ⟨0, .incr, [[97]]⟩ ∧
      ∀ fault, (p.dispatcher.place l (some 0)).1 ≠ some (.error fault) := by
  have hseen : ((ofRing (.create 64 14) .keyAffinity 1 14).run?
      [.enqueue .incr 0 [[97]], .goOn, .look]).map (fun p => p.dispatcher.hand) =
      some (.holding ⟨0, Job.encode ⟨0, .incr, [[97]]⟩, 17⟩ (some 0)) := by
    decide +kernel
  rcases Option.map_eq_some_iff.1 hseen with ⟨p, hrun, hholding⟩
  have hpack : Record.pack .incr 0 [[97]] 14 [1, 2, 3] = (.ok 13, Job.encode ⟨0, .incr, [[97]]⟩) := rfl
  have reached := Reachable.refl.run hrun
  rcases admitted_of_pack rfl hpack with ⟨hadmitted, htaken⟩
  exact ⟨p, _, hpack, hadmitted, reached, hholding, rfl,
    htaken (.create 64 14) .keyAffinity 1 p rfl reached _ _ hholding⟩

end Pipeline
end WriteBehind
