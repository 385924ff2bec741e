import WriteBehind.Proofs.Ring.Counters

/-!
# Room — a push that does not fit, and the request that makes room for it

The producer asks for room and waits; the consumer finds the request at its next pop, and may have given
up records in between.

* `Fits r payload`: the plan of the push says that there is room for it, and `Counts r payload`: the write
  counter that it leads to is a word;
* `Call.Asks` and `Channel.Asked`: a pending request is the one that the waiting call has made, whatever
  has happened since;
* `Consumed b b'`: the consumer alone has gone on, and by `Consumed.eases` nothing but the read counter
  has moved then;
* `admitted_of_handled`: a push is let through by the first request that is served for it.
-/

namespace WriteBehind
namespace Ring

/-! ## Whether a payload fits -/

/-- There is room for the payload. -/
def Fits (r : Ring) (payload : Bytes) : Prop :=
  ∃ p, plan r.write r.read r.capacity r.limit payload.length = .ok p ∧ p.fits = true

/-- The write counter stays a word once the payload is published. -/
def Counts (r : Ring) (payload : Bytes) : Prop :=
  r.write + wrapPad r.write r.capacity r.limit + (payload.length + prefixLength) < 2 ^ 64

instance (r : Ring) (payload : Bytes) : Decidable (r.Counts payload) := inferInstanceAs (Decidable (_ < _))

/-- Nothing but the read counter moves from one ring to the other, and it moves on. -/
structure Eases (r r' : Ring) : Prop where
  capacity : r'.capacity = r.capacity
  limit : r'.limit = r.limit
  write : r'.write = r.write
  read : r.read ≤ r'.read

section Fitting

variable {r r' r'' : Ring} {payload : Bytes}

theorem Eases.refl (r : Ring) : Eases r r := ⟨rfl, rfl, rfl, Nat.le_refl _⟩

theorem Eases.trans (h : Eases r r') (h' : Eases r' r'') : Eases r r'' :=
  ⟨h'.capacity.trans h.capacity, h'.limit.trans h.limit, h'.write.trans h.write,
    Nat.le_trans h.read h'.read⟩

theorem plan_of_legal (hle : r.read ≤ r.write) (hpos : 0 < payload.length)
    (hlimit : payload.length < r.limit) :
    ∃ p, plan r.write r.read r.capacity r.limit payload.length = .ok p := by
  simp only [plan]
  rw [if_neg (by omega), if_neg (by omega)]
  exact ⟨_, rfl⟩

theorem fits_iff (hle : r.read ≤ r.write) (hpos : 0 < payload.length)
    (hlimit : payload.length < r.limit) :
    r.Fits payload ↔ r.write - r.read + wrapPad r.write r.capacity r.limit +
      (payload.length + prefixLength) ≤ r.capacity := by
  rcases plan_of_legal hle hpos hlimit with ⟨p, hplan⟩
  rcases plan_eq_ok hplan with ⟨-, -, -, hpad, -, hframe, hfit⟩
  rw [← hpad, ← hframe, ← decide_eq_true_eq (p := _ ≤ _), ← hfit]
  refine ⟨?_, fun hfits => ⟨p, hplan, hfits⟩⟩
  rintro ⟨p', hplan', hfits⟩
  cases hplan.symm.trans hplan'
  exact hfits

/-- Whoever waits with a frame of this length is let through where the payload fits. -/
theorem pendingFits_iff (hle : r.read ≤ r.write) (hpos : 0 < payload.length)
    (hlimit : payload.length < r.limit) (target : Nat) :
    r.pendingFits ⟨target, payload.length + prefixLength⟩ = true ↔ r.Fits payload := by
  have hpending : payload.length + prefixLength > 0 := by omega
  rw [fits_iff hle hpos hlimit, pendingFits, decide_eq_true hpending, Bool.true_and,
    decide_eq_true_eq]

theorem push_of_fits (h : r.Fits payload) (hcounts : r.Counts payload) :
    (r.push payload).1 = .ok .done ∧ (r.push payload).2.request = r.request := by
  rcases h with ⟨p, hplan, hfits⟩
  rcases plan_eq_ok hplan with ⟨-, -, -, hpad, -, hframe, -⟩
  have hword : p.nextWrite r.write < 2 ^ 64 := by
    rw [Counts, ← hpad, ← hframe] at hcounts
    rw [Plan.nextWrite]
    omega
  simp only [push, hplan, hfits, if_true, checkWord_of_lt hword]
  exact ⟨trivial, rfl⟩

theorem push_of_not_fits (hle : r.read ≤ r.write) (hpos : 0 < payload.length)
    (hlimit : payload.length < r.limit) (hword : growTarget r.capacity 0 < 2 ^ 64)
    (h : ¬ r.Fits payload) :
    r.push payload =
      r.askForRoom ⟨growTarget r.capacity 0, payload.length + prefixLength⟩ := by
  rcases plan_of_legal hle hpos hlimit with ⟨p, hplan⟩
  have hfits : ¬ p.fits = true := fun hfits => h ⟨p, hplan, hfits⟩
  rw [← (plan_eq_ok hplan).2.2.2.2.2.1]
  simp only [push, hplan, if_neg hfits, askToGrow, checkWord_of_lt hword]

/-- Wherever the counters stand, an empty ring has room for every payload. -/
theorem fits_of_empty (hcap : IsPowerOfTwo r.capacity)
    (hroom : 2 * frameReserve r.limit ≤ r.capacity) (hempty : r.read = r.write)
    (hpos : 0 < payload.length) (hlimit : payload.length < r.limit) : r.Fits payload := by
  have hpad : wrapPad r.write r.capacity r.limit < frameReserve r.limit := wrapPad_lt hcap
  rw [fits_iff (Nat.le_of_eq hempty) hpos hlimit]
  rw [frameReserve] at hpad hroom
  omega

/-- Frames that were laid out anew in twice the room leave the second half of it free. -/
theorem Anew.wrapPad_eq_zero (h : Anew r r') (hlevel : Level r)
    (hdouble : r'.capacity = 2 * r.capacity) (hroom : 2 * frameReserve r'.limit ≤ r.capacity) :
    wrapPad r'.write r'.capacity r'.limit = 0 := by
  have hunread := h.unread
  have hwrite := hlevel.write_le
  refine wrapPad_eq_zero_of_le h.fitted.powerOfTwo ?_
  have hmod := Nat.mod_le r'.write r'.capacity
  omega

theorem Anew.fits (h : Anew r r') (hlevel : Level r) (hdouble : r'.capacity = 2 * r.capacity)
    (hroom : 2 * frameReserve r'.limit ≤ r.capacity) (hpos : 0 < payload.length)
    (hlimit : payload.length < r'.limit) : r'.Fits payload := by
  have hread := h.read
  have hunread := h.unread
  have hwrite := hlevel.write_le
  rw [fits_iff h.level.read_le hpos hlimit, h.wrapPad_eq_zero hlevel hdouble hroom]
  rw [frameReserve] at hroom
  omega

theorem Anew.counts (h : Anew r r') (hlevel : Level r) (hdouble : r'.capacity = 2 * r.capacity)
    (hroom : 2 * frameReserve r'.limit ≤ r.capacity) (hword : r.capacity ≤ 2 ^ 62)
    (hlimit : payload.length < r'.limit) : r'.Counts payload := by
  have hunread := h.unread
  have hwrite := hlevel.write_le
  rw [Counts, h.wrapPad_eq_zero hlevel hdouble hroom]
  rw [frameReserve] at hroom
  omega

/-- What fits does so all the more once records were given up. -/
theorem Fits.of_eases (h : r.Fits payload) (heases : Eases r r') (hle : r'.read ≤ r'.write) :
    r'.Fits payload := by
  rcases h with ⟨p, hplan, hfits⟩
  rcases plan_eq_ok hplan with ⟨hpos, hlimit, -, hpad, -, hframe, hfit⟩
  have hread := heases.read
  rw [hfit, decide_eq_true_eq, hpad, hframe] at hfits
  rw [fits_iff hle hpos (by rw [heases.limit]; exact hlimit), heases.capacity, heases.limit,
    heases.write]
  omega

/-- The read counter does not matter to where the write counter is taken. -/
theorem Counts.of_eases (h : r.Counts payload) (heases : Eases r r') : r'.Counts payload := by
  rw [Counts, heases.write, heases.capacity, heases.limit]
  exact h

end Fitting

/-! ## Whose request is pending -/

/-- The request that a call makes of a ring that has too little room. -/
def Call.Asks (r : Ring) : Call → Request → Prop
  | .push payload, q => 0 < payload.length ∧ payload.length < r.limit ∧
      q = ⟨growTarget r.capacity 0, payload.length + prefixLength⟩
  | .grow capacity, q => r.capacity < capacity ∧ q = ⟨growTarget r.capacity capacity, 0⟩

/-- A pending request is the one that the waiting call has made. -/
def Channel.Asked (c : Channel) : Prop :=
  ∀ q, c.ring.request = some q → ∃ call, c.waiting = some call ∧ call.Asks c.ring q

namespace Channel

variable {c : Channel}

theorem Asked.settled (h : c.Asked) (hidle : c.waiting = none) : c.ring.request = none := by
  cases hrequest : c.ring.request with
  | none => rfl
  | some q =>
    rcases h q hrequest with ⟨call, hwaiting, -⟩
    cases hidle.symm.trans hwaiting

/-- The consumer's uses leave the request, or nothing is left of it. -/
theorem Asked.setRing (h : c.Asked) {r : Ring} (hring : r.request = none ∨
    r.request = c.ring.request ∧ r.capacity = c.ring.capacity ∧ r.limit = c.ring.limit) :
    ({ c with ring := r } : Channel).Asked := by
  intro q hq
  rcases hring with hnone | ⟨hrequest, hcapacity, hlimit⟩
  · cases hnone.symm.trans hq
  · rcases h q (hrequest.symm.trans hq) with ⟨call, hwaiting, hasks⟩
    refine ⟨call, hwaiting, ?_⟩
    cases call with
    | push payload =>
      rw [Call.Asks, hcapacity, hlimit]
      exact hasks
    | grow capacity =>
      rw [Call.Asks, hcapacity]
      exact hasks

/-- So does a use that leaves no request, or the ring as it was. -/
theorem Asked.setRing_of_same (h : c.Asked) {r : Ring} (hring : r.request = none ∨ r = c.ring) :
    ({ c with ring := r } : Channel).Asked := by
  rcases hring with hnone | rfl
  · exact h.setRing (.inl hnone)
  · exact h

/-- Asking for room is waiting with just this request, or being turned away without any. -/
theorem asked_askForRoom {r : Ring} {call : Call} {request : Request}
    (hasks : call.Asks r request) : (settle call (r.askForRoom request)).2.Asked := by
  rcases r.askForRoom_cases request with ⟨notice, hask⟩ | ⟨notice, fault, hask⟩
  · rw [hask]
    rintro q ⟨⟩
    exact ⟨call, rfl, hasks⟩
  · rw [hask]
    intro q hq
    cases hq

theorem asked_of_none (h : c.ring.request = none) : c.Asked := by
  intro q hq
  cases h.symm.trans hq

theorem asked_attempt {r : Ring} (hnone : r.request = none) (call : Call) :
    (settle call (attempt r call)).2.Asked := by
  cases call with
  | push payload =>
    rw [attempt]
    cases hplan : plan r.write r.read r.capacity r.limit payload.length with
    | error cause =>
      simp only [Ring.push, hplan]
      exact asked_of_none hnone
    | ok p =>
      rcases plan_eq_ok hplan with ⟨hpos, hlimit, -, -, -, hframe, -⟩
      rcases push_of_plan hplan with ⟨-, hpush⟩ | ⟨-, -, hpush⟩ | ⟨-, -, hpush⟩ | ⟨-, -, hpush⟩ <;> rw [hpush]
      · exact asked_of_none hnone
      · exact asked_of_none hnone
      · exact asked_of_none hnone
      · exact asked_askForRoom ⟨hpos, hlimit, congrArg _ hframe⟩
  | grow capacity =>
    rw [attempt, Ring.grow]
    split
    · exact asked_of_none hnone
    · rcases r.askToGrow_cases capacity 0 with hask | ⟨-, hask⟩ <;> rw [hask]
      · exact asked_of_none hnone
      · exact asked_askForRoom ⟨by omega, rfl⟩

theorem Asked.resume (h : c.Asked) : c.resume.2.Asked := by
  cases hwaiting : c.waiting with
  | none =>
    simp only [Channel.resume, hwaiting]
    exact h
  | some call =>
    cases hrequest : c.ring.request with
    | some q =>
      by_cases hopen : c.ring.consumerOpen = true
      · simp only [Channel.resume, hwaiting, hrequest, hopen, if_true]
        exact h
      · simp only [Channel.resume, hwaiting, hrequest, hopen, askForRoom]
        exact asked_of_none rfl
    | none =>
      simp only [Channel.resume, hwaiting, hrequest]
      cases call with
      | push payload => exact asked_attempt hrequest (.push payload)
      | grow capacity => exact asked_of_none hrequest

end Channel

/-- Whatever happens, nobody else's request is ever pending. -/
theorem asked_of_happens {limit : Nat} {b b' : Bench} {e : Bench.Event} (h : b.channel.Asked)
    (happens : Happens limit b e b') : b'.channel.Asked := by
  cases happens with
  | @use _ u huse =>
    -- Where the thread ends over the request, the ring is as it was.
    have hring : b.ring.pop.2.request = none ∨ b.ring.pop.2 = b.ring := by
      rcases b.ring.request_pop with hnone | hended
      · exact .inl hnone
      · exact .inr (congrArg Prod.snd hended)
    cases Bench.uses_of_use? huse with
    | @call call hidle =>
      -- No request is left over from another call.
      exact Channel.asked_attempt (h.settled hidle) call
    | resume => exact h.resume
    | pop | popFails => exact h.setRing_of_same hring
    | drop => exact h.setRing (.inr ⟨request_moveRead _ _, capacity_moveRead _ _, limit_moveRead _ _⟩)
    | unread => exact h
    | @serve q _ _ =>
      refine h.setRing_of_same ?_
      rcases b.ring.request_serve q with hnone | hended
      · exact .inl hnone
      · exact .inr (congrArg Prod.snd hended)
  | close => exact h.setRing (.inr ⟨rfl, rfl, rfl⟩)
  | refuse => exact Channel.asked_of_none rfl
  | reopen _ _ hopen => exact Channel.asked_of_none (level_of_openRing hopen).2.2.1

theorem asked_of_handled {limit : Nat} {b b' : Bench} (h : b.channel.Asked)
    (handled : Handled limit b b') : b'.channel.Asked := by
  induction handled with
  | refl => exact h
  | step _ happens ih => exact asked_of_happens ih happens

/-- So it is with every ring that was opened. -/
theorem asked_of_opened {d : Disk} {o : Options} {r : Ring} {b : Bench}
    (hopen : (d.openRing o).1 = .ok r) (handled : Handled o.limit (.ofRing r) b) :
    b.channel.Asked :=
  asked_of_handled (Channel.asked_of_none (level_of_openRing hopen).2.2.1) handled

/-! ## The consumer goes on alone -/

namespace Bench

theorem waiting_setRing (b : Bench) (r : Ring) (held : Option Lease) :
    (b.setRing r held).channel.waiting = b.channel.waiting := rfl

/-- The uses that only the consumer makes. -/
def Use.Consumers : Use → Prop
  | .pop | .drop | .unread | .serve => True
  | .call _ | .resume => False

end Bench

/-- The consumer has made any number of uses of the ring since, and nothing else has happened. -/
inductive Consumed (b : Bench) : Bench → Prop
  | refl : Consumed b b
  | step {b' b'' : Bench} {u : Bench.Use} (consumed : Consumed b b') (hconsumer : u.Consumers)
      (huse : b'.use? u = some b'') : Consumed b b''

section Consuming

variable {limit : Nat} {b b' : Bench} {r : Ring}

/-- A look at the front moves on the read counter at most. -/
theorem Level.eases_front (h : Level r) (hroom : frameReserve r.limit ≤ r.capacity) :
    Eases r r.front.2 := by
  have hclimbs := (h.front hroom).2.1
  refine ⟨hclimbs.capacity, hclimbs.limit, ?_, hclimbs.read⟩
  rcases r.front_moves with hsame | ⟨n, hmoved⟩
  · rw [hsame]
  · rw [hmoved, write_moveRead]

/-- The consumer can always pop while it has no record on loan. -/
theorem exists_use_pop (hheld : b.held = none) : ∃ b', b.use? .pop = some b' := by
  simp only [Bench.use?, hheld, if_true]
  rcases b.ring.pop with ⟨fault | record, r⟩
  · exact ⟨_, rfl⟩
  · exact ⟨_, rfl⟩

/-- A pop leaves the waiting call, and the ring as the pop does. -/
theorem ring_of_use_pop (huse : b.use? .pop = some b') :
    b'.ring = b.ring.pop.2 ∧ b'.channel.waiting = b.channel.waiting := by
  cases Bench.uses_of_use? huse with
  | pop | popFails => exact ⟨rfl, rfl⟩

/-- A consumer that has no request to serve moves the read counter on at most. -/
theorem Steady.eases (h : Steady limit b) (hnone : b.ring.request = none) {u : Bench.Use}
    (hconsumer : u.Consumers) (huse : b.use? u = some b') :
    b'.ring.request = none ∧ b'.channel.waiting = b.channel.waiting ∧ Eases b.ring b'.ring := by
  cases Bench.uses_of_use? huse with
  | call | resume => cases hconsumer
  | pop | popFails =>
    rw [pop_eq_front hnone]
    exact ⟨b.ring.front_keeps.2.trans hnone, rfl, h.level.eases_front h.reserve_le⟩
  | @drop l hheld =>
    have hring : (b.setRing (b.ring.release l) none).ring = b.ring.moveRead l.next := rfl
    have hspans := (h.held l hheld).1
    rw [hring]
    refine ⟨(request_moveRead _ _).trans hnone, b.waiting_setRing _ _, capacity_moveRead _ _,
      limit_moveRead _ _, write_moveRead _ _, ?_⟩
    rwa [read_moveRead]
  | unread => exact ⟨hnone, rfl, .refl _⟩
  | serve _ hq =>
    -- There is nothing to serve.
    cases hnone.symm.trans hq

theorem Consumed.eases (h : Consumed b b') (hsteady : Steady limit b)
    (hnone : b.ring.request = none) :
    Steady limit b' ∧ b'.ring.request = none ∧ b'.channel.waiting = b.channel.waiting ∧
      Eases b.ring b'.ring := by
  induction h with
  | refl => exact ⟨hsteady, hnone, rfl, .refl _⟩
  | step _ hconsumer huse ih =>
    rcases ih with ⟨hbefore, hnone', hwaiting, heases⟩
    rcases hbefore.eases hnone' hconsumer huse with ⟨hnone'', hwaiting', heases'⟩
    exact ⟨(hbefore.use huse).1, hnone'', hwaiting'.trans hwaiting,
      heases.trans heases'⟩

/-- A request that is served is gone. -/
theorem request_of_served {q : Request} (hserve : (r.serve q).1 = .ok ()) :
    (r.serve q).2.request = none := by
  rcases r.request_serve q with hnone | hended
  · exact hnone
  · rw [hended] at hserve
    cases hserve

/-- A pop first serves the request that is pending, and then moves the read counter on at most. -/
theorem Steady.eases_served (h : Steady limit b) {q : Request} (hq : b.ring.request = some q)
    (hserve : (b.ring.serve q).1 = .ok ()) (huse : b.use? .pop = some b') :
    Steady limit b' ∧ b'.ring.request = none ∧ b'.channel.waiting = b.channel.waiting ∧
      Eases (b.ring.serve q).2 b'.ring := by
  rcases ring_of_use_pop huse with ⟨hring, hwaiting⟩
  have hnone := request_of_served hserve
  rcases h.level.serve hq with ⟨hlevel, hlarge, -⟩
  have hlimit := (b.ring.serve_keeps q).1
  have hpop : b.ring.pop.2 = (b.ring.serve q).2.front.2 := by
    simp only [Ring.pop, hq]
    rw [show b.ring.serve q = (.ok (), (b.ring.serve q).2) from Prod.ext hserve rfl]
  refine ⟨(h.use huse).1, ?_, hwaiting, ?_⟩
  · rw [hring, hpop]
    exact ((b.ring.serve q).2.front_keeps.2).trans hnone
  · rw [hring, hpop]
    refine hlevel.eases_front ?_
    rw [hlimit]
    exact Nat.le_trans h.reserve_le hlarge

end Consuming

/-! ## A push that is let through -/

/-- What a push comes to that is made while no other call waits. -/
structure Starts (b : Bench) (payload : Bytes) : Prop where
  empty : b.ring.read = b.ring.write → b.ring.Fits payload
  fits : b.ring.Fits payload → b.ring.Counts payload →
    (b.channel.submit (.push payload)).1 = .ok .done ∧
      (b.channel.submit (.push payload)).2.ring.request = none
  parks : ¬ b.ring.Fits payload → b.ring.consumerOpen = true →
    (b.channel.submit (.push payload)).1 = .ok .parked ∧
      (b.channel.submit (.push payload)).2.waiting = some (.push payload) ∧
      (b.channel.submit (.push payload)).2.ring.request =
        some ⟨growTarget b.ring.capacity 0, payload.length + prefixLength⟩

/-- What the request of a push comes to that waits.  It is put off exactly if the payload fits by now,
and then nothing but the request is gone; otherwise the room is doubled.  Once it was served the payload
fits, whatever the consumer goes on to do, and the push is done without another request, if the write
counter stayed a word where the push was made. -/
structure Relieves (b : Bench) (payload : Bytes) (q : Request) : Prop where
  putOff : b.ring.pendingFits q = true ↔ b.ring.Fits payload
  spared : b.ring.Fits payload → b.ring.serve q = (.ok (), { b.ring with request := none })
  doubled : ¬ b.ring.Fits payload → (b.ring.serve q).1 = .ok () →
    (b.ring.serve q).2.capacity = 2 * b.ring.capacity
  through : (b.ring.serve q).1 = .ok () → ∀ b' b'', b.use? .pop = some b' → Consumed b' b'' →
    b''.ring.Fits payload ∧
      (b.ring.Counts payload → b''.channel.resume.1 = some (.ok .done) ∧
        b''.channel.resume.2.ring.request = none)

namespace Steady

variable {limit : Nat} {b : Bench} {payload : Bytes} {q : Request}

theorem two_reserves_le (h : Steady limit b) :
    2 * frameReserve b.ring.limit ≤ b.ring.capacity := by
  rw [h.limit_eq]
  exact Nat.le_trans (two_mul_frameReserve_le_minCapacity limit) h.minCapacity_le

/-- Twice the room is a word. -/
theorem double_word (h : Steady limit b) (hcapacity : b.ring.capacity < 2 ^ 62) :
    growTarget b.ring.capacity 0 = 2 * b.ring.capacity ∧ growTarget b.ring.capacity 0 < 2 ^ 64 := by
  have htarget := growTarget_zero h.level.powerOfTwo (show b.ring.capacity < 2 ^ 63 by omega)
  refine ⟨htarget, ?_⟩
  omega

theorem starts (h : Steady limit b) (hcapacity : b.ring.capacity < 2 ^ 62)
    (hidle : b.channel.waiting = none) (hpos : 0 < payload.length) (hlimit : payload.length < limit) :
    Starts b payload := by
  have hnone : b.ring.request = none := h.settled hidle
  rw [← h.limit_eq] at hlimit
  refine ⟨?_, ?_, ?_⟩
  · intro hempty
    exact fits_of_empty h.level.powerOfTwo h.two_reserves_le hempty hpos hlimit
  · intro hfits hcounts
    rcases push_of_fits hfits hcounts with ⟨hdone, hrequest⟩
    rw [Channel.submit, Channel.settle_fst, Channel.settle_ring]
    exact ⟨hdone, hrequest.trans hnone⟩
  · intro hfits hopen
    have hpush := push_of_not_fits h.level.read_le hpos hlimit (h.double_word hcapacity).2 hfits
    simp only [Channel.submit, Channel.attempt]
    rw [show b.channel.ring.push payload = _ from hpush, askForRoom]
    simp only [hopen, if_true]
    exact ⟨rfl, rfl, rfl⟩

/-- Serving the request of a push that does not fit doubles the room, if it goes through. -/
theorem doubled (h : Steady limit b) (hcapacity : b.ring.capacity < 2 ^ 62)
    (hasks : Call.Asks b.ring (.push payload) q) (hfits : ¬ b.ring.Fits payload)
    (hserve : (b.ring.serve q).1 = .ok ()) :
    (b.ring.serve q).2.capacity = 2 * b.ring.capacity := by
  rcases hasks with ⟨hpos, hlimit, rfl⟩
  have hcap := h.level.powerOfTwo
  have hpos' := hcap.pos
  have hput : b.ring.pendingFits
      ⟨growTarget b.ring.capacity 0, payload.length + prefixLength⟩ = false := by
    rw [Bool.eq_false_iff]
    exact fun hput => hfits ((pendingFits_iff h.level.read_le hpos hlimit _).1 hput)
  have htarget := (h.double_word hcapacity).1
  have hgoal : nextPowerOfTwo (max (max (growTarget b.ring.capacity 0)
      (growTarget b.ring.capacity 0)) b.ring.capacity) = 2 * b.ring.capacity := by
    rw [htarget, Nat.max_self, Nat.max_eq_left (by omega)]
    exact nextPowerOfTwo_of_isPowerOfTwo hcap.double
  rw [capacity_of_serve hput hserve (by rw [hgoal]; omega), hgoal]

/-- The payload fits once its request was served, and the write counter stays a word. -/
theorem fits_of_serve (h : Steady limit b) (hcapacity : b.ring.capacity < 2 ^ 62)
    (hq : b.ring.request = some q) (hasks : Call.Asks b.ring (.push payload) q)
    (hserve : (b.ring.serve q).1 = .ok ()) :
    (b.ring.serve q).2.Fits payload ∧
      (b.ring.Counts payload → (b.ring.serve q).2.Counts payload) := by
  have hasks' := hasks
  rcases hasks' with ⟨hpos, hlimit, rfl⟩
  by_cases hfits : b.ring.Fits payload
  · -- The request is put off, and the counters are what they were.
    rw [serve_of_fits ((pendingFits_iff h.level.read_le hpos hlimit _).2 hfits)]
    exact ⟨hfits, id⟩
  · have hdouble := h.doubled hcapacity hasks hfits hserve
    have hsame := (b.ring.serve_keeps
      ⟨growTarget b.ring.capacity 0, payload.length + prefixLength⟩).1
    -- A ring whose room was doubled has had its frames laid out anew.
    rcases h.level.toFitted.serve hq with hstays | ⟨-, hanew⟩
    · have hpos' := h.level.powerOfTwo.pos
      have hcapacity' := hstays.capacity
      omega
    · have hroom := h.two_reserves_le
      rw [← hsame] at hroom hlimit
      exact ⟨hanew.fits h.level hdouble hroom hpos hlimit,
        fun _ => hanew.counts h.level hdouble hroom (Nat.le_of_lt hcapacity) hlimit⟩

theorem relieves (h : Steady limit b) (hcapacity : b.ring.capacity < 2 ^ 62)
    (hwaiting : b.channel.waiting = some (.push payload)) (hq : b.ring.request = some q)
    (hasks : Call.Asks b.ring (.push payload) q) : Relieves b payload q := by
  have hputOff : b.ring.pendingFits q = true ↔ b.ring.Fits payload := by
    rcases hasks with ⟨hpos, hlimit, rfl⟩
    exact pendingFits_iff h.level.read_le hpos hlimit _
  refine ⟨hputOff, fun hfits => serve_of_fits (hputOff.2 hfits), h.doubled hcapacity hasks, ?_⟩
  intro hserve b' b'' huse hconsumed
  rcases h.eases_served hq hserve huse with ⟨hsteady, hnone, hwaiting', heases⟩
  rcases hconsumed.eases hsteady hnone with ⟨hsteady', hnone', hwaiting'', heases'⟩
  rcases h.fits_of_serve hcapacity hq hasks hserve with ⟨hserved, hcounted⟩
  -- Behind the serving the read counter moves on, and no farther than the write counter.
  have hfits : b''.ring.Fits payload :=
    hserved.of_eases (heases.trans heases') hsteady'.level.read_le
  refine ⟨hfits, fun hcounts => ?_⟩
  rcases push_of_fits hfits ((hcounted hcounts).of_eases (heases.trans heases')) with ⟨hdone, hrequest⟩
  have hwaits := hwaiting''.trans (hwaiting'.trans hwaiting)
  rcases Channel.resume_push_cases hwaits with ⟨q', hq', -⟩ | ⟨q', notice, hq', -⟩ | ⟨-, hresume⟩
  · cases hnone'.symm.trans hq'
  · cases hnone'.symm.trans hq'
  · rw [hresume, Channel.settle_ring]
    exact ⟨congrArg some hdone, hrequest.trans hnone'⟩

end Steady

/-- Of every ring that was opened, whatever has happened to it since: a push that is made on an empty
ring is done at once, and one that does not fit is let through by the request that it makes, if that
is served at all. -/
theorem admitted_of_handled {d : Disk} {o : Options} {r : Ring} {b : Bench} {payload : Bytes}
    (hopen : (d.openRing o).1 = .ok r) (handled : Handled o.limit (.ofRing r) b)
    (hcapacity : b.ring.capacity < 2 ^ 62) (hpos : 0 < payload.length)
    (hlimit : payload.length < o.limit) :
    (b.channel.waiting = none → Starts b payload) ∧
      ∀ q, b.channel.waiting = some (.push payload) → b.ring.request = some q →
        Relieves b payload q := by
  have hsteady : Steady o.limit b := ((Steady.ofRing hopen).handled handled).1
  refine ⟨fun hidle => hsteady.starts hcapacity hidle hpos hlimit, ?_⟩
  intro q hwaiting hq
  rcases asked_of_opened hopen handled q hq with ⟨call, hcall, hasks⟩
  cases hwaiting.symm.trans hcall
  exact hsteady.relieves hcapacity hwaiting hq hasks

/-- Two records take up the ring, and a third one waits until the room is doubled. -/
theorem admitted_of_handled_doubled :
    ∃ r b b', (({} : Disk).openRing ⟨1, 12, none⟩).1 = .ok r ∧ Handled 12 (.ofRing r) b ∧
      b.channel.waiting = some (.push [3]) ∧ b.use? .pop = some b' ∧ b'.ring.capacity = 64 ∧
      b'.channel.resume.1 = some (.ok .done) := by
  have hopen : (({} : Disk).openRing ⟨1, 12, none⟩).1 = .ok (.create 32 12) := rfl
  have opened : Handled 12 (.ofRing (.create 32 12)) _ := .refl
  have first := opened.step (.use (u := .call (.push (List.replicate 10 1))) rfl)
  have second := first.step (.use (u := .call (.push (List.replicate 10 2))) rfl)
  have asked := second.step (.use (u := .call (.push [3])) rfl)
  have hpayload : 0 < ([3] : Bytes).length ∧ ([3] : Bytes).length < 12 := by decide
  have relieves := (admitted_of_handled hopen asked (by decide) hpayload.1 hpayload.2).2
    ⟨64, 5⟩ rfl rfl
  rcases exists_use_pop (b := { channel := _ }) rfl with ⟨b', huse⟩
  -- The room would be what it was if the request could not be served.
  have through := relieves.through ((capacity_serve _ ⟨64, 5⟩).resolve_left (by decide +kernel)).1
    b' b' huse .refl
  refine ⟨_, _, b', hopen, asked, rfl, huse, ?_, (through.2 (by decide +kernel)).1⟩
  rw [(ring_of_use_pop huse).1]
  decide +kernel

end Ring
end WriteBehind
