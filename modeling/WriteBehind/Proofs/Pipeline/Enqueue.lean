import WriteBehind.Proofs.Pipeline.Delivery
import WriteBehind.Proofs.Ring.Level
import WriteBehind.Proofs.Ring.Trace

/-!
# Enqueue — a job comes into the ring whole, or not at all

A call of `enqueue` is one attempt to push the record of its job, or several if it has to wait for room.
What others do in between, and what an earlier call has left in the buffer, makes no difference.

* `Ring.Appends r r' record`: behind the unread bytes of the ring there is one more record, and
  `Ring.Retains r r'`: the unread bytes are what they were and nothing is behind them;
* `Sturdy limit r` is what every ring of a pipeline keeps to, whatever bytes it was opened on;
* `Attempt start job b a progress q`: with the step `a`, which leads from `b` to `q`, a call for this job
  comes as far as `progress`;
* `enqueued_of_attempt`: one that is not done leaves the records as they were, and one that is done has
  appended the record of its job;
* `enqueued_behind_padding`: the record is not given where its padding is too long for the dirty size.
-/

namespace WriteBehind

/-! ## Appending -/

namespace Ring

/-- From `r` to `r'` one record was appended.  The unread bytes are where they were, and behind them
stands the record's frame. -/
structure Appends (r r' : Ring) (record : Bytes) : Prop where
  read : r'.read = r.read
  capacity : r'.capacity = r.capacity
  limit : r'.limit = r.limit
  write : r.write < r'.write
  kept : ∀ c, r.read ≤ c → c < r.write →
    r'.view.byte (c % r.capacity) = r.view.byte (c % r.capacity)
  frame : r'.view.Layout r.write r'.write [record]
  backlog : ∀ records, r.view.Layout r.read r.write records →
    r'.backlog.payloads = records ++ [record] ∧ r'.backlog.defect = none

/-- From `r` to `r'` no record was added.  The counters and the unread bytes are what they were. -/
structure Retains (r r' : Ring) : Prop where
  read : r'.read = r.read
  write : r'.write = r.write
  capacity : r'.capacity = r.capacity
  limit : r'.limit = r.limit
  kept : ∀ c, r.read ≤ c → c < r.write →
    r'.view.byte (c % r.capacity) = r.view.byte (c % r.capacity)
  backlog : ∀ records, r.view.Layout r.read r.write records →
    r'.backlog.payloads = records ∧ r'.backlog.defect = none

section Pushing

variable {r : Ring} {payload : Bytes} {p : Plan}

/-- The frame that a plan puts in its place stands at the place of no unread byte. -/
theorem Sized.byte_place (h : Sized r)
    (hplan : plan r.write r.read r.capacity r.limit payload.length = .ok p) (hfits : p.fits = true)
    {c : Nat} (hlo : r.read ≤ c) (hhi : c < r.write) :
    (r.place p payload).view.byte (c % r.capacity) = r.view.byte (c % r.capacity) := by
  have hframe := (plan_eq_ok hplan).2.2.2.2.2.1
  have hplace := plan_disjoint h.powerOfTwo hplan hfits hlo hhi
  have hlength := View.length_encodeFrame payload
  refine byte_place_of_disjoint r.image p payload (Nat.le_add_right _ _) ?_
  omega

theorem Sized.appends (h : Sized r)
    (hplan : plan r.write r.read r.capacity r.limit payload.length = .ok p) (hfits : p.fits = true)
    (hword : p.nextWrite r.write < 2 ^ 64) (hnotes : r.NotesPad payload) :
    Appends r (r.publish p payload) payload := by
  have hpos := (plan_eq_ok hplan).1
  have hframe := (plan_eq_ok hplan).2.2.2.2.2.1
  have hnew : (r.publish p payload).view.Layout r.write (r.publish p payload).write [payload] :=
    h.layout_publish_new hplan (hnotes p hplan hfits)
  refine ⟨rfl, rfl, rfl, ?_, ?_, hnew, ?_⟩
  · show r.write < r.write + (p.pad + p.frameLength)
    omega
  · intro c hlo hhi
    rw [view_publish]
    exact h.byte_place hplan hfits hlo hhi
  · intro records hlayout
    have hwhole := (h.layout_publish_old hlayout (Nat.le_refl _) hplan hfits).append hnew
    exact hwhole.walk_eq (Nat.le_of_lt h.limit_lt) hword

/-- A push that ends in front of the store of the write counter has changed no unread byte. -/
theorem Sized.retains_place (h : Sized r)
    (hplan : plan r.write r.read r.capacity r.limit payload.length = .ok p) (hfits : p.fits = true) :
    Retains r (r.place p payload) := by
  refine ⟨rfl, rfl, rfl, rfl, fun c => h.byte_place hplan hfits, ?_⟩
  intro records hlayout
  exact (h.layout_place hlayout (Nat.le_refl _) hplan hfits).walk_eq (Nat.le_of_lt h.limit_lt) h.write_lt

theorem Untouched.retains {r' : Ring} (huntouched : Untouched r r') (h : Sized r) : Retains r r' := by
  refine ⟨huntouched.read, huntouched.write, huntouched.capacity, huntouched.limit, ?_, ?_⟩
  · intro c _ _
    simp only [view, huntouched.image]
  · intro records hlayout
    rw [huntouched.backlog]
    exact hlayout.walk_eq (Nat.le_of_lt h.limit_lt) h.write_lt

end Pushing

end Ring

/-! ## Rings of a pipeline -/

namespace Pipeline

/-- The ring of a pipeline, whatever bytes it was opened on: its sizes fit each other, and it has room for
two frames. -/
structure Sturdy (limit : Nat) (r : Ring) : Prop where
  sized : Ring.Sized r
  limit_eq : r.limit = limit

namespace Sturdy

variable {limit : Nat} {r r' : Ring}

theorem ofOpen {d : Disk} {o : Ring.Options} (hopen : (d.openRing o).1 = .ok r) :
    Sturdy o.limit r :=
  ⟨Ring.sized_of_openRing hopen, (Ring.level_of_openRing hopen).2.1⟩

theorem push (h : Sturdy limit r) (payload : Bytes) : Sturdy limit (r.push payload).2 :=
  ⟨h.sized.push payload, (r.push_keeps payload).1.trans h.limit_eq⟩

theorem moveRead (h : Sturdy limit r) (n : Nat) : Sturdy limit (r.moveRead n) :=
  ⟨h.sized.moveRead n, (Ring.limit_moveRead r n).trans h.limit_eq⟩

theorem pop (h : Sturdy limit r) : Sturdy limit r.pop.2 :=
  ⟨h.sized.pop, r.pop_keeps.1.trans h.limit_eq⟩

/-- The consumer's end is nothing to the sizes. -/
theorem close (h : Sturdy limit r) : Sturdy limit r.closeConsumer :=
  ⟨h.sized.of_eq rfl rfl rfl rfl, h.limit_eq⟩

variable {p q : Pipeline}

theorem enqueue (h : Sturdy limit p.ring) (command : Command) (timestamp : Nat)
    (args : List Bytes) : Sturdy limit (p.enqueue command timestamp args).2.ring := by
  rcases ring_enqueue p command timestamp args with hring | ⟨record, hring⟩
  · rwa [hring]
  · rw [hring]
    exact h.push record

theorem resume {c : Ring.Channel} (h : Sturdy limit c.ring) : Sturdy limit c.resume.2.ring := by
  rcases c.ring_resume with ⟨notice, request, hring⟩ | ⟨payload, hring⟩
  · rw [hring]
    exact ⟨h.sized.of_eq rfl rfl rfl rfl, h.limit_eq⟩
  · rw [hring]
    exact h.push payload

theorem look {d : Dispatcher} (h : Sturdy limit d.ring) : Sturdy limit d.look.2.ring := by
  rcases ring_look d with hlook | ⟨l, -, hlook⟩
  · rw [hlook]
    exact h.pop
  · rw [hlook]
    exact h.pop.moveRead l.next

end Sturdy

/-! ## Every state -/

section States

variable {p q : Pipeline} {a : Action}

theorem Sturdy.step {limit : Nat} (h : Sturdy limit p.ring) (hact : p.act? a = some q) :
    Sturdy limit q.ring := by
  cases (does_of_act? hact).2 with
  | enqueue command timestamp args _ => exact h.enqueue command timestamp args
  | resume => exact Sturdy.resume h
  | look | lookFails | lookAborts => exact Sturdy.look h
  | lookPanics => exact (Sturdy.look h).close
  | @place l home _ _ _ =>
    show Sturdy limit (p.dispatcher.place l home).2.ring
    rw [ring_place]
    exact h
  | @release l _ _ => exact h.moveRead l.next
  | leave => exact h.close
  | raiseStop | raiseWorkersStop | goOn | wait | giveUp | serve | serveAborts | free | findEmpty
  | checkStop | readRing | readMailbox => exact h

theorem Sturdy.reachable {limit : Nat} {start : Pipeline} (h : Sturdy limit start.ring)
    (reached : Reachable start p) : Sturdy limit p.ring :=
  reached.keeps h Sturdy.step

theorem Sturdy.through {limit : Nat} {allowed : Action → Prop} (h : Sturdy limit p.ring)
    (steps : Through allowed p q) : Sturdy limit q.ring :=
  steps.keeps (I := fun p => Sturdy limit p.ring) h fun _ hp hact => hp.step hact

end States

/-! ## Calls -/

/-- With the step `a` from `b` to `q` a call of `enqueue` for the job comes as far as `progress`: it is
done, refused, or left waiting. -/
inductive Attempt (start : Pipeline) (job : Job) :
    Pipeline → Action → Except Fault Ring.Progress → Pipeline → Prop
  /-- The call is made, whatever is in the buffer. -/
  | first {p q : Pipeline} (scratch : Bytes) (reached : Reachable start p)
      (hact : { p with scratch }.act? (.enqueue job.command job.timestamp job.args) = some q) :
      Attempt start job { p with scratch } (.enqueue job.command job.timestamp job.args)
        ({ p with scratch }.enqueue job.command job.timestamp job.args).1 q
  /-- A call that was left waiting goes on. -/
  | again {b q b' q' : Pipeline} {a : Action} {progress : Except Fault Ring.Progress}
      (before : Attempt start job b a (.ok .parked) q)
      (meanwhile : Through (fun a => a.isCall = false) q b')
      (hact : b'.act? .resume = some q') (hprogress : b'.channel.resume.1 = some progress) :
      Attempt start job b' .resume progress q'

/-- The stores of a step of the caller: those of the push that it comes to, if it comes to one. -/
def callerStores (p : Pipeline) : Action → List Ring.Store
  | .enqueue command timestamp args =>
    match Record.pack command timestamp args p.ring.limit p.scratch with
    | (.ok _, record) => p.ring.pushStores record
    | (.error _, _) => []
  | .resume => Ring.Bench.stores ⟨p.channel, none⟩ .resume
  | _ => []

/-- What an attempt comes to.  Unless it is done, the records are those that were there, and it has made no
store at all unless the thread ends over a number that no word holds.  If it is done, the record that was
appended is that of the job. -/
structure AllOrNothing (job : Job) (b : Pipeline) (a : Action)
    (progress : Except Fault Ring.Progress) (q : Pipeline) : Prop where
  image : q.ring.image = b.ring.image.applyAll (b.callerStores a)
  unchanged : progress ≠ .ok .done → Ring.Retains b.ring q.ring ∧
    ∀ j : Journal, (j.after b a q).accepted = j.accepted
  nothing : progress ≠ .ok .done → progress ≠ .error Cause.overflow.fault →
    b.callerStores a = [] ∧ Ring.Untouched b.ring q.ring ∧ q.ring.backlog = b.ring.backlog
  all : progress = .ok .done → (job.timestamp < 2 ^ 32 → Record.unpack job.encode = .ok job) ∧
    b.callerStores a = b.ring.pushStores job.encode ∧
    (∀ j : Journal, (j.after b a q).accepted = j.accepted ++ [job.encode]) ∧
    (b.ring.NotesPad job.encode → Ring.Appends b.ring q.ring job.encode)

/-! ## One attempt -/

/-- A push makes no store at all, or ends over its write counter, or appends its payload. -/
theorem Sturdy.push_cases {limit : Nat} {r : Ring} (h : Sturdy limit r) (payload : Bytes) :
    ((r.push payload).1 ≠ .ok .done ∧ r.pushStores payload = [] ∧
      Ring.Untouched r (r.push payload).2) ∨
    ((r.push payload).1 = .error Cause.overflow.fault ∧ Ring.Retains r (r.push payload).2) ∨
    ((r.push payload).1 = .ok .done ∧ (r.NotesPad payload →
      Ring.Appends r (r.push payload).2 payload)) := by
  have hunfit : ∀ {p : Ring.Plan}, Ring.plan r.write r.read r.capacity r.limit payload.length = .ok p →
      p.fits = false → r.pushStores payload = [] := by
    intro p hplan hfits
    simp only [Ring.pushStores, hplan, hfits, Bool.false_eq_true, if_false]
  cases hplan : Ring.plan r.write r.read r.capacity r.limit payload.length with
  | error cause =>
    have hpush : r.push payload = (.error cause.fault, r) := by simp only [Ring.push, hplan]
    rw [hpush]
    refine .inl ⟨by rintro ⟨⟩, ?_, .refl r⟩
    simp only [Ring.pushStores, hplan]
  | ok p =>
    rcases Ring.push_of_plan hplan with ⟨hfits, hpush⟩ | ⟨hfits, hword, hpush⟩ | ⟨hfits, -, hpush⟩ |
      ⟨hfits, -, hpush⟩ <;> rw [hpush]
    · exact .inl ⟨by rintro ⟨⟩, hunfit hplan hfits, .refl r⟩
    · exact .inr (.inr ⟨rfl, h.sized.appends hplan hfits hword⟩)
    · exact .inr (.inl ⟨rfl, h.sized.retains_place hplan hfits⟩)
    · refine .inl ⟨?_, hunfit hplan hfits, Ring.untouched_askForRoom r _⟩
      rcases r.askForRoom_cases ⟨Ring.growTarget r.capacity 0, p.frameLength⟩ with
        ⟨notice, hask⟩ | ⟨notice, fault, hask⟩ <;> rw [hask] <;> rintro ⟨⟩

/-- Packing is refused, or it gives the record of the job, whatever was in the buffer. -/
theorem Sturdy.pack_cases {limit : Nat} {r : Ring} (h : Sturdy limit r) (job : Job)
    (scratch : Bytes) :
    (∃ cause left, Record.pack job.command job.timestamp job.args r.limit scratch =
      (.error cause, left)) ∨
    (∃ n, Record.pack job.command job.timestamp job.args r.limit scratch = (.ok n, job.encode) ∧
      (job.timestamp < 2 ^ 32 → Record.unpack job.encode = .ok job)) := by
  cases hpack : Record.pack job.command job.timestamp job.args r.limit scratch with
  | mk result record =>
    cases result with
    | error cause => exact .inl ⟨cause, record, rfl⟩
    | ok n =>
      rcases Record.pack_eq_ok hpack h.sized.limit_lt with ⟨hrecord, -, hunpack⟩
      have hencode : record = job.encode := hrecord
      subst hencode
      refine .inr ⟨n, rfl, ?_⟩
      intro hstamp
      rw [hunpack, Nat.mod_eq_of_lt hstamp]

section Attempts

variable {limit : Nat} {b q : Pipeline} {job : Job} {a : Action}
  {progress : Except Fault Ring.Progress}

theorem Sturdy.allOrNothing_untouched (h : Sturdy limit b.ring) (hdone : progress ≠ .ok .done)
    (hstores : b.callerStores a = []) (huntouched : Ring.Untouched b.ring q.ring)
    (hadded : ∀ j : Journal, (j.after b a q).accepted = j.accepted) :
    AllOrNothing job b a progress q := by
  refine ⟨?_, fun _ => ⟨huntouched.retains h.sized, hadded⟩,
    fun _ _ => ⟨hstores, huntouched, huntouched.backlog⟩, fun hc => absurd hc hdone⟩
  rw [hstores]
  exact huntouched.image

/-- An attempt that comes to a push of the job's record. -/
theorem Sturdy.allOrNothing_push (h : Sturdy limit b.ring)
    (hreads : job.timestamp < 2 ^ 32 → Record.unpack job.encode = .ok job)
    (hprogress : progress = (b.ring.push job.encode).1)
    (hring : q.ring = (b.ring.push job.encode).2)
    (hstores : b.callerStores a = b.ring.pushStores job.encode)
    (hadded : ∀ j : Journal, (j.after b a q).accepted =
      j.accepted ++ Ring.added job.encode progress) :
    AllOrNothing job b a progress q := by
  subst hprogress
  have himage : q.ring.image = b.ring.image.applyAll (b.callerStores a) := by
    rw [hring, hstores]
    exact Ring.image_push b.ring job.encode
  have hsame : (b.ring.push job.encode).1 ≠ .ok .done →
      ∀ j : Journal, (j.after b a q).accepted = j.accepted := by
    intro hdone j
    rw [hadded, Ring.added_of_ne hdone, List.append_nil]
  rcases h.push_cases job.encode with ⟨hdone, hnone, huntouched⟩ | ⟨hended, hretains⟩ |
    ⟨hdone, happends⟩
  · exact h.allOrNothing_untouched hdone (hstores.trans hnone) (hring ▸ huntouched) (hsame hdone)
  · refine ⟨himage, fun hdone => ⟨hring ▸ hretains, hsame hdone⟩, fun _ hc => absurd hended hc, ?_⟩
    rw [hended]
    rintro ⟨⟩
  · refine ⟨himage, fun hc => absurd hdone hc, fun hc => absurd hdone hc,
      fun _ => ⟨hreads, hstores, ?_, hring ▸ happends⟩⟩
    intro j
    rw [hadded, hdone]
    rfl

theorem Sturdy.allOrNothing_enqueue (h : Sturdy limit b.ring) (job : Job) :
    AllOrNothing job b (.enqueue job.command job.timestamp job.args)
      (b.enqueue job.command job.timestamp job.args).1
      (b.enqueue job.command job.timestamp job.args).2 := by
  rcases h.pack_cases job b.scratch with ⟨cause, left, hpack⟩ | ⟨n, hpack, hreads⟩
  · -- Nothing is submitted, and only the buffer has changed.
    have henqueue : b.enqueue job.command job.timestamp job.args =
        (.error cause.fault, { b with scratch := left }) := by
      simp only [Pipeline.enqueue, hpack]
    rw [henqueue]
    refine h.allOrNothing_untouched (by rintro ⟨⟩) ?_ (.refl b.ring) ?_
    · simp only [callerStores, hpack]
    · intro j
      simp only [Journal.after, henqueue]
      exact List.append_nil _
  · have henqueue : b.enqueue job.command job.timestamp job.args =
        ((b.channel.submit (.push job.encode)).1,
          { b.setChannel (b.channel.submit (.push job.encode)).2 with scratch := job.encode }) := by
      simp only [Pipeline.enqueue, hpack]
    rw [henqueue]
    refine h.allOrNothing_push hreads (Ring.Channel.settle_fst _ _) (Ring.Channel.settle_ring _ _)
      ?_ ?_
    · simp only [callerStores, hpack]
    · intro j
      simp only [Journal.after, henqueue]
      rfl

/-- A call that is left waiting at first waits with the record of its job. -/
theorem Sturdy.waiting_enqueue (h : Sturdy limit b.ring)
    (hparked : (b.enqueue job.command job.timestamp job.args).1 = .ok .parked) :
    (b.enqueue job.command job.timestamp job.args).2.channel.waiting = some (.push job.encode) ∧
      (job.timestamp < 2 ^ 32 → Record.unpack job.encode = .ok job) := by
  rcases h.pack_cases job b.scratch with ⟨cause, left, hpack⟩ | ⟨n, hpack, hreads⟩
  · simp only [Pipeline.enqueue, hpack] at hparked
    cases hparked
  · refine ⟨?_, hreads⟩
    simp only [Pipeline.enqueue, hpack] at hparked ⊢
    exact Ring.Channel.waiting_of_parked ((Ring.Channel.settle_fst _ _).symm.trans hparked)

theorem Sturdy.allOrNothing_resume (h : Sturdy limit b.ring)
    (hreads : job.timestamp < 2 ^ 32 → Record.unpack job.encode = .ok job)
    (hwaiting : b.channel.waiting = some (.push job.encode))
    (hprogress : b.channel.resume.1 = some progress) :
    AllOrNothing job b .resume progress (b.setChannel b.channel.resume.2) := by
  have hadded : ∀ j : Journal, (j.after b .resume (b.setChannel b.channel.resume.2)).accepted =
      j.accepted ++ Ring.added job.encode progress := by
    intro j
    simp only [Journal.after, Journal.accept, Ring.Channel.resumed, hwaiting, hprogress]
  have hstores : ∀ request, b.channel.ring.request = some request →
      b.callerStores .resume = [] := by
    intro request hrequest
    exact Ring.Bench.stores_resume_of_pending hrequest
  rcases Ring.Channel.resume_push_cases hwaiting with ⟨request, hrequest, hcase⟩ |
    ⟨request, notice, hrequest, hcase⟩ | ⟨hnone, hcase⟩
  · -- Its request is still there.
    rw [hcase] at hprogress hadded ⊢
    cases hprogress
    exact h.allOrNothing_untouched (by rintro ⟨⟩) (hstores request hrequest) (.refl b.ring)
      fun j => (hadded j).trans (List.append_nil _)
  · -- Nobody is left to serve its request.
    rw [hcase] at hprogress hadded ⊢
    cases hprogress
    exact h.allOrNothing_untouched (by rintro ⟨⟩) (hstores request hrequest)
      ⟨rfl, rfl, rfl, rfl, rfl, rfl⟩ fun j => (hadded j).trans (List.append_nil _)
  · -- Its request was served, and the record is pushed again.
    rw [hcase] at hprogress hadded ⊢
    cases hprogress
    exact h.allOrNothing_push hreads rfl (Ring.Channel.settle_ring _ _)
      (Ring.Bench.stores_resume_of_served hwaiting hnone) hadded

end Attempts

/-! ## Every call -/

theorem waiting_of_through {p q : Pipeline}
    (meanwhile : Through (fun a => a.isCall = false) p q) :
    q.channel.waiting = p.channel.waiting :=
  meanwhile.keeps (I := fun q => q.channel.waiting = p.channel.waiting) rfl
    fun hother hq hact => (waiting_of_others hother hact).trans hq

/-- An attempt is all or nothing.  Where it leaves the call waiting, it is the record of the job that
waits, so the next attempt is one for the same job. -/
theorem Sturdy.attempt {limit : Nat} {start b q : Pipeline} {job : Job} {a : Action}
    {progress : Except Fault Ring.Progress} (h : Sturdy limit start.ring)
    (attempt : Attempt start job b a progress q) :
    Sturdy limit q.ring ∧ AllOrNothing job b a progress q ∧
      (progress = .ok .parked → q.channel.waiting = some (.push job.encode) ∧
        (job.timestamp < 2 ^ 32 → Record.unpack job.encode = .ok job)) := by
  -- By the attempts of one call: what is left waiting is what the next one pushes.
  induction attempt with
  | @first p q scratch reached hact =>
    have hp : Sturdy limit p.ring := h.reachable reached
    have hb : Sturdy limit { p with scratch }.ring := hp
    refine ⟨hb.step hact, ?_⟩
    cases (does_of_act? hact).2
    exact ⟨hb.allOrNothing_enqueue job, hb.waiting_enqueue⟩
  | @again b q b' q' a progress _ meanwhile hact hprogress ih =>
    rcases ih with ⟨hq, -, hparked⟩
    rcases hparked rfl with ⟨hwaits, hreads⟩
    have hb' : Sturdy limit b'.ring := hq.through meanwhile
    have hwaiting : b'.channel.waiting = some (.push job.encode) :=
      (waiting_of_through meanwhile).trans hwaits
    refine ⟨hb'.step hact, ?_⟩
    cases (does_of_act? hact).2
    refine ⟨hb'.allOrNothing_resume hreads hwaiting hprogress, ?_⟩
    rintro rfl
    exact ⟨Ring.Channel.waiting_of_resume hwaiting hprogress, hreads⟩

/-- A call that is made of a pipeline, whatever bytes its ring was opened on, in whatever state it is
and whatever is in the buffer, is all or nothing: only if it is done has it put anything into the ring,
and then this is the record of its job, behind the unread ones. -/
theorem enqueued_of_attempt {d : Disk} {o : Ring.Options} {r : Ring} {routing : Routing}
    {workers : Nat} {job : Job} {b q : Pipeline} {a : Action}
    {progress : Except Fault Ring.Progress} (hopen : (d.openRing o).1 = .ok r)
    (attempt : Attempt (.ofRing r routing workers o.limit) job b a progress q) :
    AllOrNothing job b a progress q := by
  have hsturdy : Sturdy o.limit (ofRing r routing workers o.limit).ring := .ofOpen hopen
  exact (hsturdy.attempt attempt).2.1

/-! ## Calls that wait -/

/-- Makes a call that is left waiting, lets others take steps, and lets the call go on: gives the states
in front of and behind the last attempt. -/
def waitingCall? (p : Pipeline) (job : Job) (others : List Action) :
    Option (Except Fault Ring.Progress × Pipeline × Pipeline) :=
  match (p.enqueue job.command job.timestamp job.args).1 with
  | .ok .parked =>
    (p.act? (.enqueue job.command job.timestamp job.args)).bind fun p' =>
      (p'.run? others).bind fun b =>
        (b.act? .resume).bind fun q => b.channel.resume.1.map fun progress => (progress, b, q)
  | _ => none

theorem Reachable.attempt {start p b q : Pipeline} (reached : Reachable start p) {scratch : Bytes}
    {job : Job} {others : List Action} {progress : Except Fault Ring.Progress}
    (hothers : ∀ a ∈ others, a.isCall = false)
    (h : { p with scratch }.waitingCall? job others = some (progress, b, q)) :
    Attempt start job b .resume progress q := by
  simp only [waitingCall?] at h
  split at h
  · rename_i hparked
    simp only [Option.bind_eq_some_iff, Option.map_eq_some_iff] at h
    rcases h with ⟨p', hact, b', hrun, q', hresume, progress', hprogress, heq⟩
    cases heq
    have first : Attempt start job { p with scratch } _ _ p' := .first scratch reached hact
    rw [hparked] at first
    exact .again first (Through.refl.run hothers hrun) hresume hprogress
  · cases h

/-- The fourth of four records does not fit into a ring of 64 bytes.  The call waits until the dispatcher
has doubled the ring, and then the record is behind the other three, whatever was left in the buffer. -/
theorem enqueued_of_attempt_grown :
    ∃ b q, AllOrNothing ⟨7, .incr, [[100]]⟩ b .resume (.ok .done) q ∧ b.ring.capacity = 128 ∧
      q.ring.backlog.payloads = List.replicate 3 (Job.encode ⟨0, .incr, [[97]]⟩) ++
        [Job.encode ⟨7, .incr, [[100]]⟩] := by
  have hopen : (({} : Disk).openRing ⟨64, 16, none⟩).1 = .ok (.create 64 16) := rfl
  have hseen : (((ofRing (.create 64 16) .roundRobin 1 16).run?
      (List.replicate 3 (.enqueue .incr 0 [[97]]))).bind fun p =>
        (waitingCall? { p with scratch := [1, 2, 3] } ⟨7, .incr, [[100]]⟩ [.goOn, .look]).map fun s =>
          (s.1.toOption, s.2.1.ring.capacity, s.2.2.ring.backlog.payloads)) =
      some (some Ring.Progress.done, 128, List.replicate 3 (Job.encode ⟨0, .incr, [[97]]⟩) ++
        [Job.encode ⟨7, .incr, [[100]]⟩]) := by
    decide +kernel
  rcases Option.bind_eq_some_iff.1 hseen with ⟨p, hrun, hcall⟩
  rcases Option.map_eq_some_iff.1 hcall with ⟨⟨progress, b, q⟩, hcall, hview⟩
  simp only [Prod.mk.injEq] at hview
  rcases hview with ⟨hdone, hcapacity, hbacklog⟩
  have hprogress : progress = .ok .done := by
    cases progress with
    | error fault => cases hdone
    | ok made => exact congrArg Except.ok (Option.some.inj hdone)
  subst hprogress
  have attempt := (Reachable.refl.run hrun).attempt (by decide) hcall
  exact ⟨b, q, enqueued_of_attempt hopen attempt, hcapacity, hbacklog⟩

/-- The call is done, and its record stands behind a padding of `2 ^ 32` bytes for which no dirty size is
noted: the ring does not give it. -/
theorem enqueued_behind_padding :
    ∃ r q, (({ files := [("q", widestBytes)] } : Disk).openRing ⟨64, 2 ^ 32 - 1, some "q"⟩).1 = .ok r ∧
      Attempt (ofRing r .roundRobin 1 (2 ^ 32 - 1)) ⟨0, .incr, [[97]]⟩
        (ofRing r .roundRobin 1 (2 ^ 32 - 1)) (.enqueue .incr 0 [[97]]) (.ok .done) q ∧
      r.backlog.payloads = [] ∧ r.backlog.defect = none ∧ q.ring.backlog.payloads = [] := by
  have hdone : ∀ p q : Pipeline, p.act? (.enqueue .incr 0 [[97]]) = some q →
      (p.enqueue .incr 0 [[97]]).1 = .ok .done →
      Attempt p ⟨0, .incr, [[97]]⟩ p (.enqueue .incr 0 [[97]]) (.ok .done) q := by
    intro p q hact hresult
    rw [← hresult]
    exact .first p.scratch .refl hact
  refine ⟨_, _, (Ring.openRing_of_offers offers_widestBytes (by decide)).trans rfl, hdone _ _ rfl ?_,
    ?_, ?_, ?_⟩
  · decide +kernel
  · decide +kernel
  · decide +kernel
  · decide +kernel

end Pipeline
end WriteBehind
