import WriteBehind.Proofs.Pipeline.Boxes
import WriteBehind.Proofs.Ring.Level

/-!
# Parking — what a caller waits for who waits for room

A caller whose record does not fit leaves a request and waits, and the dispatcher serves the request when
it looks for the next record.  It does not look while it has a record in hand for which no mailbox is free.

* `Parked p`: a call waits, and its request is pending;
* `Held home p`: the dispatcher waits for a mailbox, and no call of the store has been answered that
  would free one;
* `AwaitsStore p`: whatever steps are taken, the call does not go on before the store answers;
* `Tended p`: the consumer's end of the ring is open as long as the dispatcher is there;
* `parked_of_reachable`: a parked caller waits for the store exactly while the dispatcher is held, and
  otherwise for five steps at most;
* `caller_held_up`: it does happen that the dispatcher is held while the caller is parked.
-/

namespace WriteBehind

namespace Pipeline

/-- The steps for which the store need not answer, and with which nobody stops the pipeline. -/
def Action.isOwn : Action → Bool
  | .serve .. | .raiseStop => false
  | _ => true

/-- A call waits, and its request is pending. -/
structure Parked (p : Pipeline) : Prop where
  waiting : p.channel.waiting ≠ none
  request : p.ring.request ≠ none
  running : p.aborted = none

/-- The dispatcher waits for a mailbox.  Every mailbox that may get the record is occupied, and the call
of the store for what is in it was not answered. -/
structure Held (home : Option Nat) (p : Pipeline) : Prop where
  hand : ∃ l, p.dispatcher.hand = .holding l home
  stop : p.stop = false
  occupied : ∀ i, p.dispatcher.Eligible home i →
    p.dispatcher.isFree i = false ∧ p.worker? i ≠ some .served

/-- The call that waits may go on, or the process was given up. -/
def GoesOn (p : Pipeline) : Prop := p.act? .resume ≠ none ∨ p.aborted ≠ none

/-- No steps let the call that waits go on before the store answers. -/
def AwaitsStore (p : Pipeline) : Prop :=
  ∀ q, Through (fun a => a.isOwn = true) p q → ¬ q.GoesOn

/-- At most `n` steps, without any answer of the store, let the call that waits go on. -/
def ServedWithin (n : Nat) (p : Pipeline) : Prop :=
  ∃ as q, as.length ≤ n ∧ (∀ a ∈ as, Action.isOwn a = true) ∧ p.run? as = some q ∧ q.GoesOn

/-- The consumer's end of the ring is open as long as the dispatcher is there. -/
def Tended (p : Pipeline) : Prop := p.ring.consumerOpen = true ↔ p.dispatcher.hand ≠ .gone

/-! ## Free mailboxes -/

theorem isFree_clearMailbox (p : Pipeline) {i : Nat} (hi : i < p.dispatcher.mailboxes.length) :
    (p.clearMailbox i).dispatcher.isFree i = true := by
  simp only [clearMailbox, Dispatcher.isFree, List.getElem?_modify_eq, List.getElem?_eq_getElem hi]
  rfl

theorem isFree_clearMailbox_of_ne (p : Pipeline) {i k : Nat} (hk : k ≠ i) :
    (p.clearMailbox i).dispatcher.isFree k = p.dispatcher.isFree k := by
  simp only [clearMailbox, Dispatcher.isFree, List.getElem?_modify, if_neg (Ne.symm hk), id_eq,
    Option.map_eq_map, Option.map_id_fun']

/-! ## The consumer's end -/

section Tending

variable {p q : Pipeline} {a : Action}

theorem consumerOpen_look (d : Dispatcher) :
    d.look.2.ring.consumerOpen = d.ring.consumerOpen := by
  rcases ring_look d with hlook | ⟨l, -, hlook⟩
  · rw [hlook, d.ring.pop_keeps.2]
  · rw [hlook, Ring.consumerOpen_moveRead, d.ring.pop_keeps.2]

theorem hand_look_ne_gone (d : Dispatcher) : d.look.2.hand ≠ .gone := by
  rcases d.look_cases with ⟨_, _, hlook⟩ | ⟨_, hlook⟩ | ⟨_, _, _, _, hlook⟩ | ⟨_, _, _, _, hlook⟩ <;>
    rw [hlook] <;> rintro ⟨⟩

/-- A record for which a mailbox is free is placed, or it is refused and not in hand any more. -/
theorem hand_place {d : Dispatcher} {l : Ring.Lease} {home : Option Nat} {w : Nat}
    (hw : d.candidate? home = some w) :
    (d.place l home).1 ≠ none ∧
      ((d.place l home).2.hand = .placed l w ∨ (d.place l home).2.hand = .empty) := by
  simp only [Dispatcher.place, hw]
  split
  · exact ⟨Option.some_ne_none _, .inr rfl⟩
  · exact ⟨Option.some_ne_none _, .inl rfl⟩

theorem hand_place_ne_gone {d : Dispatcher} {l : Ring.Lease} {home : Option Nat}
    (hholding : d.hand = .holding l home) : (d.place l home).2.hand ≠ .gone := by
  cases hcandidate : d.candidate? home with
  | none =>
    simp only [Dispatcher.place, hcandidate, hholding]
    rintro ⟨⟩
  | some w =>
    rcases (hand_place hcandidate).2 with hplaced | hempty
    · rw [hplaced]
      rintro ⟨⟩
    · rw [hempty]
      rintro ⟨⟩

theorem consumerOpen_enqueue (p : Pipeline) (command : Command) (timestamp : Nat)
    (args : List Bytes) :
    (p.enqueue command timestamp args).2.ring.consumerOpen = p.ring.consumerOpen := by
  rcases ring_enqueue p command timestamp args with hring | ⟨record, hring⟩
  · rw [hring]
  · rw [hring, Ring.consumerOpen_push]

theorem consumerOpen_resume (c : Ring.Channel) :
    c.resume.2.ring.consumerOpen = c.ring.consumerOpen := by
  rcases c.ring_resume with ⟨notice, request, hring⟩ | ⟨payload, hring⟩
  · rw [hring]
  · rw [hring, Ring.consumerOpen_push]

/-- A step with which the dispatcher neither comes nor goes. -/
theorem Tended.keep (h : p.Tended) (hopen : q.ring.consumerOpen = p.ring.consumerOpen)
    (hthere : p.dispatcher.hand ≠ .gone) (hthere' : q.dispatcher.hand ≠ .gone) : q.Tended := by
  rw [Tended, hopen]
  exact iff_of_true (h.2 hthere) hthere'

theorem Tended.step (h : p.Tended) (hact : p.act? a = some q) : q.Tended := by
  have hhand : ∀ {hand : Hand}, p.dispatcher.hand = hand → hand ≠ .gone →
      p.dispatcher.hand ≠ .gone := by
    intro hand heq hne
    rwa [heq]
  cases (does_of_act? hact).2 with
  | enqueue command timestamp args _ =>
    have hopen := consumerOpen_enqueue p command timestamp args
    rcases p.exists_enqueue command timestamp args with ⟨c, scratch, henqueue⟩
    rw [henqueue] at hopen ⊢
    rw [Tended, hopen]
    exact h
  | resume =>
    rw [Tended]
    exact iff_of_eq (congrArg (· = true) (consumerOpen_resume p.channel)) |>.trans h
  | goOn hempty => exact h.keep rfl (hhand hempty (by rintro ⟨⟩)) (by rintro ⟨⟩)
  | look hreaching | lookFails hreaching | lookAborts hreaching =>
    exact h.keep (consumerOpen_look p.dispatcher) (hhand hreaching (by rintro ⟨⟩))
      (hand_look_ne_gone p.dispatcher)
  | @place l home _ hholding _ =>
    exact h.keep (congrArg Ring.consumerOpen (ring_place p.dispatcher l home))
      (hhand hholding (by rintro ⟨⟩)) (hand_place_ne_gone hholding)
  | @release l _ hplaced =>
    exact h.keep (Ring.consumerOpen_moveRead p.ring l.next) (hhand hplaced (by rintro ⟨⟩))
      (by rintro ⟨⟩)
  | giveUp hholding => exact h.keep rfl (hhand hholding (by rintro ⟨⟩)) (by rintro ⟨⟩)
  -- The end is closed and the dispatcher goes in one step.
  | lookPanics | leave => exact iff_of_false (by rintro ⟨⟩) (fun hc => hc rfl)
  | raiseStop | raiseWorkersStop | wait | serve | serveAborts | free | findEmpty | checkStop | readRing
  | readMailbox => exact h

theorem Tended.reachable {start : Pipeline} (h : start.Tended) (reached : Reachable start p) :
    p.Tended :=
  reached.keeps h Tended.step

end Tending

/-! ## A dispatcher that is held -/

section Holding

variable {p q : Pipeline} {a : Action} {home : Option Nat}

/-- A request that may still be served keeps its call. -/
theorem resume_eq_none (hrequest : p.ring.request ≠ none) (hopen : p.ring.consumerOpen = true) :
    p.act? .resume = none := by
  have hstays : ¬ (p.channel.waiting.isSome = true ∧
      (p.ring.request.isNone = true ∨ ¬ p.ring.consumerOpen = true)) := by
    rintro ⟨-, hnone | hclosed⟩
    · exact hrequest (Option.isNone_iff_eq_none.1 hnone)
    · exact hclosed hopen
  simp only [act?, call?, if_neg hstays, ite_self]

theorem Held.hand_ne_gone (h : p.Held home) : p.dispatcher.hand ≠ .gone := by
  rcases h.hand with ⟨l, hholding⟩
  rw [hholding]
  rintro ⟨⟩

theorem Held.candidate?_eq_none (h : p.Held home) : p.dispatcher.candidate? home = none :=
  Dispatcher.candidate?_eq_none_iff.2 fun i hi => (h.occupied i hi).1

/-- A worker that has not called the store, or whose mailbox may not get the record, changes nothing. -/
theorem Held.setWorker (h : p.Held home) {i : Nat} {w w' : Worker} (hworker : p.worker? i = some w)
    (hidle : w' ≠ .served) : (p.setWorker i w').Held home := by
  rcases worker?_setWorker (lt_of_worker? hworker) w' with ⟨hself, hother⟩
  refine ⟨h.hand, h.stop, ?_⟩
  intro k hk
  rcases h.occupied k hk with ⟨hbusy, hserved⟩
  refine ⟨hbusy, ?_⟩
  by_cases hki : k = i
  · rw [hki, hself]
    exact fun hc => hidle (Option.some.inj hc)
  · rwa [hother k hki]

/-- A mailbox is freed that may not get the record. -/
theorem Held.clearMailbox (h : p.Held home) {i : Nat} (hserved : p.worker? i = some .served) :
    (p.clearMailbox i).Held home := by
  refine ⟨h.hand, h.stop, ?_⟩
  intro k hk
  have hlength : (p.clearMailbox i).dispatcher.mailboxes.length =
      p.dispatcher.mailboxes.length := List.length_modify ..
  have hk' : p.dispatcher.Eligible home k := ⟨hlength ▸ hk.1, hk.2⟩
  rcases h.occupied k hk' with ⟨hbusy, hidle⟩
  have hki : k ≠ i := by
    rintro rfl
    exact hidle hserved
  exact ⟨(isFree_clearMailbox_of_ne p hki).trans hbusy, hidle⟩

/-- Without an answer of the store, a step neither frees the dispatcher nor serves the request. -/
theorem Held.parked_step (h : p.Held home) (hparked : p.Parked) (htended : p.Tended)
    (hown : a.isOwn = true) (hact : p.act? a = some q) : q.Held home ∧ q.Parked := by
  rcases h.hand with ⟨l, hholding⟩
  have hhand : ∀ {hand : Hand}, p.dispatcher.hand = hand → hand = .holding l home :=
    fun heq => heq.symm.trans hholding
  cases (does_of_act? hact).2 with
  | enqueue command timestamp args hnone =>
    exact absurd (Option.isNone_iff_eq_none.1 hnone) hparked.waiting
  | resume =>
    have hopen : p.ring.consumerOpen = true := htended.2 h.hand_ne_gone
    cases (resume_eq_none hparked.request hopen).symm.trans hact
  | raiseStop | serve | serveAborts => cases hown
  | raiseWorkersStop hgone => cases hhand hgone
  | goOn hempty | leave hempty => cases hhand hempty
  | look hreaching | lookFails hreaching | lookPanics hreaching | lookAborts hreaching =>
    cases hhand hreaching
  -- Of the dispatcher's own steps two start with a record in hand: no mailbox is free for the one, and
  -- the other needs the flag.
  | place hholding' hplace =>
    cases hhand hholding'
    simp only [Dispatcher.place, h.candidate?_eq_none] at hplace
    cases hplace
  | release hplaced => cases hhand hplaced
  | giveUp _ hstop => cases h.stop.symm.trans hstop
  | free hserved =>
    -- An answered worker is none of those that the dispatcher waits for.
    have hcleared := h.clearMailbox hserved
    exact ⟨hcleared.setWorker hserved (by rintro ⟨⟩),
      ⟨hparked.waiting, hparked.request, hparked.running⟩⟩
  | findEmpty hready =>
    exact ⟨h.setWorker hready (by rintro ⟨⟩),
      ⟨hparked.waiting, hparked.request, hparked.running⟩⟩
  | checkStop hfound =>
    refine ⟨h.setWorker hfound ?_, ⟨hparked.waiting, hparked.request, hparked.running⟩⟩
    split <;> rintro ⟨⟩
  | wait | readRing | readMailbox =>
    exact ⟨⟨h.hand, h.stop, h.occupied⟩, ⟨hparked.waiting, hparked.request, hparked.running⟩⟩

/-- While the dispatcher is held a parked call does not go on before the store answers. -/
theorem Held.awaitsStore (h : p.Held home) (hparked : p.Parked) (htended : p.Tended) :
    p.AwaitsStore := by
  intro q steps
  -- `Tended` is carried along, as a closed end would turn the call away.
  have hkept : q.Held home ∧ q.Parked ∧ q.Tended := by
    refine steps.keeps (I := fun q => q.Held home ∧ q.Parked ∧ q.Tended) ⟨h, hparked, htended⟩ ?_
    rintro p q a hown ⟨hheld, hparked, htended⟩ hact
    rcases hheld.parked_step hparked htended hown hact with ⟨hheld', hparked'⟩
    exact ⟨hheld', hparked', htended.step hact⟩
  rcases hkept with ⟨hheld, hparked', htended'⟩
  have hopen : q.ring.consumerOpen = true := htended'.2 hheld.hand_ne_gone
  rintro (hresumes | haborted)
  · exact hresumes (resume_eq_none hparked'.request hopen)
  · exact haborted hparked'.running

end Holding

/-! ## A dispatcher that is not held -/

section Serving

variable {p q : Pipeline} {a : Action} {n : Nat}

theorem ServedWithin.of_goesOn (h : p.GoesOn) (n : Nat) : p.ServedWithin n :=
  ⟨[], p, Nat.zero_le n, List.forall_mem_nil _, rfl, h⟩

theorem ServedWithin.cons (hown : a.isOwn = true) (hact : p.act? a = some q)
    (h : q.ServedWithin n) : p.ServedWithin (n + 1) := by
  rcases h with ⟨as, r, hlength, hall, hrun, hgoes⟩
  refine ⟨a :: as, r, Nat.succ_le_succ hlength, ?_, ?_, hgoes⟩
  · intro b hmem
    rcases List.mem_cons.1 hmem with rfl | hmem
    · exact hown
    · exact hall b hmem
  · rw [run?, hact]
    exact hrun

theorem ServedWithin.mono {m : Nat} (h : p.ServedWithin n) (hle : n ≤ m) : p.ServedWithin m := by
  rcases h with ⟨as, r, hlength, hrest⟩
  exact ⟨as, r, Nat.le_trans hlength hle, hrest⟩

theorem goesOn_of_served (hwaiting : p.channel.waiting ≠ none)
    (hserved : p.ring.request = none ∨ p.ring.consumerOpen = false) : p.GoesOn := by
  cases haborted : p.aborted with
  | some cause =>
    refine .inr ?_
    rw [haborted]
    rintro ⟨⟩
  | none =>
    have hready : p.channel.waiting.isSome = true ∧
        (p.ring.request.isNone = true ∨ ¬ p.ring.consumerOpen = true) := by
      refine ⟨Option.isSome_iff_ne_none.2 hwaiting, ?_⟩
      rcases hserved with hnone | hclosed
      · exact .inl (Option.isNone_iff_eq_none.2 hnone)
      · exact .inr (by rw [hclosed]; rintro ⟨⟩)
    refine .inl ?_
    simp only [act?, call?, haborted, if_pos hready]
    rintro ⟨⟩

/-- A look serves the request, unless the thread ends over it. -/
theorem request_look (d : Dispatcher) :
    d.look.2.ring.request = none ∨ d.look.1 = .error Cause.overflow.fault := by
  rcases d.ring.request_pop with hnone | hpop
  · refine .inl ?_
    rcases ring_look d with hlook | ⟨l, -, hlook⟩
    · rw [hlook, hnone]
    · rw [hlook, Ring.request_moveRead, hnone]
  · refine .inr ?_
    rcases d.look_cases with ⟨fault, hfault, hlook⟩ | ⟨hok, -⟩ | ⟨_, _, hok, -⟩ | ⟨_, _, hok, -⟩
    · rw [hpop] at hfault
      cases hfault
      rw [hlook]
    all_goals
      rw [hpop] at hok
      cases hok

/-- The dispatcher serves the request when it looks for a record, whatever it finds, or turns the call
away. -/
theorem servedWithin_of_reaching (hwaiting : p.channel.waiting ≠ none) (hrunning : p.aborted = none)
    (hreaching : p.dispatcher.hand = .reaching) : p.ServedWithin 1 := by
  have hpossible : ∃ q, p.act? .look = some q := by
    simp only [act?, hrunning, Option.isSome_none, Bool.false_eq_true, if_false, dispatch?,
      if_pos hreaching]
    split
    · split
      · exact ⟨_, rfl⟩
      · split <;> exact ⟨_, rfl⟩
    · exact ⟨_, rfl⟩
  rcases hpossible with ⟨q, hact⟩
  refine .cons rfl hact (.of_goesOn (goesOn_of_served ?_ ?_) 0)
  · rwa [waiting_of_others rfl hact]
  · -- A thread that ends closes the consumer's end.
    have hrequest := request_look p.dispatcher
    cases (does_of_act? hact).2 with
    | look _ hlook =>
      rw [hlook] at hrequest
      exact .inl (hrequest.resolve_right (by rintro ⟨⟩))
    | lookFails _ hlook _ hgoes =>
      refine .inl (hrequest.resolve_right ?_)
      rw [hlook]
      rintro ⟨⟩
      exact hgoes rfl
    | lookPanics => exact .inr rfl
    | lookAborts _ hlook hkind =>
      refine .inl (hrequest.resolve_right ?_)
      rw [hlook]
      rintro ⟨⟩
      cases hkind

theorem servedWithin_of_empty (hwaiting : p.channel.waiting ≠ none) (hrunning : p.aborted = none)
    (hempty : p.dispatcher.hand = .empty) : p.ServedWithin 2 := by
  cases hstop : p.stop with
  | false =>
    have hact : p.act? .goOn =
        some { p with dispatcher := { p.dispatcher with hand := .reaching } } := by
      simp [act?, dispatch?, hrunning, hempty, hstop]
    exact .cons rfl hact (servedWithin_of_reaching hwaiting hrunning rfl)
  | true =>
    -- It leaves, and the call is turned away.
    have hact : p.act? .leave = some { p with dispatcher := p.dispatcher.leave } := by
      simp [act?, dispatch?, hrunning, hempty, hstop]
    have hgoes : GoesOn { p with dispatcher := p.dispatcher.leave } :=
      goesOn_of_served hwaiting (.inr rfl)
    exact .cons rfl hact (.of_goesOn hgoes 1)

theorem servedWithin_of_placed (hwaiting : p.channel.waiting ≠ none) (hrunning : p.aborted = none)
    {l : Ring.Lease} {w : Nat} (hplaced : p.dispatcher.hand = .placed l w) : p.ServedWithin 3 := by
  have hact : p.act? .release = some { p with dispatcher := p.dispatcher.release l } := by
    simp [act?, dispatch?, hrunning, hplaced]
  have hwaits : (p.dispatcher.release l).channel.waiting ≠ none := by
    rw [waiting_release]
    exact hwaiting
  exact .cons rfl hact (servedWithin_of_empty hwaits hrunning rfl)

/-- With a mailbox that is free the record is placed, or it is refused and stays in the ring. -/
theorem servedWithin_of_candidate (hwaiting : p.channel.waiting ≠ none) (hrunning : p.aborted = none)
    {l : Ring.Lease} {home : Option Nat} (hholding : p.dispatcher.hand = .holding l home)
    (hcandidate : p.dispatcher.candidate? home ≠ none) : p.ServedWithin 4 := by
  rcases Option.ne_none_iff_exists'.1 hcandidate with ⟨w, hw⟩
  rcases hand_place (l := l) hw with ⟨hplaces, hhand⟩
  have hact : p.act? .place =
      some { p with dispatcher := (p.dispatcher.place l home).2 } := by
    simp only [act?, hrunning, Option.isSome_none, Bool.false_eq_true, if_false, dispatch?, hholding]
    generalize p.dispatcher.place l home = outcome at hplaces ⊢
    rcases outcome with ⟨_ | result, d⟩
    · exact absurd rfl hplaces
    · rfl
  refine .cons rfl hact ?_
  have hwaiting' : (channel { p with dispatcher := (p.dispatcher.place l home).2 }).waiting ≠ none := by
    rwa [← waiting_of_others rfl hact] at hwaiting
  rcases hhand with hplaced | hempty
  · exact servedWithin_of_placed hwaiting' hrunning hplaced
  · exact (servedWithin_of_empty hwaiting' hrunning hempty).mono (by decide)

/-- A worker that has its answer frees its mailbox for the record. -/
theorem servedWithin_of_answered (hwaiting : p.channel.waiting ≠ none) (hrunning : p.aborted = none)
    {l : Ring.Lease} {home : Option Nat} (hholding : p.dispatcher.hand = .holding l home) {i : Nat}
    (hi : p.dispatcher.Eligible home i) (hserved : p.worker? i = some .served) :
    p.ServedWithin 5 := by
  have hready : p.workers[i]? = some .served := hserved
  have hact : p.act? (.free i) = some ((p.clearMailbox i).setWorker i .ready) := by
    simp [act?, work?, hrunning, hready]
  refine .cons rfl hact (servedWithin_of_candidate hwaiting hrunning hholding ?_)
  intro hnone
  have hlength : (p.clearMailbox i).dispatcher.mailboxes.length =
      p.dispatcher.mailboxes.length := List.length_modify ..
  have hbusy := Dispatcher.candidate?_eq_none_iff.1 hnone i ⟨hlength ▸ hi.1, hi.2⟩
  cases hbusy.symm.trans (isFree_clearMailbox p hi.1)

/-- Unless the dispatcher is held, a parked call goes on after a few steps. -/
theorem Parked.servedWithin (h : p.Parked) (htended : p.Tended) (hnot : ∀ home, ¬ p.Held home) :
    p.ServedWithin 5 := by
  cases hhand : p.dispatcher.hand with
  | empty => exact (servedWithin_of_empty h.waiting h.running hhand).mono (by decide)
  | reaching => exact (servedWithin_of_reaching h.waiting h.running hhand).mono (by decide)
  | placed l w => exact (servedWithin_of_placed h.waiting h.running hhand).mono (by decide)
  | gone =>
    have hclosed : p.ring.consumerOpen = false := by
      rw [← Bool.not_eq_true]
      exact fun hc => htended.1 hc hhand
    exact .of_goesOn (goesOn_of_served h.waiting (.inr hclosed)) 5
  | holding l home =>
    -- Three ways out: a free mailbox, the flag, a worker with its answer.  Without any of them it is held.
    by_cases hcandidate : p.dispatcher.candidate? home = none
    · cases hstop : p.stop with
      | true =>
        have hact : p.act? .giveUp = some { p with dispatcher := p.dispatcher.giveUp } := by
          simp [act?, dispatch?, h.running, hhand, hstop, hcandidate]
        exact (ServedWithin.cons rfl hact (servedWithin_of_empty h.waiting h.running rfl)).mono
          (by decide)
      | false =>
        by_cases hserved : ∃ i, p.dispatcher.Eligible home i ∧ p.worker? i = some .served
        · rcases hserved with ⟨i, hi, hserved⟩
          exact servedWithin_of_answered h.waiting h.running hhand hi hserved
        · refine absurd ⟨⟨l, hhand⟩, hstop, ?_⟩ (hnot home)
          intro i hi
          exact ⟨Dispatcher.candidate?_eq_none_iff.1 hcandidate i hi, fun hc => hserved ⟨i, hi, hc⟩⟩
    · exact (servedWithin_of_candidate h.waiting h.running hhand hcandidate).mono (by decide)

theorem ServedWithin.not_awaitsStore (h : p.ServedWithin n) : ¬ p.AwaitsStore := by
  rcases h with ⟨as, q, -, hall, hrun, hgoes⟩
  exact fun hawaits => hawaits q (Through.refl.run hall hrun) hgoes

end Serving

/-! ## Every parked call -/

/-- A caller who is parked, whatever has happened before, waits for the store exactly if the dispatcher
is held, and otherwise for no more than a few steps of the dispatcher. -/
theorem parked_of_reachable {d : Disk} {o : Ring.Options} {r : Ring} {routing : Routing}
    {workers : Nat} {p : Pipeline} (hopen : (d.openRing o).1 = .ok r)
    (reached : Reachable (.ofRing r routing workers o.limit) p) (hparked : p.Parked) :
    (p.AwaitsStore ↔ ∃ home, p.Held home) ∧ (¬ p.AwaitsStore → p.ServedWithin 5) := by
  have hstart : (ofRing r routing workers o.limit).Tended :=
    iff_of_true (Ring.consumerOpen_of_openRing hopen) (by rintro ⟨⟩)
  have htended := hstart.reachable reached
  have hserved : (¬ ∃ home, p.Held home) → p.ServedWithin 5 :=
    fun hnot => hparked.servedWithin htended (not_exists.1 hnot)
  refine ⟨⟨?_, ?_⟩, ?_⟩
  · intro hawaits
    by_cases hheld : ∃ home, p.Held home
    · exact hheld
    · exact absurd hawaits (hserved hheld).not_awaitsStore
  · rintro ⟨home, hheld⟩
    exact hheld.awaitsStore hparked htended
  · intro hnot
    refine hserved ?_
    rintro ⟨home, hheld⟩
    exact hnot (hheld.awaitsStore hparked htended)

/-- The fourth record does not fit, and the dispatcher has nothing in hand. -/
theorem parked_of_reachable_served :
    ∃ p : Pipeline, p.Parked ∧ p.dispatcher.hand = .empty ∧ ¬ p.AwaitsStore ∧ p.ServedWithin 5 := by
  have hopen : (({} : Disk).openRing ⟨64, 16, none⟩).1 = .ok (.create 64 16) := rfl
  have hseen : ((ofRing (.create 64 16) .roundRobin 1 16).run?
      (List.replicate 4 (.enqueue .incr 0 [[97]]))).map
        (fun p => (p.channel.waiting.isSome, p.ring.request, p.aborted, p.dispatcher.hand)) =
      some (true, some ⟨128, 17⟩, none, .empty) := by decide +kernel
  rcases Option.map_eq_some_iff.1 hseen with ⟨p, hrun, hview⟩
  simp only [Prod.mk.injEq] at hview
  rcases hview with ⟨hwaiting, hrequest, hrunning, hempty⟩
  have hparked : p.Parked := by
    refine ⟨Option.isSome_iff_ne_none.1 hwaiting, ?_, hrunning⟩
    rw [hrequest]
    exact Option.some_ne_none _
  rcases parked_of_reachable hopen (Reachable.refl.run hrun) hparked with ⟨hiff, hserved⟩
  have hnot : ¬ p.AwaitsStore := by
    intro hawaits
    rcases hiff.1 hawaits with ⟨home, ⟨l, hholding⟩, -, -⟩
    cases hempty.symm.trans hholding
  exact ⟨p, hparked, hempty, hnot, hserved hnot⟩

/-- One worker gets the first of five records, the dispatcher takes the second one in hand, and there is
no room for the fifth. -/
def heldUp : List Action :=
  [.enqueue .incr 0 [[97]], .goOn, .look, .place, .release, .enqueue .incr 0 [[98]], .goOn, .look,
    .enqueue .incr 0 [[99]], .enqueue .incr 0 [[100]], .enqueue .incr 0 [[101]]]

/-- One worker.  The store has not answered for the first record, the second one is in the dispatcher's
hand, and the ring is full when the fifth one is to come in: its caller waits for the store. -/
theorem caller_held_up :
    ∃ r p, (({} : Disk).openRing ⟨64, 16, none⟩).1 = .ok r ∧
      Reachable (ofRing r .roundRobin 1 16) p ∧ p.Parked ∧ p.Held none ∧ p.AwaitsStore ∧
      p.channel.waiting = some (.push (Job.encode ⟨0, .incr, [[101]]⟩)) ∧
      p.worker? 0 = some .ready ∧ p.inbox? 0 = some (Job.encode ⟨0, .incr, [[97]]⟩) ∧
      p.ledger.writes = [] := by
  have hopen : (({} : Disk).openRing ⟨64, 16, none⟩).1 = .ok (.create 64 16) := rfl
  have hstart : (ofRing (.create 64 16) .roundRobin 1 16).Tended :=
    iff_of_true rfl (by rintro ⟨⟩)
  -- What the run has come to for the caller, for the dispatcher and for the worker.
  have hcaller : ((ofRing (.create 64 16) .roundRobin 1 16).run? heldUp).map
      (fun p => (p.channel.waiting, p.ring.request, p.aborted, p.stop)) =
      some (some (.push (Job.encode ⟨0, .incr, [[101]]⟩)), some ⟨128, 17⟩, none, false) := by
    decide +kernel
  have hheld : ((ofRing (.create 64 16) .roundRobin 1 16).run? heldUp).map
      (fun p => (p.dispatcher.hand, p.dispatcher.mailboxes.length, p.dispatcher.isFree 0)) =
      some (.holding ⟨17, Job.encode ⟨0, .incr, [[98]]⟩, 34⟩ none, 1, false) := by
    decide +kernel
  have hworker : ((ofRing (.create 64 16) .roundRobin 1 16).run? heldUp).map
      (fun p => (p.worker? 0, p.inbox? 0, p.ledger.writes)) =
      some (some .ready, some (Job.encode ⟨0, .incr, [[97]]⟩), []) := by
    decide +kernel
  rcases Option.map_eq_some_iff.1 hcaller with ⟨p, hrun, hcaller⟩
  rw [hrun, Option.map_some, Option.some.injEq] at hheld hworker
  simp only [Prod.mk.injEq] at hcaller hheld hworker
  rcases hcaller with ⟨hwaiting, hrequest, hrunning, hstop⟩
  rcases hheld with ⟨hholding, hone, hbusy⟩
  rcases hworker with ⟨hready, hinbox, hwrites⟩
  have reached := Reachable.refl.run hrun
  have hparked : p.Parked := by
    refine ⟨?_, ?_, hrunning⟩
    · rw [hwaiting]
      exact Option.some_ne_none _
    · rw [hrequest]
      exact Option.some_ne_none _
  have hheld : p.Held none := by
    refine ⟨⟨_, hholding⟩, hstop, ?_⟩
    intro i hi
    have hzero : i = 0 := by
      have hlt := hi.1
      omega
    subst hzero
    refine ⟨hbusy, ?_⟩
    rw [hready]
    rintro ⟨⟩
  exact ⟨_, p, hopen, reached, hparked, hheld,
    hheld.awaitsStore hparked (hstart.reachable reached), hwaiting, hready, hinbox, hwrites⟩

end Pipeline
end WriteBehind
