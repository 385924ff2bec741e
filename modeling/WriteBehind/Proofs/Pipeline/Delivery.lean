import Mathlib.Data.List.Induction
import WriteBehind.Proofs.Pipeline.Books

/-!
# Delivery — every record is handed to the store at most once, and none is lost on the way

`Delivered p j` says where each record is, in terms of the ring, of the mailboxes and of the calls of
the store alone.

* `Intact p j`: the ring holds what came in and was not given up, and the process goes on;
  `Intact.step` keeps this through every step that brings in no padding too long for its word;
* `delivered_of_course` has `Delivered` for every state that steps of the caller, the dispatcher and the
  workers lead to, in any order;
* `lost_behind_padding` is a step behind which it does not hold, where the padding is too long.
-/

namespace WriteBehind

/-- The ring still has record `k`. -/
def Journal.InRing (j : Journal) (k : Nat) : Prop := j.released ≤ k ∧ k < j.accepted.length

namespace Pipeline

/-- Record `k` is in the mailbox of worker `i`. -/
def InMailbox (p : Pipeline) (j : Journal) (k i : Nat) : Prop :=
  j.slot i = k ∧ ∃ record, p.inbox? i = some record ∧ j.accepted[k]? = some record

/-- The dispatcher has put record `k` into a mailbox and the ring has not given it up yet. -/
def InFlight (p : Pipeline) (j : Journal) (k : Nat) : Prop :=
  k = j.released ∧ ∃ l worker, p.dispatcher.hand = .placed l worker

/-- How many mailboxes have a record. -/
def occupied (p : Pipeline) : Nat := p.dispatcher.mailboxes.countP fun m => !m.isFree

/-- Where the records are that came into the ring. -/
structure Delivered (p : Pipeline) (j : Journal) : Prop where
  running : p.aborted = none
  backlog : p.ring.backlog.payloads = j.accepted.drop j.released ∧ p.ring.backlog.defect = none
  /-- The calls of the store, whether it took the job or not, are for different records. -/
  once : List.Forall₂ j.Calls p.ledger.writes j.served ∧ j.served.Nodup
  /-- Records that the store has not seen are in the ring or in one mailbox, and never in both. -/
  unserved : ∀ k, k < j.accepted.length → k ∉ j.served → ¬ p.InFlight j k →
    (j.InRing k ∧ ∀ i, ¬ p.InMailbox j k i) ∨ (¬ j.InRing k ∧ ∃! i, p.InMailbox j k i)
  /-- Only the record that is in flight is in both, or in the ring although the store has seen it. -/
  inFlight : ∀ k, p.InFlight j k → j.InRing k ∧ (k ∈ j.served ∨ ∃! i, p.InMailbox j k i)
  served : ∀ k, k ∈ j.served → j.InRing k → p.InFlight j k
  /-- A mailbox never refuses a record. -/
  accepting : ∀ l home fault, p.dispatcher.hand = .holding l home →
    (p.dispatcher.place l home).1 ≠ some (.error fault)
  /-- No step but the worker's own changes what is in a mailbox. -/
  kept : ∀ a q i record, p.act? a = some q → p.inbox? i = some record → a ≠ .free i →
    q.inbox? i = some record
  /-- Between two records of every worker, all that was placed is accounted for. -/
  counted : (∀ i, p.worker? i ≠ some .served) →
    p.dispatcher.dispatched = p.ledger.written + p.ledger.failed + p.occupied

/-! ## The ring holds what came in -/

/-- The ring holds the records that came in and were not given up, and the process goes on. -/
structure Intact (p : Pipeline) (j : Journal) : Prop where
  sound : Ring.Sound p.ring (j.accepted.drop j.released)
  asked : p.ring.WellAsked
  running : p.aborted = none

namespace Intact

variable {limit : Nat} {p q : Pipeline} {j j' : Journal}

/-- A step that the ring does not see. -/
theorem congr (h : Intact p j) (hring : q.ring = p.ring) (hrunning : q.aborted = none)
    (haccepted : j'.accepted = j.accepted) (hreleased : j'.released = j.released) : Intact q j' := by
  refine ⟨?_, ?_, hrunning⟩
  · rw [hring, haccepted, hreleased]
    exact h.sound
  · rw [hring]
    exact h.asked

/-- Records come in behind those that are there. -/
theorem extend (hbooks : Books limit p j) {more : List Bytes}
    (hextends : Ring.Extends p.ring q.ring (j.accepted.drop j.released) more)
    (hrunning : q.aborted = none) : Intact q (j.accept more) := by
  refine ⟨?_, hextends.asked, hrunning⟩
  show Ring.Sound q.ring ((j.accept more).accepted.drop j.released)
  rw [hbooks.custody.drop_accept]
  exact hextends.sound

theorem enqueue (h : Intact p j) (hbooks : Books limit p j) {command : Command} {timestamp : Nat}
    {args : List Bytes} (hnotes : NotesPads p (.enqueue command timestamp args) q)
    (hq : (p.enqueue command timestamp args).2 = q) :
    Intact q (j.accept (Ring.added q.scratch (p.enqueue command timestamp args).1)) := by
  cases hpack : Record.pack command timestamp args p.ring.limit p.scratch with
  | mk result scratch =>
    cases result with
    | error cause =>
      -- Nothing is submitted, and only the scratch buffer has changed.
      simp only [Pipeline.enqueue, hpack] at hq ⊢
      subst hq
      exact h.congr rfl h.running (List.append_nil _) rfl
    | ok n =>
      have hpad : p.ring.NotesPad scratch := hnotes scratch (by simp only [offered?, hpack])
      simp only [Pipeline.enqueue, hpack] at hq ⊢
      subst hq
      exact .extend hbooks (Ring.Channel.submit_push_extends h.sound h.asked hpad) h.running

theorem resume (h : Intact p j) (hbooks : Books limit p j) (hnotes : NotesPads p .resume q) :
    Intact (p.setChannel p.channel.resume.2) (j.accept p.channel.resumed) := by
  refine .extend hbooks (Ring.Channel.resume_extends h.sound h.asked ?_) h.running
  intro payload hwaiting
  have hoffered : p.channel.waiting = some (.push payload) := hwaiting
  exact hnotes payload (by simp only [offered?, hoffered])

/-- A look keeps the records, and finds nothing that is corrupt. -/
theorem look (h : Intact p j) (hbooks : Books limit p j) :
    Intact { p with dispatcher := p.dispatcher.look.2 } j ∧
      ∀ fault, p.dispatcher.look.1 = .error fault → fault.kind ≠ .corrupt := by
  rcases h.sound.pop_keeps h.asked with ⟨hsound, hasked, hhealthy⟩
  rcases hbooks.look_cases with ⟨fault, hpop, hlook⟩ | ⟨-, hlook⟩ | ⟨l, home, -, -, hlook⟩ <;> rw [hlook]
  · refine ⟨⟨hsound, hasked, h.running⟩, ?_⟩
    rintro _ ⟨⟩
    exact hhealthy fault hpop
  · exact ⟨⟨hsound, hasked, h.running⟩, fun _ hc => nomatch hc⟩
  · exact ⟨⟨hsound, hasked, h.running⟩, fun _ hc => nomatch hc⟩

/-- Giving up the record that is placed drops the head of the list. -/
theorem release (h : Intact p j) (hbooks : Books limit p j) {l : Ring.Lease} {w : Nat}
    (hplaced : p.dispatcher.hand = .placed l w) :
    Intact { p with dispatcher := p.dispatcher.release l } { j with released := j.released + 1 } := by
  have hlease : p.dispatcher.hand.lease? = some l := by
    rw [hplaced]
    rfl
  have hlent := (hbooks.custody.loan l hlease).1
  have hsound := h.sound
  rw [(hbooks.custody.drop_released hlease).2] at hsound
  exact ⟨hsound.release ⟨hlent.start, hlent.next, hlent.pad⟩, h.asked.release l, h.running⟩

/-- The ring loses its consumer. -/
theorem close (h : Intact p j) (hring : q.ring = p.ring.closeConsumer) (hrunning : q.aborted = none) :
    Intact q j := by
  refine ⟨?_, ?_, hrunning⟩
  · rw [hring]
    exact h.sound.of_eq rfl rfl rfl rfl rfl rfl
  · rw [hring]
    exact h.asked

/-- Every step keeps the ring and the process, as long as a padding that comes in fits its word. -/
theorem step (h : Intact p j) (hbooks : Books limit p j) {a : Action} (hnotes : NotesPads p a q)
    (hact : p.act? a = some q) : Intact q (j.after p a q) := by
  cases (does_of_act? hact).2 with
  | enqueue command timestamp args _ => exact h.enqueue hbooks hnotes rfl
  | resume => exact h.resume hbooks hnotes
  | look | lookFails => exact (h.look hbooks).1
  | lookPanics => exact (h.look hbooks).1.close rfl h.running
  | lookAborts _ hlook hkind => exact absurd hkind ((h.look hbooks).2 _ hlook)
  | @place l home _ hholding hplace =>
    have hring := ring_place p.dispatcher l home
    rcases hbooks.place hholding hplace with ⟨-, hafter⟩
    -- The journal notes where the record has gone, and nothing about the ring.
    refine h.congr hring h.running ?_ ?_ <;> simp only [Journal.after] <;> split <;> rfl
  | release hplaced => exact h.release hbooks hplaced
  | leave => exact h.close rfl h.running
  | serveAborts _ hrecord hunpack =>
    -- Only records that can be decoded come into the ring.
    rcases hbooks.decodable_inbox hrecord with ⟨job, hjob⟩
    cases hjob.symm.trans hunpack
  | raiseStop | raiseWorkersStop | goOn | wait | giveUp | serve | free | findEmpty | checkStop
  | readRing | readMailbox => exact h.congr rfl h.running rfl rfl

end Intact

theorem Course.intact {limit : Nat} {p : Pipeline} {j : Journal} (course : Course limit p j) :
    Intact p j := by
  rcases course with ⟨hsound, hasked, hlimit, hdecodable, steps⟩
  exact (steps.keeps (I := fun p j => Books limit p j ∧ Intact p j)
    ⟨.start hsound.gives hlimit hdecodable _ _, hsound, hasked, rfl⟩
    fun h hnotes hact => ⟨h.1.step hact, h.2.step h.1 hnotes hact⟩).2

/-! ## Places -/

section Places

variable {limit : Nat} {p q : Pipeline} {j : Journal} {i k : Nat}

/-- Records are placed in order, and the ring gives them up in order. -/
theorem placed_iff (hplaced : j.homes.length = j.released + p.dispatcher.hand.inFlight) :
    k < j.homes.length ↔ k < j.released ∨ p.InFlight j k := by
  -- The hand is where the two counts differ.
  rw [hplaced]
  cases hhand : p.dispatcher.hand with
  | placed l worker =>
    simp only [Hand.inFlight, InFlight, hhand, Hand.placed.injEq, exists_and_left, exists_eq',
      and_true]
    omega
  | empty | reaching | holding | gone =>
    simp only [Hand.inFlight, InFlight, hhand, reduceCtorEq, exists_false, and_false, or_false,
      Nat.add_zero]

theorem Books.inMailbox_of_slot (h : Books limit p j) (hoccupied : p.inbox? i ≠ none) :
    p.InMailbox j (j.slot i) i := by
  rcases Option.ne_none_iff_exists'.1 hoccupied with ⟨record, hrecord⟩
  exact ⟨rfl, record, hrecord, (h.slots.carried i record hrecord).2⟩

theorem Books.inMailbox_unique (h : Books limit p j) {i' : Nat} (hi : p.InMailbox j k i)
    (hi' : p.InMailbox j k i') : i' = i := by
  rcases hi with ⟨hslot, record, hrecord, -⟩
  rcases hi' with ⟨hslot', record', hrecord', -⟩
  refine h.slots.slot_inj ?_ ?_ (hslot'.trans hslot.symm)
  · rw [hrecord']
    exact Option.some_ne_none _
  · rw [hrecord]
    exact Option.some_ne_none _

/-- What was placed was handed to the store, or is in its mailbox. -/
theorem Books.served_or_inMailbox (h : Books limit p j) (hk : k < j.homes.length) :
    k ∈ j.served ∨ ∃! i, p.InMailbox j k i := by
  rcases h.slots.settled k _ (List.getElem?_eq_getElem hk) with hserved | ⟨hoccupied, hslot⟩
  · exact .inl hserved
  · have hmailbox := h.inMailbox_of_slot hoccupied
    rw [hslot] at hmailbox
    exact .inr ⟨_, hmailbox, fun _ hother => h.inMailbox_unique hmailbox hother⟩

theorem Books.lt_of_inMailbox (h : Books limit p j) (hi : p.InMailbox j k i) :
    k < j.homes.length := by
  rcases hi with ⟨rfl, record, hrecord, -⟩
  refine h.slots.slot_lt ?_
  rw [hrecord]
  exact Option.some_ne_none _

theorem Books.released_le (h : Books limit p j) : j.released ≤ j.homes.length := by
  rw [h.custody.placed]
  exact Nat.le_add_right _ _

/-- A record that the store has not seen, and that is not in flight, is in the ring or in one mailbox. -/
theorem Books.ring_or_inMailbox (h : Books limit p j) (hk : k < j.accepted.length)
    (hserved : k ∉ j.served) (hgrounded : ¬ p.InFlight j k) :
    (j.InRing k ∧ ∀ i, ¬ p.InMailbox j k i) ∨ (¬ j.InRing k ∧ ∃! i, p.InMailbox j k i) := by
  by_cases hreleased : k < j.released
  · -- It was placed, so it is in its mailbox.
    have hplaced := Nat.lt_of_lt_of_le hreleased h.released_le
    refine .inr ⟨?_, (h.served_or_inMailbox hplaced).resolve_left hserved⟩
    intro hring
    exact Nat.not_lt.2 hring.1 hreleased
  · -- It is in the ring; were it in a mailbox too, it would be in flight.
    refine .inl ⟨⟨Nat.not_lt.1 hreleased, hk⟩, ?_⟩
    intro i hi
    rcases (placed_iff h.custody.placed).1 (h.lt_of_inMailbox hi) with hlt | hflight
    · exact hreleased hlt
    · exact hgrounded hflight

/-- What is in flight is in the ring, and was handed to the store or is in one mailbox. -/
theorem Books.ring_of_inFlight (h : Books limit p j) (hflight : p.InFlight j k) :
    j.InRing k ∧ (k ∈ j.served ∨ ∃! i, p.InMailbox j k i) := by
  refine ⟨?_, h.served_or_inMailbox ((placed_iff h.custody.placed).2 (.inr hflight))⟩
  rcases hflight with ⟨rfl, l, worker, hhand⟩
  have hlease : p.dispatcher.hand.lease? = some l := by
    rw [hhand]
    rfl
  exact ⟨Nat.le_refl _, (List.getElem?_eq_some_iff.1 (h.custody.loan l hlease).2).1⟩

/-- What the store has seen and is in the ring is in flight. -/
theorem Books.inFlight_of_served (h : Books limit p j) (hserved : k ∈ j.served) (hring : j.InRing k) :
    p.InFlight j k := by
  rcases (placed_iff h.custody.placed).1 (h.slots.lt_of_mem_served hserved) with hlt | hflight
  · exact absurd hlt (Nat.not_lt.2 hring.1)
  · exact hflight

end Places

/-! ## Counting mailboxes -/

/-- A predicate counts as often over a list as over the places of the list. -/
theorem countP_range_length {α : Type} (l : List α) (f : α → Bool) (g : Nat → Bool)
    (h : ∀ i x, l[i]? = some x → g i = f x) : (List.range l.length).countP g = l.countP f := by
  -- The places of a list grow at the same end as the list.
  induction l using List.reverseRecOn with
  | nil => rfl
  | append_singleton l x ih =>
    have hinit : (List.range l.length).countP g = l.countP f := by
      refine ih ?_
      intro i y hy
      refine h i y ?_
      rw [List.getElem?_append_left (List.getElem?_eq_some_iff.1 hy).1, hy]
    have hlast : g l.length = f x := h l.length x List.getElem?_concat_length
    simp only [List.length_append, List.length_singleton, List.range_succ, List.countP_append,
      List.countP_singleton, hinit, hlast]

/-- Between records, the mailboxes whose record the store has not seen are those that have one. -/
theorem unserved_eq_occupied {p : Pipeline} (hbetween : ∀ i, p.worker? i ≠ some .served) :
    WriteBehind.unserved p.inbox? p.worker? p.dispatcher.mailboxes.length = p.occupied := by
  refine countP_range_length p.dispatcher.mailboxes _ _ ?_
  intro i m hm
  have hinbox : p.inbox? i = m.contents? := by
    rw [inbox?, hm, Option.bind_some]
  rw [hinbox, Mailbox.contents?]
  cases m.isFree with
  | true => simp only [if_true, ne_eq, not_true_eq_false, false_and, decide_false, Bool.not_true]
  | false =>
    refine decide_eq_true ⟨?_, hbetween i⟩
    exact Option.some_ne_none _

/-! ## The law -/

theorem Books.delivered {limit : Nat} {p : Pipeline} {j : Journal} (h : Books limit p j)
    (hintact : Intact p j) : p.Delivered j := by
  refine ⟨hintact.running, hintact.sound.backlog, ⟨h.slots.calls, h.slots.nodup⟩,
    fun _ => h.ring_or_inMailbox, fun _ => h.ring_of_inFlight, fun _ => h.inFlight_of_served, ?_, ?_,
    ?_⟩
  · intro l home fault hholding hrefused
    cases (h.place hholding hrefused).1
  · intro a q i record hact hrecord hfree
    have hdoes := (does_of_act? hact).2
    rcases hdoes.inbox hrecord with hkept | hown | ⟨cause, hunpack⟩
    · exact hkept
    · exact absurd hown hfree
    · -- What is in a mailbox can be decoded.
      rcases h.decodable_inbox hrecord with ⟨job, hjob⟩
      cases hjob.symm.trans hunpack
  · -- What was placed has been answered for or is in a mailbox.
    intro hbetween
    have hplaced := h.tallied.placed
    rw [h.shaped.length_eq, unserved_eq_occupied hbetween] at hplaced
    have hcalls := h.slots.calls.length_eq
    rw [h.tallied.dispatched, hplaced, h.tallied.answered, hcalls]

/-- Every state that is reached, by steps of the caller, the dispatcher and the workers in any order,
has every record in one place, and hands it to the store at most once. -/
theorem delivered_of_course {limit : Nat} {p : Pipeline} {j : Journal} (course : Course limit p j) :
    p.Delivered j :=
  course.books.delivered course.intact

/-- The store refused the first of two records while it was in flight. -/
theorem delivered_of_course_refused :
    ∃ (p : Pipeline) (j : Journal), p.Delivered j ∧ p.InFlight j 0 ∧ j.accepted.length = 2 ∧
      j.served = [0] ∧ p.ledger.failed = 1 := by
  have hseen : ∃ p j, Course 16 p j ∧
      (j.accepted.length, j.served, j.released, p.ledger.failed) = (2, [0], 0, 1) :=
    Course.exists_of_replay 64 rfl (by decide) .roundRobin 2
      [.enqueue .incr 0 [[97]], .enqueue .incr 0 [[98]], .goOn, .look, .place, .serve 0 false]
      (fun s => (s.2.accepted.length, s.2.served, s.2.released, s.1.ledger.failed))
      (by decide +kernel)
  rcases hseen with ⟨p, j, course, hview⟩
  simp only [Prod.mk.injEq] at hview
  rcases hview with ⟨haccepted, hserved, hreleased, hfailed⟩
  have hdelivered := delivered_of_course course
  refine ⟨p, j, hdelivered, hdelivered.served 0 ?_ ⟨?_, ?_⟩, haccepted, hserved, hfailed⟩
  · rw [hserved]
    exact List.mem_singleton_self 0
  · exact Nat.le_of_eq hreleased
  · rw [haccepted]
    decide

/-! ## A padding that is too long -/

/-- A queue file with nothing in it, of the greatest record limit.  Its counters stand `2 ^ 32` bytes in front
of the physical end, and that is too little for the longest frame. -/
def widestBytes : Image :=
  (Image.zeros (Ring.Header.size + 2 ^ 34)).write 0
    (Ring.Header.encode ⟨2 ^ 34 - 2 ^ 32, 2 ^ 34 - 2 ^ 32, 0⟩)

theorem offers_widestBytes : ({ files := [("q", widestBytes)] } : Disk).Offers "q" widestBytes :=
  (Disk.hasFile_single widestBytes).offers

/-- The ring takes a record behind a padding of `2 ^ 32` bytes and notes none: the record is in no mailbox,
the store has not seen it, and the ring does not give it. -/
theorem lost_behind_padding :
    ∃ r p, (({ files := [("q", widestBytes)] } : Disk).openRing ⟨64, 2 ^ 32 - 1, some "q"⟩).1 = .ok r ∧
      (ofRing r .roundRobin 1 (2 ^ 32 - 1)).act? (.enqueue .incr 0 [[97]]) = some p ∧
      ((ofRing r .roundRobin 1 (2 ^ 32 - 1)).enqueue .incr 0 [[97]]).1 = .ok .done ∧
      p.ring.backlog.payloads = [] ∧ p.inbox? 0 = none ∧ p.ledger.writes = [] := by
  refine ⟨_, _, (Ring.openRing_of_offers offers_widestBytes (by decide)).trans rfl, rfl, ?_, ?_, ?_,
    ?_⟩
  · decide +kernel
  · decide +kernel
  · decide +kernel
  · decide +kernel

end Pipeline
end WriteBehind
