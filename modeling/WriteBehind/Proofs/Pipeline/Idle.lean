import WriteBehind.Proofs.Pipeline.Delivery
import WriteBehind.Proofs.Ring.Level

/-!
# Idle — somebody who finds the pipeline idle can rely on it

The ring is read in one step and each mailbox in a step of its own, and the dispatcher and the workers go
on in between.  No moment was seen as a whole.  And yet, as long as nothing is enqueued meanwhile, what is
left behind the looks stays empty: the ring was read first, and a record leaves it only for a mailbox.

* `Emptied p j n`: the ring has given up every record, and the first `n` mailboxes are free;
* `Watched p j` says what has been seen to be so, and `Watched.step` that no step of others undoes it;
* `idle_of_onward`: whoever has found the ring and all mailboxes empty, one after the other, finds every
  record handed to the store exactly once and nothing left anywhere.

A ring that does not give all of its records, since a padding is too long for its word, is not empty, so that
nothing has to be asked of the paddings here.
-/

namespace WriteBehind
namespace Pipeline

/-- The ring is empty and has given up every record that came in, and the first `n` mailboxes are
free. -/
structure Emptied (p : Pipeline) (j : Journal) (n : Nat) : Prop where
  drained : p.ring.read = p.ring.write
  released : j.released = j.accepted.length
  free : ∀ i, i < n → p.inbox? i = none

/-- What has been seen to be empty is empty. -/
def Watched (p : Pipeline) (j : Journal) : Prop :=
  match p.watch with
  | .off | .found false => True
  | .reading mailboxes => p.Emptied j mailboxes
  | .found true => p.Emptied j p.workers.length

/-- Nothing is enqueued. -/
def Undisturbed (_ : Pipeline) (a : Action) (_ : Pipeline) : Prop := a.isCall = false

/-- All that has ever come in was handed to the store once, and nothing is left on the way. -/
structure Idle (p : Pipeline) (j : Journal) : Prop where
  idle : p.isIdle = true
  ring : p.ring.backlog.payloads = [] ∧ p.ring.backlog.defect = none
  mailboxes : ∀ i, p.inbox? i = none
  hand : p.dispatcher.hand.lease? = none
  calls : List.Forall₂ j.Calls p.ledger.writes j.served
  /-- Each record is among those that were handed to the store, and once. -/
  once : j.served.Nodup ∧ ∀ k, k ∈ j.served ↔ k < j.accepted.length
  dispatched : p.dispatcher.dispatched = p.ledger.written + p.ledger.failed
  released : p.dispatcher.dispatched = j.released ∧ j.released = j.accepted.length

section Steps

variable {limit n : Nat} {p q : Pipeline} {j : Journal} {a : Action}

/-- Only the caller's steps bring records in. -/
theorem accepted_of_others (hother : a.isCall = false) :
    (j.after p a q).accepted = j.accepted := by
  cases a with
  | enqueue | resume => cases hother
  | place =>
    simp only [Journal.after]
    split <;> rfl
  | _ => rfl

/-- Only the dispatcher puts a record into an empty mailbox. -/
theorem inbox_none_of_act (hact : p.act? a = some q) (hplace : a ≠ .place) {i : Nat}
    (hnone : p.inbox? i = none) : q.inbox? i = none := by
  have hkept : ∀ {d : Dispatcher}, d.mailboxes = p.dispatcher.mailboxes →
      d.mailboxes[i]?.bind Mailbox.contents? = none := by
    intro d hmailboxes
    rw [hmailboxes]
    exact hnone
  have hcleared : ∀ k, (p.clearMailbox k).inbox? i = none := by
    intro k
    rcases inbox?_clearMailbox p k with ⟨hself, hother⟩
    by_cases hk : i = k
    · rw [hk, hself]
    · rw [hother i hk, hnone]
  cases (does_of_act? hact).2 with
  | enqueue command timestamp args _ => exact hkept (mailboxes_enqueue p command timestamp args)
  | look | lookFails | lookPanics | lookAborts => exact hkept (mailboxes_look p.dispatcher)
  | place => exact absurd rfl hplace
  | @release l _ _ => exact hkept (mailboxes_release p.dispatcher l)
  | leave =>
    rw [(boxesKept_leave p).inbox]
    exact hnone
  | serveAborts => exact hcleared _
  | free => exact hcleared _
  | resume | raiseStop | raiseWorkersStop | goOn | wait | giveUp | serve | findEmpty | checkStop
  | readRing | readMailbox => exact hnone

theorem watch_of_act (hact : p.act? a = some q) (hring : a ≠ .readRing)
    (hmailbox : a ≠ .readMailbox) : q.watch = p.watch := by
  cases (does_of_act? hact).2 with
  | enqueue command timestamp args _ =>
    rcases p.exists_enqueue command timestamp args with ⟨c, scratch, henqueue⟩
    rw [henqueue]
    rfl
  | readRing => exact absurd rfl hring
  | readMailbox => exact absurd rfl hmailbox
  | _ => rfl

theorem length_workers_of_act (hact : p.act? a = some q) :
    q.workers.length = p.workers.length := by
  cases (does_of_act? hact).2 with
  | enqueue command timestamp args _ =>
    rcases p.exists_enqueue command timestamp args with ⟨c, scratch, henqueue⟩
    rw [henqueue]
    rfl
  | serve | free | findEmpty | checkStop => exact List.length_set
  | _ => rfl

theorem released_of_act (hrelease : a ≠ .release) :
    (j.after p a q).released = j.released := by
  cases a with
  | release => exact absurd rfl hrelease
  | place =>
    simp only [Journal.after]
    split <;> rfl
  | _ => rfl

/-- What the watcher's look at the ring has led to. -/
theorem readRing_cases (hact : p.act? .readRing = some q) :
    (p.ring.snapshot.outstanding = 0 ∧ q = { p with watch := .reading 0 }) ∨
      q = { p with watch := .found false } := by
  simp only [act?, watch?] at hact
  split at hact
  · cases hact
  · split at hact
    · rename_i hzero
      cases hact
      exact .inl ⟨hzero, rfl⟩
    · cases hact
      exact .inr rfl

/-- What the watcher's look at the next mailbox has led to. -/
theorem readMailbox_cases (hact : p.act? .readMailbox = some q) :
    ∃ n, p.watch = .reading n ∧
      ((p.dispatcher.mailboxes.length ≤ n ∧ q = { p with watch := .found true }) ∨
        (p.inbox? n = none ∧ q = { p with watch := .reading (n + 1) }) ∨
        q = { p with watch := .found false }) := by
  simp only [act?, watch?] at hact
  split at hact
  · cases hact
  · split at hact
    · rename_i n hwatch
      refine ⟨n, hwatch, ?_⟩
      split at hact
      · rename_i hnone
        cases hact
        exact .inl ⟨List.getElem?_eq_none_iff.1 hnone, rfl⟩
      · rename_i m hm
        cases hact
        cases hfree : m.isFree with
        | true =>
          refine .inr (.inl ⟨?_, rfl⟩)
          simp only [inbox?, hm, Option.bind_some, Mailbox.contents?, hfree, if_true]
        | false => exact .inr (.inr rfl)
    · cases hact

/-- A ring with nothing between its counters stays so while nothing is enqueued or released. -/
theorem drained_of_others (hfitted : Ring.Fitted p.ring) (hdrained : p.ring.read = p.ring.write)
    (hother : a.isCall = false) (hrelease : a ≠ .release) (hact : p.act? a = some q) :
    q.ring.read = q.ring.write := by
  -- The pop may serve a request, and then it finds nothing.
  have hlook : p.dispatcher.look.2.ring.read = p.dispatcher.look.2.ring.write := by
    rcases Ring.Fitted.pop_drained hfitted hdrained with ⟨hsame, hnone⟩
    rcases ring_look p.dispatcher with hlook | ⟨l, hpop, -⟩
    · rw [hlook]
      exact hsame
    · exact absurd hpop (hnone l)
  cases (does_of_act? hact).2 with
  | enqueue | resume => cases hother
  | look | lookFails | lookPanics | lookAborts => exact hlook
  | @place l home _ _ _ =>
    show (p.dispatcher.place l home).2.ring.read = (p.dispatcher.place l home).2.ring.write
    rw [ring_place]
    exact hdrained
  | release => exact absurd rfl hrelease
  | raiseStop | raiseWorkersStop | goOn | wait | giveUp | leave | serve | serveAborts | free
  | findEmpty | checkStop | readRing | readMailbox => exact hdrained

end Steps

/-! ## What was seen stays so -/

section Watching

variable {limit n : Nat} {p q : Pipeline} {j : Journal} {a : Action}

/-- A ring with nothing between its counters has given up all that came in. -/
theorem Books.emptied_of_outstanding (h : Books limit p j)
    (hzero : p.ring.snapshot.outstanding = 0) : p.Emptied j 0 := by
  have hleads := h.custody.gives.leads
  have hdrained : p.channel.ring.read = p.channel.ring.write := by
    have hle := hleads.le
    have hnone : p.channel.ring.write - p.channel.ring.read = 0 := hzero
    omega
  refine ⟨hdrained, ?_, fun i hi => absurd hi (Nat.not_lt_zero i)⟩
  rw [← hdrained] at hleads
  exact Nat.le_antisymm h.custody.released_le (List.drop_eq_nil_iff.1 hleads.eq_nil)

/-- The dispatcher has no record in hand that the ring does not have. -/
theorem Books.lease_none (h : Books limit p j) (hall : j.released = j.accepted.length) :
    p.dispatcher.hand.lease? = none := by
  cases hlease : p.dispatcher.hand.lease? with
  | none => rfl
  | some l =>
    have hlent := (h.custody.loan l hlease).2
    rw [hall, List.getElem?_eq_none (Nat.le_refl _)] at hlent
    cases hlent

/-- No step of others brings anything back to where it was seen to be empty. -/
theorem Emptied.step (h : Books limit p j) (hempty : p.Emptied j n) (hother : a.isCall = false)
    (hact : p.act? a = some q) : q.Emptied (j.after p a q) n := by
  -- The two steps that could bring a record back need one in hand.
  have hlease := h.lease_none hempty.released
  have hplace : a ≠ .place := by
    rintro rfl
    cases (does_of_act? hact).2 with
    | place hholding =>
      rw [hholding] at hlease
      cases hlease
  have hrelease : a ≠ .release := by
    rintro rfl
    cases (does_of_act? hact).2 with
    | release hplaced =>
      rw [hplaced] at hlease
      cases hlease
  refine ⟨?_, ?_, ?_⟩
  · exact drained_of_others h.custody.gives.sized.fitted hempty.drained hother hrelease hact
  · rw [released_of_act hrelease, accepted_of_others hother]
    exact hempty.released
  · intro i hi
    exact inbox_none_of_act hact hplace (hempty.free i hi)

/-- A look at the ring comes before the looks at the mailboxes. -/
theorem Books.watched_readRing (h : Books limit p j) (hact : p.act? .readRing = some q) :
    q.Watched j := by
  rcases readRing_cases hact with ⟨hzero, rfl⟩ | rfl
  · have hempty := h.emptied_of_outstanding hzero
    exact ⟨hempty.drained, hempty.released, hempty.free⟩
  · exact trivial

theorem Watched.step (h : Books limit p j) (hwatched : p.Watched j) (hother : a.isCall = false)
    (hact : p.act? a = some q) : q.Watched (j.after p a q) := by
  by_cases hring : a = .readRing
  · subst hring
    exact h.watched_readRing hact
  by_cases hmailbox : a = .readMailbox
  · subst hmailbox
    rcases readMailbox_cases hact with ⟨n, hwatch, hcase⟩
    have hempty : p.Emptied j n := by
      simp only [Watched, hwatch] at hwatched
      exact hwatched
    rcases hcase with ⟨hall, rfl⟩ | ⟨hnone, rfl⟩ | rfl
    · -- There is no mailbox left to look into.
      refine ⟨hempty.drained, hempty.released, ?_⟩
      intro i hi
      have hlt : i < p.workers.length := hi
      rw [h.shaped.length_eq] at hlt
      exact hempty.free i (Nat.lt_of_lt_of_le hlt hall)
    · -- One mailbox more was seen to be free.
      refine ⟨hempty.drained, hempty.released, ?_⟩
      intro i hi
      rcases Nat.lt_succ_iff_lt_or_eq.1 hi with hlt | rfl
      · exact hempty.free i hlt
      · exact hnone
    · exact trivial
  · simp only [Watched, watch_of_act hact hring hmailbox, length_workers_of_act hact] at hwatched ⊢
    split at hwatched
    · exact trivial
    · exact trivial
    · exact Emptied.step h hwatched hother hact
    · exact Emptied.step h hwatched hother hact

/-- From a look at the ring on, what was seen to be empty is empty. -/
theorem Books.watched (h : Books limit p j) {p₁ : Pipeline} {k : Journal}
    (hread : p.act? .readRing = some p₁) (during : Onward Undisturbed p₁ j q k) :
    Books limit q k ∧ q.Watched k ∧ k.accepted = j.accepted :=
  during.keeps (I := fun q k => Books limit q k ∧ q.Watched k ∧ k.accepted = j.accepted)
    ⟨h.step hread, h.watched_readRing hread, rfl⟩
    fun hwatched hother hact => ⟨hwatched.1.step hact, hwatched.2.1.step hwatched.1 hother hact,
      (accepted_of_others hother).trans hwatched.2.2⟩

/-- Where the ring and all mailboxes are empty, nothing is left on the way. -/
theorem Books.idle (h : Books limit p j) (hempty : p.Emptied j p.workers.length) : p.Idle j := by
  have hlease := h.lease_none hempty.released
  have hmailboxes : ∀ i, p.inbox? i = none := by
    intro i
    rcases Nat.lt_or_ge i p.workers.length with hlt | hge
    · exact hempty.free i hlt
    · rw [h.shaped.length_eq] at hge
      rw [inbox?, List.getElem?_eq_none hge]
      rfl
  -- What was released was placed, and what was placed was served, as both differences are zero.
  have hunserved : unserved p.inbox? p.worker? p.workers.length = 0 := by
    refine List.countP_eq_zero.2 ?_
    intro i _
    rw [decide_eq_true_eq]
    exact fun hc => hc.1 (hmailboxes i)
  have hflight : p.dispatcher.hand.inFlight = 0 := by
    cases hhand : p.dispatcher.hand with
    | placed l worker =>
      rw [hhand] at hlease
      cases hlease
    | empty | reaching | holding | gone => rfl
  have hhomes : j.homes.length = j.released := by
    rw [h.custody.placed, hflight, Nat.add_zero]
  have hserved : j.homes.length = j.served.length := by
    rw [h.tallied.placed, hunserved, Nat.add_zero]
  have hbacklog : p.ring.backlog = {} :=
    Ring.View.walk_of_le (Nat.le_of_eq hempty.drained.symm)
  refine ⟨?_, ?_, hmailboxes, hlease, h.slots.calls, ⟨h.slots.nodup, ?_⟩, ?_, ?_,
    hempty.released⟩
  · have hdrained : p.ring.write - p.ring.read = 0 := by
      rw [hempty.drained, Nat.sub_self]
    simp only [isIdle, Bool.and_eq_true, beq_iff_eq, List.all_eq_true]
    refine ⟨hdrained, ?_⟩
    intro m hm
    rcases List.mem_iff_getElem?.1 hm with ⟨i, hi⟩
    have hnone := hmailboxes i
    rw [inbox?, hi, Option.bind_some, Mailbox.contents?] at hnone
    split at hnone
    · assumption
    · cases hnone
  · rw [hbacklog]
    exact ⟨rfl, rfl⟩
  · intro k
    rw [← hempty.released, ← hhomes]
    refine ⟨h.slots.lt_of_mem_served, ?_⟩
    intro hk
    -- A record that was not served would be in a mailbox.
    refine (h.served_or_inMailbox hk).resolve_right ?_
    rintro ⟨i, ⟨-, record, hrecord, -⟩, -⟩
    cases (hmailboxes i).symm.trans hrecord
  · rw [h.tallied.dispatched, h.tallied.answered, h.slots.calls.length_eq, hserved]
  · rw [h.tallied.dispatched, hhomes]

end Watching

/-- Whoever has found the ring empty and then one mailbox after the other, while the dispatcher and the
workers went on and nothing was enqueued, has found the pipeline idle: every record that had come in
before was handed to the store, once, and nothing is left on the way. -/
theorem idle_of_onward {limit workers : Nat} {routing : Routing} {r : Ring} {records : List Bytes}
    {p p₁ q : Pipeline} {j k : Journal} (hsound : Ring.Sound r records) (hlimit : r.limit = limit)
    (hdecodable : ∀ record ∈ records, Record.Decodable record)
    (before : Onward AnyStep (.ofRing r routing workers limit) { accepted := records } p j)
    (hread : p.act? .readRing = some p₁) (during : Onward Undisturbed p₁ j q k)
    (hfound : q.watch = .found true) : q.Idle k ∧ k.accepted = j.accepted := by
  have hbooks := books_of_onward hsound.gives hlimit hdecodable before
  rcases hbooks.watched hread during with ⟨hbooks', hwatched, haccepted⟩
  simp only [Watched, hfound] at hwatched
  exact ⟨hbooks'.idle hwatched, haccepted⟩

/-- The watcher finds the ring empty and the first mailbox free while the second worker is about the
second record, and looks into its mailbox when it is done. -/
theorem idle_of_onward_between :
    ∃ (q : Pipeline) (j k : Journal), q.Idle k ∧ k.accepted = j.accepted ∧ j.accepted.length = 2 ∧
      j.served = [0] ∧ k.served = [0, 1] ∧ q.ledger.failed = 1 := by
  have hsound : Ring.Sound (.create 64 16) [] :=
    Ring.sound_create (by decide) (by decide) (by decide) (by decide)
  have hseen : ((ofRing (.create 64 16) .roundRobin 2 16).replay? { accepted := [] }
      [.enqueue .incr 0 [[97]], .enqueue .incr 0 [[98]], .goOn, .look, .place, .release, .serve 0 true,
        .goOn, .look, .place, .release, .free 0]).bind (fun s => (s.1.act? .readRing).bind fun p₁ =>
      (p₁.replay? s.2 [.readMailbox, .serve 1 false, .free 1, .readMailbox, .readMailbox]).map
        fun t => (s.2.accepted.length, s.2.served, t.2.served, t.1.ledger.failed, t.1.watch)) =
      some (2, [0], [0, 1], 1, .found true) := by decide +kernel
  rcases Option.bind_eq_some_iff.1 hseen with ⟨⟨p, j⟩, hfirst, hrest⟩
  rcases Option.bind_eq_some_iff.1 hrest with ⟨p₁, hread, hrest⟩
  rcases Option.map_eq_some_iff.1 hrest with ⟨⟨q, k⟩, hsecond, hview⟩
  simp only [Prod.mk.injEq] at hview
  rcases hview with ⟨haccepted, hserved, hserved', hfailed, hfound⟩
  have before : Onward AnyStep _ _ p j := Onward.refl.replay (fun _ _ _ _ => trivial) hfirst
  have hothers : ∀ a ∈ [Action.readMailbox, .serve 1 false, .free 1, .readMailbox, .readMailbox],
      a.isCall = false := by decide
  have during : Onward Undisturbed p₁ j q k :=
    Onward.refl.replay (fun a ha _ _ => hothers a ha) hsecond
  have hidle := idle_of_onward hsound rfl (fun _ hmem => nomatch hmem) before hread during hfound
  exact ⟨q, j, k, hidle.1, hidle.2, haccepted, hserved, hserved', hfailed⟩

end Pipeline
end WriteBehind
