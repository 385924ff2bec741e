import WriteBehind.Proofs.Pipeline.Boxes
import WriteBehind.Proofs.Ring.Taking

/-!
# Cycle — one cycle of the dispatcher, and the record that it takes on

A cycle takes the oldest record on loan and ends in one of several ways.  Whether the record has left the
ring and whether a mailbox has a copy of it are to be two sides of one thing.

* `Cycles d mailboxes result after`: a cycle that starts at `d`, waits for a mailbox if it has to, and
  ends with a result;
* `proceed_cases` lists the ways in which it goes on with a record in hand;
* `HandsOver`: the oldest record has left the ring for a mailbox;
* `unread_of_cycle`: this is so exactly if the cycle says that it has delivered it, but for a record
  whose key is to say where it goes and cannot be read.
-/

namespace WriteBehind
namespace Dispatcher

/-! ## Whole cycles -/

/-- The records that are still in the ring, oldest first. -/
def unread (d : Dispatcher) : List Bytes := d.ring.backlog.payloads

/-- A whole cycle, from `d` to its result.  The mailboxes are those among which it found one or gave up
the search: while it waited the workers may have done anything to them, the order to stop may have come,
and the count of idle cycles has gone on. -/
inductive Cycles (d : Dispatcher) : List Mailbox → Except Fault Cycle → Dispatcher → Prop
  | once {stop : Bool} {result : Except Fault Cycle} {after : Dispatcher}
      (hrun : d.runOnce stop = (some result, after)) : Cycles d d.mailboxes result after
  | waited {held after : Dispatcher} {mailboxes : List Mailbox} {idleCycles : Nat} {stop : Bool}
      {result : Except Fault Cycle} (hwait : d.runOnce false = (none, held))
      (hproceed :
        ({ held with mailboxes, idleCycles } : Dispatcher).proceed stop = (some result, after)) :
      Cycles d mailboxes result after

/-- The oldest record has left the ring.  A mailbox that was free has just its bytes, and all other
mailboxes are as they were. -/
def HandsOver (d after : Dispatcher) (mailboxes : List Mailbox) (worker : Nat) : Prop :=
  ∃ record m m', d.unread = record :: after.unread ∧ mailboxes[worker]? = some m ∧
    m.isFree = true ∧ m'.contents? = some record ∧ after.mailboxes = mailboxes.set worker m'

/-- The key of the next record is to say where it goes, and cannot be read. -/
def Unroutable (d : Dispatcher) : Prop :=
  d.routing = .keyAffinity ∧
    ∃ l cause, d.ring.pop.1 = .ok (some l) ∧ Record.peekKey l.payload = .error cause

/-- What a cycle has done to the ring and to the mailboxes. -/
structure Accounts (d : Dispatcher) (mailboxes : List Mailbox) (result : Except Fault Cycle)
    (after : Dispatcher) : Prop where
  kept : (∀ worker, result ≠ .ok (.delivered worker)) →
    after.unread = d.unread ∧ after.mailboxes = mailboxes
  delivered : ∀ worker, result = .ok (.delivered worker) → HandsOver d after mailboxes worker

section Parts

variable {d : Dispatcher}

theorem home?_eq_error {payload : Bytes} {cause : Cause} (h : d.home? payload = .error cause) :
    d.routing = .keyAffinity ∧ Record.peekKey payload = .error cause := by
  cases hrouting : d.routing with
  | roundRobin =>
    simp only [home?, hrouting] at h
    cases h
  | keyAffinity =>
    simp only [home?, hrouting] at h
    cases hkey : Record.peekKey payload with
    | error cause' =>
      rw [hkey] at h
      cases h
      exact ⟨rfl, rfl⟩
    | ok key =>
      rw [hkey] at h
      cases h

/-- Going on with a record in hand comes to waiting, to stopping, to a mailbox that refuses the record,
or to one that takes it; only then is it given up. -/
theorem proceed_cases {l : Ring.Lease} {home : Option Nat} (hhand : d.hand = .holding l home)
    (hleased : d.ring.leased l = l.payload) (stop : Bool) :
    d.proceed stop = (none, d.tick) ∨
    d.proceed stop = (some (.ok .stopped), d.giveUp) ∨
    (∃ fault next, d.proceed stop = (some (.error fault), { d with next, hand := .empty })) ∨
    ∃ worker m m' next, d.mailboxes[worker]? = some m ∧ m.isFree = true ∧
      m'.contents? = some l.payload ∧
      d.proceed stop = (some (.ok (.delivered worker)),
        ({ d with
          next
          mailboxes := d.mailboxes.set worker m'
          hand := .placed l worker
          dispatched := d.dispatched + 1 } : Dispatcher).release l) := by
  simp only [proceed, hhand]
  rcases Pipeline.place_cases home hleased with ⟨-, hplace⟩ |
    ⟨worker, m, next, -, hm, hfree, ⟨-, hplace⟩ | ⟨m', hdeliver, hplace⟩⟩
  · rw [hplace]
    cases stop with
    | false => exact .inl rfl
    | true => exact .inr (.inl rfl)
  · rw [hplace]
    exact .inr (.inr (.inl ⟨_, next, rfl⟩))
  · rw [hplace]
    exact .inr (.inr (.inr ⟨worker, m, m', next, hm, hfree, Mailbox.contents?_deliver? hdeliver, rfl⟩))

end Parts

/-! ## What becomes of the record -/

section Record

variable {d held after : Dispatcher} {mailboxes : List Mailbox} {result : Except Fault Cycle}
  {stop : Bool}

/-- From the moment on that a record is in hand, it leaves the ring exactly if a mailbox takes it. -/
theorem accounts_of_proceed {l : Ring.Lease} {home : Option Nat} {r : Ring}
    (htakes : Ring.Takes d.ring (.ok (some l), r)) (hhand : held.hand = .holding l home)
    (hring : held.ring = r) (hproceed : held.proceed stop = (some result, after)) :
    Accounts d held.mailboxes result after := by
  rcases htakes.some l rfl with ⟨holdest, hleased⟩
  have hsame : held.unread = d.unread := by
    rw [unread, hring]
    exact htakes.same.payloads
  rw [← hring] at holdest hleased
  rcases proceed_cases hhand hleased stop with hcase | hcase | ⟨fault, next, hcase⟩ |
    ⟨worker, m, m', next, hm, hfree, hcontents, hcase⟩
  · cases hcase.symm.trans hproceed
  · cases hcase.symm.trans hproceed
    exact ⟨fun _ => ⟨hsame, rfl⟩, by rintro worker ⟨⟩⟩
  · cases hcase.symm.trans hproceed
    exact ⟨fun _ => ⟨hsame, rfl⟩, by rintro worker ⟨⟩⟩
  · cases hcase.symm.trans hproceed
    refine ⟨fun hnot => absurd rfl (hnot worker), ?_⟩
    rintro _ ⟨⟩
    exact ⟨l.payload, m, m', holdest, hm, hfree, hcontents, rfl⟩

/-- What a cycle does, wherever a pop takes the oldest record. -/
theorem accounts_of_takes (htakes : Ring.Takes d.ring d.ring.pop)
    (cycle : d.Cycles mailboxes result after) :
    (¬ d.Unroutable → Accounts d mailboxes result after) ∧
      (d.Unroutable → ∃ record cause, Record.peekKey record = .error cause ∧
        result = .error cause.fault ∧ d.unread = record :: after.unread ∧
        after.mailboxes = mailboxes) := by
  have hsame : (d.setRing d.ring.pop.2).unread = d.unread := htakes.same.payloads
  rcases d.look_cases with ⟨fault, hpop, hlook⟩ | ⟨hpop, hlook⟩ | ⟨l, cause, hpop, hhome, hlook⟩ |
    ⟨l, home, hpop, hhome, hlook⟩
  · -- The ring has a fault, and nothing was taken.
    have hroutable : ¬ d.Unroutable := by
      rintro ⟨-, l, cause, hl, -⟩
      cases hpop.symm.trans hl
    refine ⟨fun _ => ?_, fun hnot => absurd hnot hroutable⟩
    cases cycle with
    | once hrun =>
      simp only [runOnce, hlook] at hrun
      cases hrun
      exact ⟨fun _ => ⟨hsame, rfl⟩, by rintro worker ⟨⟩⟩
    | waited hwait _ =>
      simp only [runOnce, hlook] at hwait
      cases hwait
  · -- The ring is empty.
    have hroutable : ¬ d.Unroutable := by
      rintro ⟨-, l, cause, hl, -⟩
      cases hpop.symm.trans hl
    refine ⟨fun _ => ?_, fun hnot => absurd hnot hroutable⟩
    cases cycle with
    | once hrun =>
      simp only [runOnce, hlook, proceed] at hrun
      cases hrun
      exact ⟨fun _ => ⟨hsame, rfl⟩, by rintro worker ⟨⟩⟩
    | waited hwait _ =>
      simp only [runOnce, hlook, proceed] at hwait
      cases hwait
  · -- The record on loan is dropped, and so given up.
    rcases home?_eq_error hhome with ⟨hrouting, hkey⟩
    refine ⟨fun hroutable => absurd ⟨hrouting, l, cause, hpop, hkey⟩ hroutable, fun _ => ?_⟩
    cases cycle with
    | once hrun =>
      simp only [runOnce, hlook] at hrun
      cases hrun
      exact ⟨l.payload, cause, hkey, rfl, (htakes.some l hpop).1, rfl⟩
    | waited hwait _ =>
      simp only [runOnce, hlook] at hwait
      cases hwait
  · -- The record is in hand, and what is left of the cycle is to find a mailbox for it.
    have htakes' : Ring.Takes d.ring (.ok (some l), d.ring.pop.2) := by
      rw [← hpop]
      exact htakes
    have hroutable : ¬ d.Unroutable := by
      rintro ⟨hrouting, l', cause, hl', hkey⟩
      cases hpop.symm.trans hl'
      simp only [home?, hrouting, hkey] at hhome
      cases hhome
    refine ⟨fun _ => ?_, fun hnot => absurd hnot hroutable⟩
    generalize hfound : ({ d.setRing d.ring.pop.2 with hand := .holding l home } : Dispatcher) = found
      at hlook
    have hhand : found.hand = .holding l home := by rw [← hfound]
    have hring : found.ring = d.ring.pop.2 := by
      rw [← hfound]
      rfl
    cases cycle with
    | once hrun =>
      have hmailboxes : found.mailboxes = d.mailboxes := by
        rw [← hfound]
        rfl
      simp only [runOnce, hlook] at hrun
      rw [← hmailboxes]
      exact accounts_of_proceed htakes' hhand hring hrun
    | @waited held _ _ idleCycles _ _ hwait hproceed =>
      simp only [runOnce, hlook] at hwait
      have hleased : found.ring.leased l = l.payload := by
        rw [hring]
        exact (htakes'.some l rfl).2
      -- While it waits the dispatcher has the record in hand, and counts.
      have hheld : held = found.tick := by
        rcases proceed_cases hhand hleased false with hcase | hcase | ⟨fault, next, hcase⟩ |
          ⟨worker, m, m', next, -, -, -, hcase⟩
        · cases hcase.symm.trans hwait
          rfl
        · cases hcase.symm.trans hwait
        · cases hcase.symm.trans hwait
        · cases hcase.symm.trans hwait
      subst hheld
      have hhand' : ({ found.tick with mailboxes, idleCycles } : Dispatcher).hand = .holding l home :=
        hhand
      exact accounts_of_proceed htakes' hhand' hring hproceed

end Record

/-- On every ring that was opened, whatever bytes it was opened on and whatever has happened to it since,
and with any mailboxes: a cycle leaves all unread records and all mailboxes as they are, unless it has
delivered the oldest record, and this one alone is in a mailbox then and no longer in the ring.  Only a
record whose key cannot be read is lost, where the key is to say where it goes: it leaves the ring, and
no mailbox has it. -/
theorem unread_of_cycle {disk : Disk} {o : Ring.Options} {r : Ring} {b : Ring.Bench}
    {d after : Dispatcher} {mailboxes : List Mailbox} {result : Except Fault Cycle}
    (hopen : (disk.openRing o).1 = .ok r) (handled : Ring.Handled o.limit (.ofRing r) b)
    (hchannel : d.channel = b.channel) (cycle : d.Cycles mailboxes result after) :
    (¬ d.Unroutable → Accounts d mailboxes result after) ∧
      (d.Unroutable → ∃ record cause, Record.peekKey record = .error cause ∧
        result = .error cause.fault ∧ d.unread = record :: after.unread ∧
        after.mailboxes = mailboxes) := by
  have hsteady : Ring.Steady o.limit b := ((Ring.Steady.ofRing hopen).handled handled).1
  have htakes : Ring.Takes d.ring d.ring.pop := by
    rw [ring, hchannel]
    exact hsteady.usable.takes_pop
  exact accounts_of_takes htakes cycle

/-- A ring that one record was pushed to, a single free mailbox, and a way of routing. -/
def oneRecord (routing : Routing) : Dispatcher where
  channel := (Ring.Channel.submit ⟨.create 64 16, none⟩ (.push [120])).2
  mailboxes := [.ofSize 16]
  routing

theorem handled_oneRecord (routing : Routing) :
    Ring.Handled 16 (.ofRing (.create 64 16)) ⟨(oneRecord routing).channel, none⟩ :=
  Ring.Handled.refl.step (.use (u := .call (.push [120])) rfl)

/-- By turns the record goes to the mailbox, whatever its bytes are. -/
theorem unread_of_cycle_delivered :
    ∃ after, (oneRecord .roundRobin).runOnce false = (some (.ok (.delivered 0)), after) ∧
      HandsOver (oneRecord .roundRobin) after [.ofSize 16] 0 := by
  have hopen : (({} : Disk).openRing ⟨64, 16, none⟩).1 = .ok (.create 64 16) := rfl
  have hrun : (oneRecord .roundRobin).runOnce false = (some (.ok (.delivered 0)), _) := rfl
  have hroutable : ¬ (oneRecord .roundRobin).Unroutable := by
    rintro ⟨⟨⟩, -⟩
  have haccounts := (unread_of_cycle hopen (handled_oneRecord .roundRobin) rfl (.once hrun)).1
    hroutable
  exact ⟨_, hrun, haccounts.delivered 0 rfl⟩

/-- A record of one byte has no key.  Where the key is to say where it goes the cycle ends with a fault,
and the record is neither in the ring nor in a mailbox any more. -/
theorem record_given_up :
    ∃ fault after,
      Ring.Handled 16 (.ofRing (.create 64 16)) ⟨(oneRecord .keyAffinity).channel, none⟩ ∧
      (oneRecord .keyAffinity).unread = [[120]] ∧
      (oneRecord .keyAffinity).runOnce false = (some (.error fault), after) ∧
      after.unread = [] ∧ after.mailboxes.map Mailbox.contents? = [none] := by
  refine ⟨_, _, handled_oneRecord .keyAffinity, ?_, rfl, ?_, ?_⟩
  · decide +kernel
  · decide +kernel
  · decide +kernel

end Dispatcher
end WriteBehind
