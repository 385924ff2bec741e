import WriteBehind.Proofs.Pipeline.Journal
import WriteBehind.Proofs.Ring.Limits

/-!
# Custody — the ring, the caller who waits on it and the dispatcher's hand

`Custody limit c hand j` says that the ring gives the records that came in and were not given up, as far
as it gives any, that all of them can be decoded, and that the dispatcher's hand follows the journal:
between records every record given up by the ring was placed, and while one is placed but not yet given up
there is one more.  Where a padding is too long for the dirty size that notes it, the ring gives none of the
records behind it, so all that the journal says of order and of numbers still holds.

* `Custody.push`, `Custody.submit` and `Custody.resume` keep it through the caller's steps;
* `Custody.find`, `Custody.settle`, `Custody.place`, `Custody.release` and `Custody.close` through the
  dispatcher's.
-/

namespace WriteBehind

/-- The record in the dispatcher's hand. -/
def Hand.lease? : Hand → Option Ring.Lease
  | holding l _ | placed l _ => some l
  | empty | reaching | gone => none

/-- How many records are in a mailbox or beyond and still in the ring. -/
def Hand.inFlight : Hand → Nat
  | placed _ _ => 1
  | empty | reaching | holding _ _ | gone => 0

/-- Ring, caller and hand agree with the journal. -/
structure Custody (limit : Nat) (c : Ring.Channel) (hand : Hand) (j : Journal) : Prop where
  gives : Ring.Gives c.ring (j.accepted.drop j.released)
  limit_eq : c.ring.limit = limit
  released_le : j.released ≤ j.accepted.length
  decodable : ∀ record ∈ j.accepted, Record.Decodable record
  offered : ∀ record, c.waiting = some (.push record) → Record.Decodable record
  loan : ∀ l, hand.lease? = some l →
    Ring.Lent c.ring l ∧ j.accepted[j.released]? = some l.payload
  placed : j.homes.length = j.released + hand.inFlight

namespace Custody

variable {limit : Nat} {c c' : Ring.Channel} {hand hand' : Hand} {j : Journal}

theorem start {r : Ring} {records : List Bytes} (hgives : Ring.Gives r records)
    (hlimit : r.limit = limit) (hdecodable : ∀ record ∈ records, Record.Decodable record) :
    Custody limit ⟨r, none⟩ .empty { accepted := records } := by
  refine ⟨hgives, hlimit, Nat.zero_le _, hdecodable, ?_, ?_, rfl⟩
  · intro record hrecord
    cases hrecord
  · intro l hl
    cases hl

/-- What happens behind the mailboxes is nothing to the ring. -/
theorem congr (h : Custody limit c hand j) {j' : Journal} (haccepted : j'.accepted = j.accepted)
    (hreleased : j'.released = j.released) (hhomes : j'.homes = j.homes) :
    Custody limit c hand j' := by
  constructor
  case limit_eq => exact h.limit_eq
  case offered => exact h.offered
  all_goals simp only [haccepted, hreleased, hhomes]
  case gives => exact h.gives
  case released_le => exact h.released_le
  case decodable => exact h.decodable
  case loan => exact h.loan
  case placed => exact h.placed

/-! ## The caller -/

/-- What comes in comes in behind what was not given up. -/
theorem drop_accept (h : Custody limit c hand j) (more : List Bytes) :
    (j.accept more).accepted.drop j.released = j.accepted.drop j.released ++ more :=
  List.drop_append_of_le_length h.released_le

theorem extend (h : Custody limit c hand j) {more : List Bytes}
    (hgives : Ring.Gives c'.ring (j.accepted.drop j.released ++ more))
    (hlimit : c'.ring.limit = c.ring.limit)
    (hlent : ∀ l, Ring.Lent c.ring l → Ring.Lent c'.ring l)
    (hmore : ∀ record ∈ more, Record.Decodable record)
    (hoffered : ∀ record, c'.waiting = some (.push record) → Record.Decodable record) :
    Custody limit c' hand (j.accept more) := by
  refine ⟨?_, hlimit.trans h.limit_eq, ?_, ?_, hoffered, ?_, h.placed⟩
  · show Ring.Gives c'.ring ((j.accept more).accepted.drop j.released)
    rw [h.drop_accept]
    exact hgives
  · have hle := h.released_le
    simp only [Journal.accept, List.length_append]
    omega
  · intro record hmem
    rcases List.mem_append.1 hmem with hold | hnew
    · exact h.decodable record hold
    · exact hmore record hnew
  · intro l hl
    rcases h.loan l hl with ⟨hloan, hrecord⟩
    refine ⟨hlent l hloan, ?_⟩
    -- The record in hand keeps its number.
    have hlt := (List.getElem?_eq_some_iff.1 hrecord).1
    show (j.accepted ++ more)[j.released]? = some l.payload
    rw [List.getElem?_append_left hlt, hrecord]

/-- A payload is pushed by a call that did not wait, or that goes on since its request was served. -/
theorem push (h : Custody limit c hand j) {record : Bytes} (hdecodable : Record.Decodable record) :
    Custody limit (Ring.Channel.settle (.push record) (c.ring.push record)).2 hand
      (j.accept (Ring.added record (c.ring.push record).1)) := by
  refine h.extend ?_ ?_ ?_ ?_ ?_
  · rw [Ring.Channel.settle_ring]
    exact h.gives.push record
  · rw [Ring.Channel.settle_ring]
    exact (c.ring.push_keeps record).1
  · intro l hl
    rw [Ring.Channel.settle_ring]
    exact hl.push h.gives.sized record
  · intro other hmem
    rwa [Ring.Channel.mem_added hmem]
  · intro other hwaiting
    cases Ring.Channel.waiting_settle hwaiting
    exact hdecodable

theorem submit (h : Custody limit c hand j) {record : Bytes} (hdecodable : Record.Decodable record) :
    Custody limit (c.submit (.push record)).2 hand
      (j.accept (Ring.added record (c.submit (.push record)).1)) := by
  rw [Ring.Channel.submit, Ring.Channel.settle_fst]
  exact h.push hdecodable

theorem resume (h : Custody limit c hand j) :
    Custody limit c.resume.2 hand (j.accept c.resumed) := by
  have hsame : Ring.Gives c.ring (j.accepted.drop j.released ++ []) := by
    rw [List.append_nil]
    exact h.gives
  have hnobody : ∀ record, (none : Option Ring.Call) = some (.push record) →
      Record.Decodable record := fun _ hc => nomatch hc
  rcases c.resume_cases with ⟨hresume, hadded⟩ | ⟨notice, hresume, hadded⟩ |
    ⟨record, hwaiting, -, hresume, hadded⟩ | ⟨-, hresume, hadded⟩
  · rw [hresume, hadded]
    exact h.extend hsame rfl (fun _ hl => hl) (List.forall_mem_nil _) h.offered
  · rw [hresume, hadded]
    refine h.extend (hsame.withdraw notice) rfl ?_ (List.forall_mem_nil _) hnobody
    intro l hl
    exact ⟨hl.start, hl.next, hl.pad, hl.layout, hl.unread⟩
  · rw [hresume, hadded]
    exact h.push (h.offered record hwaiting)
  · rw [hresume, hadded]
    exact h.extend hsame rfl (fun _ hl => hl) (List.forall_mem_nil _) hnobody

/-! ## The dispatcher -/

theorem settle (h : Custody limit c hand j) (hflight : hand'.inFlight = hand.inFlight)
    (hnone : hand'.lease? = none) : Custody limit c hand' j := by
  refine ⟨h.gives, h.limit_eq, h.released_le, h.decodable, h.offered, ?_, ?_⟩
  · intro l hl
    cases hnone.symm.trans hl
  · rw [hflight]
    exact h.placed

/-- The ring was popped, and what was found is taken in hand. -/
theorem find (h : Custody limit c hand j) {r : Ring}
    (hgives : Ring.Gives r (j.accepted.drop j.released)) (hlimit : r.limit = c.ring.limit)
    (hflight : hand.inFlight = 0) (hflight' : hand'.inFlight = 0)
    (hloan : ∀ l, hand'.lease? = some l →
      Ring.Lent r l ∧ (j.accepted.drop j.released).head? = some l.payload) :
    Custody limit { c with ring := r } hand' j := by
  refine ⟨hgives, hlimit.trans h.limit_eq, h.released_le, h.decodable, h.offered, ?_, ?_⟩
  · -- What was found is the head of what the ring has not given up.
    intro l hl
    rcases hloan l hl with ⟨hlent, hhead⟩
    rw [List.head?_drop] at hhead
    exact ⟨hlent, hhead⟩
  · rw [hflight', ← hflight]
    exact h.placed

/-- The record in hand is as long as a record may be, and its bytes are in the ring. -/
theorem loan_spec (h : Custody limit c hand j) {l : Ring.Lease} (hl : hand.lease? = some l) :
    c.ring.leased l = l.payload ∧ l.payload ≠ [] ∧ l.payload.length < limit := by
  rcases (h.loan l hl).1.leased with ⟨hleased, hpos, hshort⟩
  rw [h.limit_eq] at hshort
  exact ⟨hleased, List.ne_nil_of_length_pos hpos, hshort⟩

theorem place (h : Custody limit c hand j) {l : Ring.Lease} (hl : hand.lease? = some l)
    (hflight : hand.inFlight = 0) (worker : Nat) :
    Custody limit c (.placed l worker) (j.place worker) := by
  refine ⟨h.gives, h.limit_eq, h.released_le, h.decodable, h.offered, ?_, ?_⟩
  · rintro l' ⟨⟩
    exact h.loan l hl
  · -- One more is placed, and it is in flight.
    have hplaced := h.placed
    rw [hflight] at hplaced
    simp only [Journal.place, List.length_append, List.length_singleton, Hand.inFlight, hplaced]

/-- The record in hand is the head of what was not given up. -/
theorem drop_released (h : Custody limit c hand j) {l : Ring.Lease} (hl : hand.lease? = some l) :
    j.released < j.accepted.length ∧
      j.accepted.drop j.released = l.payload :: j.accepted.drop (j.released + 1) := by
  rcases List.getElem?_eq_some_iff.1 (h.loan l hl).2 with ⟨hlt, hget⟩
  refine ⟨hlt, ?_⟩
  rw [List.drop_eq_getElem_cons hlt, hget]

theorem release (h : Custody limit c hand j) {l : Ring.Lease} (hl : hand.lease? = some l)
    (hflight : hand.inFlight = 1) :
    Custody limit { c with ring := c.ring.release l } .empty
      { j with released := j.released + 1 } := by
  rcases h.drop_released hl with ⟨hlt, hcons⟩
  have hgives := h.gives
  rw [hcons] at hgives
  refine ⟨hgives.release (h.loan l hl).1, ?_, hlt, h.decodable, h.offered, ?_, ?_⟩
  · exact (Ring.limit_moveRead c.ring l.next).trans h.limit_eq
  · intro l' hl'
    cases hl'
  · have hplaced := h.placed
    rw [hflight] at hplaced
    exact hplaced

/-- The consumer's end is closed. -/
theorem close (h : Custody limit c hand j) :
    Custody limit { c with ring := c.ring.closeConsumer } hand j := by
  refine ⟨?_, h.limit_eq, h.released_le, h.decodable, h.offered, ?_, h.placed⟩
  · exact h.gives.of_eq rfl rfl rfl rfl rfl rfl
  · intro l hl
    rcases h.loan l hl with ⟨hlent, hrecord⟩
    exact ⟨⟨hlent.start, hlent.next, hlent.pad, hlent.layout, hlent.unread⟩, hrecord⟩

end Custody
end WriteBehind
