import Mathlib.Control.Monad.Basic
import WriteBehind.Proofs.Ring.Level

/-!
# Counters — the counters and the capacity of a ring, whatever happens to it

* `Happens limit b e b'` is all that may happen to a ring in use: its uses, the closing of the consumer's
  end, a growth that the system refuses, and a new start on the bytes that it has left;
* `Steady limit b` is what all of it keeps, by `Steady.happens` for one event and `Steady.handled` for
  any number;
* `counters_of_handled` sums up what holds of every ring that was opened, on any bytes.
-/

namespace WriteBehind
namespace Ring

/-! ## Everything that may happen -/

namespace Bench

/-- What may happen to a ring in use. -/
inductive Event
  | use (use : Use)
  /-- The consumer's end is closed. -/
  | close
  /-- The system refuses the growth that is due, whatever there is room for. -/
  | refuse
  /-- The ring is closed and its bytes are opened again. -/
  | reopen

/-- Opening again and carrying out a resize start the counters anew. -/
def Restarts (b : Bench) : Event → Prop
  | .use .pop | .use .serve => b.ring.MovesFrames
  | .reopen => True
  | .use (.call _) | .use .resume | .use .drop | .use .unread | .close | .refuse => False

end Bench

/-- Something happens to a ring that was opened with this limit. -/
inductive Happens (limit : Nat) : Bench → Bench.Event → Bench → Prop
  | use {b b' : Bench} {u : Bench.Use} (huse : b.use? u = some b') : Happens limit b (.use u) b'
  | close {b : Bench} : Happens limit b .close (b.setRing b.ring.closeConsumer b.held)
  | refuse {b : Bench} {q : Request} {tried : List Store} (hheld : b.held = none)
      (hq : b.ring.request = some q) (hfits : b.ring.pendingFits q = false)
      (htried : Refused b.ring.capacity tried) :
      Happens limit b .refuse (b.setRing (b.ring.refuseGrowth tried) none)
  | reopen {b : Bench} {d : Disk} {path : String} {hint : Nat} {r : Ring} (hheld : b.held = none)
      (hoffers : d.Offers path b.ring.image)
      (hopen : (d.openRing ⟨hint, limit, some path⟩).1 = .ok r) :
      Happens limit b .reopen (.ofRing r)

/-- One thing after the other happens to a ring. -/
inductive Handled (limit : Nat) (b : Bench) : Bench → Prop
  | refl : Handled limit b b
  | step {b' b'' : Bench} {e : Bench.Event} (handled : Handled limit b b')
      (happens : Happens limit b' e b'') : Handled limit b b''

/-- The ring of a bench is level and has room for two frames, the record on loan is between the
counters, and a request is pending only for a call that waits. -/
structure Steady (limit : Nat) (b : Bench) : Prop where
  level : Level b.ring
  checked : checkRecordLimit limit = .ok ()
  limit_eq : b.ring.limit = limit
  minCapacity_le : minCapacity limit ≤ b.ring.capacity
  held : ∀ l, b.held = some l → Spans b.ring l
  settled : b.channel.waiting = none → b.ring.request = none

namespace Steady

variable {limit : Nat} {b b' : Bench} {u : Bench.Use}

theorem reserve_le (h : Steady limit b) : frameReserve b.ring.limit ≤ b.ring.capacity := by
  have hroom := h.minCapacity_le
  have hframes := two_mul_frameReserve_le_minCapacity limit
  rw [h.limit_eq]
  omega

/-! ## The producer -/

theorem produce (h : Steady limit b) {c : Channel} (hlevel : Level c.ring)
    (hclimbs : Climbs b.ring c.ring) (hread : c.ring.read = b.ring.read)
    (hsettled : c.waiting = none → c.ring.request = none) :
    Steady limit { b with channel := c } := by
  refine ⟨hlevel, h.checked, hclimbs.limit.trans h.limit_eq, ?_, ?_, hsettled⟩
  · show minCapacity limit ≤ c.ring.capacity
    rw [hclimbs.capacity]
    exact h.minCapacity_le
  · intro l hl
    exact (h.held l hl).of_climbs hclimbs hread

theorem push (h : Steady limit b) (payload : Bytes) (hnone : b.ring.request = none) :
    Steady limit { b with channel := (Channel.settle (.push payload) (b.ring.push payload)).2 } ∧
      Climbs b.ring (b.ring.push payload).2 := by
  rcases h.level.push payload with ⟨hlevel, hclimbs⟩
  have hread := (h.level.toFitted.push payload).2.2.1
  refine ⟨h.produce ?_ ?_ ?_ ?_, hclimbs⟩
  · rwa [Channel.settle_ring]
  · rwa [Channel.settle_ring]
  · rwa [Channel.settle_ring]
  · intro hwaiting
    rw [Channel.settle_ring]
    exact (b.ring.push_keeps payload).2 hnone (Channel.settle_ne_parked hwaiting)

theorem call (h : Steady limit b) {call : Call} (huse : b.use? (.call call) = some b') :
    Steady limit b' ∧ Climbs b.ring b'.ring := by
  cases Bench.uses_of_use? huse with
  | call hidle =>
    cases call with
    | push payload =>
      rcases h.push payload (h.settled hidle) with ⟨hsteady, hclimbs⟩
      refine ⟨hsteady, ?_⟩
      show Climbs b.ring (Channel.settle (.push payload) (b.ring.push payload)).2.ring
      rwa [Channel.settle_ring]
    | grow capacity =>
      have hring : (b.channel.submit (.grow capacity)).2.ring = (b.ring.grow capacity).2 :=
        Channel.settle_ring _ _
      have hsame := untouched_grow b.ring capacity
      rw [← hring] at hsame
      refine ⟨h.produce (hsame.stays.level h.level) hsame.stays.climbs hsame.read ?_,
        hsame.stays.climbs⟩
      -- A growth that is not left waiting is done already, or it is refused and leaves no request.
      intro hwaiting
      have hdone : (b.ring.grow capacity).1 ≠ .ok .parked := Channel.settle_ne_parked hwaiting
      rw [hring]
      rcases b.ring.grow_cases capacity with hgrow | hgrow | ⟨-, hgrow⟩ <;> rw [hgrow] at hdone ⊢
      · exact h.settled hidle
      · exact h.settled hidle
      · rcases b.ring.askForRoom_cases ⟨growTarget b.ring.capacity capacity, 0⟩ with
          ⟨notice, hask⟩ | ⟨notice, fault, hask⟩
        · rw [hask] at hdone
          exact absurd rfl hdone
        · rw [hask]

theorem resume (h : Steady limit b) (huse : b.use? .resume = some b') :
    Steady limit b' ∧ Climbs b.ring b'.ring := by
  cases huse
  rcases b.channel.resume_cases with ⟨hresume, -⟩ | ⟨notice, hresume, -⟩ |
    ⟨payload, hwaiting, hnone, hresume, -⟩ | ⟨hnone, hresume, -⟩
  · rw [hresume]
    exact ⟨h, .refl _⟩
  · -- The consumer is gone: the request is withdrawn and the call turned away.
    rw [hresume]
    have hstays : Stays b.ring { b.ring with dataReady := notice, request := none } :=
      ⟨id, rfl, rfl, rfl, rfl⟩
    exact ⟨h.produce (hstays.level h.level) hstays.climbs rfl fun _ => rfl, hstays.climbs⟩
  · -- The request was served, and the push is tried again.
    rw [hresume]
    rcases h.push payload hnone with ⟨hsteady, hclimbs⟩
    refine ⟨hsteady, ?_⟩
    show Climbs b.ring (Channel.settle (.push payload) (b.ring.push payload)).2.ring
    rwa [Channel.settle_ring]
  · rw [hresume]
    exact ⟨h.produce h.level (.refl _) rfl fun _ => hnone, .refl _⟩

/-! ## The consumer -/

theorem consume (h : Steady limit b) {r : Ring} {held : Option Lease} (hlevel : Level r)
    (hlimit : r.limit = b.ring.limit) (hlarge : b.ring.capacity ≤ r.capacity)
    (hheld : ∀ l, held = some l → Spans r l)
    (hrequest : r.request = none ∨ r.request = b.ring.request) :
    Steady limit (b.setRing r held) := by
  refine ⟨hlevel, h.checked, hlimit.trans h.limit_eq, Nat.le_trans h.minCapacity_le hlarge, hheld, ?_⟩
  intro hwaiting
  rcases hrequest with hnone | hsame
  · exact hnone
  · exact hsame.trans (h.settled hwaiting)

theorem pop (h : Steady limit b) (huse : b.use? .pop = some b') :
    Steady limit b' ∧ b.ring.capacity ≤ b'.ring.capacity ∧
      (¬ b.ring.MovesFrames → Climbs b.ring b'.ring) := by
  have hlimit := b.ring.pop_keeps.1
  -- Where the thread ends over the request, the ring is as it was.
  have hrequest : b.ring.pop.2.request = none ∨ b.ring.pop.2.request = b.ring.request := by
    rcases b.ring.request_pop with hnone | hended
    · exact .inl hnone
    · exact .inr (by rw [hended])
  rcases h.level.pop h.reserve_le with ⟨hlevel, hlarge, hclimbs, hspans⟩
  cases Bench.uses_of_use? huse with
  | pop _ hfound =>
    refine ⟨h.consume hlevel hlimit hlarge ?_ hrequest, hlarge, hclimbs⟩
    rintro l rfl
    exact hspans l hfound
  | popFails => exact ⟨h.consume hlevel hlimit hlarge (by rintro _ ⟨⟩) hrequest, hlarge, hclimbs⟩

theorem drop (h : Steady limit b) (huse : b.use? .drop = some b') :
    Steady limit b' ∧ Climbs b.ring b'.ring := by
  cases Bench.uses_of_use? huse with
  | @drop l hheld =>
    rcases h.held l hheld with ⟨hlo, hhi⟩
    rcases h.level.moveRead hlo hhi with ⟨hlevel, hclimbs⟩
    exact ⟨h.consume hlevel hclimbs.limit (Nat.le_of_eq hclimbs.capacity.symm)
      (by rintro _ ⟨⟩) (.inr (request_moveRead b.ring l.next)), hclimbs⟩

theorem unread (h : Steady limit b) (huse : b.use? .unread = some b') :
    Steady limit b' ∧ Climbs b.ring b'.ring := by
  cases Bench.uses_of_use? huse with
  | unread =>
    exact ⟨h.consume h.level rfl (Nat.le_refl _) (by rintro _ ⟨⟩) (.inr rfl), .refl _⟩

theorem serve (h : Steady limit b) (huse : b.use? .serve = some b') :
    Steady limit b' ∧ b.ring.capacity ≤ b'.ring.capacity ∧
      (¬ b.ring.MovesFrames → Climbs b.ring b'.ring) := by
  cases Bench.uses_of_use? huse with
  | @serve q _ hq =>
    rcases h.level.serve hq with ⟨hlevel, hlarge, hclimbs⟩
    have hrequest : (b.ring.serve q).2.request = none ∨
        (b.ring.serve q).2.request = b.ring.request := by
      rcases b.ring.request_serve q with hnone | hended
      · exact .inl hnone
      · exact .inr (by rw [hended])
    exact ⟨h.consume hlevel (b.ring.serve_keeps q).1 hlarge (by rintro _ ⟨⟩) hrequest, hlarge, hclimbs⟩

/-! ## All of it -/

theorem of_climbs {p : Prop} (h : Steady limit b' ∧ Climbs b.ring b'.ring) :
    Steady limit b' ∧ b.ring.capacity ≤ b'.ring.capacity ∧ (p → Climbs b.ring b'.ring) :=
  ⟨h.1, Nat.le_of_eq h.2.capacity.symm, fun _ => h.2⟩

theorem use (h : Steady limit b) (huse : b.use? u = some b') :
    Steady limit b' ∧ b.ring.capacity ≤ b'.ring.capacity ∧
      (¬ b.Restarts (.use u) → Climbs b.ring b'.ring) := by
  cases u with
  | call call => exact of_climbs (h.call huse)
  | resume => exact of_climbs (h.resume huse)
  | pop => exact h.pop huse
  | drop => exact of_climbs (h.drop huse)
  | unread => exact of_climbs (h.unread huse)
  | serve => exact h.serve huse

theorem ofRing {d : Disk} {o : Options} {r : Ring} (hopen : (d.openRing o).1 = .ok r) :
    Steady o.limit (.ofRing r) := by
  rcases level_of_openRing hopen with ⟨hlevel, hlimit, hnone, hlarge⟩
  have hleast : minCapacity o.limit ≤ o.requested := Nat.le_max_right _ _
  refine ⟨hlevel, limit_of_openRing hopen, hlimit, Nat.le_trans hleast hlarge, ?_, fun _ => hnone⟩
  intro l hl
  cases hl

/-- Whatever happens keeps the ring level and loses no room, and no counter goes back unless the
counters start anew. -/
theorem happens {e : Bench.Event} (h : Steady limit b) (happens : Happens limit b e b') :
    Steady limit b' ∧ b.ring.capacity ≤ b'.ring.capacity ∧
      (¬ b.Restarts e → Climbs b.ring b'.ring) := by
  cases happens with
  | use huse => exact h.use huse
  | close =>
    have hstays : Stays b.ring b.ring.closeConsumer := ⟨id, rfl, rfl, rfl, rfl⟩
    exact of_climbs ⟨h.consume (hstays.level h.level) rfl (Nat.le_refl _) h.held (.inr rfl),
      hstays.climbs⟩
  | refuse _ _ _ htried =>
    have hstays := stays_refuseGrowth htried
    exact of_climbs ⟨h.consume (hstays.level h.level) hstays.limit
      (Nat.le_of_eq hstays.capacity.symm) (by rintro _ ⟨⟩) (.inl rfl), hstays.climbs⟩
  | @reopen _ path hint r _ hoffers hopen =>
    refine ⟨ofRing hopen, ?_, fun hrestarts => absurd trivial hrestarts⟩
    -- The file is as long as the ring was, or longer, and no file is cut.
    have hcap := (requested_spec ⟨hint, limit, some path⟩).1
    rw [openRing_of_offers hoffers (check_of_openRing hopen)] at hopen
    have hlarge := (level_of_attach hcap hopen).2.2.2.2
    have hroom := h.level.houses.room
    show b.ring.capacity ≤ r.capacity
    omega

theorem handled (h : Steady limit b) (handled : Handled limit b b') :
    Steady limit b' ∧ b.ring.capacity ≤ b'.ring.capacity := by
  induction handled with
  | refl => exact ⟨h, Nat.le_refl _⟩
  | step _ happens ih =>
    rcases ih.1.happens happens with ⟨hsteady, hlarge, -⟩
    exact ⟨hsteady, Nat.le_trans ih.2 hlarge⟩

end Steady

/-! ## Pushes that are not done -/

namespace Steady

variable {limit : Nat} {b : Bench}

theorem spares_submit (h : Steady limit b) (payload : Bytes) (hidle : b.channel.waiting = none) :
    Spares b.ring payload (b.channel.submit (.push payload)).1
      (b.channel.submit (.push payload)).2.ring := by
  rw [Channel.submit, Channel.settle_fst, Channel.settle_ring]
  exact spares_push payload h.level.toFitted h.level.read_le (h.settled hidle)

theorem spares_resume (h : Steady limit b) {payload : Bytes} {progress : Except Fault Progress}
    (hwaiting : b.channel.waiting = some (.push payload))
    (hresume : b.channel.resume.1 = some progress) :
    Spares b.ring payload progress b.channel.resume.2.ring := by
  rcases Channel.resume_push_cases hwaiting with ⟨q, -, hcase⟩ | ⟨q, notice, -, hcase⟩ |
    ⟨hnone, hcase⟩
  · rw [hcase] at hresume ⊢
    cases hresume
    exact ⟨fun _ _ => .refl _, by rintro _ ⟨⟩, fun _ => .refl _⟩
  · rw [hcase] at hresume ⊢
    cases hresume
    refine ⟨fun _ _ => ⟨rfl, rfl, rfl, rfl, rfl, rfl⟩, ?_, fun _ => ⟨id, rfl, rfl, rfl, rfl⟩⟩
    rintro _ ⟨⟩
    exact ⟨rfl, .inr (.inl rfl)⟩
  · rw [hcase] at hresume ⊢
    cases hresume
    rw [Channel.settle_ring]
    exact spares_push payload h.level.toFitted h.level.read_le hnone

end Steady

/-! ## Whatever happens -/

/-- Of every ring that was opened, whatever bytes it was opened on and whatever has happened to it
since: its capacity is a power of two with room for two frames and never gets smaller, its counters
are at most a lap apart, no counter goes back unless the frames are moved or the ring is opened again,
and a push that is not done changes none of it; nor does it change a byte, unless the thread ends over a
write counter that no word holds. -/
theorem counters_of_handled {d : Disk} {o : Options} {r : Ring} {b : Bench}
    (hopen : (d.openRing o).1 = .ok r) (handled : Handled o.limit (.ofRing r) b) :
    IsPowerOfTwo b.ring.capacity ∧ minCapacity o.limit ≤ b.ring.capacity ∧
      b.ring.read ≤ b.ring.write ∧ b.ring.write ≤ b.ring.read + b.ring.capacity ∧
      (∀ b', Handled o.limit b b' → b.ring.capacity ≤ b'.ring.capacity) ∧
      (∀ e b', Happens o.limit b e b' → ¬ b.Restarts e →
        b.ring.read ≤ b'.ring.read ∧ b.ring.write ≤ b'.ring.write) ∧
      (∀ payload, b.channel.waiting = none →
        Spares b.ring payload (b.channel.submit (.push payload)).1
          (b.channel.submit (.push payload)).2.ring) ∧
      ∀ payload progress, b.channel.waiting = some (.push payload) →
        b.channel.resume.1 = some progress →
        Spares b.ring payload progress b.channel.resume.2.ring := by
  have hsteady : Steady o.limit b := ((Steady.ofRing hopen).handled handled).1
  refine ⟨hsteady.level.powerOfTwo, hsteady.minCapacity_le, hsteady.level.read_le,
    hsteady.level.write_le, ?_, ?_, hsteady.spares_submit, ?_⟩
  · intro b' further
    exact (hsteady.handled further).2
  · intro e b' happens hrestarts
    have hclimbs := (hsteady.happens happens).2.2 hrestarts
    exact ⟨hclimbs.read, hclimbs.write⟩
  · intro payload progress hwaiting hresume
    exact hsteady.spares_resume hwaiting hresume

/-- The bytes of a ring with nothing in it, and with a dirty size that belongs to no padding. -/
def staleBytes : Image := (Image.zeros 56).write 0 (Header.encode ⟨5, 5, 3⟩)

theorem open_staleBytes :
    (({ files := [("q", staleBytes)] } : Disk).openRing ⟨1, 12, some "q"⟩).1 =
      .ok (ofHeader "q" staleBytes 32 12 ⟨5, 5, 3⟩) := by
  have hread : readHeader staleBytes = .ok (⟨5, 5, 3⟩, 32) := by decide +kernel
  have hsize : ¬ staleBytes.size = 0 := by decide +kernel
  refine (openRing_of_offers (Disk.hasFile_single staleBytes).offers rfl).trans ?_
  simp only [attach, hread, if_neg hsize]
  rfl

/-- A record waits for room, which is there once the record in front of it was given up: the request is
put off. -/
theorem counters_of_handled_stale :
    ∃ r b, (({ files := [("q", staleBytes)] } : Disk).openRing ⟨1, 12, some "q"⟩).1 = .ok r ∧
      Handled 12 (.ofRing r) b ∧ b.ring.read = 19 ∧ b.ring.write = 46 ∧
      b.ring.write ≤ b.ring.read + b.ring.capacity := by
  have opened : Handled 12 (.ofRing (ofHeader "q" staleBytes 32 12 ⟨5, 5, 3⟩)) _ := .refl
  have first := opened.step (.use (u := .call (.push (List.replicate 10 1))) rfl)
  have lent := first.step (.use (u := .pop) rfl)
  have asked := lent.step (.use (u := .call (.push (List.replicate 10 2))) rfl)
  have given := asked.step (.use (u := .drop) rfl)
  have served := given.step (.use (u := .pop) rfl)
  have resumed := served.step (.use (u := .resume) rfl)
  refine ⟨_, _, open_staleBytes, resumed, ?_, ?_, ?_⟩
  · decide +kernel
  · decide +kernel
  · exact (counters_of_handled open_staleBytes resumed).2.2.2.1

end Ring
end WriteBehind
