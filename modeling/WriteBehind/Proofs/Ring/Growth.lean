import WriteBehind.Proofs.Ring.Room

/-!
# Growth — what the producer is told of a growth, and what has become of it

A call that asks for a capacity waits until its request is gone.  It does not look at the room that there
is then, and the consumer keeps to itself why a request has failed.

* `capacity_of_asked`: the room that there is once the request of a growth was served;
* `grown_of_handled`: a growth that waits is done whenever its request is gone, and the room is what was
  asked for just if the serving went well.
-/

namespace WriteBehind
namespace Ring

/-- What a growth comes to that is made while no other call waits. -/
structure StartsGrowth (b : Bench) (capacity : Nat) : Prop where
  large : capacity ≤ b.ring.capacity →
    b.channel.submit (.grow capacity) = (.ok .done, ⟨b.ring, none⟩)
  /-- No word holds what is asked for. -/
  ends : b.ring.capacity < capacity → 2 ^ 64 ≤ growTarget b.ring.capacity capacity →
    b.channel.submit (.grow capacity) = (.error Cause.overflow.fault, ⟨b.ring, none⟩)
  closed : b.ring.capacity < capacity → growTarget b.ring.capacity capacity < 2 ^ 64 →
    b.ring.consumerOpen = false →
    (b.channel.submit (.grow capacity)).1 = .error Cause.consumerClosed.fault ∧
      Untouched b.ring (b.channel.submit (.grow capacity)).2.ring
  parks : b.ring.capacity < capacity → growTarget b.ring.capacity capacity < 2 ^ 64 →
    b.ring.consumerOpen = true →
    (b.channel.submit (.grow capacity)).1 = .ok .parked ∧
      (b.channel.submit (.grow capacity)).2.waiting = some (.grow capacity) ∧
      (b.channel.submit (.grow capacity)).2.ring.request =
        some ⟨growTarget b.ring.capacity capacity, 0⟩

/-- What becomes of a growth that waits.  Without a consumer it is turned away while its request is
pending.  Otherwise it is done once the request is gone: with the room that was asked for if the serving
went well, and without it if not, or if the system refuses to lengthen the file.  Where the consumer's thread
ends over the request, all is as it was. -/
structure FollowsGrowth (limit : Nat) (b : Bench) (capacity : Nat) (q : Request) : Prop where
  small : b.ring.capacity < capacity
  pending : b.ring.consumerOpen = true → b.channel.resume.1 = some (.ok .parked)
  closed : b.ring.consumerOpen = false →
    b.channel.resume.1 = some (.error Cause.consumerClosed.fault) ∧
      Untouched b.ring b.channel.resume.2.ring
  served : (b.ring.serve q).1 ≠ .error Cause.overflow.fault → ∀ b' b'', b.use? .pop = some b' →
    Consumed b' b'' → b''.channel.resume.1 = some (.ok .done) ∧
      (capacity ≤ b''.ring.capacity ↔ (b.ring.serve q).1 = .ok ())
  ended : (b.ring.serve q).1 = .error Cause.overflow.fault → ∀ b', b.use? .pop = some b' →
    b'.ring = b.ring ∧ b'.channel.waiting = some (.grow capacity)
  refused : ∀ b', Happens limit b .refuse b' →
    b'.channel.resume.1 = some (.ok .done) ∧ b'.ring.capacity < capacity

section Growing

variable {r : Ring} {capacity limit : Nat} {b : Bench} {q : Request}

/-- The room is what was asked for just if the request of a growth is served. -/
theorem capacity_of_asked (hasks : Call.Asks r (.grow capacity) q) :
    capacity ≤ (r.serve q).2.capacity ↔ (r.serve q).1 = .ok () := by
  rcases hasks with ⟨hsmall, rfl⟩
  constructor
  · intro hlarge
    rcases r.capacity_serve ⟨growTarget r.capacity capacity, 0⟩ with hsame | ⟨hserve, -⟩
    · omega
    · exact hserve
  · intro hserve
    -- Neither the target nor what it is rounded up to is less than what was asked for.
    have hgoal := le_growTarget r.capacity capacity
    have hround := le_nextPowerOfTwo (max (max (growTarget r.capacity capacity)
      (growTarget r.capacity 0)) r.capacity)
    rw [capacity_of_serve rfl hserve (by dsimp only; omega)]
    dsimp only
    omega

/-- A growth that waits is done once its request is gone. -/
theorem Channel.resume_grow {c : Channel} (hwaiting : c.waiting = some (.grow capacity))
    (hnone : c.ring.request = none) : c.resume = (some (.ok .done), ⟨c.ring, none⟩) := by
  simp only [Channel.resume, hwaiting, hnone, retry, settle]

theorem starts_growth (b : Bench) (capacity : Nat) : StartsGrowth b capacity := by
  have hgrow : ∀ h : b.ring.capacity < capacity,
      b.channel.ring.grow capacity = b.ring.askToGrow capacity 0 :=
    fun h => if_neg (Nat.not_le.2 h)
  have hask : ∀ h : growTarget b.ring.capacity capacity < 2 ^ 64, b.ring.askToGrow capacity 0 =
      b.ring.askForRoom ⟨growTarget b.ring.capacity capacity, 0⟩ := by
    intro h
    simp only [askToGrow, checkWord_of_lt h]
  refine ⟨?_, ?_, ?_, ?_⟩
  · intro hlarge
    have hdone : b.channel.ring.grow capacity = (.ok .done, b.ring) := if_pos hlarge
    rw [Channel.submit, Channel.attempt, hdone]
    rfl
  · intro hsmall hword
    have hended : b.ring.askToGrow capacity 0 = (.error Cause.overflow.fault, b.ring) := by
      simp only [askToGrow, checkWord_of_le hword]
    rw [Channel.submit, Channel.attempt, hgrow hsmall, hended]
    rfl
  · intro hsmall hword hclosed
    rw [Channel.submit, Channel.settle_ring, Channel.settle_fst, Channel.attempt, hgrow hsmall,
      hask hword]
    refine ⟨?_, untouched_askForRoom b.ring _⟩
    simp only [askForRoom, hclosed]
    rfl
  · intro hsmall hword hopen
    rw [Channel.submit, Channel.attempt, hgrow hsmall, hask hword, askForRoom]
    simp only [hopen, if_true]
    exact ⟨rfl, rfl, rfl⟩

theorem Steady.follows_growth (h : Steady limit b)
    (hwaiting : b.channel.waiting = some (.grow capacity)) (hq : b.ring.request = some q)
    (hasks : Call.Asks b.ring (.grow capacity) q) : FollowsGrowth limit b capacity q := by
  have hq' : b.channel.ring.request = some q := hq
  refine ⟨hasks.1, ?_, ?_, ?_, ?_, ?_⟩
  · intro hopen
    have hopen' : b.channel.ring.consumerOpen = true := hopen
    simp only [Channel.resume, hwaiting, hq', hopen', if_true]
  · intro hclosed
    have hclosed' : b.channel.ring.consumerOpen = false := hclosed
    simp only [Channel.resume, hwaiting, hq', hclosed', askForRoom, Bool.false_eq_true, if_false]
    exact ⟨trivial, rfl, rfl, rfl, rfl, rfl, rfl⟩
  · intro hword b' b'' huse hconsumed
    rcases ring_of_use_pop huse with ⟨hring, hwaiting'⟩
    have hnone : b'.ring.request = none := by
      rw [hring]
      exact request_pop_of_serve hq hword
    -- Whatever came of the serving, the request is gone, and the room stays as it is from here on.
    rcases hconsumed.eases (h.use huse).1 hnone with ⟨-, hnone', hwaiting'', heases⟩
    have hroom : b''.ring.capacity = (b.ring.serve q).2.capacity := by
      rw [heases.capacity, hring, capacity_pop hq]
    have hdone := Channel.resume_grow (hwaiting''.trans (hwaiting'.trans hwaiting)) hnone'
    rw [hdone, hroom]
    exact ⟨rfl, capacity_of_asked hasks⟩
  · intro hended b' huse
    rcases ring_of_use_pop huse with ⟨hring, hwaiting'⟩
    refine ⟨?_, hwaiting'.trans hwaiting⟩
    simp only [hring, Ring.pop, hq, serve_of_overflow hended]
  · intro b' happens
    cases happens with
    | @refuse _ tried =>
      have hdone := Channel.resume_grow (c := (b.setRing (b.ring.refuseGrowth tried) none).channel)
        hwaiting rfl
      exact ⟨congrArg Prod.fst hdone, hasks.1⟩

end Growing

/-- Of every ring that was opened, whatever bytes it was opened on and whatever has happened to it since:
a growth that is started is done at once, turned away or left waiting, and one that waits is done once
its request is gone, whether there is the room that it asked for or not. -/
theorem grown_of_handled {d : Disk} {o : Options} {r : Ring} {b : Bench}
    (hopen : (d.openRing o).1 = .ok r) (handled : Handled o.limit (.ofRing r) b) (capacity : Nat) :
    (b.channel.waiting = none → StartsGrowth b capacity) ∧
      ∀ q, b.channel.waiting = some (.grow capacity) → b.ring.request = some q →
        FollowsGrowth o.limit b capacity q := by
  have hsteady : Steady o.limit b := ((Steady.ofRing hopen).handled handled).1
  refine ⟨fun _ => starts_growth b capacity, ?_⟩
  intro q hwaiting hq
  rcases asked_of_opened hopen handled q hq with ⟨call, hcall, hasks⟩
  cases hwaiting.symm.trans hcall
  exact hsteady.follows_growth hwaiting hq hasks

/-- A growth in memory that is served, and has the room that it asked for. -/
theorem grown_of_handled_memory :
    ∃ r b b', (({} : Disk).openRing ⟨1, 16, none⟩).1 = .ok r ∧ Handled 16 (.ofRing r) b ∧
      b.channel.waiting = some (.grow 100) ∧ b.use? .pop = some b' ∧
      b'.channel.resume.1 = some (.ok .done) ∧ 100 ≤ b'.ring.capacity := by
  have hopen : (({} : Disk).openRing ⟨1, 16, none⟩).1 = .ok (.create 64 16) := rfl
  have opened : Handled 16 (.ofRing (.create 64 16)) _ := .refl
  have asked := opened.step (.use (u := .call (.grow 100)) rfl)
  have follows := (grown_of_handled hopen asked 100).2 ⟨128, 0⟩ rfl rfl
  -- The room would be what it was if the request could not be served.
  have hserve : (((Bench.ofRing (.create 64 16)).channel.submit (.grow 100)).2.ring.serve ⟨128, 0⟩).1 =
      .ok () := ((capacity_serve _ ⟨128, 0⟩).resolve_left (by decide +kernel)).1
  rcases exists_use_pop (b := { channel := _ }) rfl with ⟨b', huse⟩
  have hword := hserve.trans_ne (show Except.ok () ≠ .error Cause.overflow.fault by rintro ⟨⟩)
  rcases follows.served hword b' b' huse .refl with ⟨hdone, hlarge⟩
  exact ⟨_, _, b', hopen, asked, rfl, huse, hdone, hlarge.2 hserve⟩

/-- No file is as long as what is asked for here.  The consumer is told so, and the producer is told that
the growth is done. -/
theorem growth_done_without_room :
    ∃ r b b', (({} : Disk).openRing ⟨1, 16, some "q"⟩).1 = .ok r ∧
      Handled 16 (.ofRing r) b ∧ b.channel.waiting = some (.grow (2 ^ 63)) ∧
      b.use? .pop = some b' ∧ b'.channel.resume.1 = some (.ok .done) ∧ b'.ring.capacity = 64 := by
  have hopen : (({} : Disk).openRing ⟨1, 16, some "q"⟩).1 =
      .ok (ofHeader "q" (({} : Image).resize 88) 64 16 {}) :=
    openRing_of_offers Disk.offers_new_file rfl
  have opened : Handled 16 (.ofRing (ofHeader "q" (({} : Image).resize 88) 64 16 {})) _ := .refl
  have asked := opened.step (.use (u := .call (.grow (2 ^ 63))) rfl)
  rcases exists_use_pop (b := { channel := _ }) rfl with ⟨b', huse⟩
  rcases ring_of_use_pop huse with ⟨hring, hwaiting⟩
  refine ⟨_, _, b', hopen, asked, rfl, huse, ?_, ?_⟩
  · have hnone : b'.ring.request = none := by
      rw [hring]
      decide +kernel
    exact congrArg Prod.fst (Channel.resume_grow hwaiting hnone)
  · rw [hring]
    decide +kernel

end Ring
end WriteBehind
