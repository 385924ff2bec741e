import WriteBehind.Proofs.Ring.Houses
import WriteBehind.Proofs.Ring.Limits
import WriteBehind.Proofs.Ring.Traffic

/-!
# Level — the counters and the sizes of a ring, on any bytes

A ring may be opened on bytes that hold anything but a header that is refused.  What is between its
counters need not be records, and yet the counters themselves stay in order.

* `Fitted r` says that the sizes of a ring fit each other, which nothing ever changes, and `Level r` that
  its counters are at most a lap apart as well;
* `Climbs r r'` says that no counter has gone back, `Stays r r'` that counters and sizes are the same,
  and `Untouched r r'` that the bytes are the same too;
* `Level.push`, `Level.serve` and `Level.pop` follow the single operations, and `spares_push` says what a
  push spares that is not done;
* `level_of_openRing`: whatever bytes are accepted, the ring that is opened on them is level.
-/

namespace WriteBehind
namespace Ring

/-- The sizes of a ring fit each other, and its write counter is a 64-bit word. -/
structure Fitted (r : Ring) : Prop where
  powerOfTwo : IsPowerOfTwo r.capacity
  houses : Houses r.image r.capacity
  write_lt : r.write < 2 ^ 64

/-- The sizes fit, and the counters are at most a lap apart. -/
structure Level (r : Ring) : Prop extends Fitted r where
  read_le : r.read ≤ r.write
  write_le : r.write ≤ r.read + r.capacity

/-- From one ring to the other no counter has gone back, and the sizes are the same. -/
structure Climbs (r r' : Ring) : Prop where
  capacity : r'.capacity = r.capacity
  limit : r'.limit = r.limit
  read : r.read ≤ r'.read
  write : r.write ≤ r'.write

/-- Both rings have the same counters and sizes, and the second one has its room if the first one has. -/
structure Stays (r r' : Ring) : Prop where
  houses : Houses r.image r.capacity → Houses r'.image r.capacity
  capacity : r'.capacity = r.capacity
  limit : r'.limit = r.limit
  write : r'.write = r.write
  read : r'.read = r.read

/-- Both rings have the same bytes, counters and sizes. -/
structure Untouched (r r' : Ring) : Prop where
  image : r'.image = r.image
  capacity : r'.capacity = r.capacity
  limit : r'.limit = r.limit
  write : r'.write = r.write
  read : r'.read = r.read
  dirty : r'.dirty = r.dirty

/-- The unread bytes were laid out anew, in a ring that is no smaller. -/
structure Anew (r r' : Ring) : Prop where
  fitted : Fitted r'
  capacity : r.capacity ≤ r'.capacity
  read : r'.read = 0
  write : r'.write ≤ r'.capacity
  unread : r'.write ≤ r.write - r.read

/-- The record on loan ends between the counters. -/
def Spans (r : Ring) (l : Lease) : Prop := r.read ≤ l.next ∧ l.next ≤ r.write

section Relations

variable {r r' r'' : Ring} {l : Lease}

theorem Climbs.refl (r : Ring) : Climbs r r := ⟨rfl, rfl, Nat.le_refl _, Nat.le_refl _⟩

theorem Climbs.trans (h : Climbs r r') (h' : Climbs r' r'') : Climbs r r'' :=
  ⟨h'.capacity.trans h.capacity, h'.limit.trans h.limit, Nat.le_trans h.read h'.read,
    Nat.le_trans h.write h'.write⟩

theorem Stays.refl (r : Ring) : Stays r r := ⟨id, rfl, rfl, rfl, rfl⟩

/-- Stores change the bytes of a ring and nothing else. -/
theorem stays_store {stores : List Store}
    (hhouses : Houses r.image r.capacity → Houses (r.image.applyAll stores) r.capacity) :
    Stays r (r.store stores) :=
  ⟨hhouses, rfl, rfl, rfl, rfl⟩

theorem Stays.climbs (h : Stays r r') : Climbs r r' :=
  ⟨h.capacity, h.limit, Nat.le_of_eq h.read.symm, Nat.le_of_eq h.write.symm⟩

theorem Stays.fitted (h : Stays r r') (hfitted : Fitted r) : Fitted r' := by
  refine ⟨?_, ?_, ?_⟩
  · rw [h.capacity]
    exact hfitted.powerOfTwo
  · rw [h.capacity]
    exact h.houses hfitted.houses
  · rw [h.write]
    exact hfitted.write_lt

theorem Stays.level (h : Stays r r') (hlevel : Level r) : Level r' := by
  refine ⟨h.fitted hlevel.toFitted, ?_, ?_⟩
  · rw [h.read, h.write]
    exact hlevel.read_le
  · rw [h.read, h.write, h.capacity]
    exact hlevel.write_le

theorem Untouched.refl (r : Ring) : Untouched r r := ⟨rfl, rfl, rfl, rfl, rfl, rfl⟩

theorem Untouched.stays (h : Untouched r r') : Stays r r' :=
  ⟨fun hhouses => h.image ▸ hhouses, h.capacity, h.limit, h.write, h.read⟩

/-- The same bytes are read as the same records. -/
theorem Untouched.backlog (h : Untouched r r') : r'.backlog = r.backlog := by
  simp only [Ring.backlog, view, h.image, h.capacity, h.limit, h.write, h.read, h.dirty]

theorem Anew.level (h : Anew r r') : Level r' := by
  refine ⟨h.fitted, ?_, ?_⟩
  · rw [h.read]
    exact Nat.zero_le _
  · rw [h.read, Nat.zero_add]
    exact h.write

/-- A record on loan stays one while the read counter stays. -/
theorem Spans.of_climbs (h : Spans r l) (hclimbs : Climbs r r') (hread : r'.read = r.read) :
    Spans r' l := by
  refine ⟨?_, Nat.le_trans h.2 hclimbs.write⟩
  rw [hread]
  exact h.1

end Relations

/-! ## Pushing -/

section Pushing

variable {r : Ring} {payload : Bytes}

theorem untouched_askForRoom (r : Ring) (request : Request) :
    Untouched r (r.askForRoom request).2 := by
  rcases r.askForRoom_cases request with ⟨notice, hask⟩ | ⟨notice, fault, hask⟩
  · rw [hask]
    exact ⟨rfl, rfl, rfl, rfl, rfl, rfl⟩
  · rw [hask]
    exact ⟨rfl, rfl, rfl, rfl, rfl, rfl⟩

theorem untouched_grow (r : Ring) (capacity : Nat) : Untouched r (r.grow capacity).2 := by
  rcases r.grow_cases capacity with hgrow | hgrow | ⟨-, hgrow⟩ <;> rw [hgrow]
  · exact .refl r
  · exact .refl r
  · exact untouched_askForRoom r _

/-- A push that is not done leaves bytes, counters and sizes as they were, unless the thread ends over the
write counter. -/
theorem untouched_push (hdone : (r.push payload).1 ≠ .ok .done)
    (hword : (r.push payload).1 ≠ .error Cause.overflow.fault) :
    Untouched r (r.push payload).2 := by
  rcases r.push_cases payload with ⟨cause, hpush⟩ | ⟨p, -, -, -, hpush⟩ | ⟨p, -, -, -, hpush⟩ |
    ⟨p, -, -, -, hpush⟩ <;> rw [hpush] at hdone hword ⊢
  · exact .refl r
  · exact absurd rfl hdone
  · exact absurd rfl hword
  · exact untouched_askForRoom r _

/-- Where no request is pending and the counters are in order, a push is refused for the length of its
payload or because nobody is left to make room, or the thread ends; and no request is pending afterwards. -/
theorem push_refused (hle : r.read ≤ r.write) (hnone : r.request = none) {fault : Fault}
    (h : (r.push payload).1 = .error fault) :
    (r.push payload).2.request = none ∧
      (fault = (Cause.payloadLength payload.length r.limit).fault ∨
        fault = Cause.consumerClosed.fault ∨ fault = Cause.overflow.fault) := by
  refine ⟨(r.push_keeps payload).2 hnone (by rw [h]; rintro ⟨⟩), ?_⟩
  cases hplan : plan r.write r.read r.capacity r.limit payload.length with
  | error cause =>
    simp only [push, hplan, Except.error.injEq] at h
    subst h
    -- The counters are in order, so it is the length that was refused.
    simp only [plan, if_neg (Nat.not_lt.2 hle)] at hplan
    split at hplan
    · cases hplan
      exact .inl rfl
    · cases hplan
  | ok p =>
    rcases push_of_plan hplan with ⟨-, hpush⟩ | ⟨-, -, hpush⟩ | ⟨-, -, hpush⟩ | ⟨-, -, hpush⟩ <;>
      rw [hpush] at h
    · cases h
      exact .inr (.inr rfl)
    · cases h
    · cases h
      exact .inr (.inr rfl)
    · rw [askForRoom] at h
      split at h
      · cases h
      · cases h
        exact .inr (.inl rfl)

section Placing

variable {p : Plan}

/-- A frame that fits stands inside the ring. -/
theorem Fitted.frame_end_le (h : Fitted r)
    (hplan : plan r.write r.read r.capacity r.limit payload.length = .ok p) (hfits : p.fits = true) :
    p.offset + (payload.length + prefixLength) ≤ r.capacity := by
  rw [← (plan_eq_ok hplan).2.2.2.2.2.1]
  exact plan_end_le_of_fits h.powerOfTwo hplan hfits

theorem Fitted.place (h : Fitted r)
    (hplan : plan r.write r.read r.capacity r.limit payload.length = .ok p) (hfits : p.fits = true) :
    Fitted (r.place p payload) :=
  ⟨h.powerOfTwo, h.houses.place (h.frame_end_le hplan hfits), h.write_lt⟩

theorem Fitted.publish (h : Fitted r)
    (hplan : plan r.write r.read r.capacity r.limit payload.length = .ok p) (hfits : p.fits = true)
    (hword : p.nextWrite r.write < 2 ^ 64) : Fitted (r.publish p payload) :=
  ⟨h.powerOfTwo, h.houses.publish (h.frame_end_le hplan hfits), hword⟩

end Placing

/-- A push changes no size and leaves the read counter where it is, and the counters stay at most a lap
apart. -/
theorem Fitted.push (h : Fitted r) (payload : Bytes) :
    Fitted (r.push payload).2 ∧ Climbs r (r.push payload).2 ∧ (r.push payload).2.read = r.read ∧
      ((r.push payload).2.write = r.write ∨ (r.push payload).2.write ≤ r.read + r.capacity) := by
  rcases r.push_cases payload with ⟨cause, hpush⟩ | ⟨p, hplan, hfits, hword, hpush⟩ |
    ⟨p, hplan, hfits, -, hpush⟩ | ⟨p, -, -, -, hpush⟩ <;> rw [hpush]
  · exact ⟨h, .refl r, rfl, .inl rfl⟩
  · -- Where the payload is published it fits behind the unread bytes.
    rcases plan_eq_ok hplan with ⟨-, -, hle, -, -, -, hfit⟩
    have hnext : (r.publish p payload).write = r.write + (p.pad + p.frameLength) := rfl
    have hroom := hfits
    rw [hfit, decide_eq_true_eq] at hroom
    refine ⟨h.publish hplan hfits hword, ⟨rfl, rfl, Nat.le_refl _, ?_⟩, rfl, .inr ?_⟩
    · exact Nat.le_add_right _ _
    · show (r.publish p payload).write ≤ r.read + r.capacity
      omega
  · exact ⟨h.place hplan hfits, ⟨rfl, rfl, Nat.le_refl _, Nat.le_refl _⟩, rfl, .inl rfl⟩
  · have hsame := untouched_askForRoom r ⟨growTarget r.capacity 0, p.frameLength⟩
    exact ⟨hsame.stays.fitted h, hsame.stays.climbs, hsame.read, .inl hsame.write⟩

theorem Level.push (h : Level r) (payload : Bytes) :
    Level (r.push payload).2 ∧ Climbs r (r.push payload).2 := by
  rcases h.toFitted.push payload with ⟨hfitted, hclimbs, hread, hwrite⟩
  have hcapacity := hclimbs.capacity
  have hup := hclimbs.write
  have hle := h.read_le
  have hunread := h.write_le
  refine ⟨⟨hfitted, ?_, ?_⟩, hclimbs⟩
  · omega
  · omega

/-- What an attempt to push spares, however far it has come.  Unless it is done, nothing but the
request changes; and if it is refused, for its length or because the consumer is gone, no request is
left behind.  Where the thread ends over a number that no word holds, the counters are what they were and
no request is left behind either. -/
structure Spares (r : Ring) (payload : Bytes) (progress : Except Fault Progress) (r' : Ring) :
    Prop where
  untouched : progress ≠ .ok .done → progress ≠ .error Cause.overflow.fault → Untouched r r'
  refused : ∀ fault, progress = .error fault → r'.request = none ∧
    (fault = (Cause.payloadLength payload.length r.limit).fault ∨
      fault = Cause.consumerClosed.fault ∨ fault = Cause.overflow.fault)
  stays : progress ≠ .ok .done → Stays r r'

theorem spares_push {r : Ring} (payload : Bytes) (hfitted : Fitted r) (hle : r.read ≤ r.write)
    (hnone : r.request = none) : Spares r payload (r.push payload).1 (r.push payload).2 := by
  refine ⟨untouched_push, fun _ hfault => push_refused hle hnone hfault, ?_⟩
  rcases r.push_cases payload with ⟨cause, hpush⟩ | ⟨p, -, -, -, hpush⟩ | ⟨p, hplan, hfits, -, hpush⟩ |
    ⟨p, -, -, -, hpush⟩ <;> rw [hpush] <;> intro hdone
  · exact .refl r
  · exact absurd rfl hdone
  · exact ⟨fun h => h.place (hfitted.frame_end_le hplan hfits), rfl, rfl, rfl, rfl⟩
  · exact (untouched_askForRoom r _).stays

end Pushing

/-! ## Resizing -/

section Resizing

variable {r : Ring}

/-- The next pop or serving moves the frames to the front: its request is not put off, and the resize
that it leads to is carried out. -/
def MovesFrames (r : Ring) : Prop :=
  ∃ q, r.request = some q ∧ r.pendingFits q = false ∧ (r.serve q).1 = .ok ()

/-- A resize that is carried out lays the unread bytes out anew.  One that fails changes no counter and
no size. -/
theorem Fitted.resize (h : Fitted r) (target : Nat) :
    Stays r (r.resize target).2 ∨
      (r.resize target).1 = .ok () ∧ Anew r (r.resize target).2 := by
  rcases r.resize_relays target with ⟨fault, hresize⟩ | ⟨fault, hresize⟩ |
    ⟨growth, capacity, staged, hresize, hgrows, -, hroom, hunread⟩ <;> rw [hresize]
  · exact .inl (.refl r)
  · exact .inl (stays_store Houses.calledOff)
  · have hlt := h.write_lt
    refine .inr ⟨rfl, ⟨⟨hgrows.powerOfTwo h.powerOfTwo, h.houses.relaid hgrows hroom, ?_⟩,
      hgrows.capacity_le, rfl, Nat.le_trans hroom hgrows.capacity_le, hunread⟩⟩
    show staged.length < 2 ^ 64
    omega

theorem Level.resize (h : Level r) (target : Nat) : Level (r.resize target).2 := by
  rcases h.toFitted.resize target with hstays | ⟨-, hanew⟩
  · exact hstays.level h
  · exact hanew.level

/-- A request is put off where the frame that waits fits by now. -/
theorem serve_of_fits {q : Request} (h : r.pendingFits q = true) :
    r.serve q = (.ok (), { r with request := none }) := by
  simp only [Ring.serve, h, if_true]

/-- A request that is not put off is dealt with by a resize, or the thread ends over it. -/
theorem serve_of_not_fits {q : Request} (h : r.pendingFits q = false) :
    r.serve q = (.error Cause.overflow.fault, r) ∨
    r.serve q = ((r.resize (max q.target (growTarget r.capacity 0))).1,
      { (r.resize (max q.target (growTarget r.capacity 0))).2 with request := none }) := by
  rcases r.serve_cases q with ⟨hfits, -⟩ | ⟨-, -, hserve⟩ | ⟨-, hserve⟩
  · cases h.symm.trans hfits
  · exact .inl hserve
  · exact .inr hserve

theorem Fitted.serve (h : Fitted r) {q : Request} (hq : r.request = some q) :
    Stays r (r.serve q).2 ∨ r.MovesFrames ∧ Anew r (r.serve q).2 := by
  rcases r.serve_cases q with ⟨-, hserve⟩ | ⟨-, -, hserve⟩ | ⟨hfits, hserve⟩
  · rw [hserve]
    exact .inl ⟨id, rfl, rfl, rfl, rfl⟩
  · rw [hserve]
    exact .inl (.refl r)
  · rw [MovesFrames, hserve]
    rcases h.resize (max q.target (growTarget r.capacity 0)) with hstays | ⟨hdone, hanew⟩
    · exact .inl ⟨hstays.houses, hstays.capacity, hstays.limit, hstays.write, hstays.read⟩
    · refine .inr ⟨⟨q, hq, hfits, ?_⟩, ⟨⟨hanew.fitted.powerOfTwo, hanew.fitted.houses,
        hanew.fitted.write_lt⟩, hanew.capacity, hanew.read, hanew.write, hanew.unread⟩⟩
      rw [hserve]
      exact hdone

/-- Serving a request keeps the ring level and loses no room, and unless the frames move no counter
changes. -/
theorem Level.serve (h : Level r) {q : Request} (hq : r.request = some q) :
    Level (r.serve q).2 ∧ r.capacity ≤ (r.serve q).2.capacity ∧
      (¬ r.MovesFrames → Climbs r (r.serve q).2) := by
  rcases h.toFitted.serve hq with hstays | ⟨hmoves, hanew⟩
  · exact ⟨hstays.level h, Nat.le_of_eq hstays.capacity.symm, fun _ => hstays.climbs⟩
  · exact ⟨hanew.level, hanew.capacity, fun hnot => absurd hmoves hnot⟩

theorem capacity_resize (r : Ring) (target : Nat) :
    (r.resize target).2.capacity = r.capacity ∨
      (r.resize target).1 = .ok () ∧ (r.resize target).2.capacity ≤ 2 ^ 62 := by
  rcases r.resize_relays target with ⟨fault, hresize⟩ | ⟨fault, hresize⟩ |
    ⟨growth, capacity, staged, hresize, hgrows, -⟩ <;> rw [hresize]
  · exact .inl rfl
  · exact .inl (stays_store Houses.calledOff).capacity
  · cases hgrows with
    | larger _ _ hle _ => exact .inr ⟨rfl, hle⟩
    | same => exact .inl rfl

/-- A ring is only made larger by a request that is served, and to no more than `2 ^ 62` bytes. -/
theorem capacity_serve (r : Ring) (q : Request) :
    (r.serve q).2.capacity = r.capacity ∨
      (r.serve q).1 = .ok () ∧ (r.serve q).2.capacity ≤ 2 ^ 62 := by
  rcases r.serve_cases q with ⟨-, hserve⟩ | ⟨-, -, hserve⟩ | ⟨-, hserve⟩ <;> rw [hserve]
  · exact .inl rfl
  · exact .inl rfl
  · exact r.capacity_resize _

/-- The room that there is once a request for more was served. -/
theorem capacity_of_serve {q : Request} (hfits : r.pendingFits q = false)
    (hserve : (r.serve q).1 = .ok ())
    (hlarger : nextPowerOfTwo (max (max q.target (growTarget r.capacity 0)) r.capacity) >
      r.capacity) :
    (r.serve q).2.capacity =
      nextPowerOfTwo (max (max q.target (growTarget r.capacity 0)) r.capacity) := by
  rcases serve_of_not_fits hfits with hended | hserved
  · rw [hended] at hserve
    cases hserve
  · rw [hserved] at hserve ⊢
    rcases r.resize_cases (max q.target (growTarget r.capacity 0)) with ⟨cause, -, hresize⟩ |
      ⟨staged, e, -, -, -, hresize⟩ | ⟨staged, growth, -, -, -, hresize⟩ | ⟨staged, -, hsame, -⟩
    · rw [hresize] at hserve
      cases hserve
    · rw [hresize] at hserve
      cases hserve
    · rw [hresize]
      rfl
    · omega

/-- A growth that the system refuses.  The mark was set and cleared again, a file may have been
lengthened in between and may have stayed so, and the request is gone. -/
def refuseGrowth (r : Ring) (tried : List Store) : Ring :=
  { r.store (setMark :: tried ++ [clearMark]) with request := none }

theorem stays_refuseGrowth {tried : List Store} (htried : Refused r.capacity tried) :
    Stays r (r.refuseGrowth tried) :=
  ⟨fun h => h.refused htried, rfl, rfl, rfl, rfl⟩

end Resizing

/-! ## Popping -/

section Popping

variable {r : Ring}

theorem Fitted.moveRead (h : Fitted r) (n : Nat) : Fitted (r.moveRead n) := by
  refine ⟨?_, ?_, ?_⟩
  · rw [capacity_moveRead]
    exact h.powerOfTwo
  · rw [capacity_moveRead]
    exact h.houses.moveRead n
  · rw [write_moveRead]
    exact h.write_lt

theorem Level.moveRead (h : Level r) {n : Nat} (hlo : r.read ≤ n) (hhi : n ≤ r.write) :
    Level (r.moveRead n) ∧ Climbs r (r.moveRead n) := by
  have hle := h.write_le
  refine ⟨⟨h.toFitted.moveRead n, ?_, ?_⟩, ⟨capacity_moveRead r n, limit_moveRead r n, ?_, ?_⟩⟩
  · rw [read_moveRead, write_moveRead]
    exact hhi
  · rw [read_moveRead, write_moveRead, capacity_moveRead]
    omega
  · rw [read_moveRead]
    exact hlo
  · exact Nat.le_of_eq (write_moveRead r n).symm

theorem Sized.fitted (h : Sized r) : Fitted r := ⟨h.powerOfTwo, .of_size h.size, h.write_lt⟩

/-- A ring with nothing between its counters stays so when it is popped, and gives no record. -/
theorem Fitted.pop_drained (h : Fitted r) (hdrained : r.read = r.write) :
    r.pop.2.read = r.pop.2.write ∧ ∀ l, r.pop.1 ≠ .ok (some l) := by
  cases hrequest : r.request with
  | none =>
    rw [pop_eq_front hrequest, front_of_eq hdrained]
    exact ⟨hdrained, by rintro l ⟨⟩⟩
  | some q =>
    -- What is laid out anew is no more than what was unread.
    have hserved : (r.serve q).2.read = (r.serve q).2.write := by
      rcases h.serve hrequest with hstays | ⟨-, hanew⟩
      · rw [hstays.read, hstays.write, hdrained]
      · have hread := hanew.read
        have hunread := hanew.unread
        omega
    simp only [Ring.pop, hrequest]
    generalize r.serve q = outcome at hserved ⊢
    rcases outcome with ⟨fault | _, served⟩
    · exact ⟨hserved, by rintro l ⟨⟩⟩
    · have hfront : served.front = (.ok none, served) := front_of_eq hserved
      simp only [hfront]
      exact ⟨hserved, by rintro l ⟨⟩⟩

/-- The padding that stands at the read counter is passed, if there is any. -/
inductive Passes (r : Ring) : Ring → Prop
  | here : Passes r r
  | padding {n : Nat} (hlt : r.read < r.write)
      (hclassify : r.view.classify r.read r.write = .ok (.padding n))
      (hend : r.read + n ≤ r.write) : Passes r (r.moveRead (r.read + n))

theorem Passes.level {r' : Ring} (h : Passes r r') (hlevel : Level r) : Level r' ∧ Climbs r r' := by
  cases h with
  | here => exact ⟨hlevel, .refl r⟩
  | padding _ _ hend => exact hlevel.moveRead (Nat.le_add_right _ _) hend

/-- Where looking for the oldest record ends: at a fault, at the write counter, or at a frame. -/
def EndsAt (r : Ring) (outcome : Except Fault (Option Lease) × Ring) : Prop :=
  (∃ fault, outcome = (.error fault, r)) ∨ r.read = r.write ∧ outcome = (.ok none, r) ∨
    ∃ n, r.read < r.write ∧ r.view.classify r.read r.write = .ok (.frame n) ∧
      outcome = (.ok (some (r.lease n)), r)

theorem Level.endsAt_of_unpadded (h : Level r)
    (hpad : ∀ n, r.view.classify r.read r.write ≠ .ok (.padding n)) : EndsAt r r.front := by
  have hle := h.read_le
  by_cases heq : r.read = r.write
  · exact .inr (.inl ⟨heq, front_of_eq heq⟩)
  · have hlt : r.read < r.write := by omega
    rcases hclassify : r.view.classify r.read r.write with cause | n | n
    · exact .inl ⟨_, front_of_error hlt hclassify⟩
    · exact absurd hclassify (hpad n)
    · exact .inr (.inr ⟨n, hlt, hclassify, front_of_frame hlt hclassify⟩)

/-- Looking for the oldest record passes padding, if there is any, and ends behind it. -/
theorem Level.front_cases (h : Level r) (hroom : frameReserve r.limit ≤ r.capacity) :
    ∃ r', Passes r r' ∧ EndsAt r' r.front := by
  have hle := h.read_le
  by_cases hpadding : r.read < r.write ∧ ∃ n, r.view.classify r.read r.write = .ok (.padding n)
  · rcases hpadding with ⟨hlt, n, hclassify⟩
    have hend := (View.classify_eq_padding hclassify).2.2.2
    -- Behind the padding a lap begins, and the search goes on there as if it had started there.
    rw [front_of_padding h.powerOfTwo hroom hlt hclassify]
    refine ⟨_, .padding hlt hclassify hend,
      (h.moveRead (Nat.le_add_right _ _) hend).1.endsAt_of_unpadded ?_⟩
    rw [view_moveRead, read_moveRead, write_moveRead]
    exact View.not_padding_twice h.powerOfTwo hroom hclassify
  · refine ⟨r, .here, ?_⟩
    by_cases heq : r.read = r.write
    · exact .inr (.inl ⟨heq, front_of_eq heq⟩)
    · exact h.endsAt_of_unpadded fun n hn => hpadding ⟨by omega, n, hn⟩

/-- What a look at the front comes to. -/
def LevelFront (r : Ring) (outcome : Except Fault (Option Lease) × Ring) : Prop :=
  Level outcome.2 ∧ Climbs r outcome.2 ∧ ∀ l, outcome.1 = .ok (some l) → Spans outcome.2 l

theorem Level.front (h : Level r) (hroom : frameReserve r.limit ≤ r.capacity) :
    LevelFront r r.front := by
  rcases h.front_cases hroom with ⟨r', hpasses, hends⟩
  rcases hpasses.level h with ⟨hlevel, hclimbs⟩
  rcases hends with ⟨fault, hfront⟩ | ⟨-, hfront⟩ | ⟨n, -, hclassify, hfront⟩
  · rw [hfront]
    exact ⟨hlevel, hclimbs, by rintro _ ⟨⟩⟩
  · rw [hfront]
    exact ⟨hlevel, hclimbs, by rintro _ ⟨⟩⟩
  · have hend : (r'.lease n).next ≤ r'.write := (View.classify_eq_frame hclassify).2.2.2.2
    rw [hfront]
    refine ⟨hlevel, hclimbs, ?_⟩
    rintro l ⟨⟩
    exact ⟨Nat.le_add_right _ _, hend⟩

/-- A pop keeps the ring level and loses no room, and no counter goes back unless the frames move. -/
theorem Level.pop (h : Level r) (hroom : frameReserve r.limit ≤ r.capacity) :
    Level r.pop.2 ∧ r.capacity ≤ r.pop.2.capacity ∧ (¬ r.MovesFrames → Climbs r r.pop.2) ∧
      ∀ l, r.pop.1 = .ok (some l) → Spans r.pop.2 l := by
  rcases r.pop_cases with ⟨-, hpop⟩ | ⟨q, fault, served, hq, hserve, hpop⟩ |
    ⟨q, served, hq, hserve, hpop⟩ <;> rw [hpop]
  · rcases h.front hroom with ⟨hlevel, hclimbs, hspans⟩
    exact ⟨hlevel, Nat.le_of_eq hclimbs.capacity.symm, fun _ => hclimbs, hspans⟩
  · rcases h.serve hq with ⟨hlevel, hlarge, hclimbs⟩
    rw [hserve] at hlevel hlarge hclimbs
    exact ⟨hlevel, hlarge, hclimbs, by rintro _ ⟨⟩⟩
  · rcases h.serve hq with ⟨hlevel, hlarge, hclimbs⟩
    have hlimit := (r.serve_keeps q).1
    rw [hserve] at hlevel hlarge hclimbs hlimit
    have hroom' : frameReserve served.limit ≤ served.capacity := by
      rw [show served.limit = r.limit from hlimit]
      exact Nat.le_trans hroom hlarge
    rcases Level.front hlevel hroom' with ⟨hlevel', hclimbs', hspans⟩
    refine ⟨hlevel', ?_, fun hmoves => (hclimbs hmoves).trans hclimbs', hspans⟩
    show r.capacity ≤ served.front.2.capacity
    rw [hclimbs'.capacity]
    exact hlarge

end Popping

/-! ## Opening -/

section Opening

variable {requested limit : Nat} {r : Ring}

/-- The counters of a header are 64-bit words. -/
theorem write_lt_of_decode {bytes : Bytes} {header : Header}
    (h : Header.decode bytes = .ok header) : header.write < 2 ^ 64 := by
  simp only [Header.decode] at h
  split at h
  · cases h
  · cases h
    show Bytes.toWord (bytes.take 8) < 2 ^ 64
    have hlt := Bytes.toWord_lt (bytes.take 8)
    have hpow : 256 ^ (bytes.take 8).length ≤ 256 ^ 8 :=
      Nat.pow_le_pow_right (by decide) (List.length_take_le 8 bytes)
    omega

/-- A header that is accepted describes a ring that is level. -/
theorem level_ofHeader (path : String) {content : Image} {header : Header} {capacity : Nat}
    (limit : Nat) (hread : readHeader content = .ok (header, capacity)) :
    Level (ofHeader path content capacity limit header) := by
  rcases readHeader_eq_ok hread with ⟨hsize, hpow, -, hdecode, hvalidate⟩
  rcases validate_eq_ok hvalidate with ⟨-, hle, hunread, -, -⟩
  refine ⟨⟨hpow, .of_size hsize, write_lt_of_decode hdecode⟩, hle, ?_⟩
  show header.write ≤ header.read + capacity
  omega

/-- Whatever bytes are accepted, the ring that is opened on them is level.  It has room for what is
asked for and for the bytes that were there. -/
theorem level_of_attach {path : String} {content : Image} (hcap : IsPowerOfTwo requested)
    (hattach : (attach path content requested limit).1 = .ok r) :
    Level r ∧ r.limit = limit ∧ r.request = none ∧ requested ≤ r.capacity ∧
      content.size ≤ Header.size + r.capacity := by
  rcases attach_eq_ok hattach with ⟨hblank, -, rfl⟩ |
    ⟨header, capacity, hread, ⟨hsmaller, rfl⟩ | ⟨hlarger, hresize⟩⟩
  · refine ⟨⟨⟨hcap, .of_size rfl, Nat.two_pow_pos 64⟩, Nat.le_refl _, Nat.zero_le _⟩, rfl, rfl,
      Nat.le_refl _, ?_⟩
    show content.size ≤ Header.size + requested
    omega
  · exact ⟨level_ofHeader path limit hread, rfl, rfl, hsmaller, Nat.le_of_eq (readHeader_eq_ok hread).1⟩
  · -- The bytes that were there are too few, so what is asked for is what the ring has now.
    have hsize := (readHeader_eq_ok hread).1
    have hkeeps := resize_keeps (ofHeader path content capacity limit header) requested
    have hresized := (level_ofHeader path limit hread).resize requested
    rw [hresize] at hkeeps hresized
    rcases resize_of_larger hcap hlarger hresize with ⟨growth, staged, -, rfl⟩
    refine ⟨hresized, hkeeps.1, hkeeps.2.2, Nat.le_refl _, ?_⟩
    show content.size ≤ Header.size + requested
    omega

/-- Whatever bytes are accepted, the storage of the ring is as long as its capacity asks for. -/
theorem size_of_attach {path : String} {content : Image}
    (hattach : (attach path content requested limit).1 = .ok r) :
    r.image.size = Header.size + r.capacity := by
  rcases attach_eq_ok hattach with ⟨-, -, rfl⟩ | ⟨header, capacity, hread, ⟨-, rfl⟩ | ⟨-, hresize⟩⟩
  · rfl
  · exact (readHeader_eq_ok hread).1
  · rcases (ofHeader path content capacity limit header).resize_relays requested with
      ⟨fault, hother⟩ | ⟨fault, hother⟩ | ⟨growth, goal, staged, hdone, hgrows, -⟩
    · cases hresize.symm.trans hother
    · cases hresize.symm.trans hother
    · cases hresize.symm.trans hdone
      rw [image_relaid, size_relay]
      rcases hgrows.size_cases with hgrown | ⟨rfl, hsame⟩
      · exact hgrown
      · exact hsame.trans (readHeader_eq_ok hread).1

/-- A ring that was opened under a path was opened on the bytes that were found there. -/
theorem attach_of_openRing {d : Disk} {o : Options} {path : String} (hpath : o.path = some path)
    (hopen : (d.openRing o).1 = .ok r) :
    ∃ content, (attach path content o.requested o.limit).1 = .ok r := by
  simp only [Disk.openRing, check_of_openRing hopen, hpath] at hopen
  rcases hlocate : d.locate .creating path with e | (name | _ | name)
  case error | ok.directory =>
    simp only [hlocate] at hopen
    cases hopen
  -- A file that is there and one that is created are attached alike.
  all_goals
    refine ⟨(d.content? name).getD {}, ?_⟩
    simp only [hlocate] at hopen
    split at hopen
    · cases hopen
    · rcases hattach : attach path ((d.content? name).getD {}) o.requested o.limit with ⟨_ | _, _⟩
      · simp only [hattach] at hopen
        cases hopen
      · simp only [hattach] at hopen
        exact hopen

/-- A ring that was opened without a path is a new one. -/
theorem create_of_openRing {d : Disk} {o : Options} (hpath : o.path = none)
    (hopen : (d.openRing o).1 = .ok r) : r = create o.requested o.limit := by
  simp only [Disk.openRing, check_of_openRing hopen, hpath] at hopen
  split at hopen
  · cases hopen
  · cases hopen
    rfl

/-- Every ring that can be opened is level, and has room for two frames and for what is asked for. -/
theorem level_of_openRing {d : Disk} {o : Options} (hopen : (d.openRing o).1 = .ok r) :
    Level r ∧ r.limit = o.limit ∧ r.request = none ∧ o.requested ≤ r.capacity := by
  have hcap := (requested_spec o).1
  cases hpath : o.path with
  | none =>
    rw [create_of_openRing hpath hopen]
    exact ⟨⟨⟨hcap, .of_size rfl, Nat.two_pow_pos 64⟩, Nat.le_refl _, Nat.zero_le _⟩, rfl, rfl,
      Nat.le_refl _⟩
  | some path =>
    rcases attach_of_openRing hpath hopen with ⟨content, hattach⟩
    rcases level_of_attach hcap hattach with ⟨hlevel, hsame, hnone, hlarge, -⟩
    exact ⟨hlevel, hsame, hnone, hlarge⟩

/-- The sizes of a ring that was opened fit each other, whatever bytes it was opened on. -/
theorem sized_of_openRing {d : Disk} {o : Options} (hopen : (d.openRing o).1 = .ok r) : Sized r := by
  rcases level_of_openRing hopen with ⟨hlevel, hlimit, -, hlarge⟩
  have hleast : minCapacity o.limit ≤ o.requested := Nat.le_max_right _ _
  refine ⟨hlevel.powerOfTwo, ?_, ?_, ?_, hlevel.write_lt⟩
  · rw [hlimit]
    exact (checkRecordLimit_eq_ok.1 (limit_of_openRing hopen)).2
  · rw [hlimit]
    exact Nat.le_trans (two_mul_frameReserve_le_minCapacity o.limit) (Nat.le_trans hleast hlarge)
  · cases hpath : o.path with
    | none =>
      rw [create_of_openRing hpath hopen]
      rfl
    | some path =>
      rcases attach_of_openRing hpath hopen with ⟨content, hattach⟩
      exact size_of_attach hattach

/-- A ring is opened with both its ends. -/
theorem consumerOpen_of_openRing {d : Disk} {o : Options} (hopen : (d.openRing o).1 = .ok r) :
    r.consumerOpen = true := by
  cases hpath : o.path with
  | none =>
    rw [create_of_openRing hpath hopen]
    rfl
  | some path =>
    rcases attach_of_openRing hpath hopen with ⟨content, hattach⟩
    rcases attach_eq_ok hattach with ⟨-, -, rfl⟩ | ⟨header, capacity, -, ⟨-, rfl⟩ | ⟨-, hresize⟩⟩
    · rfl
    · rfl
    · have hkept := consumerOpen_resize (ofHeader path content capacity o.limit header) o.requested
      rwa [hresize] at hkept

end Opening

end Ring
end WriteBehind
