import WriteBehind.Proofs.Ring.Sound
import WriteBehind.Ring.Channel

/-!
# Calls — what the producer's calls do to the list of records

A call is done, refused, or left waiting with a request for room.

* `added payload result` is what a push with this result has added;
* `Extends r r' records more` says that records were added behind, and that the reader's side stayed;
* `push_extends`, `grow_extends` and `resume_extends` say so of each call.
-/

namespace WriteBehind
namespace Ring

/-- A request for room, if there is one, asks for a power of two and for twice the room at least. -/
def WellAsked (r : Ring) : Prop :=
  ∀ q, r.request = some q → IsPowerOfTwo q.target ∧ 2 * r.capacity ≤ q.target ∧ q.target ≤ 2 ^ 63

/-- What a call that was to add a payload has added. -/
def added (payload : Bytes) : Except Fault Progress → List Bytes
  | .ok .done => [payload]
  | _ => []

/-- What the call that waits adds if it goes on now. -/
def Channel.resumed (c : Channel) : List Bytes :=
  match c.waiting, c.resume.1 with
  | some (.push payload), some result => added payload result
  | _, _ => []

/-- Records were added behind those that were there, and the reader's side stayed as it was. -/
structure Extends (r r' : Ring) (records more : List Bytes) : Prop where
  sound : Sound r' (records ++ more)
  asked : r'.WellAsked
  read : r'.read = r.read
  capacity : r'.capacity = r.capacity
  limit : r'.limit = r.limit
  backing : r'.backing = r.backing

/-! ## How calls end -/

/-- Asking for a larger ring is asking for room, unless no word holds what is asked for. -/
theorem askToGrow_cases (r : Ring) (capacity pending : Nat) :
    r.askToGrow capacity pending = (.error Cause.overflow.fault, r) ∨
    growTarget r.capacity capacity < 2 ^ 64 ∧
      r.askToGrow capacity pending = r.askForRoom ⟨growTarget r.capacity capacity, pending⟩ := by
  by_cases hword : growTarget r.capacity capacity < 2 ^ 64
  · refine .inr ⟨hword, ?_⟩
    simp only [askToGrow, checkWord_of_lt hword]
  · refine .inl ?_
    simp only [askToGrow, checkWord_of_le (Nat.not_lt.1 hword)]

/-- A push that is planned publishes its payload, or ends once the payload is in its place, or asks for twice
the room, unless no word holds that. -/
theorem push_of_plan {r : Ring} {payload : Bytes} {p : Plan}
    (hplan : plan r.write r.read r.capacity r.limit payload.length = .ok p) :
    (p.fits = false ∧ r.push payload = (.error Cause.overflow.fault, r)) ∨
    (p.fits = true ∧ p.nextWrite r.write < 2 ^ 64 ∧
      r.push payload = (.ok .done, r.publish p payload)) ∨
    (p.fits = true ∧ 2 ^ 64 ≤ p.nextWrite r.write ∧
      r.push payload = (.error Cause.overflow.fault, r.place p payload)) ∨
    (p.fits = false ∧ growTarget r.capacity 0 < 2 ^ 64 ∧
      r.push payload = r.askForRoom ⟨growTarget r.capacity 0, p.frameLength⟩) := by
  cases hfits : p.fits with
  | true =>
    by_cases hword : p.nextWrite r.write < 2 ^ 64
    · refine .inr (.inl ⟨rfl, hword, ?_⟩)
      simp only [push, hplan, hfits, if_true, checkWord_of_lt hword]
    · refine .inr (.inr (.inl ⟨rfl, Nat.not_lt.1 hword, ?_⟩))
      simp only [push, hplan, hfits, if_true, checkWord_of_le (Nat.not_lt.1 hword)]
  | false =>
    have hpush : r.push payload = r.askToGrow 0 p.frameLength := by
      simp only [push, hplan, hfits, Bool.false_eq_true, if_false]
    rcases r.askToGrow_cases 0 p.frameLength with hask | ⟨hword, hask⟩
    · exact .inl ⟨rfl, hpush.trans hask⟩
    · exact .inr (.inr (.inr ⟨rfl, hword, hpush.trans hask⟩))

/-- A push is refused, or published, or ends once the payload is in its place, or asks for twice the
room. -/
theorem push_cases (r : Ring) (payload : Bytes) :
    (∃ cause, r.push payload = (.error (Cause.fault cause), r)) ∨
    (∃ p, plan r.write r.read r.capacity r.limit payload.length = .ok p ∧ p.fits = true ∧
      p.nextWrite r.write < 2 ^ 64 ∧ r.push payload = (.ok .done, r.publish p payload)) ∨
    (∃ p, plan r.write r.read r.capacity r.limit payload.length = .ok p ∧ p.fits = true ∧
      2 ^ 64 ≤ p.nextWrite r.write ∧
      r.push payload = (.error Cause.overflow.fault, r.place p payload)) ∨
    (∃ p, plan r.write r.read r.capacity r.limit payload.length = .ok p ∧ p.fits = false ∧
      growTarget r.capacity 0 < 2 ^ 64 ∧
      r.push payload = r.askForRoom ⟨growTarget r.capacity 0, p.frameLength⟩) := by
  cases hplan : plan r.write r.read r.capacity r.limit payload.length with
  | error cause =>
    refine .inl ⟨cause, ?_⟩
    simp only [push, hplan]
  | ok p =>
    rcases push_of_plan hplan with ⟨-, hpush⟩ | hdone | hended | hasked
    · exact .inl ⟨.overflow, hpush⟩
    · exact .inr (.inl ⟨p, rfl, hdone⟩)
    · exact .inr (.inr (.inl ⟨p, rfl, hended⟩))
    · exact .inr (.inr (.inr ⟨p, rfl, hasked⟩))

/-- A growth is done at once, or ends since no word holds what it rounds up to, or asks for room. -/
theorem grow_cases (r : Ring) (capacity : Nat) :
    r.grow capacity = (.ok .done, r) ∨
    r.grow capacity = (.error Cause.overflow.fault, r) ∨
    growTarget r.capacity capacity < 2 ^ 64 ∧
      r.grow capacity = r.askForRoom ⟨growTarget r.capacity capacity, 0⟩ := by
  by_cases hle : capacity ≤ r.capacity
  · exact .inl (if_pos hle)
  · rw [grow, if_neg hle]
    exact .inr (r.askToGrow_cases capacity 0)

/-- Asking for room comes to waiting with the request, or to being turned away without it. -/
theorem askForRoom_cases (r : Ring) (request : Request) :
    (∃ notice, r.askForRoom request =
      (.ok .parked, { r with dataReady := notice, request := some request })) ∨
    (∃ notice fault, r.askForRoom request =
      (.error fault, { r with dataReady := notice, request := none })) := by
  by_cases hopen : r.consumerOpen = true
  · refine .inl ⟨r.dataReady.post, ?_⟩
    simp only [askForRoom, hopen, if_true]
  · refine .inr ⟨r.dataReady.post, Cause.consumerClosed.fault, ?_⟩
    simp only [askForRoom, hopen]
    rfl

theorem added_askForRoom (r : Ring) (request : Request) (payload : Bytes) :
    added payload (r.askForRoom request).1 = [] := by
  rcases r.askForRoom_cases request with ⟨notice, hask⟩ | ⟨notice, fault, hask⟩
  · rw [hask]
    rfl
  · rw [hask]
    rfl

theorem added_of_ne {payload : Bytes} {progress : Except Fault Progress}
    (h : progress ≠ .ok .done) : added payload progress = [] := by
  rcases progress with fault | (_ | _)
  · rfl
  · exact absurd rfl h
  · rfl

/-- A push that is done has published its payload. -/
theorem push_eq_done {r : Ring} {payload : Bytes} (h : (r.push payload).1 = .ok .done) :
    ∃ p, plan r.write r.read r.capacity r.limit payload.length = .ok p ∧ p.fits = true ∧
      p.nextWrite r.write < 2 ^ 64 ∧ r.push payload = (.ok .done, r.publish p payload) := by
  rcases r.push_cases payload with ⟨cause, hpush⟩ | hpublished | ⟨p, -, -, -, hpush⟩ |
    ⟨p, -, -, -, hpush⟩
  · rw [hpush] at h
    cases h
  · exact hpublished
  · rw [hpush] at h
    cases h
  · rw [hpush] at h
    rcases r.askForRoom_cases ⟨growTarget r.capacity 0, p.frameLength⟩ with
      ⟨notice, hask⟩ | ⟨notice, fault, hask⟩ <;> rw [hask] at h <;> cases h

/-- A push leaves the limit, and asks for room only if it waits. -/
theorem push_keeps (r : Ring) (payload : Bytes) :
    (r.push payload).2.limit = r.limit ∧
      (r.request = none → (r.push payload).1 ≠ .ok .parked → (r.push payload).2.request = none) := by
  rcases r.push_cases payload with ⟨cause, hpush⟩ | ⟨p, -, -, -, hpush⟩ | ⟨p, -, -, -, hpush⟩ |
    ⟨p, -, -, -, hpush⟩
  · rw [hpush]
    exact ⟨rfl, fun hnone _ => hnone⟩
  · rw [hpush]
    exact ⟨rfl, fun hnone _ => hnone⟩
  · rw [hpush]
    exact ⟨rfl, fun hnone _ => hnone⟩
  · rw [hpush]
    rcases r.askForRoom_cases ⟨growTarget r.capacity 0, p.frameLength⟩ with
      ⟨notice, hask⟩ | ⟨notice, fault, hask⟩
    · rw [hask]
      exact ⟨rfl, fun _ hdone => absurd rfl hdone⟩
    · rw [hask]
      exact ⟨rfl, fun _ _ => rfl⟩

/-- A push leaves the consumer's end as it is. -/
theorem consumerOpen_push (r : Ring) (payload : Bytes) :
    (r.push payload).2.consumerOpen = r.consumerOpen := by
  rcases r.push_cases payload with ⟨cause, hpush⟩ | ⟨p, -, -, -, hpush⟩ | ⟨p, -, -, -, hpush⟩ |
    ⟨p, -, -, -, hpush⟩
  · rw [hpush]
  · rw [hpush]
    rfl
  · rw [hpush]
    rfl
  · rw [hpush]
    rcases r.askForRoom_cases ⟨growTarget r.capacity 0, p.frameLength⟩ with
      ⟨notice, hask⟩ | ⟨notice, fault, hask⟩ <;> rw [hask]

theorem Extends.holds {r r' : Ring} {records more : List Bytes} {l : Lease}
    (h : Extends r r' records more) (hl : Holds r l) : Holds r' l :=
  hl.congr h.read h.capacity h.limit

theorem WellAsked.of_none {r : Ring} (hnone : r.request = none) : r.WellAsked := by
  intro q hq
  cases hnone.symm.trans hq

/-- A request outlasts the release of a record. -/
theorem WellAsked.release {r : Ring} (h : r.WellAsked) (l : Lease) : (r.release l).WellAsked := by
  intro q hq
  rw [Ring.release, request_moveRead] at hq
  rw [Ring.release, capacity_moveRead]
  exact h q hq

namespace Sound

variable {r : Ring} {records : List Bytes}

/-! ## Single calls -/

theorem extends_refl (h : Sound r records) (hasked : r.WellAsked) : Extends r r records [] := by
  refine ⟨?_, hasked, rfl, rfl, rfl, rfl⟩
  rw [List.append_nil]
  exact h

/-- The ring asks for twice the room, or for more. -/
theorem askForRoom_extends (h : Sound r records) {requested frame : Nat}
    (hword : growTarget r.capacity requested < 2 ^ 64) :
    Extends r (r.askForRoom ⟨growTarget r.capacity requested, frame⟩).2 records [] := by
  have hcap := isPowerOfTwo_growTarget r.capacity requested
  have hle := h.capacity_le
  have hdouble : 2 * r.capacity ≤ growTarget r.capacity requested :=
    two_mul_le_growTarget (by omega) requested
  rcases r.askForRoom_cases ⟨growTarget r.capacity requested, frame⟩ with
    ⟨notice, hask⟩ | ⟨notice, fault, hask⟩
  · rw [hask]
    refine ⟨?_, ?_, rfl, rfl, rfl, rfl⟩
    · rw [List.append_nil]
      exact h.of_eq rfl rfl rfl rfl rfl rfl
    · rintro q ⟨⟩
      exact ⟨hcap, hdouble, hcap.le_of_word hword⟩
  · rw [hask]
    refine ⟨?_, ?_, rfl, rfl, rfl, rfl⟩
    · rw [List.append_nil]
      exact h.of_eq rfl rfl rfl rfl rfl rfl
    · intro q hq
      cases hq

/-- A push appends its payload if it is done, and otherwise leaves the list alone. -/
theorem push_extends (h : Sound r records) (hasked : r.WellAsked) {payload : Bytes}
    (hnotes : r.NotesPad payload) :
    Extends r (r.push payload).2 records (added payload (r.push payload).1) := by
  rcases r.push_cases payload with ⟨cause, hpush⟩ | ⟨p, hplan, hfits, hword, hpush⟩ |
    ⟨p, hplan, hfits, -, hpush⟩ | ⟨p, -, -, hword, hpush⟩
  · rw [hpush]
    exact h.extends_refl hasked
  · rw [hpush]
    exact ⟨h.publish hplan hfits (hnotes p hplan hfits) hword, hasked, rfl, rfl, rfl, rfl⟩
  · rw [hpush]
    refine ⟨?_, hasked, rfl, rfl, rfl, rfl⟩
    show Sound _ (records ++ [])
    rw [List.append_nil]
    exact h.place hplan hfits (hnotes p hplan hfits)
  · rw [hpush, added_askForRoom]
    exact h.askForRoom_extends hword

theorem grow_extends (h : Sound r records) (hasked : r.WellAsked) (capacity : Nat) :
    Extends r (r.grow capacity).2 records [] := by
  rcases r.grow_cases capacity with hgrow | hgrow | ⟨hword, hgrow⟩
  · rw [hgrow]
    exact h.extends_refl hasked
  · rw [hgrow]
    exact h.extends_refl hasked
  · rw [hgrow]
    exact h.askForRoom_extends hword

end Sound

/-! ## Calls that wait -/

namespace Channel

theorem settle_fst (call : Call) (outcome : Except Fault Progress × Ring) :
    (settle call outcome).1 = outcome.1 := by
  rcases outcome with ⟨_ | (_ | _), r⟩ <;> rfl

theorem settle_ring (call : Call) (outcome : Except Fault Progress × Ring) :
    (settle call outcome).2.ring = outcome.2 := by
  rcases outcome with ⟨_ | (_ | _), r⟩ <;> rfl

variable {c : Channel} {records : List Bytes}

theorem submit_push_extends (h : Sound c.ring records) (hasked : c.ring.WellAsked)
    {payload : Bytes} (hnotes : c.ring.NotesPad payload) :
    Extends c.ring (c.submit (.push payload)).2.ring records
      (added payload (c.submit (.push payload)).1) := by
  rw [submit, settle_ring, settle_fst]
  exact h.push_extends hasked hnotes

theorem submit_grow_extends (h : Sound c.ring records) (hasked : c.ring.WellAsked)
    (capacity : Nat) : Extends c.ring (c.submit (.grow capacity)).2.ring records [] := by
  rw [submit, settle_ring]
  exact h.grow_extends hasked capacity

/-- The call that waits keeps waiting, is turned away since nobody is left to serve its request, or its
request was served: then a payload is pushed, and a growth is done. -/
theorem resume_cases (c : Channel) :
    (c.resume.2 = c ∧ c.resumed = []) ∨
    (∃ notice, c.resume.2 = ⟨{ c.ring with dataReady := notice, request := none }, none⟩ ∧
      c.resumed = []) ∨
    (∃ payload, c.waiting = some (.push payload) ∧ c.ring.request = none ∧
      c.resume.2 = (settle (.push payload) (c.ring.push payload)).2 ∧
      c.resumed = added payload (c.ring.push payload).1) ∨
    (c.ring.request = none ∧ c.resume.2 = ⟨c.ring, none⟩ ∧ c.resumed = []) := by
  cases hwaiting : c.waiting with
  | none =>
    refine .inl ⟨?_, ?_⟩ <;> simp only [resumed, resume, hwaiting]
  | some call =>
    cases hrequest : c.ring.request with
    | some request =>
      -- The request is still there: it goes on waiting, unless nobody is left to serve it.
      by_cases hopen : c.ring.consumerOpen = true
      · refine .inl ⟨?_, ?_⟩
        · simp only [resume, hwaiting, hrequest, hopen, if_true]
        · simp only [resumed, resume, hwaiting, hrequest, hopen, if_true]
          cases call <;> rfl
      · have hask : (c.ring.askForRoom request).2 =
            { c.ring with dataReady := c.ring.dataReady.post, request := none } := by
          simp only [askForRoom, if_neg hopen]
        refine .inr (.inl ⟨c.ring.dataReady.post, ?_, ?_⟩)
        · simp only [resume, hwaiting, hrequest, if_neg hopen, hask]
        · simp only [resumed, resume, hwaiting, hrequest, if_neg hopen]
          cases call with
          | push payload => exact added_askForRoom c.ring request payload
          | grow capacity => rfl
    | none =>
      cases call with
      | push payload =>
        refine .inr (.inr (.inl ⟨payload, rfl, rfl, ?_, ?_⟩))
        · simp only [resume, hwaiting, hrequest, retry]
        · simp only [resumed, resume, hwaiting, hrequest, settle_fst, retry]
      | grow capacity =>
        refine .inr (.inr (.inr ⟨rfl, ?_, ?_⟩))
        · simp only [resume, hwaiting, hrequest, retry, settle]
        · simp only [resumed, resume, hwaiting, hrequest]

theorem resume_extends (h : Sound c.ring records) (hasked : c.ring.WellAsked)
    (hnotes : ∀ payload, c.waiting = some (.push payload) → c.ring.NotesPad payload) :
    Extends c.ring c.resume.2.ring records c.resumed := by
  rcases c.resume_cases with ⟨hresume, hadded⟩ | ⟨notice, hresume, hadded⟩ |
    ⟨payload, hwaiting, -, hresume, hadded⟩ | ⟨-, hresume, hadded⟩
  · rw [hresume, hadded]
    exact h.extends_refl hasked
  · rw [hresume, hadded]
    refine ⟨?_, ?_, rfl, rfl, rfl, rfl⟩
    · rw [List.append_nil]
      exact h.of_eq rfl rfl rfl rfl rfl rfl
    · intro q hq
      cases hq
  · rw [hresume, hadded, settle_ring]
    exact h.push_extends hasked (hnotes payload hwaiting)
  · rw [hresume, hadded]
    exact h.extends_refl hasked

/-! ## Who waits, and for what -/

theorem mem_added {payload other : Bytes} {result : Except Fault Progress}
    (h : other ∈ added payload result) : other = payload := by
  rcases result with _ | (_ | _)
  · cases h
  · exact List.mem_singleton.1 h
  · cases h

/-- A call that has come this far waits only if it has not returned. -/
theorem waiting_settle {call call' : Call} {outcome : Except Fault Progress × Ring}
    (h : (settle call outcome).2.waiting = some call') : call' = call := by
  rcases outcome with ⟨_ | (_ | _), r⟩
  · cases h
  · cases h
  · exact (Option.some.inj h).symm

/-- No call waits once it has returned. -/
theorem settle_ne_parked {call : Call} {outcome : Except Fault Progress × Ring}
    (h : (settle call outcome).2.waiting = none) : outcome.1 ≠ .ok .parked := by
  rcases outcome with ⟨_ | (_ | _), r⟩
  · exact fun hc => nomatch hc
  · exact fun hc => nomatch hc
  · cases h

/-- A call that has not returned waits. -/
theorem waiting_of_parked {call : Call} {outcome : Except Fault Progress × Ring}
    (h : outcome.1 = .ok .parked) : (settle call outcome).2.waiting = some call := by
  rcases outcome with ⟨_ | (_ | _), r⟩
  · cases h
  · cases h
  · rfl

/-- What going on does to the ring: the request goes, or a payload is pushed. -/
theorem ring_resume (c : Channel) :
    (∃ notice request, c.resume.2.ring = { c.ring with dataReady := notice, request }) ∨
      ∃ payload, c.resume.2.ring = (c.ring.push payload).2 := by
  rcases c.resume_cases with ⟨hresume, -⟩ | ⟨notice, hresume, -⟩ | ⟨payload, -, -, hresume, -⟩ |
    ⟨-, hresume, -⟩
  · rw [hresume]
    exact .inl ⟨c.ring.dataReady, c.ring.request, rfl⟩
  · rw [hresume]
    exact .inl ⟨notice, none, rfl⟩
  · rw [hresume, settle_ring]
    exact .inr ⟨payload, rfl⟩
  · rw [hresume]
    exact .inl ⟨c.ring.dataReady, c.ring.request, rfl⟩

/-- A push that waits goes on waiting, is turned away, or is tried again. -/
theorem resume_push_cases {payload : Bytes} (hwaiting : c.waiting = some (.push payload)) :
    (∃ q, c.ring.request = some q ∧ c.resume = (some (.ok .parked), c)) ∨
    (∃ q notice, c.ring.request = some q ∧ c.resume =
      (some (.error Cause.consumerClosed.fault),
        ⟨{ c.ring with dataReady := notice, request := none }, none⟩)) ∨
    (c.ring.request = none ∧ c.resume =
      (some (c.ring.push payload).1, (settle (.push payload) (c.ring.push payload)).2)) := by
  cases hrequest : c.ring.request with
  | some q =>
    by_cases hopen : c.ring.consumerOpen = true
    · refine .inl ⟨q, rfl, ?_⟩
      simp only [resume, hwaiting, hrequest, hopen, if_true]
    · refine .inr (.inl ⟨q, c.ring.dataReady.post, rfl, ?_⟩)
      simp only [resume, hwaiting, hrequest, askForRoom, if_neg hopen]
  | none =>
    refine .inr (.inr ⟨rfl, ?_⟩)
    simp only [resume, hwaiting, hrequest, retry, settle_fst]

theorem waiting_of_resume {payload : Bytes} (hwaiting : c.waiting = some (.push payload))
    (hparked : c.resume.1 = some (.ok .parked)) :
    c.resume.2.waiting = some (.push payload) := by
  rcases resume_push_cases hwaiting with ⟨q, -, hcase⟩ | ⟨q, notice, -, hcase⟩ | ⟨-, hcase⟩
  · rw [hcase]
    exact hwaiting
  · rw [hcase] at hparked
    cases hparked
  · rw [hcase] at hparked ⊢
    exact waiting_of_parked (Option.some.inj hparked)

end Channel

end Ring
end WriteBehind
