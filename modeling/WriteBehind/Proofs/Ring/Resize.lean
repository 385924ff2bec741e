import WriteBehind.Proofs.Ring.Calls

/-!
# Resize — moving the unread frames into a larger ring

A resize lays the unread frames out without gaps from offset zero on.  It changes the counters and
the sizes, and keeps the list of records.

* `resize_cases` and `serve_cases` say how a resize ends and what becomes of the request;
* `Sound.relaid` and `Sound.serve_outcome` follow the list, also where the storage cannot grow;
* `Sound.pop` serves a request first and then finds the head of the list.
-/

namespace WriteBehind
namespace Ring

/-- The growth that a request leads to, unless it is put off, keeps the capacity within `2 ^ 62`. -/
def WithinReach (r : Ring) : Prop :=
  ∀ q, r.request = some q → r.pendingFits q = false → q.target ≤ 2 ^ 62

/-! ## Storage -/

theorem size_growth {b : Backing} {capacity : Nat} {growth : List Store} (img : Image)
    (h : b.growth capacity = .ok growth) :
    (img.applyAll (setMark :: growth)).size = Header.size + capacity := by
  cases b with
  | heap =>
    cases h
    rfl
  | file path =>
    simp only [Backing.growth] at h
    split at h
    · cases h
    · cases h
      rfl

/-- Up to `2 ^ 62` ring bytes every file can be lengthened. -/
theorem growth_eq_ok (b : Backing) {capacity : Nat} (h : capacity ≤ 2 ^ 62) :
    ∃ growth, b.growth capacity = .ok growth := by
  cases b with
  | heap => exact ⟨_, rfl⟩
  | file path =>
    have hlength : ¬ Header.size + capacity > maxFileLength := by
      rw [Header.size, maxFileLength]
      omega
    exact ⟨_, if_neg hlength⟩

/-- A power of two is the number of ring bytes of a file up to `2 ^ 62`. -/
theorem IsPowerOfTwo.le_of_fileLength {capacity : Nat} (hcap : IsPowerOfTwo capacity)
    (hlength : Header.size + capacity ≤ maxFileLength) : capacity ≤ 2 ^ 62 := by
  refine Nat.le_of_not_lt ?_
  intro hlarge
  have hdouble := (isPowerOfTwo_two_pow 62).two_mul_le hcap hlarge
  rw [Header.size, maxFileLength] at hlength
  omega

theorem growth_file {path : String} {capacity : Nat} {growth : List Store}
    (h : (Backing.file path).growth capacity = .ok growth) :
    growth = [.length (Header.size + capacity)] ∧ Header.size + capacity ≤ maxFileLength := by
  simp only [Backing.growth] at h
  split at h
  · cases h
  · cases h
    exact ⟨rfl, by omega⟩

/-- The capacities that the checks let through are words. -/
theorem lt_of_checkCapacity {b : Backing} {capacity : Nat} (h : b.checkCapacity capacity = .ok ()) :
    capacity < 2 ^ 64 := by
  cases b with
  | heap =>
    simp only [Backing.checkCapacity] at h
    split at h
    · cases h
    · rename_i hlength
      rw [Header.size, maxRegionLength] at hlength
      omega
  | file path => exact checkWord_eq_ok.1 h

theorem checkCapacity_of_le (b : Backing) {capacity : Nat} (h : capacity ≤ 2 ^ 62) :
    b.checkCapacity capacity = .ok () := by
  cases b with
  | heap =>
    have hlength : ¬ Header.size + capacity > maxRegionLength := by
      rw [Header.size, maxRegionLength]
      omega
    exact if_neg hlength
  | file path => exact checkWord_of_lt (by omega)

/-- What fails a check of the capacity is a number that no word holds. -/
theorem checkCapacity_cases (b : Backing) (capacity : Nat) :
    b.checkCapacity capacity = .ok () ∨ b.checkCapacity capacity = .error .overflow := by
  cases b with
  | heap =>
    simp only [Backing.checkCapacity]
    split
    · exact .inr rfl
    · exact .inl rfl
  | file path =>
    simp only [Backing.checkCapacity, checkWord]
    split
    · exact .inl rfl
    · exact .inr rfl

/-- No storage grows to more than `2 ^ 62` ring bytes. -/
theorem IsPowerOfTwo.le_of_growth {b : Backing} {capacity : Nat} {growth : List Store}
    (hcap : IsPowerOfTwo capacity) (hcheck : b.checkCapacity capacity = .ok ())
    (hgrowth : b.growth capacity = .ok growth) : capacity ≤ 2 ^ 62 := by
  cases b with
  | heap =>
    simp only [Backing.checkCapacity] at hcheck
    split at hcheck
    · cases hcheck
    · rename_i hlength
      exact hcap.le_of_fileLength (Nat.not_lt.1 hlength)
  | file path => exact hcap.le_of_fileLength (growth_file hgrowth).2

/-! ## How a resize ends -/

theorem stage_eq_ok {r : Ring} {goal : Nat} {staged : Bytes} :
    r.stage goal = .ok staged ↔ r.linearize = .ok staged ∧ staged.length ≤ r.capacity ∧
      staged.length ≤ r.write - r.read ∧ r.backing.checkCapacity goal = .ok () := by
  rw [stage]
  cases r.linearize with
  | error cause => simp
  | ok staged' =>
    dsimp only
    constructor
    · intro h
      split at h
      · cases h
      · rename_i hsmall
        rcases checkCapacity_cases r.backing goal with hcheck | hcheck <;> rw [hcheck] at h
        · cases h
          exact ⟨rfl, Nat.not_lt.1 fun hlt => hsmall (.inl hlt),
            Nat.not_lt.1 fun hlt => hsmall (.inr hlt), hcheck⟩
        · cases h
    · rintro ⟨hstaged, hcapacity, hunread, hcheck⟩
      cases hstaged
      rw [if_neg (by omega), hcheck]
      rfl

/-- A resize ends before it stores anything, or is called off since the storage cannot grow, or is carried
out. -/
theorem resize_cases (r : Ring) (target : Nat) :
    (∃ cause, r.stage (nextPowerOfTwo (max target r.capacity)) = .error cause ∧
      r.resize target = (.error cause.fault, r)) ∨
    (∃ staged e, r.stage (nextPowerOfTwo (max target r.capacity)) = .ok staged ∧
      r.capacity < nextPowerOfTwo (max target r.capacity) ∧
      r.backing.growth (nextPowerOfTwo (max target r.capacity)) = .error e ∧
      r.resize target = (.error ⟨.system e, r.backing.path?⟩, r.store [setMark, clearMark])) ∨
    (∃ staged growth, r.stage (nextPowerOfTwo (max target r.capacity)) = .ok staged ∧
      r.capacity < nextPowerOfTwo (max target r.capacity) ∧
      r.backing.growth (nextPowerOfTwo (max target r.capacity)) = .ok growth ∧
      r.resize target = (.ok (), r.relaid growth (nextPowerOfTwo (max target r.capacity)) staged)) ∨
    (∃ staged, r.stage (nextPowerOfTwo (max target r.capacity)) = .ok staged ∧
      nextPowerOfTwo (max target r.capacity) = r.capacity ∧
      r.resize target = (.ok (), r.relaid [] r.capacity staged)) := by
  -- What is asked for is never less than the ring has, so it has just that or is to have more.
  have hround := le_nextPowerOfTwo (max target r.capacity)
  simp only [resize]
  generalize nextPowerOfTwo (max target r.capacity) = goal at hround ⊢
  cases r.stage goal with
  | error cause => exact .inl ⟨cause, rfl, rfl⟩
  | ok staged =>
    by_cases hlarger : goal > r.capacity
    · simp only [if_pos hlarger]
      cases r.backing.growth goal with
      | error e => exact .inr (.inl ⟨staged, e, rfl, hlarger, rfl, rfl⟩)
      | ok growth => exact .inr (.inr (.inl ⟨staged, growth, rfl, hlarger, rfl, rfl⟩))
    · simp only [if_neg hlarger]
      exact .inr (.inr (.inr ⟨staged, rfl, by omega, rfl⟩))

/-- A ring that is to have more room, a power of two, has just that once the resize goes through. -/
theorem resize_of_larger {r r' : Ring} {target : Nat} (htarget : IsPowerOfTwo target)
    (hlarger : r.capacity < target) (hresize : r.resize target = (.ok (), r')) :
    ∃ growth staged, r.backing.growth target = .ok growth ∧ r' = r.relaid growth target staged := by
  have hgoal : nextPowerOfTwo (max target r.capacity) = target := by
    rw [Nat.max_eq_left (Nat.le_of_lt hlarger)]
    exact nextPowerOfTwo_of_isPowerOfTwo htarget
  have hcases := r.resize_cases target
  rw [hgoal, hresize] at hcases
  rcases hcases with ⟨_, -, ⟨⟩⟩ | ⟨_, _, -, -, -, ⟨⟩⟩ | ⟨staged, growth, -, -, hgrowth, hdone⟩ |
    ⟨_, -, hsame, -⟩
  · exact ⟨growth, staged, hgrowth, congrArg Prod.snd hdone⟩
  · omega

/-- The stores that take a ring to a capacity: a growth to more room than it has, or none. -/
inductive Grows (r : Ring) : List Store → Nat → Prop
  | larger {growth : List Store} {capacity : Nat} (hcap : IsPowerOfTwo capacity)
      (hlarger : r.capacity < capacity) (hle : capacity ≤ 2 ^ 62)
      (hgrowth : r.backing.growth capacity = .ok growth) : Grows r growth capacity
  | same : Grows r [] r.capacity

namespace Grows

variable {r : Ring} {growth : List Store} {capacity : Nat}

theorem powerOfTwo (h : r.Grows growth capacity) (hpow : IsPowerOfTwo r.capacity) :
    IsPowerOfTwo capacity := by
  cases h with
  | larger hcap _ _ _ => exact hcap
  | same => exact hpow

theorem capacity_le (h : r.Grows growth capacity) : r.capacity ≤ capacity := by
  cases h with
  | larger _ hlarger _ _ => exact Nat.le_of_lt hlarger
  | same => exact Nat.le_refl _

/-- Storage that grows is as long as the new ring, and other storage as long as it was. -/
theorem size_cases (h : r.Grows growth capacity) :
    (r.image.applyAll (setMark :: growth)).size = Header.size + capacity ∨
    capacity = r.capacity ∧ (r.image.applyAll (setMark :: growth)).size = r.image.size := by
  cases h with
  | larger _ _ _ hgrowth => exact .inl (size_growth r.image hgrowth)
  | same => exact .inr ⟨rfl, Image.size_write _ _ _⟩

end Grows

/-- A resize ends before it stores anything, or is called off since the storage cannot grow, or lays what
was staged out anew. -/
theorem resize_relays (r : Ring) (target : Nat) :
    (∃ fault, r.resize target = (.error fault, r)) ∨
    (∃ fault, r.resize target = (.error fault, r.store [setMark, clearMark])) ∨
    ∃ growth capacity staged, r.resize target = (.ok (), r.relaid growth capacity staged) ∧
      r.Grows growth capacity ∧ r.linearize = .ok staged ∧ staged.length ≤ r.capacity ∧
      staged.length ≤ r.write - r.read := by
  have hcap := isPowerOfTwo_nextPowerOfTwo (max target r.capacity)
  rcases r.resize_cases target with ⟨cause, -, hresize⟩ | ⟨staged, e, -, -, -, hresize⟩ |
    ⟨staged, growth, hstage, hlarger, hgrowth, hresize⟩ | ⟨staged, hstage, -, hresize⟩
  · exact .inl ⟨_, hresize⟩
  · exact .inr (.inl ⟨_, hresize⟩)
  · rcases stage_eq_ok.1 hstage with ⟨hstaged, hroom, hunread, hcheck⟩
    exact .inr (.inr ⟨growth, _, staged, hresize,
      .larger hcap hlarger (hcap.le_of_growth hcheck hgrowth) hgrowth, hstaged, hroom, hunread⟩)
  · rcases stage_eq_ok.1 hstage with ⟨hstaged, hroom, hunread, -⟩
    exact .inr (.inr ⟨[], r.capacity, staged, hresize, .same, hstaged, hroom, hunread⟩)

/-- What is asked for is rounded up, and more than the ring has. -/
theorem goal_of_double {capacity target : Nat} (hpos : 0 < capacity) (hdouble : 2 * capacity ≤ target) :
    max target capacity = target ∧ capacity < nextPowerOfTwo target := by
  have hle := le_nextPowerOfTwo target
  omega

theorem image_relaid (r : Ring) (growth : List Store) (capacity : Nat) (staged : Bytes) :
    (r.relaid growth capacity staged).image =
      (r.image.applyAll (setMark :: growth)).applyAll (relayStores staged) := by
  simp only [relaid, store, Image.applyAll, List.foldl_append]

/-- Frames laid out from offset zero on are a layout, if they leave room for one more. -/
theorem layout_relaid (r : Ring) {growth : List Store} {capacity : Nat} {payloads : List Bytes}
    (hgrowth : r.backing.growth capacity = .ok growth) (hcap : IsPowerOfTwo capacity)
    (hmem : ∀ payload ∈ payloads, 0 < payload.length ∧ payload.length < r.limit)
    (hroom : (payloads.flatMap View.encodeFrame).length + frameReserve r.limit ≤ capacity) :
    (r.relaid growth capacity (payloads.flatMap View.encodeFrame)).view.Layout 0
      (payloads.flatMap View.encodeFrame).length payloads := by
  have hsize := size_growth r.image hgrowth
  have hlayout : (r.relaid growth capacity (payloads.flatMap View.encodeFrame)).view.Layout 0
      (0 + (payloads.flatMap View.encodeFrame).length) payloads := by
    refine View.Layout.of_contiguous hcap payloads hmem ?_ ?_
    · show 0 + (payloads.flatMap View.encodeFrame).length + frameReserve r.limit ≤ capacity
      omega
    · rw [slice_view, image_relaid]
      exact slice_relay _ _ (by omega)
  rwa [Nat.zero_add] at hlayout

/-! ## What serving a request does not touch -/

theorem resize_keeps (r : Ring) (target : Nat) :
    (r.resize target).2.limit = r.limit ∧ (r.resize target).2.backing = r.backing ∧
      (r.resize target).2.request = r.request := by
  rcases r.resize_cases target with ⟨cause, -, hresize⟩ | ⟨staged, e, -, -, -, hresize⟩ |
    ⟨staged, growth, -, -, -, hresize⟩ | ⟨staged, -, -, hresize⟩ <;> rw [hresize] <;>
    simp only [Ring.relaid, store, and_self]

theorem consumerOpen_resize (r : Ring) (target : Nat) :
    (r.resize target).2.consumerOpen = r.consumerOpen := by
  rcases r.resize_cases target with ⟨cause, -, hresize⟩ | ⟨staged, e, -, -, -, hresize⟩ |
    ⟨staged, growth, -, -, -, hresize⟩ | ⟨staged, -, -, hresize⟩ <;> rw [hresize] <;>
    simp only [Ring.relaid, store]

/-- A resize that ends the thread has not begun. -/
theorem resize_of_overflow {r r' : Ring} {target : Nat} {path : Option String}
    (h : r.resize target = (.error ⟨.overflow, path⟩, r')) : path = none ∧ r' = r := by
  rcases r.resize_cases target with ⟨cause, -, hresize⟩ | ⟨staged, e, -, -, -, hresize⟩ |
    ⟨staged, growth, -, -, -, hresize⟩ | ⟨staged, -, -, hresize⟩ <;> rw [hresize] at h <;> cases h
  exact ⟨rfl, rfl⟩

theorem answered_cases (outcome : Except Fault Unit × Ring) :
    (∃ path r, outcome = (.error ⟨.overflow, path⟩, r) ∧ answered outcome = outcome) ∨
    answered outcome = (outcome.1, { outcome.2 with request := none }) := by
  rcases outcome with ⟨⟨cause, path⟩ | _, r⟩
  · by_cases hoverflow : cause = .overflow
    · subst hoverflow
      exact .inl ⟨path, r, rfl, rfl⟩
    · refine .inr ?_
      rw [answered]
      intro path' he
      cases he
      exact hoverflow rfl
  · exact .inr rfl

theorem answered_fst (outcome : Except Fault Unit × Ring) : (answered outcome).1 = outcome.1 := by
  rcases answered_cases outcome with ⟨path, r, -, hsame⟩ | hanswered
  · rw [hsame]
  · rw [hanswered]

theorem answered_of_ne {r : Ring} {fault : Fault} (h : fault.cause ≠ .overflow) :
    answered (.error fault, r) = (.error fault, { r with request := none }) := by
  rcases answered_cases (.error fault, r) with ⟨path, r', hsame, -⟩ | hanswered
  · cases hsame
    exact absurd rfl h
  · exact hanswered

/-- A request that is served is gone, whatever has come of it; or the thread has ended over it, and the
ring is as it was. -/
theorem serve_cases (r : Ring) (q : Request) :
    (r.pendingFits q = true ∧ r.serve q = (.ok (), { r with request := none })) ∨
    (r.pendingFits q = false ∧
      r.resize (max q.target (growTarget r.capacity 0)) = (.error Cause.overflow.fault, r) ∧
      r.serve q = (.error Cause.overflow.fault, r)) ∨
    (r.pendingFits q = false ∧
      r.serve q = ((r.resize (max q.target (growTarget r.capacity 0))).1,
        { (r.resize (max q.target (growTarget r.capacity 0))).2 with request := none })) := by
  cases hfits : r.pendingFits q with
  | true => exact .inl ⟨rfl, by simp only [serve, hfits, if_true]⟩
  | false =>
    have hserve : r.serve q = answered (r.resize (max q.target (growTarget r.capacity 0))) := by
      simp only [serve, hfits, Bool.false_eq_true, if_false]
    rcases answered_cases (r.resize (max q.target (growTarget r.capacity 0))) with
      ⟨path, r', hresize, hanswered⟩ | hanswered
    · rcases resize_of_overflow hresize with ⟨rfl, rfl⟩
      exact .inr (.inl ⟨rfl, hresize, hserve.trans (hanswered.trans hresize)⟩)
    · exact .inr (.inr ⟨rfl, hserve.trans hanswered⟩)

/-- A thread that ends over a request has not begun to serve it. -/
theorem serve_of_overflow {r : Ring} {q : Request}
    (h : (r.serve q).1 = .error Cause.overflow.fault) : r.serve q = (.error Cause.overflow.fault, r) := by
  rw [serve] at h ⊢
  split at h
  · cases h
  · rename_i hfits
    rw [if_neg hfits]
    -- What has come of the resize is passed on as it is.
    rw [answered_fst] at h
    rcases hresize : r.resize (max q.target (growTarget r.capacity 0)) with ⟨result, r'⟩
    rw [hresize] at h
    cases h
    rcases resize_of_overflow hresize with ⟨-, rfl⟩
    rfl

/-- A request that was made well is put off, or the ring is resized to what it asks for. -/
theorem WellAsked.serve_cases {r : Ring} {q : Request} (hasked : r.WellAsked) (hq : r.request = some q) :
    r.pendingFits q = true ∧ r.serve q = (.ok (), { r with request := none }) ∨
    r.pendingFits q = false ∧ r.serve q = answered (r.resize q.target) := by
  rcases hasked q hq with ⟨hcap, hdouble, -⟩
  -- What was asked for is at least what the ring would ask for now.
  have hgrow : growTarget r.capacity 0 ≤ q.target := growTarget_le hcap hdouble (by omega)
  have hmax : max q.target (growTarget r.capacity 0) = q.target := by omega
  cases hfits : r.pendingFits q with
  | true => exact .inl ⟨rfl, by simp only [serve, hfits, if_true]⟩
  | false => exact .inr ⟨rfl, by simp only [serve, hfits, hmax, Bool.false_eq_true, if_false]⟩

theorem serve_keeps (r : Ring) (q : Request) :
    (r.serve q).2.limit = r.limit ∧ (r.serve q).2.backing = r.backing ∧
      (r.serve q).2.consumerOpen = r.consumerOpen := by
  rcases r.resize_keeps (max q.target (growTarget r.capacity 0)) with ⟨hlimit, hbacking, -⟩
  rcases r.serve_cases q with ⟨-, hserve⟩ | ⟨-, -, hserve⟩ | ⟨-, hserve⟩ <;> rw [hserve]
  · exact ⟨rfl, rfl, rfl⟩
  · exact ⟨rfl, rfl, rfl⟩
  · exact ⟨hlimit, hbacking, r.consumerOpen_resize _⟩

/-- The request is gone, or the thread has ended over it. -/
theorem request_serve (r : Ring) (q : Request) :
    (r.serve q).2.request = none ∨ r.serve q = (.error Cause.overflow.fault, r) := by
  rcases r.serve_cases q with ⟨-, hserve⟩ | ⟨-, -, hserve⟩ | ⟨-, hserve⟩
  · exact .inl (by rw [hserve])
  · exact .inr hserve
  · exact .inl (by rw [hserve])

/-! ## Sizes under popping -/

/-- A look at the front moves the read counter, if it changes anything. -/
theorem front_moves (r : Ring) : r.front.2 = r ∨ ∃ n, r.front.2 = r.moveRead n := by
  simp only [Ring.front]
  -- Images are not to be compared, so only equal terms count as equal.
  repeat' split
  all_goals first
    | exact .inl (by with_reducible rfl)
    | exact .inr ⟨_, by with_reducible rfl⟩

theorem capacity_front (r : Ring) : r.front.2.capacity = r.capacity := by
  rcases r.front_moves with hfront | ⟨n, hfront⟩ <;> rw [hfront]
  exact capacity_moveRead r n

theorem front_keeps (r : Ring) : r.front.2.limit = r.limit ∧ r.front.2.request = r.request := by
  rcases r.front_moves with hfront | ⟨n, hfront⟩ <;> rw [hfront]
  · exact ⟨rfl, rfl⟩
  · exact ⟨limit_moveRead r n, request_moveRead r n⟩

theorem consumerOpen_front (r : Ring) : r.front.2.consumerOpen = r.consumerOpen := by
  rcases r.front_moves with hfront | ⟨n, hfront⟩ <;> rw [hfront]
  exact consumerOpen_moveRead r n

/-- A pop is a look at the front of the ring once its request was served, or passes on what that failed
with. -/
theorem pop_cases (r : Ring) :
    (r.request = none ∧ r.pop = r.front) ∨
    (∃ q fault r', r.request = some q ∧ r.serve q = (.error fault, r') ∧ r.pop = (.error fault, r')) ∨
    (∃ q r', r.request = some q ∧ r.serve q = (.ok (), r') ∧ r.pop = r'.front) := by
  cases hrequest : r.request with
  | none =>
    refine .inl ⟨rfl, ?_⟩
    simp only [pop, hrequest]
  | some q =>
    rcases hserve : r.serve q with ⟨fault | _, r'⟩
    · refine .inr (.inl ⟨q, fault, r', rfl, hserve, ?_⟩)
      simp only [pop, hrequest, hserve]
    · refine .inr (.inr ⟨q, r', rfl, hserve, ?_⟩)
      simp only [pop, hrequest, hserve]

/-- A pop leaves the limit and the consumer's end. -/
theorem pop_keeps (r : Ring) :
    r.pop.2.limit = r.limit ∧ r.pop.2.consumerOpen = r.consumerOpen := by
  rcases r.pop_cases with ⟨-, hpop⟩ | ⟨q, fault, r', -, hserve, hpop⟩ | ⟨q, r', -, hserve, hpop⟩ <;>
    rw [hpop]
  · exact ⟨r.front_keeps.1, r.consumerOpen_front⟩
  · have hkeeps := r.serve_keeps q
    rw [hserve] at hkeeps
    exact ⟨hkeeps.1, hkeeps.2.2⟩
  · have hkeeps := r.serve_keeps q
    rw [hserve] at hkeeps
    exact ⟨r'.front_keeps.1.trans hkeeps.1, r'.consumerOpen_front.trans hkeeps.2.2⟩

/-- A pop leaves no request, unless the thread ends over it. -/
theorem request_pop (r : Ring) :
    r.pop.2.request = none ∨ r.pop = (.error Cause.overflow.fault, r) := by
  rcases r.pop_cases with ⟨hnone, hpop⟩ | ⟨q, fault, r', -, hserve, hpop⟩ | ⟨q, r', -, hserve, hpop⟩ <;>
    rw [hpop]
  · exact .inl (r.front_keeps.2.trans hnone)
  · rcases r.request_serve q with hnone | hover
    · rw [hserve] at hnone
      exact .inl hnone
    · rw [hserve] at hover
      cases hover
      exact .inr rfl
  · rcases r.request_serve q with hnone | hover
    · rw [hserve] at hnone
      exact .inl (r'.front_keeps.2.trans hnone)
    · rw [hserve] at hover
      cases hover

/-- A pop leaves no request that was dealt with. -/
theorem request_pop_of_serve {r : Ring} {q : Request} (hq : r.request = some q)
    (hword : (r.serve q).1 ≠ .error Cause.overflow.fault) : r.pop.2.request = none := by
  rcases r.request_pop with hnone | hended
  · exact hnone
  · rcases r.pop_cases with ⟨hnone, -⟩ | ⟨q', fault, r', hq', hserve, hpop⟩ | ⟨q', r', hq', hserve, hpop⟩
    · cases hq.symm.trans hnone
    · cases hq.symm.trans hq'
      cases hended.symm.trans hpop
      rw [hserve] at hword
      exact absurd rfl hword
    · cases hq.symm.trans hq'
      -- Behind a request that was served the search leaves none.
      rcases r.request_serve q with hnone | hover
      · rw [hserve] at hnone
        rw [hpop]
        exact r'.front_keeps.2.trans hnone
      · rw [hover] at hword
        exact absurd rfl hword

/-- Only serving a request changes the capacity. -/
theorem capacity_pop {r : Ring} {q : Request} (hq : r.request = some q) :
    r.pop.2.capacity = (r.serve q).2.capacity := by
  simp only [pop, hq]
  rcases r.serve q with ⟨_ | _, r'⟩
  · rfl
  · exact capacity_front r'

namespace Sound

variable {r : Ring} {records : List Bytes}

/-! ## Resizing -/

theorem length_staged_le (h : Sound r records) :
    (records.flatMap View.encodeFrame).length ≤ r.write - r.read ∧
      (records.flatMap View.encodeFrame).length ≤ r.capacity := by
  have hlength : (records.flatMap View.encodeFrame).length ≤ r.write - r.read :=
    h.layout.length_flatMap_le
  have hle := h.write_le
  refine ⟨hlength, ?_⟩
  omega

/-- A resize to twice the room at least either carries the frames over, or is called off, or ends before it
has begun. -/
theorem resize_cases (h : Sound r records) {target : Nat} (hdouble : 2 * r.capacity ≤ target) :
    (∃ growth, r.backing.growth (nextPowerOfTwo target) = .ok growth ∧
      nextPowerOfTwo target ≤ 2 ^ 62 ∧
      r.resize target = (.ok (),
        r.relaid growth (nextPowerOfTwo target) (records.flatMap View.encodeFrame))) ∨
    (∃ e, r.backing.growth (nextPowerOfTwo target) = .error e ∧
      r.resize target =
        (.error ⟨.system e, r.backing.path?⟩, r.store [setMark, clearMark])) ∨
    (r.backing.checkCapacity (nextPowerOfTwo target) = .error .overflow ∧
      r.resize target = (.error Cause.overflow.fault, r)) := by
  rcases h.length_staged_le with ⟨hunread, hcapacity⟩
  rcases goal_of_double h.powerOfTwo.pos hdouble with ⟨hmax, hlarger⟩
  have hresize := r.resize_cases target
  rw [hmax] at hresize
  rcases checkCapacity_cases r.backing (nextPowerOfTwo target) with hcheck | hcheck
  · have hstage := stage_eq_ok.2 ⟨h.linearize, hcapacity, hunread, hcheck⟩
    rw [hstage] at hresize
    rcases hresize with ⟨cause, herror, -⟩ | ⟨staged, e, -, -, hgrowth, hresize⟩ |
      ⟨staged, growth, hok, -, hgrowth, hresize⟩ | ⟨staged, -, hsame, -⟩
    · cases herror
    · exact .inr (.inl ⟨e, hgrowth, hresize⟩)
    · cases hok
      exact .inl ⟨growth, hgrowth, (isPowerOfTwo_nextPowerOfTwo target).le_of_growth hcheck hgrowth,
        hresize⟩
    · omega
  · have hstage : r.stage (nextPowerOfTwo target) = .error .overflow := by
      rw [stage, h.linearize]
      dsimp only
      rw [if_neg (by omega), hcheck]
      rfl
    rw [hstage] at hresize
    rcases hresize with ⟨cause, herror, hresize⟩ | ⟨staged, e, hok, -⟩ | ⟨staged, growth, hok, -⟩ |
      ⟨staged, hok, -⟩
    · cases herror
      exact .inr (.inr ⟨hcheck, hresize⟩)
    · cases hok
    · cases hok
    · cases hok

/-- Frames that were carried over are the same list of records. -/
theorem relaid (h : Sound r records) {growth : List Store} {capacity : Nat}
    (hgrowth : r.backing.growth capacity = .ok growth) (hcap : IsPowerOfTwo capacity)
    (hdouble : 2 * r.capacity ≤ capacity) (hle : capacity ≤ 2 ^ 62) :
    Sound (r.relaid growth capacity (records.flatMap View.encodeFrame)) records := by
  rcases h.length_staged_le with ⟨-, hlength⟩
  have hroomy := h.roomy
  have hsize := size_growth r.image hgrowth
  have hreserve : 0 < frameReserve r.limit := by
    simp only [frameReserve, prefixLength]
    omega
  refine ⟨hcap, h.limit_lt, ?_, hle, ?_, ?_, ?_, hreserve, (by decide : 0 < 2 ^ 32), ?_, ?_⟩
  · show 2 * frameReserve r.limit ≤ capacity
    omega
  · rw [image_relaid, size_relay]
    exact hsize
  · show (records.flatMap View.encodeFrame).length ≤ 0 + capacity
    omega
  · show (records.flatMap View.encodeFrame).length < 2 ^ 64
    omega
  · rw [image_relaid]
    exact describes_relay _ _ (by omega)
  · -- The frames take up half the new room at most, so the first lap has no padding.
    exact r.layout_relaid hgrowth hcap (fun _ hmem => h.layout.length_lt_of_mem hmem) (by omega)

theorem calledOff (h : Sound r records) : Sound (r.store [setMark, clearMark]) records :=
  h.restore (Nat.le_refl _) (size_callOff r.image) h.describes.callOff
    (fun _ hi => byte_callOff r.image hi) h.layout

/-- Up to `2 ^ 62` bytes the frames are carried over. -/
theorem resize_of_le (h : Sound r records) {target : Nat} (hcap : IsPowerOfTwo target)
    (hdouble : 2 * r.capacity ≤ target) (hle : target ≤ 2 ^ 62) :
    ∃ growth, r.resize target =
        (.ok (), r.relaid growth target (records.flatMap View.encodeFrame)) ∧
      Sound (r.relaid growth target (records.flatMap View.encodeFrame)) records := by
  have hgoal : nextPowerOfTwo target = target := nextPowerOfTwo_of_isPowerOfTwo hcap
  rcases h.resize_cases hdouble with ⟨growth, hgrowth, -, hresize⟩ | ⟨e, hgrowth, -⟩ | ⟨hcheck, -⟩
  · rw [hgoal] at hgrowth hresize
    exact ⟨growth, hresize, h.relaid hgrowth hcap hdouble hle⟩
  · -- The system does not refuse so small a growth.
    rcases growth_eq_ok r.backing hle with ⟨growth, hok⟩
    rw [hgoal, hok] at hgrowth
    cases hgrowth
  · rw [hgoal, checkCapacity_of_le r.backing hle] at hcheck
    cases hcheck

/-- A resize that ends in any way leaves the same list of records. -/
theorem resize_outcome (h : Sound r records) {target : Nat} (hdouble : 2 * r.capacity ≤ target) :
    (∃ r', r.resize target = (.ok (), r') ∧ Sound r' records ∧ r'.limit = r.limit) ∨
    (∃ e r', r.resize target = (.error ⟨.system e, r.backing.path?⟩, r') ∧ Sound r' records ∧
      r'.limit = r.limit) ∨
    r.resize target = (.error Cause.overflow.fault, r) := by
  have hround := le_nextPowerOfTwo target
  rcases h.resize_cases hdouble with ⟨growth, hgrowth, hle, hresize⟩ | ⟨e, -, hresize⟩ | ⟨-, hresize⟩
  · exact .inl ⟨_, hresize,
      h.relaid hgrowth (isPowerOfTwo_nextPowerOfTwo target) (by omega) hle, rfl⟩
  · exact .inr (.inl ⟨e, _, hresize, h.calledOff, by simp only [store]⟩)
  · exact .inr (.inr hresize)

/-! ## Serving a request -/

theorem serve (h : Sound r records) {q : Request} (hasked : r.WellAsked)
    (hq : r.request = some q) (hreach : r.WithinReach) :
    ∃ r', r.serve q = (.ok (), r') ∧ Sound r' records ∧ r'.request = none ∧ r'.limit = r.limit := by
  rcases hasked q hq with ⟨hcap, hdouble, -⟩
  rcases hasked.serve_cases hq with ⟨-, hserve⟩ | ⟨hfits, hserve⟩
  · exact ⟨_, hserve, h.withdraw, rfl, rfl⟩
  · rcases h.resize_of_le hcap hdouble (hreach q hq hfits) with ⟨growth, hresize, hsound⟩
    rw [hresize] at hserve
    exact ⟨_, hserve, hsound.withdraw, rfl, rfl⟩

/-- A request is served, or it cannot be since the system refuses, or the thread ends over it. -/
theorem serve_outcome (h : Sound r records) {q : Request} (hasked : r.WellAsked)
    (hq : r.request = some q) :
    (∃ r', r.serve q = (.ok (), r') ∧ Sound r' records ∧ r'.request = none ∧
      r'.limit = r.limit) ∨
    (∃ e r', r.serve q = (.error ⟨.system e, r.backing.path?⟩, r') ∧ Sound r' records ∧
      r'.request = none ∧ r'.limit = r.limit) ∨
    r.serve q = (.error Cause.overflow.fault, r) := by
  rcases hasked q hq with ⟨-, hdouble, -⟩
  rcases hasked.serve_cases hq with ⟨-, hserve⟩ | ⟨-, hserve⟩
  · exact .inl ⟨_, hserve, h.withdraw, rfl, rfl⟩
  · rcases h.resize_outcome hdouble with ⟨r', hresize, hsound, hlimit⟩ |
      ⟨e, r', hresize, hsound, hlimit⟩ | hresize <;> rw [hresize] at hserve
    · exact .inl ⟨_, hserve, hsound.withdraw, rfl, hlimit⟩
    · exact .inr (.inl ⟨e, _, hserve, hsound.withdraw, rfl, hlimit⟩)
    · exact .inr (.inr hserve)

/-! ## Popping -/

theorem front_unasked (h : Sound r records) (hnone : r.request = none) :
    ∃ record r', r.front = (.ok record, r') ∧ Finds r' record records ∧ r'.request = none ∧
      r'.limit = r.limit := by
  rcases h.front with ⟨record, r', hfront, hfinds, rfl | ⟨n, rfl⟩⟩
  · exact ⟨record, r', hfront, hfinds, hnone, rfl⟩
  · refine ⟨record, _, hfront, hfinds, ?_, limit_moveRead r n⟩
    rw [request_moveRead, hnone]

theorem pop_unasked (h : Sound r records) (hrequest : r.request = none) :
    ∃ record r', r.pop = (.ok record, r') ∧ Finds r' record records ∧ r'.request = none ∧
      r'.limit = r.limit := by
  rcases h.front_unasked hrequest with ⟨record, r', hfront, hrest⟩
  refine ⟨record, r', ?_, hrest⟩
  simp only [Ring.pop, hrequest, hfront]

/-- Once its request was served, a ring is looked at as one without a request. -/
theorem pop_of_serve {served : Ring} {q : Request} (hrequest : r.request = some q)
    (hserve : r.serve q = (.ok (), served)) (hsound : Sound served records)
    (hnone : served.request = none) (hlimit : served.limit = r.limit) :
    ∃ record r', r.pop = (.ok record, r') ∧ Finds r' record records ∧ r'.request = none ∧
      r'.limit = r.limit := by
  rcases hsound.front_unasked hnone with ⟨record, r', hfront, hfinds, hnone', hlimit'⟩
  refine ⟨record, r', ?_, hfinds, hnone', hlimit'.trans hlimit⟩
  simp only [Ring.pop, hrequest, hserve, hfront]

/-- A pop within reach finds the oldest record. -/
theorem pop (h : Sound r records) (hasked : r.WellAsked) (hreach : r.WithinReach) :
    ∃ record r', r.pop = (.ok record, r') ∧ Finds r' record records ∧ r'.request = none ∧
      r'.limit = r.limit := by
  cases hrequest : r.request with
  | none => exact h.pop_unasked hrequest
  | some q =>
    rcases h.serve hasked hrequest hreach with ⟨served, hserve, hsound, hnone, hlimit⟩
    exact pop_of_serve hrequest hserve hsound hnone hlimit

/-- A pop finds the oldest record, or the system refuses a growth, or the thread ends over it. -/
theorem pop_outcome (h : Sound r records) (hasked : r.WellAsked) :
    (∃ record r', r.pop = (.ok record, r') ∧ Finds r' record records ∧ r'.request = none ∧
      r'.limit = r.limit) ∨
    (∃ e r', r.pop = (.error ⟨.system e, r.backing.path?⟩, r') ∧ Sound r' records ∧
      r'.request = none ∧ r'.limit = r.limit) ∨
    r.pop = (.error Cause.overflow.fault, r) := by
  cases hrequest : r.request with
  | none => exact .inl (h.pop_unasked hrequest)
  | some q =>
    rcases h.serve_outcome hasked hrequest with ⟨served, hserve, hsound, hnone, hlimit⟩ |
      ⟨e, r', hserve, hrest⟩ | hserve
    · exact .inl (pop_of_serve hrequest hserve hsound hnone hlimit)
    · -- The fault is passed on before the front is looked at.
      refine .inr (.inl ⟨e, r', ?_, hrest⟩)
      simp only [Ring.pop, hrequest, hserve]
    · refine .inr (.inr ?_)
      simp only [Ring.pop, hrequest, hserve]

/-- A pop keeps the records whatever it comes to, and finds nothing corrupt. -/
theorem pop_keeps (h : Sound r records) (hasked : r.WellAsked) :
    Sound r.pop.2 records ∧ r.pop.2.WellAsked ∧
      ∀ fault, r.pop.1 = .error fault → fault.kind ≠ .corrupt := by
  rcases h.pop_outcome hasked with ⟨record, r', hpop, hfinds, hnone, -⟩ | ⟨e, r', hpop, hsound, hnone, -⟩ |
    hpop <;> rw [hpop]
  · exact ⟨hfinds.sound, .of_none hnone, fun _ hc => nomatch hc⟩
  · refine ⟨hsound, .of_none hnone, ?_⟩
    rintro _ ⟨⟩ ⟨⟩
  · refine ⟨h, hasked, ?_⟩
    rintro _ ⟨⟩ ⟨⟩

end Sound

end Ring
end WriteBehind
