import WriteBehind.Proofs.Ring.Traffic

/-!
# Trace — the stores of every use of a ring, in program order

The operations of a ring give the image they leave behind.  Here the single stores on the way to it
are listed, so that a run can be looked at after any number of them.

* `pushStores`, `resizeStores`, `serveStores`, `frontStores` and `popStores` belong to one operation;
* `Bench.stores b u` are the stores of a use;
* `Bench.image_use`: the bytes after a use are the bytes before it with these stores carried out.
-/

namespace WriteBehind

namespace Ring

/-! ## The stores of an operation -/

/-- The stores of a push: none if it is refused or has to wait for room.  It ends in front of the store of
the write counter if no word holds that. -/
def pushStores (r : Ring) (payload : Bytes) : List Store :=
  match plan r.write r.read r.capacity r.limit payload.length with
  | .error _ => []
  | .ok p =>
    if p.fits then
      match checkWord (p.nextWrite r.write) with
      | .error _ => placeStores p payload
      | .ok () => publishStores p r.write payload
    else []

/-- The stores of a resize.  If the storage cannot grow, the mark is set and cleared again. -/
def resizeStores (r : Ring) (target : Nat) : List Store :=
  let goal := nextPowerOfTwo (max target r.capacity)
  match r.stage goal with
  | .error _ => []
  | .ok staged =>
    match if goal > r.capacity then r.backing.growth goal else .ok [] with
    | .error _ => [setMark, clearMark]
    | .ok growth => setMark :: growth ++ relayStores staged

/-- The stores of serving a request: none if it is put off. -/
def serveStores (r : Ring) (q : Request) : List Store :=
  if r.pendingFits q then [] else r.resizeStores (max q.target (growTarget r.capacity 0))

/-- The store of looking at the oldest record: padding in front of it is passed for good. -/
def frontStores (r : Ring) : List Store :=
  if r.read < r.write then
    match r.view.classify r.read r.write with
    | .ok (.padding n) => readStores (r.read + n)
    | _ => []
  else []

/-- The stores of a pop: a request is served first. -/
def popStores (r : Ring) : List Store :=
  match r.request with
  | none => r.frontStores
  | some q =>
    match r.serve q with
    | (.error _, _) => r.serveStores q
    | (.ok (), served) => r.serveStores q ++ served.frontStores

/-! ## The bytes afterwards -/

theorem image_moveRead (r : Ring) (n : Nat) :
    (r.moveRead n).image = r.image.applyAll (readStores n) := by
  rw [moveRead_eq]
  rfl

theorem image_askForRoom (r : Ring) (q : Request) : (r.askForRoom q).2.image = r.image := by
  rcases r.askForRoom_cases q with ⟨notice, hask⟩ | ⟨notice, fault, hask⟩
  · rw [hask]
  · rw [hask]

theorem image_askToGrow (r : Ring) (capacity pending : Nat) :
    (r.askToGrow capacity pending).2.image = r.image := by
  rcases r.askToGrow_cases capacity pending with hask | ⟨-, hask⟩ <;> rw [hask]
  exact image_askForRoom r _

theorem image_push (r : Ring) (payload : Bytes) :
    (r.push payload).2.image = r.image.applyAll (r.pushStores payload) := by
  simp only [push, pushStores]
  cases plan r.write r.read r.capacity r.limit payload.length with
  | error cause => rfl
  | ok p =>
    dsimp only
    by_cases hfits : p.fits = true
    · rw [if_pos hfits, if_pos hfits]
      cases checkWord (p.nextWrite r.write) <;> rfl
    · rw [if_neg hfits, if_neg hfits]
      exact image_askToGrow r _ _

theorem image_grow (r : Ring) (capacity : Nat) : (r.grow capacity).2.image = r.image := by
  rw [grow]
  split
  · rfl
  · exact image_askToGrow r _ _

theorem image_resize (r : Ring) (target : Nat) :
    (r.resize target).2.image = r.image.applyAll (r.resizeStores target) := by
  simp only [resize, resizeStores]
  generalize nextPowerOfTwo (max target r.capacity) = goal
  cases r.stage goal with
  | error cause => rfl
  | ok staged =>
    -- Where the storage cannot grow, the mark is all that was stored.
    cases (if goal > r.capacity then r.backing.growth goal else .ok []) <;> rfl

/-- Taking the request away stores nothing. -/
theorem image_answered (outcome : Except Fault Unit × Ring) :
    (answered outcome).2.image = outcome.2.image := by
  rcases answered_cases outcome with ⟨path, r, rfl, hanswered⟩ | hanswered <;> rw [hanswered]

theorem image_serve (r : Ring) (q : Request) :
    (r.serve q).2.image = r.image.applyAll (r.serveStores q) := by
  simp only [serve, serveStores]
  split
  · rfl
  · rw [image_answered]
    exact image_resize r _

theorem image_front (r : Ring) : r.front.2.image = r.image.applyAll r.frontStores := by
  simp only [front, frontStores]
  by_cases hahead : r.read > r.write
  · rw [if_pos hahead, if_neg (by omega)]
    rfl
  · by_cases heq : r.read = r.write
    · rw [if_neg hahead, if_pos heq, if_neg (by omega)]
      rfl
    · rw [if_neg hahead, if_neg heq, if_pos (by omega)]
      cases r.view.classify r.read r.write with
      | error cause => rfl
      | ok piece =>
        cases piece with
        | frame n => rfl
        | padding n =>
          -- Whatever stands behind the padding, nothing else is stored.
          dsimp only
          rw [← image_moveRead]
          generalize r.moveRead (r.read + n) = moved
          repeat' split
          all_goals rfl

theorem image_pop (r : Ring) : r.pop.2.image = r.image.applyAll r.popStores := by
  simp only [pop, popStores]
  cases r.request with
  | none => exact image_front r
  | some q =>
    have hserved := image_serve r q
    dsimp only
    rcases hserve : r.serve q with ⟨_ | _, served⟩
    · rw [hserve] at hserved
      exact hserved
    · rw [hserve] at hserved
      rw [Image.applyAll_append, ← hserved]
      exact image_front served

/-! ## Uses -/

namespace Bench

/-- The stores of a use, in program order. -/
def stores (b : Bench) : Use → List Store
  | .call (.push payload) => b.ring.pushStores payload
  | .call (.grow _) => []
  | .resume =>
    match b.channel.waiting, b.ring.request with
    | some (.push payload), none => b.ring.pushStores payload
    | _, _ => []
  | .pop => b.ring.popStores
  | .drop =>
    match b.held with
    | some l => readStores l.next
    | none => []
  | .unread => []
  | .serve =>
    match b.ring.request with
    | some q => b.ring.serveStores q
    | none => []

theorem stores_resume_of_pending {b : Bench} {q : Request} (hq : b.ring.request = some q) :
    b.stores .resume = [] := by
  simp only [stores, hq]
  split
  · rename_i hnone
    cases hnone
  · rfl

theorem stores_resume_of_served {b : Bench} {payload : Bytes}
    (hwaiting : b.channel.waiting = some (.push payload)) (hnone : b.ring.request = none) :
    b.stores .resume = b.ring.pushStores payload := by
  simp only [stores, hwaiting, hnone]

theorem image_resume (b : Bench) :
    b.channel.resume.2.ring.image = b.ring.image.applyAll (b.stores .resume) := by
  simp only [stores, Channel.resume]
  cases b.channel.waiting with
  | none => rfl
  | some call =>
    cases hrequest : b.ring.request with
    | some q =>
      have hwaits : b.channel.ring.request = some q := hrequest
      simp only [hwaits]
      split
      · cases call <;> rfl
      · cases call <;> exact image_askForRoom b.ring q
    | none =>
      have hserved : b.channel.ring.request = none := hrequest
      simp only [hserved, Channel.settle_ring]
      cases call with
      | push payload => exact image_push b.ring payload
      | grow capacity => rfl

theorem image_use {b b' : Bench} {u : Use} (h : b.use? u = some b') :
    b'.ring.image = b.ring.image.applyAll (b.stores u) := by
  cases uses_of_use? h with
  | @call call _ =>
    show (b.channel.submit call).2.ring.image = _
    rw [Channel.submit, Channel.settle_ring]
    cases call with
    | push payload => exact image_push b.ring payload
    | grow capacity => exact image_grow b.ring capacity
  | resume => exact b.image_resume
  | pop | popFails => exact b.ring.image_pop
  | @drop l hheld =>
    simp only [stores, hheld]
    exact image_moveRead b.ring l.next
  | unread => rfl
  | @serve q _ hq =>
    simp only [stores, hq]
    exact image_serve b.ring q

end Bench

end Ring
end WriteBehind
