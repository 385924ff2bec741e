import WriteBehind.Ring.Basic

/-!
# Storage — growing a ring where the system may refuse

Before a resize moves anything, the mark is flushed to disk, the file is lengthened, and it is mapped at its
new length.  The system may refuse each of these, and what was done before is then undone.

* `Storage` holds the answers of the system, and `Ring.makeRoom` asks for them in turn;
* `Ring.resizeOn`, `Ring.serveOn` and `Ring.popOn` are a resize, the serving of a request and a pop on
  storage with these answers;
* `Ring.popOn_willing`: where nothing is refused they are `Ring.resize`, `Ring.serve` and `Ring.pop`.
-/

namespace WriteBehind
namespace Ring

/-- How the system answers when a file is to grow. -/
structure Storage where
  /-- Writing to disk what was stored in memory. -/
  flush : Except OsError Unit := .ok ()
  /-- Giving the file a length. -/
  setLength : Nat → Except OsError Unit := fun _ => .ok ()
  /-- Mapping the file that was lengthened. -/
  map : Except OsError Unit := .ok ()

namespace Storage

/-- What a ring meets with: one in memory asks nothing of the system. -/
def behind (s : Storage) : Backing → Storage
  | .heap => {}
  | .file _ => s

/-- The store that cuts a file back to an earlier length, unless that is refused too. -/
def cutBack (s : Storage) (length : Nat) : List Store :=
  match s.setLength length with
  | .ok () => [.length length]
  | .error _ => []

end Storage

/-- A growth that was refused: why, and the stores that were made to the file until then. -/
structure Setback where
  cause : Cause
  tried : List Store := []

/-- Flushes the mark and makes room for `goal` bytes if that is more than there is.  A file that cannot be
mapped at its new length is cut back. -/
def makeRoom (r : Ring) (s : Storage) (goal : Nat) : Except Setback (List Store) :=
  match s.flush with
  | .error e => .error { cause := .system e }
  | .ok () =>
    if goal > r.capacity then
      match r.backing.growth goal, s.setLength (Header.size + goal), s.map with
      | .error e, _, _ => .error { cause := .system e }
      | .ok _, .error e, _ => .error { cause := .system e }
      | .ok growth, .ok (), .error e =>
        .error { cause := .queueNotMapped e, tried := growth ++ s.cutBack (Header.size + r.capacity) }
      | .ok growth, .ok (), .ok () => .ok growth
    else .ok []

/-- Moves the unread frames to the front of a ring of at least `target` bytes.  If that fails, the mark is
cleared again and the old layout stays; the file may stay longer than the ring, where cutting it back is
refused too. -/
def resizeOn (r : Ring) (s : Storage) (target : Nat) : Except Fault Unit × Ring :=
  let goal := nextPowerOfTwo (max target r.capacity)
  match r.stage goal with
  | .error cause => (.error cause.fault, r)
  | .ok staged =>
    match r.makeRoom (s.behind r.backing) goal with
    | .error setback =>
      (.error ⟨setback.cause, r.backing.path?⟩,
        r.store (setMark :: setback.tried ++ [clearMark]))
    | .ok growth =>
      (.ok (), r.relaid growth (if goal > r.capacity then goal else r.capacity) staged)

/-- Serves a request: does nothing if the frame that waits fits by now, and otherwise resizes. -/
def serveOn (r : Ring) (s : Storage) (request : Request) : Except Fault Unit × Ring :=
  if r.pendingFits request then (.ok (), { r with request := none })
  else answered (r.resizeOn s (max request.target (growTarget r.capacity 0)))

/-- Serves a request if there is one, and then looks at the oldest record. -/
def popOn (r : Ring) (s : Storage) : Except Fault (Option Lease) × Ring :=
  match r.request with
  | none => r.front
  | some request =>
    match r.serveOn s request with
    | (.error fault, r) => (.error fault, r)
    | (.ok (), r) => r.front

/-! ## Where nothing is refused -/

theorem makeRoom_willing (r : Ring) (goal : Nat) :
    r.makeRoom {} goal =
      (if goal > r.capacity then r.backing.growth goal else .ok []).mapError
        fun e => { cause := .system e } := by
  simp only [makeRoom]
  split
  · cases r.backing.growth goal <;> rfl
  · rfl

theorem behind_willing (b : Backing) : ({} : Storage).behind b = {} := by
  cases b <;> rfl

theorem resizeOn_willing (r : Ring) (target : Nat) : r.resizeOn {} target = r.resize target := by
  simp only [resizeOn, resize, behind_willing, makeRoom_willing]
  cases r.stage (nextPowerOfTwo (max target r.capacity)) with
  | error cause => rfl
  | ok staged =>
    dsimp only
    generalize (if nextPowerOfTwo (max target r.capacity) > r.capacity then
      r.backing.growth (nextPowerOfTwo (max target r.capacity)) else .ok []) = growth
    cases growth <;> rfl

theorem serveOn_willing (r : Ring) (request : Request) : r.serveOn {} request = r.serve request := by
  simp only [serveOn, serve, resizeOn_willing]

theorem popOn_willing (r : Ring) : r.popOn {} = r.pop := by
  rw [popOn, pop]
  cases r.request with
  | none => rfl
  | some request =>
    rcases hserve : r.serve request with ⟨fault | _, served⟩
    · simp only [serveOn_willing, hserve]
    · simp only [serveOn_willing, hserve]

end Ring
end WriteBehind
