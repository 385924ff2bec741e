/-!
# Signal — a wake-up that is not lost

A signal remembers that it was posted until somebody waits for it.  Posts do not add up.

* `Signal.post` and `Signal.wait` are the two operations.
-/

namespace WriteBehind

/-- Whether there was a post since the last wait. -/
structure Signal where
  posted : Bool := false
  deriving DecidableEq, Repr

namespace Signal

/-- The signal once posted. -/
def post (_ : Signal) : Signal := ⟨true⟩

/-- Whether a wait is answered at once, and the signal afterwards. -/
def wait (s : Signal) : Bool × Signal := (s.posted, ⟨false⟩)

@[simp] theorem wait_post (s : Signal) : s.post.wait = (true, ⟨false⟩) := rfl

end Signal

end WriteBehind
