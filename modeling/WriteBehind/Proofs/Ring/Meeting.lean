import WriteBehind.Fault
import WriteBehind.Proofs.Ring.Layout

/-!
# Meeting — what a walk comes across on any bytes

A layout says what a walk comes across on the bytes of a ring in order.  Bytes from elsewhere may hold
anything, and a walk over them meets some frames and perhaps a defect.

* `View.classify_eq_padding`, `View.classify_eq_frame` and `View.kind_of_classify` say what each answer
  of `View.classify` goes with, and `View.classify_eq_overflow_iff` where a sum does not fit its word;
* `View.length_of_mem_walk` and `View.exists_classify_of_defect`: what a walk comes across;
* `View.after` is where a walk stands after so many steps, and `View.InWord` says that none of its counters
  overflows;
* `View.Meets v stop position frames defect` follows a walk piece by piece, and `View.meets_walk` says that
  every walk can be followed.
-/

namespace WriteBehind
namespace Ring
namespace View

/-! ## Single answers -/

section Answers

variable {v : View} {position stop : Nat}

theorem classify_eq_padding {n : Nat} (h : v.classify position stop = .ok (.padding n)) :
    n = wrapPad position v.capacity v.limit ∧ 0 < n ∧ n = v.dirty ∧ position + n ≤ stop := by
  have hend := (classify_size h).2.2
  simp only [classify] at h
  split at h
  · rename_i hpad
    split at h
    · cases h
    · rename_i hdirty
      split at h
      · cases h
      · split at h
        · cases h
        · cases h
          exact ⟨rfl, hpad, Decidable.of_not_not hdirty, hend⟩
  · repeat' split at h
    all_goals cases h

/-- Behind padding a lap begins, and no other padding is due there. -/
theorem not_padding_twice (hcap : IsPowerOfTwo v.capacity) (hroom : frameReserve v.limit ≤ v.capacity)
    {n : Nat} (h : v.classify position stop = .ok (.padding n)) (m : Nat) :
    v.classify (position + n) stop ≠ .ok (.padding m) := by
  intro hagain
  rcases classify_eq_padding h with ⟨hn, hpos, -, -⟩
  rcases classify_eq_padding hagain with ⟨hm, hpos', -, -⟩
  have hzero := wrapPad_add_wrapPad hcap hroom (hn ▸ hpos)
  rw [hm, hn] at hpos'
  exact absurd hzero (Nat.ne_of_gt hpos')

theorem classify_eq_frame {n : Nat} (h : v.classify position stop = .ok (.frame n)) :
    wrapPad position v.capacity v.limit = 0 ∧ 0 < n ∧ n < v.limit ∧
      n = v.lengthAt (physicalOffset position v.capacity) ∧
      position + (n + prefixLength) ≤ stop := by
  have hend := (classify_size h).2.2
  simp only [classify] at h
  split at h
  · repeat' split at h
    all_goals cases h
  · rename_i hpad
    split at h
    · cases h
    · rename_i hlength
      split at h
      · cases h
      · split at h
        · cases h
        · cases h
          refine ⟨?_, ?_, ?_, rfl, hend⟩ <;> omega

/-- Whatever is wrong with a piece, it is the bytes that are, or its end is a counter that no word holds. -/
theorem kind_of_classify {cause : Cause} (h : v.classify position stop = .error cause) :
    cause.kind = .corrupt ∨ cause = .overflow := by
  simp only [classify] at h
  repeat' split at h
  all_goals cases h
  all_goals first | exact .inl rfl | exact .inr rfl

/-- Nothing that is wrong with a piece is about staged frames. -/
theorem classify_ne_backupTooLarge (length write : Nat) :
    v.classify position stop ≠ .error (.backupTooLarge length write) := by
  intro h
  simp only [classify] at h
  repeat' split at h
  all_goals cases h

end Answers

/-! ## Walks over any bytes -/

section Walks

variable {v : View} {position stop : Nat}

/-- Every payload that a walk meets has a length that a record may have. -/
theorem length_of_mem_walk {f : Frame} (h : f ∈ (v.walk position stop).frames) :
    0 < f.payload.length ∧ f.payload.length < v.limit := by
  fun_induction walk v position stop with
  | case1 position _ cause hclassify => cases h
  | case2 position _ n hclassify _ ih => exact ih h
  | case3 position _ n hclassify _ ih =>
    rcases List.mem_cons.1 h with rfl | hrest
    · rcases classify_eq_frame hclassify with ⟨-, hpos, hlimit, -, -⟩
      have hlength : (v.payload position n).length = n := length_slice v _ n
      rw [hlength]
      exact ⟨hpos, hlimit⟩
    · exact ih hrest
  | case4 position _ => cases h

/-- A walk stops at a place where neither padding nor a frame can stand. -/
theorem exists_classify_of_defect {cause : Cause} (h : (v.walk position stop).defect = some cause) :
    ∃ place < stop, v.classify place stop = .error cause := by
  fun_induction walk v position stop with
  | case1 position hlt cause' hclassify =>
    cases h
    exact ⟨position, hlt, hclassify⟩
  | case2 position _ n hclassify _ ih => exact ih h
  | case3 position _ n hclassify _ ih => exact ih h
  | case4 position _ => cases h

/-- Whatever a walk finds wrong, it is the bytes that are, unless it ends at a counter that no word
holds. -/
theorem kind_of_defect {cause : Cause} (h : (v.walk position stop).defect = some cause) :
    cause.kind = .corrupt ∨ cause = .overflow := by
  rcases exists_classify_of_defect h with ⟨place, -, hclassify⟩
  exact kind_of_classify hclassify

end Walks

/-! ## What a look adds -/

/-- What is added to a position by a look at it: the padding that is due there if the dirty size is the
same, or the length of the frame if that is in range.  Anything else is refused before. -/
def due? (v : View) (position : Nat) : Option Nat :=
  let pad := wrapPad position v.capacity v.limit
  if pad > 0 then if pad ≠ v.dirty then none else some pad
  else
    let length := v.lengthAt (physicalOffset position v.capacity)
    if length = 0 ∨ length ≥ v.limit then none else some (length + prefixLength)

section Adding

variable {v : View} {position stop n : Nat}

/-- A look goes no further just where what it adds takes the position to `2 ^ 64`. -/
theorem classify_eq_overflow_iff :
    v.classify position stop = .error .overflow ↔
      ∃ n, v.due? position = some n ∧ 2 ^ 64 ≤ position + n := by
  simp only [classify, due?]
  split
  · split
    · simp
    · split
      · simp_all
      · split <;> simp <;> omega
  · split
    · simp
    · split
      · simp_all
      · split <;> simp <;> omega

/-- What is added to a position stays in its lap, and a frame ends in front of the end of the lap. -/
theorem offset_add_le_of_due? (hcap : IsPowerOfTwo v.capacity) (h : v.due? position = some n) :
    0 < wrapPad position v.capacity v.limit ∧ n = v.dirty ∧
        position % v.capacity + n = v.capacity ∨
      wrapPad position v.capacity v.limit = 0 ∧ position % v.capacity + n < v.capacity := by
  simp only [due?] at h
  split at h
  · rename_i hpad
    split at h
    · cases h
    · rename_i hdirty
      cases h
      have hlt : position % v.capacity < v.capacity := Nat.mod_lt _ hcap.pos
      refine .inl ⟨hpad, Decidable.of_not_not hdirty, ?_⟩
      rw [wrapPad_eq_of_pos hcap hpad]
      omega
  · rename_i hpad
    split at h
    · cases h
    · cases h
      have hzero : wrapPad position v.capacity v.limit = 0 := by omega
      have hroom := offset_add_le_of_wrapPad_eq_zero hcap hzero
      rw [frameReserve] at hroom
      exact .inr ⟨hzero, by omega⟩

end Adding

/-! ## Positions of a walk -/

/-- Where a walk stands after `n` steps, if it has not ended before. -/
def after (v : View) (stop : Nat) : Nat → Nat → Option Nat
  | 0, position => some position
  | n + 1, position =>
    if position < stop then
      match v.classify position stop with
      | .error _ => none
      | .ok piece => v.after stop n (position + piece.size)
    else none

/-- A walk that stands at `position` comes by `place`. -/
def Reaches (v : View) (stop position place : Nat) : Prop := ∃ n, v.after stop n position = some place

/-- Nothing that a walk adds to the positions it comes by takes it to `2 ^ 64`. -/
def InWord (v : View) (stop position : Nat) : Prop :=
  ∀ place n, v.Reaches stop position place → place < stop → v.due? place = some n →
    place + n < 2 ^ 64

section Positions

variable {v : View} {position place stop : Nat}

theorem after_succ_iff {n : Nat} :
    v.after stop (n + 1) position = some place ↔ position < stop ∧ ∃ piece,
      v.classify position stop = .ok piece ∧
        v.after stop n (position + piece.size) = some place := by
  rw [after]
  by_cases hlt : position < stop
  · cases hclassify : v.classify position stop <;> simp [hlt]
  · simp [hlt]

theorem Reaches.refl (v : View) (stop position : Nat) : v.Reaches stop position position :=
  ⟨0, rfl⟩

/-- A walk comes by the position where it stands, and by what it comes by from the next one on. -/
theorem reaches_iff :
    v.Reaches stop position place ↔ place = position ∨ position < stop ∧ ∃ piece,
      v.classify position stop = .ok piece ∧
        v.Reaches stop (position + piece.size) place := by
  constructor
  · rintro ⟨n, hn⟩
    cases n with
    | zero =>
      cases hn
      exact .inl rfl
    | succ n =>
      rcases after_succ_iff.1 hn with ⟨hlt, piece, hclassify, hrest⟩
      exact .inr ⟨hlt, piece, hclassify, n, hrest⟩
  · rintro (rfl | ⟨hlt, piece, hclassify, n, hrest⟩)
    · exact .refl v stop place
    · exact ⟨n + 1, after_succ_iff.2 ⟨hlt, piece, hclassify, hrest⟩⟩

theorem reaches_iff_of_classify {piece : Piece} (hlt : position < stop)
    (hclassify : v.classify position stop = .ok piece) :
    v.Reaches stop position place ↔
      place = position ∨ v.Reaches stop (position + piece.size) place := by
  rw [reaches_iff]
  constructor
  · rintro (heq | ⟨-, piece', hpiece, hrest⟩)
    · exact .inl heq
    · cases hclassify.symm.trans hpiece
      exact .inr hrest
  · rintro (heq | hrest)
    · exact .inl heq
    · exact .inr ⟨hlt, piece, hclassify, hrest⟩

/-- With a lap to spare below `2 ^ 64` no counter overflows. -/
theorem inWord_of_le (hcap : IsPowerOfTwo v.capacity) (hword : stop + v.capacity ≤ 2 ^ 64)
    (position : Nat) : v.InWord stop position := by
  intro place n _ hlt hdue
  rcases offset_add_le_of_due? hcap hdue with ⟨-, -, hlap⟩ | ⟨-, hlap⟩ <;> omega

/-- With a lap to spare it is the bytes that are wrong, whatever a walk finds wrong. -/
theorem kind_of_defect_of_le (hcap : IsPowerOfTwo v.capacity) (hword : stop + v.capacity ≤ 2 ^ 64)
    {cause : Cause} (h : (v.walk position stop).defect = some cause) : cause.kind = .corrupt := by
  rcases exists_classify_of_defect h with ⟨place, hlt, hclassify⟩
  rcases kind_of_classify hclassify with hkind | rfl
  · exact hkind
  · rcases classify_eq_overflow_iff.1 hclassify with ⟨n, hdue, hover⟩
    exact absurd (inWord_of_le hcap hword place place n (.refl v stop place) hlt hdue)
      (Nat.not_lt.2 hover)

end Positions

/-! ## Whole walks -/

/-- A walk that stands at a position and goes up to `stop` meets these frames, and then this defect if
there is one. -/
inductive Meets (v : View) (stop : Nat) : Nat → List Frame → Option Cause → Prop
  | done : Meets v stop stop [] none
  | defect {position : Nat} {cause : Cause} (hlt : position < stop)
      (hclassify : v.classify position stop = .error cause) : Meets v stop position [] (some cause)
  | padding {position n : Nat} {frames : List Frame} {defect : Option Cause} (hlt : position < stop)
      (hclassify : v.classify position stop = .ok (.padding n))
      (rest : Meets v stop (position + n) frames defect) : Meets v stop position frames defect
  | frame {position n : Nat} {frames : List Frame} {defect : Option Cause} (hlt : position < stop)
      (hclassify : v.classify position stop = .ok (.frame n))
      (rest : Meets v stop (position + (n + prefixLength)) frames defect) :
      Meets v stop position (⟨position, v.payload position n⟩ :: frames) defect

/-- Every walk can be followed. -/
theorem meets_walk {v : View} {position stop : Nat} (hle : position ≤ stop) :
    Meets v stop position (v.walk position stop).frames (v.walk position stop).defect := by
  -- Every piece takes the walk nearer to its end.
  generalize hdistance : stop - position = distance
  induction distance using Nat.strongRecOn generalizing position with
  | _ distance ih =>
    by_cases hlt : position < stop
    · rcases hclassify : v.classify position stop with cause | n | n
      · rw [walk_of_error hlt hclassify]
        exact .defect hlt hclassify
      · rcases classify_size hclassify with ⟨hpos, -, hend⟩
        simp only [Piece.size] at hpos hend
        rw [walk_of_padding hclassify]
        exact .padding hlt hclassify (ih _ (by omega) hend rfl)
      · rcases classify_size hclassify with ⟨hpos, -, hend⟩
        simp only [Piece.size] at hpos hend
        rw [walk_of_frame hclassify]
        exact .frame hlt hclassify (ih _ (by omega) hend rfl)
    · have hend : position = stop := by omega
      subst hend
      rw [walk_of_le (Nat.le_refl position)]
      exact .done

namespace Meets

variable {v : View} {position stop : Nat} {frames : List Frame} {defect : Option Cause}

/-- The frames that were met take up no more than the distance that was walked. -/
theorem length_flatMap_le (h : Meets v stop position frames defect) :
    ((frames.map Frame.payload).flatMap encodeFrame).length + position ≤ stop := by
  induction h with
  | done => simp
  | defect hlt _ =>
    rw [List.map_nil, List.flatMap_nil, List.length_nil]
    omega
  | padding _ _ _ ih => omega
  | @frame position n frames defect hlt hclassify _ ih =>
    have hlength : (v.payload position n).length = n := length_slice v _ n
    rw [List.map_cons, List.flatMap_cons, List.length_append, length_encodeFrame, hlength]
    omega

end Meets

end View
end Ring
end WriteBehind
