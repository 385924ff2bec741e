import WriteBehind.Proofs.Ring.Drain

/-!
# Carry — the unread frames carried over to a larger ring

A resize stages what a walk meets and lays it out from offset zero on, whatever else the old ring held and
however small it was.

* `View.packed position payloads`: frames one behind the other, with nothing between them;
* `View.Layout.walk_packed`: a walk over a layout in which no padding is due meets packed frames;
* `Carried r r' capacity`: the unread frames of `r` are packed at the front of `r'`, and
  `carried_of_resize` says that every resize that is carried out comes to this.
-/

namespace WriteBehind
namespace Ring

namespace View

/-! ## Packed frames -/

/-- Frames one behind the other, the first of them at `position`. -/
def packed : Nat → List Bytes → List Frame
  | _, [] => []
  | position, payload :: payloads =>
    ⟨position, payload⟩ :: packed (position + (payload.length + prefixLength)) payloads

theorem payloads_packed (position : Nat) (payloads : List Bytes) :
    (packed position payloads).map Frame.payload = payloads := by
  induction payloads generalizing position with
  | nil => rfl
  | cons payload payloads ih => rw [packed, List.map_cons, ih]

/-- Frames take up the length prefix and the payload each. -/
theorem length_flatMap_encodeFrame (payloads : List Bytes) :
    (payloads.flatMap encodeFrame).length =
      (payloads.map fun payload => prefixLength + payload.length).sum := by
  rw [List.length_flatMap]
  refine congrArg List.sum (List.map_congr_left ?_)
  intro payload _
  exact length_encodeFrame payload

/-- Packed frames start in front of the end of the last one. -/
theorem counter_lt_of_mem_packed {position : Nat} {payloads : List Bytes} {f : Frame}
    (h : f ∈ packed position payloads) :
    f.counter < position + (payloads.flatMap encodeFrame).length := by
  induction payloads generalizing position with
  | nil => cases h
  | cons payload payloads ih =>
    have hlength := length_encodeFrame payload
    rw [prefixLength] at hlength
    rw [List.flatMap_cons, List.length_append]
    rcases List.mem_cons.1 h with rfl | hrest
    · show position < _
      omega
    · have hlt := ih hrest
      rw [prefixLength] at hlt
      omega

/-- Where no padding is due, a walk over a layout meets its payloads packed. -/
theorem Layout.walk_packed {v : View} {position stop : Nat} {payloads : List Bytes}
    (h : v.Layout position stop payloads) (hword : v.limit ≤ 2 ^ 32) (hstop : stop < 2 ^ 64)
    (hzone : ∀ c, position ≤ c → c < stop → wrapPad c v.capacity v.limit = 0) :
    v.walk position stop = ⟨packed position payloads, none⟩ := by
  induction h with
  | done position => exact walk_of_le (Nat.le_refl position)
  | padding hpad _ rest _ =>
    have hle := rest.le
    have hzero := hzone _ (Nat.le_refl _) (by omega)
    omega
  | @frame position stop payload payloads hpad hpos hlimit hbytes rest ih =>
    have hle := rest.le
    have hclassify := classify_frame hpad hpos hlimit hword hbytes hle hstop
    have hpayload : v.payload position payload.length = payload :=
      (slice_eq_encodeFrame_iff.1 hbytes).2
    rw [walk_of_frame hclassify,
      ih hstop fun c hlo hhi => hzone c (by omega) hhi, hpayload]
    rfl

end View

/-! ## Staging what was walked over -/

section Staging

variable {r : Ring}

/-- Whatever is staged is what a walk has met, and there was nothing wrong. -/
theorem linearize_cases (r : Ring) :
    (r.backlog.defect = none ∧
      r.linearize = .ok (r.backlog.payloads.flatMap View.encodeFrame)) ∨
    ∃ cause, r.backlog.defect = some cause ∧ r.linearize = .error cause := by
  cases hdefect : r.backlog.defect with
  | none => exact .inl ⟨rfl, View.linearize_of_none hdefect⟩
  | some cause => exact .inr ⟨cause, rfl, View.linearize_of_some hdefect⟩

/-- A resize never finds the staged frames too long, whatever else goes wrong. -/
theorem resize_ne_backupTooLarge (hle : r.read ≤ r.write) (hunread : r.write ≤ r.read + r.capacity)
    (target length write : Nat) (path : Option String) :
    (r.resize target).1 ≠ .error ⟨.backupTooLarge length write, path⟩ := by
  have hstaged := length_staged_le hle
  rcases r.resize_cases target with ⟨cause, hstage, hresize⟩ | ⟨staged, e, -, -, -, hresize⟩ |
    ⟨staged, growth, -, -, -, hresize⟩ | ⟨staged, -, -, hresize⟩ <;> rw [hresize] <;> rintro ⟨⟩
  rcases r.linearize_cases with ⟨-, hlinearize⟩ | ⟨cause, hdefect, hlinearize⟩
  · -- The staged frames are short enough, so at most the capacity is refused.
    have hbounds : ¬ ((r.backlog.payloads.flatMap View.encodeFrame).length > r.capacity ∨
        (r.backlog.payloads.flatMap View.encodeFrame).length > r.write - r.read) := by omega
    simp only [stage, hlinearize, if_neg hbounds] at hstage
    rcases checkCapacity_cases r.backing (nextPowerOfTwo (max target r.capacity)) with hcheck | hcheck <;>
      rw [hcheck] at hstage <;> cases hstage
  · -- What is wrong with a piece is never about staged frames.
    simp only [stage, hlinearize] at hstage
    cases hstage
    rcases View.exists_classify_of_defect hdefect with ⟨place, -, hclassify⟩
    exact View.classify_ne_backupTooLarge _ _ hclassify

end Staging

/-! ## Carrying over -/

/-- The unread frames of `r` are packed at the front of `r'`, a ring of `capacity` bytes.  Neither where
one of them starts nor behind the last one is padding due. -/
structure Carried (r r' : Ring) (capacity : Nat) : Prop where
  capacity_eq : r'.capacity = capacity
  limit_eq : r'.limit = r.limit
  read : r'.read = 0
  dirty : r'.dirty = 0
  write : r'.write = (r.backlog.payloads.map fun payload => prefixLength + payload.length).sum
  describes : Describes r'.image r'.write 0 0
  payloads : r'.backlog.payloads = r.backlog.payloads
  backlog : r'.backlog = ⟨View.packed 0 r.backlog.payloads, none⟩
  starts : ∀ f ∈ r'.backlog.frames, f.counter < r'.write
  unpadded : ∀ c, c ≤ r'.write → wrapPad c r'.capacity r'.limit = 0

/-- Frames that leave room for one more are carried over as they are. -/
theorem carried_relaid {r : Ring} {growth : List Store} {capacity : Nat}
    (hgrowth : r.backing.growth capacity = .ok growth) (hcap : IsPowerOfTwo capacity)
    (hlimit : r.limit < 2 ^ 32) (hword : capacity < 2 ^ 64)
    (hroom : (r.backlog.payloads.flatMap View.encodeFrame).length + frameReserve r.limit ≤
      capacity) :
    Carried r (r.relaid growth capacity (r.backlog.payloads.flatMap View.encodeFrame))
      capacity := by
  have hsize := size_growth r.image hgrowth
  have hreserve : 0 < frameReserve r.limit := by simp only [frameReserve, prefixLength]; omega
  have hlayout := r.layout_relaid hgrowth hcap (fun _ hmem => length_of_mem_backlog hmem) hroom
  -- The frames end in front of the part of the ring where padding is due.
  have hzone : ∀ c, c ≤ (r.backlog.payloads.flatMap View.encodeFrame).length →
      wrapPad c capacity r.limit = 0 := by
    intro c hc
    refine wrapPad_eq_zero_of_le hcap ?_
    rw [Nat.mod_eq_of_lt (by omega)]
    omega
  have hbacklog : (r.relaid growth capacity
      (r.backlog.payloads.flatMap View.encodeFrame)).backlog =
        ⟨View.packed 0 r.backlog.payloads, none⟩ :=
    hlayout.walk_packed (Nat.le_of_lt hlimit) (by omega) fun c _ hhi => hzone c (Nat.le_of_lt hhi)
  refine ⟨rfl, rfl, rfl, rfl, View.length_flatMap_encodeFrame _, ?_, ?_, hbacklog, ?_, hzone⟩
  · rw [image_relaid]
    exact describes_relay _ _ (by omega)
  · rw [hbacklog]
    exact View.payloads_packed 0 _
  · rw [hbacklog]
    intro f hf
    have hlt := View.counter_lt_of_mem_packed hf
    rwa [Nat.zero_add] at hlt

/-- Whatever bytes a ring holds, a resize to twice the room at least that can be carried out keeps the
records that a walk meets, if it meets no defect; and no resize fails for the length of what is staged. -/
theorem carried_of_resize {r : Ring} (hlimit : checkRecordLimit r.limit = .ok ())
    (hcap : IsPowerOfTwo r.capacity) (hle : r.read ≤ r.write)
    (hunread : r.write ≤ r.read + r.capacity) :
    (∀ target growth, r.backlog.defect = none → IsPowerOfTwo target →
      r.backing.checkCapacity target = .ok () → 2 * r.capacity ≤ target →
      minCapacity r.limit ≤ target → r.backing.growth target = .ok growth →
      ∃ r', r.resize target = (.ok (), r') ∧ Carried r r' target) ∧
    ∀ target length write path,
      (r.resize target).1 ≠ .error ⟨.backupTooLarge length write, path⟩ := by
  refine ⟨?_, fun target length write path => resize_ne_backupTooLarge hle hunread target length write path⟩
  intro target growth hdefect htarget hcheck hdouble hroomy hgrowth
  have hframes := two_mul_frameReserve_le_minCapacity r.limit
  have hstaged : r.linearize = .ok (r.backlog.payloads.flatMap View.encodeFrame) :=
    View.linearize_of_none hdefect
  have hlength := length_staged_le hle
  rcases goal_of_double hcap.pos hdouble with ⟨hmax, hlarger⟩
  have hgoal : nextPowerOfTwo target = target := nextPowerOfTwo_of_isPowerOfTwo htarget
  have hstage := stage_eq_ok.2 ⟨hstaged, by omega, hlength, hcheck⟩
  have hcarried := carried_relaid hgrowth htarget (checkRecordLimit_eq_ok.1 hlimit).2
    (lt_of_checkCapacity hcheck) (by omega)
  have hcases := r.resize_cases target
  rw [hmax, hgoal, hstage, hgrowth] at hcases
  rcases hcases with ⟨_, ⟨⟩, -⟩ | ⟨_, _, -, -, ⟨⟩, -⟩ | ⟨_, _, ⟨⟩, -, ⟨⟩, hresize⟩ | ⟨_, -, hsame, -⟩
  · exact ⟨_, hresize, hcarried⟩
  · omega

/-- A ring that is too small for two frames.  What is unread starts with padding. -/
def crampedBytes : Image :=
  ((Image.zeros 40).write 0 (Header.encode ⟨26, 10, 6⟩)).write 24
    (View.encodeFrame [1, 2, 3, 4, 5, 6])

/-- One record behind padding is carried over from 16 bytes to 32, as when the file is opened. -/
theorem carried_of_resize_cramped :
    minCapacity 12 = 32 ∧
      ∃ r', (ofHeader "q" crampedBytes 16 12 ⟨26, 10, 6⟩).resize 32 = (.ok (), r') ∧
      r'.backlog = ⟨[⟨0, [1, 2, 3, 4, 5, 6]⟩], none⟩ ∧ r'.write = 10 ∧ r'.capacity = 32 := by
  have hseen : (ofHeader "q" crampedBytes 16 12 ⟨26, 10, 6⟩).backlog =
      ⟨[⟨16, [1, 2, 3, 4, 5, 6]⟩], none⟩ := by decide +kernel
  rcases (carried_of_resize (r := ofHeader "q" crampedBytes 16 12 ⟨26, 10, 6⟩) rfl (by decide)
    (by decide) (by decide)).1 32 _ (by rw [hseen]) (by decide) rfl (by decide) (by decide) rfl with
    ⟨r', hresize, hcarried⟩
  have hpayloads : (ofHeader "q" crampedBytes 16 12 ⟨26, 10, 6⟩).backlog.payloads =
      [[1, 2, 3, 4, 5, 6]] := by
    rw [hseen]
    rfl
  refine ⟨by decide, r', hresize, ?_, ?_, hcarried.capacity_eq⟩
  · rw [hcarried.backlog, hpayloads]
    rfl
  · rw [hcarried.write, hpayloads]
    rfl

end Ring
end WriteBehind
