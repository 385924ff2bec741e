import WriteBehind.Proofs.Ring.Meeting

/-!
# Walking — walks over any bytes keep to the ring and to their counters

The lengths that a walk goes by stand in the ring itself, and on bytes from elsewhere they may be
anything.  No length is compared with what is left in front of the physical end; that no walk reads past
it follows from where padding is due and from the record limit, also in a ring that is smaller than a
frame.

* `View.Reads` says which bytes are read at a position, `Reads.lt` that they lie in the ring, and
  `Meets.congr` that nothing else has a say in a walk;
* `View.Stands` says that a frame stands at its counter, and `Stands.offset_add_le` that it does not cross
  the physical end;
* `Meets.ends`, `Meets.mem_iff`, `Meets.bounds`, `Meets.pairwise` and `Meets.length_le` follow a walk piece
  by piece;
* `View.orderly_walk` sums it up for walks without overflow.
-/

namespace WriteBehind
namespace Ring

/-- The bytes that a frame takes up. -/
def Frame.size (f : Frame) : Nat := f.payload.length + prefixLength

namespace View

/-! ## Bytes that are read -/

/-- The byte at place `i` is read at a position: as part of the length prefix, which is read where no
padding is due, or of the payload behind it, which is read if the two make up a frame. -/
def Reads (v : View) (stop position i : Nat) : Prop :=
  wrapPad position v.capacity v.limit = 0 ∧ physicalOffset position v.capacity ≤ i ∧
    (i < physicalOffset position v.capacity + prefixLength ∨
      ∃ n, v.classify position stop = .ok (.frame n) ∧
        i < physicalOffset position v.capacity + prefixLength + n)

section Bytes

variable {v : View} {position stop i : Nat} {byte : Nat → UInt8}

/-- What is read lies in the ring. -/
theorem Reads.lt (h : v.Reads stop position i) (hcap : IsPowerOfTwo v.capacity) :
    i < v.capacity := by
  rcases h with ⟨hpad, -, hread⟩
  have hroom := offset_add_le_of_wrapPad_eq_zero hcap hpad
  rw [physicalOffset_eq_mod hcap] at hread
  rw [frameReserve] at hroom
  rcases hread with hread | ⟨n, hclassify, hread⟩
  · omega
  · have hlimit := (classify_eq_frame hclassify).2.2.1
    omega

/-- What stands at a position depends on the bytes that are read there. -/
theorem classify_congr (h : ∀ i, v.Reads stop position i → byte i = v.byte i) :
    ({ v with byte } : View).classify position stop = v.classify position stop := by
  by_cases hpad : 0 < wrapPad position v.capacity v.limit
  · -- Nothing is read where padding is due.
    simp only [classify, if_pos hpad]
  · have hzero : wrapPad position v.capacity v.limit = 0 := by omega
    have hprefix : ({ v with byte } : View).slice (physicalOffset position v.capacity) prefixLength =
        v.slice (physicalOffset position v.capacity) prefixLength :=
      slice_congr fun i hlo hhi => h i ⟨hzero, hlo, .inl hhi⟩
    simp only [classify, if_neg hpad, lengthAt, hprefix]
    rfl

theorem payload_congr {n : Nat} (h : ∀ i, v.Reads stop position i → byte i = v.byte i)
    (hclassify : v.classify position stop = .ok (.frame n)) :
    ({ v with byte } : View).payload position n = v.payload position n := by
  have hpad := (classify_eq_frame hclassify).1
  refine slice_congr ?_
  intro i hlo hhi
  exact h i ⟨hpad, Nat.le_of_add_right_le hlo, .inr ⟨n, hclassify, hhi⟩⟩

end Bytes

/-! ## Frames that stand in the ring -/

/-- A frame stands at its counter. -/
structure Stands (v : View) (stop : Nat) (f : Frame) : Prop where
  counter_lt : f.counter < stop
  classify_eq : v.classify f.counter stop = .ok (.frame f.payload.length)
  payload_eq : v.payload f.counter f.payload.length = f.payload

theorem stands_of_classify {v : View} {position stop n : Nat} (hlt : position < stop)
    (hclassify : v.classify position stop = .ok (.frame n)) :
    v.Stands stop ⟨position, v.payload position n⟩ := by
  have hlength : (v.payload position n).length = n := length_slice v _ n
  refine ⟨hlt, ?_, ?_⟩
  · rw [hlength]
    exact hclassify
  · rw [hlength]

namespace Stands

variable {v : View} {stop : Nat} {f : Frame}

/-- It does not cross the physical end. -/
theorem offset_add_le (h : v.Stands stop f) (hcap : IsPowerOfTwo v.capacity) :
    f.counter % v.capacity + f.size ≤ v.capacity := by
  rcases classify_eq_frame h.classify_eq with ⟨hpad, -, hlimit, -, -⟩
  have hroom := offset_add_le_of_wrapPad_eq_zero hcap hpad
  rw [frameReserve] at hroom
  rw [Frame.size]
  omega

/-- Its bytes are its length and its payload. -/
theorem slice_eq (h : v.Stands stop f) :
    v.slice (physicalOffset f.counter v.capacity) (encodeFrame f.payload).length =
      encodeFrame f.payload := by
  rcases classify_eq_frame h.classify_eq with ⟨-, -, -, hlength, -⟩
  have hprefix := Bytes.ofWord_toWord (v.slice (physicalOffset f.counter v.capacity) prefixLength)
  rw [length_slice] at hprefix
  rw [slice_eq_encodeFrame_iff, ← hprefix]
  refine ⟨?_, h.payload_eq⟩
  rw [hlength]
  rfl

end Stands

/-! ## Walks -/

/-- A walk has come to its end at this place, or to this defect. -/
def EndsAt (v : View) (stop place : Nat) : Option Cause → Prop
  | none => place = stop
  | some cause => place < stop ∧ v.classify place stop = .error cause

namespace Meets

variable {v : View} {position stop : Nat} {frames : List Frame} {defect : Option Cause}

/-- The walk is the one that was followed. -/
theorem walk_eq (h : Meets v stop position frames defect) :
    v.walk position stop = ⟨frames, defect⟩ := by
  induction h with
  | done => exact walk_of_le (Nat.le_refl stop)
  | defect hlt hclassify => exact walk_of_error hlt hclassify
  | padding _ hclassify _ ih => rw [walk_of_padding hclassify, ih]
  | frame _ hclassify _ ih =>
    rw [walk_of_frame hclassify, ih]
    rfl

/-- It ends after at most as many steps as there are counters to pass, behind all of its frames. -/
theorem ends (h : Meets v stop position frames defect) :
    ∃ n place, v.after stop n position = some place ∧ position + n ≤ place ∧ place ≤ stop ∧
      v.EndsAt stop place defect ∧ ∀ f ∈ frames, f.counter + f.size ≤ place := by
  induction h with
  | done => exact ⟨0, stop, rfl, Nat.le_refl _, Nat.le_refl _, rfl, by simp⟩
  | @defect position _ hlt hclassify =>
    exact ⟨0, position, rfl, Nat.le_refl _, Nat.le_of_lt hlt, ⟨hlt, hclassify⟩, by simp⟩
  | padding hlt hclassify _ ih =>
    have hpos := (classify_size hclassify).1
    rcases ih with ⟨n, place, hn, hlo, hhi, hends, hframes⟩
    refine ⟨n + 1, place, after_succ_iff.2 ⟨hlt, _, hclassify, hn⟩, ?_, hhi, hends, hframes⟩
    simp only [Piece.size] at hpos
    omega
  | @frame position length _ _ hlt hclassify _ ih =>
    have hlength : (v.payload position length).length = length := length_slice v _ length
    rcases ih with ⟨n, place, hn, hlo, hhi, hends, hframes⟩
    rw [prefixLength] at hlo
    refine ⟨n + 1, place, after_succ_iff.2 ⟨hlt, _, hclassify, hn⟩, ?_, hhi, hends, ?_⟩
    · omega
    · intro f hf
      rcases List.mem_cons.1 hf with rfl | hmem
      · simp only [Frame.size, hlength, prefixLength]
        omega
      · exact hframes f hmem

/-- Its frames are those that stand where it comes by. -/
theorem mem_iff (h : Meets v stop position frames defect) {f : Frame} :
    f ∈ frames ↔ v.Reaches stop position f.counter ∧ v.Stands stop f := by
  induction h with
  | done =>
    rw [reaches_iff]
    constructor
    · rintro ⟨⟩
    · rintro ⟨heq | ⟨hlt, -⟩, hstands⟩
      · exact absurd hstands.counter_lt (Nat.not_lt.2 (Nat.le_of_eq heq.symm))
      · exact absurd hlt (Nat.lt_irrefl _)
  | defect hlt hclassify =>
    rw [reaches_iff]
    constructor
    · rintro ⟨⟩
    · rintro ⟨heq | ⟨-, piece, hpiece, -⟩, hstands⟩
      · have hframe := hstands.classify_eq
        rw [heq, hclassify] at hframe
        cases hframe
      · rw [hclassify] at hpiece
        cases hpiece
  | padding hlt hclassify _ ih =>
    rw [ih, reaches_iff_of_classify hlt hclassify]
    refine and_congr_left ?_
    intro hstands
    refine (or_iff_right ?_).symm
    intro heq
    -- What stands at the position itself is no frame.
    have hframe := hstands.classify_eq
    rw [heq, hclassify] at hframe
    cases hframe
  | @frame position length _ _ hlt hclassify _ ih =>
    rw [List.mem_cons, ih, reaches_iff_of_classify hlt hclassify]
    constructor
    · rintro (rfl | ⟨hreaches, hstands⟩)
      · exact ⟨.inl rfl, stands_of_classify hlt hclassify⟩
      · exact ⟨.inr hreaches, hstands⟩
    · rintro ⟨heq | hreaches, hstands⟩
      · -- The frame that stands at the position itself is the first one.
        rcases f with ⟨counter, payload⟩
        cases heq
        have hpayload := hstands.payload_eq
        cases hclassify.symm.trans hstands.classify_eq
        exact .inl (congrArg (Frame.mk counter) hpayload.symm)
      · exact .inr ⟨hreaches, hstands⟩

/-- They lie between the counters. -/
theorem bounds (h : Meets v stop position frames defect) :
    ∀ f ∈ frames, position ≤ f.counter ∧ f.counter + f.size ≤ stop := by
  induction h with
  | done => simp
  | defect => simp
  | padding _ _ _ ih =>
    intro f hf
    rcases ih f hf with ⟨hlo, hhi⟩
    exact ⟨Nat.le_of_add_right_le hlo, hhi⟩
  | @frame position length _ _ _ hclassify _ ih =>
    have hlength : (v.payload position length).length = length := length_slice v _ length
    intro f hf
    rcases List.mem_cons.1 hf with rfl | hmem
    · refine ⟨Nat.le_refl _, ?_⟩
      simp only [Frame.size, hlength]
      exact (classify_eq_frame hclassify).2.2.2.2
    · rcases ih f hmem with ⟨hlo, hhi⟩
      exact ⟨Nat.le_of_add_right_le hlo, hhi⟩

/-- Each of them ends in front of the next one. -/
theorem pairwise (h : Meets v stop position frames defect) :
    frames.Pairwise fun f g => f.counter + f.size ≤ g.counter := by
  induction h with
  | done => exact .nil
  | defect => exact .nil
  | padding _ _ _ ih => exact ih
  | @frame position length _ _ _ _ rest ih =>
    have hlength : (v.payload position length).length = length := length_slice v _ length
    refine .cons ?_ ih
    intro g hg
    simp only [Frame.size, hlength]
    exact (rest.bounds g hg).1

theorem sum_size_le (h : Meets v stop position frames defect) :
    (frames.map Frame.size).sum + position ≤ stop := by
  have hsize : ∀ f : Frame, (encodeFrame f.payload).length = f.size := by
    intro f
    rw [length_encodeFrame, Nat.add_comm]
    rfl
  have hle := h.length_flatMap_le
  rwa [List.flatMap_map, List.length_flatMap, List.map_congr_left fun f _ => hsize f] at hle

/-- No frame takes up less than five bytes. -/
theorem length_le (h : Meets v stop position frames defect) :
    5 * frames.length + position ≤ stop := by
  induction h with
  | done => simp
  | defect hlt _ =>
    rw [List.length_nil]
    omega
  | padding _ _ _ ih => omega
  | frame _ hclassify _ ih =>
    have hpos := (classify_eq_frame hclassify).2.1
    rw [prefixLength] at ih
    rw [List.length_cons]
    omega

/-- Bytes that are not read have no say in the walk. -/
theorem congr (h : Meets v stop position frames defect) {byte : Nat → UInt8}
    (hbyte : ∀ place i, v.Reaches stop position place → place < stop → v.Reads stop place i →
      byte i = v.byte i) : Meets { v with byte } stop position frames defect := by
  induction h with
  | done => exact .done
  | @defect position _ hlt hclassify =>
    refine .defect hlt ?_
    rw [classify_congr fun i => hbyte position i (.refl v stop position) hlt]
    exact hclassify
  | @padding position n _ _ hlt hclassify _ ih =>
    refine .padding (n := n) hlt ?_ (ih ?_)
    · rw [classify_congr fun i => hbyte position i (.refl v stop position) hlt]
      exact hclassify
    · intro place i hreaches
      exact hbyte place i ((reaches_iff_of_classify hlt hclassify).2 (.inr hreaches))
  | @frame position n _ _ hlt hclassify _ ih =>
    have hhere : ∀ i, v.Reads stop position i → byte i = v.byte i :=
      fun i => hbyte position i (.refl v stop position) hlt
    rw [← payload_congr hhere hclassify]
    refine .frame hlt ?_ (ih ?_)
    · rw [classify_congr hhere]
      exact hclassify
    · intro place i hreaches
      exact hbyte place i ((reaches_iff_of_classify hlt hclassify).2 (.inr hreaches))

end Meets

/-! ## All of it -/

/-- A walk from `start` to `stop` keeps to the ring and to its counters. -/
structure Orderly (v : View) (start stop : Nat) : Prop where
  /-- It ends after at most as many steps as there are counters to pass, at `stop` or at a defect, and no
  frame is behind that. -/
  ends : ∃ n place, n ≤ stop - start ∧ v.after stop n start = some place ∧
    v.EndsAt stop place (v.walk start stop).defect ∧
    ∀ f ∈ (v.walk start stop).frames, f.counter + f.size ≤ place
  /-- Where it stops early it is the bytes that are wrong, and no sum that its word does not hold. -/
  corrupt : ∀ cause, (v.walk start stop).defect = some cause → cause.kind = .corrupt
  /-- Whatever it reads lies in the ring. -/
  reads : ∀ place i, v.Reaches stop start place → place < stop → v.Reads stop place i →
    i < v.capacity
  /-- There is nothing else that it reads. -/
  depends : ∀ byte : Nat → UInt8, (∀ place i, v.Reaches stop start place → place < stop →
    v.Reads stop place i → byte i = v.byte i) →
    ({ v with byte } : View).walk start stop = v.walk start stop
  /-- It yields the frames that stand where it comes by. -/
  frames : ∀ f, f ∈ (v.walk start stop).frames ↔ v.Reaches stop start f.counter ∧ v.Stands stop f
  lengths : ∀ f ∈ (v.walk start stop).frames, 1 ≤ f.payload.length ∧ f.payload.length ≤ v.limit - 1
  within : ∀ f ∈ (v.walk start stop).frames, start ≤ f.counter ∧ f.counter + f.size ≤ stop
  /-- Their counters rise, from each frame to behind its end. -/
  rises : (v.walk start stop).frames.Pairwise fun f g => f.counter + f.size ≤ g.counter
  /-- No two of them have a byte of the ring in common. -/
  apart : (v.walk start stop).frames.Pairwise fun f g =>
    physicalOffset f.counter v.capacity + f.size ≤ physicalOffset g.counter v.capacity ∨
      physicalOffset g.counter v.capacity + g.size ≤ physicalOffset f.counter v.capacity
  total : ((v.walk start stop).frames.map Frame.size).sum ≤ stop - start
  count : (v.walk start stop).frames.length ≤ (stop - start) / 5
  /-- The bytes of a frame are its length and its payload. -/
  bytes : ∀ f ∈ (v.walk start stop).frames,
    v.slice (physicalOffset f.counter v.capacity) f.size = encodeFrame f.payload
  /-- They can be staged if there is no defect, and then they are staged as they stand in the ring. -/
  staged : ∀ staged, v.linearize start stop = .ok staged ↔ (v.walk start stop).defect = none ∧
    staged = (v.walk start stop).frames.flatMap fun f =>
      v.slice (physicalOffset f.counter v.capacity) f.size

/-- Over any bytes, also in a ring that is smaller than a frame. -/
theorem orderly_walk {v : View} {start stop : Nat} (hcap : IsPowerOfTwo v.capacity)
    (hle : start ≤ stop) (hlap : stop ≤ start + v.capacity) (hword : stop + v.capacity ≤ 2 ^ 64) :
    Orderly v start stop := by
  have hmeets := meets_walk (v := v) hle
  have hstands : ∀ f ∈ (v.walk start stop).frames, v.Stands stop f :=
    fun f hf => (hmeets.mem_iff.1 hf).2
  have hbytes : ∀ f ∈ (v.walk start stop).frames,
      v.slice (physicalOffset f.counter v.capacity) f.size = encodeFrame f.payload := by
    intro f hf
    have hslice := (hstands f hf).slice_eq
    rwa [length_encodeFrame, Nat.add_comm] at hslice
  refine ⟨?_, fun _ => kind_of_defect_of_le hcap hword, ?_, ?_, fun f => hmeets.mem_iff, ?_,
    hmeets.bounds, hmeets.pairwise, ?_, ?_, ?_, hbytes, ?_⟩
  · rcases hmeets.ends with ⟨n, place, hn, hlo, hhi, hends, hframes⟩
    exact ⟨n, place, by omega, hn, hends, hframes⟩
  · exact fun place i _ _ hreads => hreads.lt hcap
  · intro byte hbyte
    exact (hmeets.congr hbyte).walk_eq
  · intro f hf
    rcases classify_eq_frame (hstands f hf).classify_eq with ⟨-, hlo, hhi, -, -⟩
    omega
  · refine (hmeets.pairwise).imp_of_mem ?_
    intro f g hf hg hrises
    have hbounds := hmeets.bounds
    -- The two are less than a lap apart.
    have hlast := (hbounds g hg).2
    have hfirst := (hbounds f hf).1
    rw [physicalOffset_eq_mod hcap, physicalOffset_eq_mod hcap]
    exact stretches_disjoint ((hstands f hf).offset_add_le hcap) ((hstands g hg).offset_add_le hcap)
      hrises (by omega)
  · have hsum := hmeets.sum_size_le
    omega
  · have hlength := hmeets.length_le
    omega
  · intro staged
    have hstaged : (v.walk start stop).payloads.flatMap encodeFrame =
        (v.walk start stop).frames.flatMap fun f =>
          v.slice (physicalOffset f.counter v.capacity) f.size := by
      rw [Trail.payloads, List.flatMap_map]
      exact congrArg List.flatten (List.map_congr_left fun f hf => (hbytes f hf).symm)
    rw [← hstaged]
    cases hdefect : (v.walk start stop).defect with
    | none =>
      rw [linearize_of_none hdefect]
      simp [eq_comm]
    | some cause =>
      rw [linearize_of_some hdefect]
      simp

/-- Padding up to the end of a lap, a frame behind it, and zeros behind that. -/
def crooked : View where
  byte i := if i = 0 then 10 else 0
  capacity := 32
  limit := 12
  dirty := 15

theorem orderly_walk_crooked :
    Orderly crooked 17 49 ∧ crooked.walk 17 49 =
      ⟨[⟨32, List.replicate 10 0⟩], some (.frameLength 0 46)⟩ :=
  ⟨orderly_walk (by decide) (by decide) (by decide) (by decide), by decide +kernel⟩

end View
end Ring
end WriteBehind
