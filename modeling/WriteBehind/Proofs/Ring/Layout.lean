import WriteBehind.Proofs.Ring.Places
import WriteBehind.Ring.Walk

/-!
# Layout — payloads laid out between two counters

`View.Layout v position stop payloads` says, piece by piece, that the ring bytes between two counters
are the frames of these payloads, with padding where and only where the wrap rule asks for it.

* `Layout.walk_eq` and `Layout.linearize_eq`: a walk over a layout meets its payloads and no defect;
* `Layout.append`: layouts that meet are one layout;
* `Layout.congr` and `Layout.redirty`: a layout depends only on its own bytes, and on the dirty size
  only if it has padding;
* `Layout.of_contiguous`: frames without gaps in the first part of a ring are a layout.
-/

namespace WriteBehind
namespace Ring

/-- The payloads that a walk came across. -/
def Trail.payloads (t : Trail) : List Bytes := t.frames.map Frame.payload

namespace View

/-! ## Slices -/

theorem length_slice (v : View) (offset length : Nat) : (v.slice offset length).length = length := by
  simp [slice]

theorem slice_congr {v v' : View} {offset length : Nat}
    (h : ∀ i, offset ≤ i → i < offset + length → v.byte i = v'.byte i) :
    v.slice offset length = v'.slice offset length := by
  refine List.map_congr_left ?_
  intro i hi
  rw [List.mem_range] at hi
  exact h (offset + i) (by omega) (by omega)

theorem slice_append (v : View) (offset m n : Nat) :
    v.slice offset (m + n) = v.slice offset m ++ v.slice (offset + m) n := by
  simp only [slice, List.range_add, List.map_append, List.map_map]
  congr 1
  refine List.map_congr_left ?_
  intro i _
  rw [Function.comp_apply, Nat.add_assoc]

theorem length_encodeFrame (payload : Bytes) :
    (encodeFrame payload).length = prefixLength + payload.length := by
  rw [encodeFrame, List.length_append, Bytes.length_ofWord32, prefixLength]

theorem slice_eq_encodeFrame_iff {v : View} {offset : Nat} {payload : Bytes} :
    v.slice offset (encodeFrame payload).length = encodeFrame payload ↔
      v.slice offset prefixLength = Bytes.ofWord32 payload.length ∧
        v.slice (offset + prefixLength) payload.length = payload := by
  rw [length_encodeFrame, slice_append, encodeFrame]
  constructor
  · intro h
    -- Both sides split after the four bytes of the length.
    refine List.append_inj h ?_
    rw [length_slice, Bytes.length_ofWord32, prefixLength]
  · rintro ⟨hlengthBytes, hpayload⟩
    rw [hlengthBytes, hpayload]

/-- The four bytes of the length prefix hold the length, if it is below `2 ^ 32`. -/
theorem lengthAt_of_slice {v : View} {offset : Nat} {payload : Bytes}
    (h : v.slice offset (encodeFrame payload).length = encodeFrame payload)
    (hword : payload.length < 2 ^ 32) : v.lengthAt offset = payload.length := by
  rw [lengthAt, (slice_eq_encodeFrame_iff.1 h).1]
  exact Bytes.toWord_ofWord32 _ hword

/-! ## Steps of a walk -/

section Steps

variable {v : View} {position stop : Nat}

theorem walk_of_le (hle : stop ≤ position) : v.walk position stop = {} := by
  rw [walk, if_neg (Nat.not_lt.2 hle)]

theorem walk_of_padding {n : Nat} (h : v.classify position stop = .ok (.padding n)) :
    v.walk position stop = v.walk (position + n) stop := by
  have hsize := classify_size h
  rw [walk, if_pos (by omega)]
  -- Two of the three branches stand for other pieces.
  split <;> rename_i hc <;> rw [h] at hc <;> cases hc
  rfl

theorem walk_of_frame {n : Nat} (h : v.classify position stop = .ok (.frame n)) :
    v.walk position stop =
      (v.walk (position + (n + prefixLength)) stop).cons ⟨position, v.payload position n⟩ := by
  have hsize := classify_size h
  rw [walk, if_pos (by omega)]
  split <;> rename_i hc <;> rw [h] at hc <;> cases hc
  rfl

theorem walk_of_error {cause : Cause} (hlt : position < stop)
    (h : v.classify position stop = .error cause) : v.walk position stop = { defect := some cause } := by
  rw [walk, if_pos hlt]
  split <;> rename_i hc <;> rw [h] at hc <;> cases hc
  rfl

end Steps

/-! ## Staging what was walked over -/

section Staging

variable {v : View} {position stop : Nat}

theorem linearize_of_some {cause : Cause} (h : (v.walk position stop).defect = some cause) :
    v.linearize position stop = .error cause := by
  simp only [linearize, h]

theorem linearize_of_none (h : (v.walk position stop).defect = none) :
    v.linearize position stop = .ok ((v.walk position stop).payloads.flatMap encodeFrame) := by
  simp only [linearize, h, Trail.payloads, List.flatMap_map]

end Staging

/-! ## Layouts -/

/-- The bytes from `position` up to `stop` are the frames of these payloads, and padding. -/
inductive Layout (v : View) : Nat → Nat → List Bytes → Prop
  | done (position : Nat) : Layout v position position []
  | padding {position stop : Nat} {payloads : List Bytes}
      (hpad : 0 < wrapPad position v.capacity v.limit)
      (hdirty : wrapPad position v.capacity v.limit = v.dirty)
      (rest : Layout v (position + wrapPad position v.capacity v.limit) stop payloads) :
      Layout v position stop payloads
  | frame {position stop : Nat} {payload : Bytes} {payloads : List Bytes}
      (hpad : wrapPad position v.capacity v.limit = 0)
      (hpos : 0 < payload.length) (hlimit : payload.length < v.limit)
      (hbytes : v.slice (physicalOffset position v.capacity) (encodeFrame payload).length =
        encodeFrame payload)
      (rest : Layout v (position + (payload.length + prefixLength)) stop payloads) :
      Layout v position stop (payload :: payloads)

namespace Layout

variable {v : View} {position stop : Nat} {payloads : List Bytes}

theorem le (h : Layout v position stop payloads) : position ≤ stop := by
  induction h with
  | done position => exact Nat.le_refl position
  | padding _ _ _ ih => omega
  | frame _ _ _ _ _ ih => omega

theorem eq_nil (h : Layout v position position payloads) : payloads = [] := by
  generalize hstop : position = stop at h
  -- Every piece moves the counter on.
  cases h with
  | done => rfl
  | padding hpad _ rest =>
    have hle := rest.le
    omega
  | frame _ hpos _ _ rest =>
    have hle := rest.le
    omega

theorem append {middle : Nat} {more : List Bytes} (h : Layout v position middle payloads)
    (h' : Layout v middle stop more) : Layout v position stop (payloads ++ more) := by
  induction h with
  | done => exact h'
  | padding hpad hdirty _ ih => exact .padding hpad hdirty (ih h')
  | frame hpad hpos hlimit hbytes _ ih => exact .frame hpad hpos hlimit hbytes (ih h')

/-- The frames themselves take up no more than the distance between the counters. -/
theorem length_flatMap_le (h : Layout v position stop payloads) :
    (payloads.flatMap encodeFrame).length ≤ stop - position := by
  induction h with
  | done => simp
  | padding _ _ rest ih =>
    have hle := rest.le
    omega
  | frame _ _ _ _ rest ih =>
    have hle := rest.le
    rw [List.flatMap_cons, List.length_append, length_encodeFrame]
    omega

theorem length_lt_of_mem (h : Layout v position stop payloads) {payload : Bytes}
    (hmem : payload ∈ payloads) : 0 < payload.length ∧ payload.length < v.limit := by
  induction h with
  | done => simp at hmem
  | padding _ _ _ ih => exact ih hmem
  | frame _ hpos hlimit _ _ ih =>
    rcases List.mem_cons.1 hmem with rfl | hrest
    · exact ⟨hpos, hlimit⟩
    · exact ih hrest

/-! ## The first piece -/

/-- Where padding is due, a layout that does not end there goes on behind it. -/
theorem of_padding (h : Layout v position stop payloads)
    (hpad : 0 < wrapPad position v.capacity v.limit) (hne : position ≠ stop) :
    wrapPad position v.capacity v.limit = v.dirty ∧
      Layout v (position + wrapPad position v.capacity v.limit) stop payloads := by
  cases h with
  | done => exact absurd rfl hne
  | padding _ hdirty rest => exact ⟨hdirty, rest⟩
  | frame hzero _ _ _ _ => omega

/-- Where no padding is due, a layout that does not end there starts with a frame. -/
theorem of_frame (h : Layout v position stop payloads)
    (hpad : wrapPad position v.capacity v.limit = 0) (hne : position ≠ stop) :
    ∃ payload rest, payloads = payload :: rest ∧ 0 < payload.length ∧ payload.length < v.limit ∧
      v.slice (physicalOffset position v.capacity) (encodeFrame payload).length =
        encodeFrame payload ∧
      Layout v (position + (payload.length + prefixLength)) stop rest := by
  cases h with
  | done => exact absurd rfl hne
  | padding hpos _ _ => omega
  | frame _ hpos hlimit hbytes rest => exact ⟨_, _, rfl, hpos, hlimit, hbytes, rest⟩

/-! ## Walking over a layout -/

theorem classify_padding (hpad : 0 < wrapPad position v.capacity v.limit)
    (hdirty : wrapPad position v.capacity v.limit = v.dirty)
    (hle : position + wrapPad position v.capacity v.limit ≤ stop) (hstop : stop < 2 ^ 64) :
    v.classify position stop = .ok (.padding (wrapPad position v.capacity v.limit)) := by
  rw [classify]
  simp only
  rw [if_pos hpad, if_neg (by omega), if_neg (by omega), if_neg (by omega)]

theorem classify_frame {payload : Bytes} (hpad : wrapPad position v.capacity v.limit = 0)
    (hpos : 0 < payload.length) (hlimit : payload.length < v.limit) (hword : v.limit ≤ 2 ^ 32)
    (hbytes : v.slice (physicalOffset position v.capacity) (encodeFrame payload).length =
      encodeFrame payload)
    (hle : position + (payload.length + prefixLength) ≤ stop) (hstop : stop < 2 ^ 64) :
    v.classify position stop = .ok (.frame payload.length) := by
  have hlength := lengthAt_of_slice hbytes (Nat.lt_of_lt_of_le hlimit hword)
  rw [classify]
  simp only [hlength]
  rw [if_neg (by omega), if_neg (by omega), if_neg (by omega), if_neg (by omega)]

/-- A walk meets the payloads in order, and then goes on. -/
theorem walk_append {middle : Nat} (h : Layout v position middle payloads)
    (hword : v.limit ≤ 2 ^ 32) (hle : middle ≤ stop) (hstop : stop < 2 ^ 64) :
    (v.walk position stop).payloads = payloads ++ (v.walk middle stop).payloads ∧
      (v.walk position stop).defect = (v.walk middle stop).defect := by
  induction h with
  | done position => exact ⟨rfl, rfl⟩
  | padding hpad hdirty rest ih =>
    have hmiddle := rest.le
    have hclassify := classify_padding hpad hdirty (Nat.le_trans hmiddle hle) hstop
    rw [walk_of_padding hclassify]
    exact ih hle
  | @frame position middle payload payloads hpad hpos hlimit hbytes rest ih =>
    have hmiddle := rest.le
    have hclassify :=
      classify_frame hpad hpos hlimit hword hbytes (Nat.le_trans hmiddle hle) hstop
    have hpayload : v.payload position payload.length = payload :=
      (slice_eq_encodeFrame_iff.1 hbytes).2
    rcases ih hle with ⟨hpayloads, hdefect⟩
    simp only [Trail.payloads] at hpayloads ⊢
    rw [walk_of_frame hclassify, Trail.cons, List.map_cons, hpayloads, hpayload,
      List.cons_append]
    exact ⟨rfl, hdefect⟩

/-- A walk up to the end of a layout meets nothing that stops it. -/
theorem walk_eq (h : Layout v position stop payloads) (hword : v.limit ≤ 2 ^ 32)
    (hstop : stop < 2 ^ 64) :
    (v.walk position stop).payloads = payloads ∧ (v.walk position stop).defect = none := by
  have hwalk := h.walk_append hword (Nat.le_refl stop) hstop
  rw [walk_of_le (Nat.le_refl stop)] at hwalk
  rwa [show Trail.payloads {} = [] from rfl, List.append_nil] at hwalk

theorem linearize_eq (h : Layout v position stop payloads) (hword : v.limit ≤ 2 ^ 32)
    (hstop : stop < 2 ^ 64) :
    v.linearize position stop = .ok (payloads.flatMap encodeFrame) := by
  rcases h.walk_eq hword hstop with ⟨hpayloads, hdefect⟩
  rw [linearize_of_none hdefect, hpayloads]

/-! ## What a layout depends on -/

/-- A layout stands in every view that has the same bytes at its places. -/
theorem congr {v' : View} (h : Layout v position stop payloads) (hcap : IsPowerOfTwo v.capacity)
    (hcapacity : v'.capacity = v.capacity) (hlimit : v'.limit = v.limit)
    (hdirty : v'.dirty = v.dirty)
    (hbyte : ∀ c, position ≤ c → c < stop → v'.byte (c % v.capacity) = v.byte (c % v.capacity)) :
    Layout v' position stop payloads := by
  induction h with
  | done position => exact .done position
  | padding hpad hpadDirty rest ih =>
    have hle := rest.le
    have hnext := ih (fun c hlo hhi => hbyte c (by omega) hhi)
    rw [← hcapacity, ← hlimit] at hpad hpadDirty hnext
    exact .padding hpad (hpadDirty.trans hdirty.symm) hnext
  | @frame position stop payload payloads hpad hpos hlen hbytes rest ih =>
    have hle := rest.le
    have hnext := ih (fun c hlo hhi => hbyte c (by omega) hhi)
    have hfit := offset_add_le_of_wrapPad_eq_zero hcap hpad
    rw [frameReserve] at hfit
    have hslice : v'.slice (physicalOffset position v.capacity) (encodeFrame payload).length =
        v.slice (physicalOffset position v.capacity) (encodeFrame payload).length := by
      refine slice_congr ?_
      intro i hlo hhi
      rw [length_encodeFrame, physicalOffset_eq_mod hcap] at hhi
      rw [physicalOffset_eq_mod hcap] at hlo
      -- The place `i` of the frame is that of a counter between the frame's ends.
      have hplace := hbyte (position + (i - position % v.capacity)) (by omega) (by omega)
      rw [mod_add_of_le (by omega)] at hplace
      have hi : position % v.capacity + (i - position % v.capacity) = i := by omega
      rwa [hi] at hplace
    rw [hbytes] at hslice
    refine .frame ?_ hpos ?_ ?_ hnext
    · rw [hcapacity, hlimit]
      exact hpad
    · rw [hlimit]
      exact hlen
    · rw [hcapacity]
      exact hslice

/-- While a frame behind the layout needs padding and still fits, no other padding is unread: the
dirty size may be written over. -/
theorem redirty {later : Nat} (h : Layout v position stop payloads) (hcap : IsPowerOfTwo v.capacity)
    (hlater : stop ≤ later) (hpad : 0 < wrapPad later v.capacity v.limit)
    (hfits : later + wrapPad later v.capacity v.limit ≤ position + v.capacity) (dirty : Nat) :
    Layout { v with dirty } position stop payloads := by
  induction h with
  | done position => exact .done position
  | @padding position stop payloads hpad' _ rest _ =>
    -- Two paddings end a lap each, so they are a lap apart.
    have hend := add_wrapPad_mod hcap hpad
    have hend' := add_wrapPad_mod hcap hpad'
    have hle := rest.le
    have hlap : (position + wrapPad position v.capacity v.limit) % v.capacity ≠
        (later + wrapPad later v.capacity v.limit) % v.capacity :=
      mod_ne_of_lt (by omega) (by omega)
    omega
  | frame hpad' hpos hlimit hbytes rest ih =>
    exact .frame hpad' hpos hlimit hbytes (ih hlater (by omega))

/-! ## Frames without gaps -/

/-- Frames from `start` on without gaps are a layout, or some of them are, up to a place where padding
is due. -/
theorem contiguous_cases (hcap : IsPowerOfTwo v.capacity) (payloads : List Bytes) {start : Nat}
    (hmem : ∀ payload ∈ payloads, 0 < payload.length ∧ payload.length < v.limit)
    (hroom : start + (payloads.flatMap encodeFrame).length ≤ v.capacity)
    (hbytes : v.slice start (payloads.flatMap encodeFrame).length = payloads.flatMap encodeFrame) :
    Layout v start (start + (payloads.flatMap encodeFrame).length) payloads ∨
      ∃ middle first, Layout v start middle first ∧ first <+: payloads ∧
        middle < start + (payloads.flatMap encodeFrame).length ∧
        0 < wrapPad middle v.capacity v.limit := by
  induction payloads generalizing start with
  | nil => exact .inl (.done start)
  | cons payload payloads ih =>
    rw [List.flatMap_cons, List.length_append] at hroom hbytes ⊢
    have hlength := length_encodeFrame payload
    rw [prefixLength] at hlength
    by_cases hpad : 0 < wrapPad start v.capacity v.limit
    · exact .inr ⟨start, [], .done start, List.nil_prefix, by omega, hpad⟩
    · have hplace : start % v.capacity = start := Nat.mod_eq_of_lt (by omega)
      rw [slice_append] at hbytes
      -- The first frame, and the rest behind it.
      have hsplit := List.append_inj hbytes (length_slice v start _)
      have hrest := ih (fun p hp => hmem p (List.mem_cons_of_mem payload hp)) (by omega) hsplit.2
      rcases hmem payload List.mem_cons_self with ⟨hpos, hlimit⟩
      have hnext : start + (encodeFrame payload).length = start + (payload.length + prefixLength) := by
        rw [prefixLength]
        omega
      have hframe : v.slice (physicalOffset start v.capacity) (encodeFrame payload).length =
          encodeFrame payload := by
        rw [physicalOffset_eq_mod hcap, hplace]
        exact hsplit.1
      rw [← Nat.add_assoc, hnext]
      rw [hnext] at hrest
      rcases hrest with hlayout | ⟨middle, first, hlayout, hfirst, hlt, hpad'⟩
      · exact .inl (.frame (by omega) hpos hlimit hframe hlayout)
      · exact .inr ⟨middle, payload :: first, .frame (by omega) hpos hlimit hframe hlayout,
          (List.prefix_cons_inj payload).2 hfirst, hlt, hpad'⟩

/-- They all are, as long as they stay in the part of the ring where no padding is asked for. -/
theorem of_contiguous (hcap : IsPowerOfTwo v.capacity) (payloads : List Bytes) {start : Nat}
    (hmem : ∀ payload ∈ payloads, 0 < payload.length ∧ payload.length < v.limit)
    (hroom : start + (payloads.flatMap encodeFrame).length + frameReserve v.limit ≤ v.capacity)
    (hbytes : v.slice start (payloads.flatMap encodeFrame).length = payloads.flatMap encodeFrame) :
    Layout v start (start + (payloads.flatMap encodeFrame).length) payloads := by
  rcases contiguous_cases hcap payloads hmem (by omega) hbytes with hlayout |
    ⟨middle, first, -, -, hlt, hpad⟩
  · exact hlayout
  · have hreserve : 0 < frameReserve v.limit := by simp only [frameReserve, prefixLength]; omega
    have hplace : middle % v.capacity = middle := Nat.mod_eq_of_lt (by omega)
    have hzero : wrapPad middle v.capacity v.limit = 0 := wrapPad_eq_zero_of_le hcap (by omega)
    omega

end Layout
end View

end Ring
end WriteBehind
