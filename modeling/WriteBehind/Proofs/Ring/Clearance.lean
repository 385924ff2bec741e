import WriteBehind.Proofs.Ring.Level

/-!
# Clearance — pushes keep clear of what is unread

A frame is written over ring bytes without a look at what they held.  That is sound because a plan that
fits stands at the place of no unread counter, however full the ring is and wherever its counters stand.

* `Clear write read capacity limit p` says how a plan stands to the unread bytes, and `clear_plan` that
  every plan that fits does so;
* `Pushed r r'` makes any number of pushes, and `Pushed.keeps` says that they all leave the unread bytes
  alone;
* `kept_of_pushed` joins the two, and says it of the record on loan as well.
-/

namespace WriteBehind
namespace Ring

/-! ## Plans -/

/-- A planned frame keeps clear of what is unread. -/
structure Clear (write read capacity limit : Nat) (p : Plan) : Prop where
  /-- It stands where its counter stands. -/
  offset : p.offset = (write + p.pad) % capacity
  /-- It does not cross the physical end. -/
  inside : p.offset + p.frameLength ≤ capacity
  /-- Once it is published the counters are still at most a lap apart. -/
  lap : p.nextWrite write - read ≤ capacity
  /-- No unread counter stands where it is to stand. -/
  apart : ∀ c, read ≤ c → c < write →
    physicalOffset c capacity < p.offset ∨ p.offset + p.frameLength ≤ physicalOffset c capacity
  /-- With room for two frames a reader skips just the padding in front of it. -/
  padding : minCapacity limit ≤ capacity →
    wrapPad write capacity limit = p.pad ∧ wrapPad (write + p.pad) capacity limit = 0

theorem clear_plan {write read capacity limit length : Nat} {p : Plan} (hcap : IsPowerOfTwo capacity)
    (hplan : plan write read capacity limit length = .ok p) (hfits : p.fits = true) :
    Clear write read capacity limit p := by
  rcases plan_eq_ok hplan with ⟨-, -, hle, hpad, -, -, hfit⟩
  have hroom := hfits
  rw [hfit, decide_eq_true_eq] at hroom
  have hnext : p.nextWrite write = write + (p.pad + p.frameLength) := rfl
  refine ⟨plan_offset hcap hplan, plan_end_le_of_fits hcap hplan hfits, by omega, ?_, ?_⟩
  · intro c hlo hhi
    rw [physicalOffset_eq_mod hcap]
    exact plan_disjoint hcap hplan hfits hlo hhi
  · intro hlarge
    have hframes := two_mul_frameReserve_le_minCapacity limit
    exact ⟨hpad.symm, plan_wrapPad hcap (by omega) hplan⟩

/-! ## Pushes -/

/-- The unread bytes of `r` are the same in `r'`. -/
def KeepsUnread (r r' : Ring) : Prop :=
  ∀ c, r.read ≤ c → c < r.write →
    r'.view.byte (physicalOffset c r.capacity) = r.view.byte (physicalOffset c r.capacity)

/-- A push leaves the unread bytes alone, whether it is done, refused or left waiting. -/
theorem keepsUnread_push {r : Ring} (hcap : IsPowerOfTwo r.capacity) (payload : Bytes) :
    KeepsUnread r (r.push payload).2 := by
  intro c hlo hhi
  -- A payload is put in its place whether its write counter is a word or not.
  have hplaced : ∀ p, plan r.write r.read r.capacity r.limit payload.length = .ok p → p.fits = true →
      (r.place p payload).view.byte (physicalOffset c r.capacity) =
        r.view.byte (physicalOffset c r.capacity) := by
    intro p hplan hfits
    have hplace := plan_disjoint hcap hplan hfits hlo hhi
    have hframe := (plan_eq_ok hplan).2.2.2.2.2.1
    have hlength := View.length_encodeFrame payload
    rw [physicalOffset_eq_mod hcap]
    refine byte_place_of_disjoint r.image p payload (Nat.le_add_right _ _) ?_
    omega
  rcases r.push_cases payload with ⟨cause, hpush⟩ | ⟨p, hplan, hfits, -, hpush⟩ |
    ⟨p, hplan, hfits, -, hpush⟩ | ⟨p, -, -, -, hpush⟩ <;> rw [hpush]
  · rw [view_publish]
    exact hplaced p hplan hfits
  · exact hplaced p hplan hfits
  · have himage := (untouched_askForRoom r ⟨growTarget r.capacity 0, p.frameLength⟩).image
    show (r.askForRoom _).2.image.byte _ = _
    rw [himage]
    rfl

/-- Payloads are pushed one after the other. -/
inductive Pushed (r : Ring) : Ring → Prop
  | none : Pushed r r
  | push {r' : Ring} (pushed : Pushed r r') (payload : Bytes) : Pushed r (r'.push payload).2

namespace Pushed

variable {r r' : Ring}

/-- Any number of pushes leave the unread bytes and the read counter alone. -/
theorem keeps (h : Pushed r r') (hlevel : Level r) :
    Level r' ∧ Climbs r r' ∧ r'.read = r.read ∧ KeepsUnread r r' := by
  induction h with
  | none => exact ⟨hlevel, .refl r, rfl, fun _ _ _ => rfl⟩
  | @push r' _ payload ih =>
    rcases ih with ⟨hlevel', hclimbs, hread, hkeeps⟩
    rcases hlevel'.push payload with ⟨hlevel'', hclimbs'⟩
    have hread' := (hlevel'.toFitted.push payload).2.2.1
    refine ⟨hlevel'', hclimbs.trans hclimbs', hread'.trans hread, ?_⟩
    intro c hlo hhi
    -- What was unread before the first push still is before the last one.
    have hwrite := hclimbs.write
    have hlast := keepsUnread_push hlevel'.powerOfTwo payload c (by omega) (by omega)
    rw [hclimbs.capacity] at hlast
    exact hlast.trans (hkeeps c hlo hhi)

end Pushed

/-! ## Unread frames -/

/-- The payload of a frame that lies between the counters is read as before. -/
theorem KeepsUnread.payload_eq {r r' : Ring} (h : KeepsUnread r r') (hcap : IsPowerOfTwo r.capacity)
    (hcapacity : r'.capacity = r.capacity) {start length : Nat} (hlo : r.read ≤ start)
    (hhi : start + (length + prefixLength) ≤ r.write) (hlength : length < r.limit)
    (hpad : wrapPad start r.capacity r.limit = 0) :
    r'.view.payload start length = r.view.payload start length := by
  have hend := offset_add_le_of_wrapPad_eq_zero hcap hpad
  rw [frameReserve] at hend
  show r'.view.slice (physicalOffset start r'.capacity + prefixLength) length =
    r.view.slice (physicalOffset start r.capacity + prefixLength) length
  rw [hcapacity, physicalOffset_eq_mod hcap]
  refine View.slice_congr ?_
  intro i hfirst hlast
  -- The place `i` is that of a counter inside the frame.
  have hbyte := h (start + (i - start % r.capacity)) (by omega) (by omega)
  rw [physicalOffset_eq_mod hcap, mod_add_of_le (by omega)] at hbyte
  have hi : start % r.capacity + (i - start % r.capacity) = i := by omega
  rwa [hi] at hbyte

/-- A record that a look at the front has given stands at the read counter that there is then. -/
theorem front_eq_some {r r' : Ring} {l : Lease} (h : r.front = (.ok (some l), r')) :
    ∃ n, r'.view.classify r'.read r'.write = .ok (.frame n) ∧ l = r'.lease n := by
  rw [front] at h
  split at h
  · cases h
  · split at h
    · cases h
    · split at h
      · cases h
      · rename_i n hclassify
        cases h
        exact ⟨n, hclassify, rfl⟩
      · dsimp only at h
        split at h
        · cases h
        · split at h
          · cases h
          · rename_i n hclassify
            cases h
            exact ⟨n, hclassify, rfl⟩
          · cases h

theorem pop_eq_some {r r' : Ring} {l : Lease} (h : r.pop = (.ok (some l), r')) :
    ∃ n, r'.view.classify r'.read r'.write = .ok (.frame n) ∧ l = r'.lease n := by
  simp only [pop] at h
  split at h
  · exact front_eq_some h
  · split at h
    · cases h
    · exact front_eq_some h

/-- However many payloads are pushed, no planned frame that fits stands at the place of an unread counter,
and nothing that is unread changes: neither the bytes between the counters nor the record on loan. -/
theorem kept_of_pushed :
    (∀ write read capacity limit length p, IsPowerOfTwo capacity →
      plan write read capacity limit length = .ok p → p.fits = true →
      Clear write read capacity limit p) ∧
    ∀ r r' : Ring, Level r → Pushed r r' →
      Level r' ∧ r'.read = r.read ∧ r'.capacity = r.capacity ∧ KeepsUnread r r' ∧
        ∀ (r₀ : Ring) l, r₀.pop = (.ok (some l), r) → r'.leased l = l.payload := by
  refine ⟨fun write read capacity limit length p hcap hplan hfits => clear_plan hcap hplan hfits, ?_⟩
  intro r r' hlevel hpushed
  rcases hpushed.keeps hlevel with ⟨hlevel', hclimbs, hread, hkeeps⟩
  refine ⟨hlevel', hread, hclimbs.capacity, hkeeps, ?_⟩
  intro r₀ l hpop
  rcases pop_eq_some hpop with ⟨n, hclassify, rfl⟩
  rcases View.classify_eq_frame hclassify with ⟨hpad, -, hlength, -, hend⟩
  -- The frame on loan lies between the counters.
  have hpayload := hkeeps.payload_eq hlevel.powerOfTwo hclimbs.capacity (Nat.le_refl _) hend
    hlength hpad
  have hloan : (r.lease n).payload.length = n := View.length_slice r.view _ n
  show r'.view.payload r.read (r.lease n).payload.length = r.view.payload r.read n
  rw [hloan]
  exact hpayload

/-- Two records of ten bytes, in front of the physical end and not at the start of a lap. -/
def lateBytes : Image :=
  ((Image.zeros 88).write 0 (Header.encode ⟨56, 28, 0⟩)).write (Header.size + 28)
    (View.encodeFrame (List.replicate 10 1) ++ View.encodeFrame (List.replicate 10 2))

/-- Two more records, behind eight bytes of padding, fill the ring to the last byte, and the first record
is still on loan. -/
theorem kept_of_pushed_full :
    ∃ r r' l p, (ofHeader "q" lateBytes 64 16 ⟨56, 28, 0⟩).pop = (.ok (some l), r) ∧ Pushed r r' ∧
      plan r.write r.read r.capacity r.limit 10 = .ok p ∧ p.pad = 8 ∧
      Clear r.write r.read r.capacity 16 p ∧ r'.write - r'.read = r'.capacity ∧
      r'.leased l = l.payload ∧ l.payload = List.replicate 10 1 := by
  have hlevel : Level (ofHeader "q" lateBytes 64 16 ⟨56, 28, 0⟩) :=
    ⟨⟨by decide, .of_size (by decide +kernel), by decide⟩, by decide, by decide⟩
  have first : Pushed (ofHeader "q" lateBytes 64 16 ⟨56, 28, 0⟩) _ :=
    Pushed.none.push (List.replicate 10 3)
  have second := first.push (List.replicate 10 4)
  have hpop : (ofHeader "q" lateBytes 64 16 ⟨56, 28, 0⟩).pop =
      (.ok (some ⟨28, List.replicate 10 1, 42⟩), ofHeader "q" lateBytes 64 16 ⟨56, 28, 0⟩) := rfl
  have hplan : plan 56 28 64 16 10 = .ok ⟨8, 0, 14, true⟩ := rfl
  rcases kept_of_pushed with ⟨hclear, hkept⟩
  rcases hkept _ _ hlevel second with ⟨-, -, -, -, hleased⟩
  refine ⟨_, _, _, _, hpop, second, hplan, rfl, ?_, ?_, hleased _ _ hpop, rfl⟩
  · exact hclear _ _ _ _ _ _ (by decide) hplan rfl
  · decide +kernel

end Ring
end WriteBehind
