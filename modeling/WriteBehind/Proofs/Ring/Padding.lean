import Mathlib.Control.Monad.Basic
import WriteBehind.Proofs.Ring.Level

/-!
# Padding — the way of a padding through the words that hold it

Padding is computed in a word of 64 bits.  The ring keeps it in 32 bits, its header keeps the same 32
bits as a signed number, and a reader compares what it finds there with padding that it computes itself.

* `decode_push` is the header that is read back once a padding was recorded;
* `Recorded r p payload` says that the padding of a plan is found again by the reader that is at work and
  by one that opens the file, and `recorded_iff` that it is found again just where it is below `2 ^ 31`;
* that holds for every padding that can arise if, and only if, the record limit leaves room for it.
-/

namespace WriteBehind
namespace Ring

/-! ## Words -/

/-- No 32-bit word stands for a number of `2 ^ 31` or more. -/
theorem intOfWord32_lt (n : Nat) : Bytes.intOfWord32 n < 2 ^ 31 := by
  have hm : Bytes.intOfWord32 n = Int.bmod (n : Int) 4294967296 := rfl
  rw [hm]
  simp only [Int.bmod]
  omega

theorem intOfWord32_of_lt {n : Nat} (h : n < 2 ^ 31) : Bytes.intOfWord32 n = n := by
  have hm : Bytes.intOfWord32 n = Int.bmod (n : Int) 4294967296 := rfl
  rw [hm]
  simp only [Int.bmod]
  omega

/-! ## How long padding gets -/

section Lengths

variable {capacity limit : Nat}

/-- Padding is shorter than the ring that it stands in. -/
theorem wrapPad_lt_capacity (hcap : IsPowerOfTwo capacity)
    (hlarge : minCapacity limit ≤ capacity) (write : Nat) :
    wrapPad write capacity limit < capacity := by
  have hframes := two_mul_frameReserve_le_minCapacity limit
  have hlt : wrapPad write capacity limit < frameReserve limit := wrapPad_lt hcap
  omega

/-- The longest padding is one byte shorter than a largest frame is allowed to be, and it does arise. -/
theorem wrapPad_lt_iff {bound : Nat} (hcap : IsPowerOfTwo capacity)
    (hlarge : minCapacity limit ≤ capacity) :
    (∀ write, wrapPad write capacity limit < bound) ↔ limit + 3 < bound := by
  have hframes := two_mul_frameReserve_le_minCapacity limit
  rw [frameReserve, prefixLength] at hframes
  constructor
  · intro h
    -- One byte behind the last place for a largest frame.
    have hplace : (capacity - (limit + 3)) % capacity = capacity - (limit + 3) :=
      Nat.mod_eq_of_lt (by omega)
    have hlongest := h (capacity - (limit + 3))
    simp only [wrapPad, physicalOffset_eq_mod hcap, hplace, frameReserve, prefixLength] at hlongest
    rw [if_pos (by omega)] at hlongest
    omega
  · intro h write
    have hlt : wrapPad write capacity limit < frameReserve limit := wrapPad_lt hcap
    rw [frameReserve, prefixLength] at hlt
    omega

end Lengths

/-! ## Recording -/

section Recording

variable {r : Ring} {p : Plan} {payload : Bytes}

/-- A push whose plan fits puts the payload in its place, and publishes it if a word holds the write
counter. -/
theorem push_of_fitting (hplan : plan r.write r.read r.capacity r.limit payload.length = .ok p)
    (hfits : p.fits = true) :
    (p.nextWrite r.write < 2 ^ 64 ∧ (r.push payload).2 = r.publish p payload) ∨
    (2 ^ 64 ≤ p.nextWrite r.write ∧ (r.push payload).2 = r.place p payload) := by
  rcases push_of_plan hplan with ⟨hnot, -⟩ | ⟨-, hword, hpush⟩ | ⟨-, hword, hpush⟩ | ⟨hnot, -, -⟩
  · cases hfits.symm.trans hnot
  · exact .inl ⟨hword, congrArg Prod.snd hpush⟩
  · exact .inr ⟨hword, congrArg Prod.snd hpush⟩
  · cases hfits.symm.trans hnot

/-- The header of a ring that has just recorded padding, as it is read back from the file. -/
theorem decode_push (hdescribes : Describes r.image r.write r.read r.dirty) (hwrite : r.write < 2 ^ 64)
    (hread : r.read < 2 ^ 64)
    (hplan : plan r.write r.read r.capacity r.limit payload.length = .ok p) (hfits : p.fits = true)
    (hpad : 0 < p.pad) :
    Header.decode ((r.push payload).2.image.slice 0 Header.size) =
      .ok ⟨(r.push payload).2.write, r.read, Bytes.intOfWord32 (p.pad % 2 ^ 32)⟩ := by
  have hword : p.pad % 2 ^ 32 < 2 ^ 32 := Nat.mod_lt _ (Nat.two_pow_pos 32)
  have hsame : Bytes.word32OfInt ((p.pad % 2 ^ 32 : Nat) : Int) = p.pad % 2 ^ 32 := by
    simp only [Bytes.word32OfInt]
    omega
  rcases push_of_fitting hplan hfits with ⟨hnext, hpush⟩ | ⟨-, hpush⟩ <;> rw [hpush]
  · have hpublished := (hdescribes.publish p payload).dirty_mod
    rw [if_pos hpad] at hpublished
    show Header.decode ((r.image.applyAll (publishStores p r.write payload)).slice 0 Header.size) = _
    rw [hpublished.slice_eq_encode hword, Header.decode_encode_word _ hnext hread, hsame]
    rfl
  · have hplaced := (hdescribes.place p payload).dirty_mod
    rw [if_pos hpad] at hplaced
    show Header.decode ((r.image.applyAll (placeStores p payload)).slice 0 Header.size) = _
    rw [hplaced.slice_eq_encode hword, Header.decode_encode_word _ hwrite hread, hsame]
    rfl

/-- The padding of a plan is recorded by the push.  The reader at work finds it as long as it is, the header
in the file says the same and is believed, and where the payload is published both readers take the padding
for what it is. -/
structure Recorded (r : Ring) (p : Plan) (payload : Bytes) : Prop where
  live : (r.push payload).2.dirty = p.pad
  stored : ∃ h, Header.decode ((r.push payload).2.image.slice 0 Header.size) = .ok h ∧
    0 ≤ h.dirty ∧ h.dirty < r.capacity ∧ h.dirty.toNat = p.pad ∧ h.validate r.capacity = .ok () ∧
    (p.nextWrite r.write < 2 ^ 64 →
      ∀ path, (ofHeader path (r.push payload).2.image r.capacity r.limit h).view.classify
        r.write h.write = .ok (.padding p.pad))
  passed : p.nextWrite r.write < 2 ^ 64 →
    (r.push payload).2.view.classify r.write (r.push payload).2.write = .ok (.padding p.pad)

/-- Padding that a signed 32-bit word can hold is recorded. -/
theorem recorded_of_lt (hlevel : Level r) (hlarge : minCapacity r.limit ≤ r.capacity)
    (hdescribes : Describes r.image r.write r.read r.dirty)
    (hplan : plan r.write r.read r.capacity r.limit payload.length = .ok p)
    (hfits : p.fits = true) (hpad : 0 < p.pad) (hword : p.pad < 2 ^ 31) : Recorded r p payload := by
  rcases plan_eq_ok hplan with ⟨-, -, hle, hwrap, -, -, -⟩
  have hcap := hlevel.powerOfTwo
  have hread : r.read < 2 ^ 64 := Nat.lt_of_le_of_lt hle hlevel.write_lt
  have hshort := wrapPad_lt_capacity hcap hlarge r.write
  rw [← hwrap] at hshort
  have hkept : p.pad % 2 ^ 32 = p.pad := Nat.mod_eq_of_lt (by omega)
  have hdecode := decode_push hdescribes hlevel.write_lt hread hplan hfits hpad
  rw [hkept, intOfWord32_of_lt hword] at hdecode
  have hlevel' := hlevel.push payload
  -- The padding is kept whether the write counter is a word or not.
  have hlive : (r.push payload).2.dirty = p.pad := by
    rcases push_of_fitting hplan hfits with ⟨-, hpush⟩ | ⟨-, hpush⟩ <;> rw [hpush] <;>
      exact (if_pos hpad).trans hkept
  -- Both readers compute the padding that they find.
  have hpasses : ∀ v : View, v.capacity = r.capacity → v.limit = r.limit → v.dirty = p.pad →
      p.nextWrite r.write < 2 ^ 64 →
      v.classify r.write (r.push payload).2.write = .ok (.padding p.pad) := by
    intro v hcapacity hsame hdirty hcounts
    have hview : wrapPad r.write v.capacity v.limit = p.pad := by rw [hcapacity, hsame, hwrap]
    have hpush : (r.push payload).2 = r.publish p payload := by
      rcases push_of_fitting hplan hfits with ⟨-, hpush⟩ | ⟨hover, -⟩
      · exact hpush
      · omega
    rw [← hview, hpush]
    refine View.Layout.classify_padding ?_ ?_ ?_ hcounts
    · rwa [hview]
    · rw [hview, hdirty]
    · rw [hview]
      exact Nat.add_le_add_left (Nat.le_add_right _ _) _
  refine ⟨hlive, ⟨_, hdecode, Int.natCast_nonneg _, Int.ofNat_lt.2 hshort, Int.toNat_natCast _, ?_, ?_⟩, ?_⟩
  · have hread' := (hlevel.toFitted.push payload).2.2.1
    have hcapacity := hlevel'.2.capacity
    have hle' := hlevel'.1.read_le
    have hlap := hlevel'.1.write_le
    refine validate_of_le hcap ?_ ?_ (Int.natCast_nonneg _) (Int.ofNat_lt.2 hshort)
    · show r.read ≤ (r.push payload).2.write
      omega
    · show (r.push payload).2.write - r.read ≤ r.capacity
      omega
  · exact fun hcounts path => hpasses _ rfl rfl (Int.toNat_natCast _) hcounts
  · exact fun hcounts => hpasses _ hlevel'.2.capacity hlevel'.2.limit hlive hcounts

/-- Padding is recorded just where a signed 32-bit word can hold it; and all padding that can arise in a
ring is recorded just where the record limit leaves room for that. -/
theorem recorded_iff (hlevel : Level r) (hlarge : minCapacity r.limit ≤ r.capacity)
    (hdescribes : Describes r.image r.write r.read r.dirty) :
    (∀ payload p, plan r.write r.read r.capacity r.limit payload.length = .ok p → p.fits = true →
      0 < p.pad → (Recorded r p payload ↔ p.pad < 2 ^ 31)) ∧
    ((∀ write, wrapPad write r.capacity r.limit < 2 ^ 31) ↔ r.limit + 3 < 2 ^ 31) := by
  refine ⟨?_, wrapPad_lt_iff hlevel.powerOfTwo hlarge⟩
  intro payload p hplan hfits hpad
  refine ⟨?_, recorded_of_lt hlevel hlarge hdescribes hplan hfits hpad⟩
  rintro ⟨-, ⟨h, hdecode, -, -, hsame, -⟩, -⟩
  have hread : r.read < 2 ^ 64 := Nat.lt_of_le_of_lt hlevel.read_le hlevel.write_lt
  rw [decode_push hdescribes hlevel.write_lt hread hplan hfits hpad] at hdecode
  cases hdecode
  -- No word that is read back stands for more.
  have hlt := intOfWord32_lt (p.pad % 2 ^ 32)
  simp only at hsame
  omega

end Recording

/-- A ring with nothing in it, eight bytes in front of its physical end. -/
def nearEnd : Ring :=
  ofHeader "q" ((Image.zeros 88).write 0 (Header.encode ⟨56, 56, 0⟩)) 64 16 ⟨56, 56, 0⟩

theorem recorded_iff_nearEnd :
    plan nearEnd.write nearEnd.read nearEnd.capacity nearEnd.limit ([97] : Bytes).length =
        .ok ⟨8, 0, 5, true⟩ ∧
      Recorded nearEnd ⟨8, 0, 5, true⟩ [97] := by
  have hlevel : Level nearEnd :=
    ⟨⟨by decide, .of_size (by decide +kernel), by decide⟩, by decide, by decide⟩
  have hdescribes : Describes nearEnd.image nearEnd.write nearEnd.read nearEnd.dirty :=
    ⟨by decide +kernel, by decide +kernel, by decide +kernel, by decide +kernel, by decide +kernel⟩
  have hplan : plan nearEnd.write nearEnd.read nearEnd.capacity nearEnd.limit
      ([97] : Bytes).length = .ok ⟨8, 0, 5, true⟩ := rfl
  exact ⟨hplan, ((recorded_iff hlevel (by decide) hdescribes).1 _ _ hplan rfl (by decide)).2
    (by decide)⟩

/-- A ring with a record limit close to `2 ^ 31`, with nothing in it and `2 ^ 31` bytes in front of its
physical end. -/
def wideRing : Ring :=
  ofHeader "q" ((Image.zeros (24 + 2 ^ 33)).write 0
    (Header.encode ⟨2 ^ 33 - 2 ^ 31, 2 ^ 33 - 2 ^ 31, 0⟩)) (2 ^ 33) (2 ^ 31 - 3)
    ⟨2 ^ 33 - 2 ^ 31, 2 ^ 33 - 2 ^ 31, 0⟩

/-- The record limit is accepted and the ring has room for two frames; and yet the padding that a push
records is negative where it is read back, and the header is refused. -/
theorem padding_read_back_negative :
    checkRecordLimit wideRing.limit = .ok () ∧ IsPowerOfTwo wideRing.capacity ∧
      minCapacity wideRing.limit ≤ wideRing.capacity ∧
      plan wideRing.write wideRing.read wideRing.capacity wideRing.limit ([97] : Bytes).length =
        .ok ⟨2 ^ 31, 0, 5, true⟩ ∧
      (wideRing.push [97]).1 = .ok .done ∧ (wideRing.push [97]).2.dirty = 2 ^ 31 ∧
      Header.decode ((wideRing.push [97]).2.image.slice 0 Header.size) =
        .ok ⟨2 ^ 33 + 5, 2 ^ 33 - 2 ^ 31, -2 ^ 31⟩ ∧
      Header.validate ⟨2 ^ 33 + 5, 2 ^ 33 - 2 ^ 31, -2 ^ 31⟩ wideRing.capacity =
        .error .dirtySizeRange ∧
      ¬ Recorded wideRing ⟨2 ^ 31, 0, 5, true⟩ [97] := by
  have hdecode : Header.decode ((wideRing.push [97]).2.image.slice 0 Header.size) =
      .ok ⟨2 ^ 33 + 5, 2 ^ 33 - 2 ^ 31, -2 ^ 31⟩ := by decide +kernel
  refine ⟨rfl, by decide, by decide, rfl, rfl, rfl, hdecode, rfl, ?_⟩
  rintro ⟨-, ⟨h, hdecode', hpos, -⟩, -⟩
  cases hdecode.symm.trans hdecode'
  revert hpos
  decide

end Ring
end WriteBehind
