import WriteBehind.Image

/-!
# Image — ranges of bytes under writing and resizing

`Image.slice` is how headers, frames and mailboxes are read.  A write is read back where it went and
leaves every other range alone.
-/

namespace WriteBehind
namespace Image

/-- A byte inside a slice. -/
theorem getElem_slice (img : Image) (offset length : Nat) {i : Nat}
    (h : i < (img.slice offset length).length) :
    (img.slice offset length)[i] = img.byte (offset + i) := by
  simp [slice]

/-- Slices of two images agree if their bytes do. -/
theorem slice_congr {img img' : Image} {offset length : Nat}
    (h : ∀ i, offset ≤ i → i < offset + length → img.byte i = img'.byte i) :
    img.slice offset length = img'.slice offset length := by
  refine List.map_congr_left ?_
  intro i hi
  rw [List.mem_range] at hi
  exact h (offset + i) (by omega) (by omega)

/-- Bytes agree where slices do. -/
theorem byte_eq_of_slice_eq {img img' : Image} {offset length i : Nat}
    (h : img.slice offset length = img'.slice offset length) (hlo : offset ≤ i)
    (hhi : i < offset + length) : img.byte i = img'.byte i := by
  have hi : i - offset < (img.slice offset length).length := by
    rw [length_slice]
    omega
  have hsame := List.getElem_of_eq h hi
  rwa [getElem_slice, getElem_slice, Nat.add_sub_cancel' hlo] at hsame

theorem slice_append (img : Image) (offset m n : Nat) :
    img.slice offset (m + n) = img.slice offset m ++ img.slice (offset + m) n := by
  simp only [slice, List.range_add, List.map_append, List.map_map]
  congr 1
  refine List.map_congr_left ?_
  intro i _
  rw [Function.comp_apply, Nat.add_assoc]

/-- A range inside a slice. -/
theorem slice_drop_take (img : Image) (offset m n k : Nat) (h : m + n ≤ k) :
    ((img.slice offset k).drop m).take n = img.slice (offset + m) n := by
  have hk : k = m + (n + (k - m - n)) := by omega
  rw [hk, slice_append, slice_append]
  rw [List.drop_left' (length_slice img offset m), List.take_left' (length_slice img _ n)]

/-! ## Writing -/

theorem slice_write_self (img : Image) (offset : Nat) (bs : Bytes)
    (h : offset + bs.length ≤ img.size) : (img.write offset bs).slice offset bs.length = bs := by
  apply List.ext_getElem (length_slice _ _ _)
  intro i hi hi'
  rw [getElem_slice, byte_write, if_pos (by omega), Nat.add_sub_cancel_left]
  simp [hi']

/-- The image of a byte string has these bytes. -/
theorem toBytes_ofBytes (bs : Bytes) : (ofBytes bs).toBytes = bs := by
  have hsize : (ofBytes bs).size = bs.length := by rw [ofBytes, size_write, size_zeros]
  rw [toBytes, hsize, ofBytes]
  exact slice_write_self (zeros bs.length) 0 bs (by simp)

theorem byte_write_of_disjoint (img : Image) {i at' : Nat} {bs : Bytes}
    (h : i < at' ∨ at' + bs.length ≤ i) : (img.write at' bs).byte i = img.byte i := by
  rw [byte_write, if_neg (by omega)]

theorem slice_write_of_disjoint (img : Image) {offset length at' : Nat} {bs : Bytes}
    (h : offset + length ≤ at' ∨ at' + bs.length ≤ offset) :
    (img.write at' bs).slice offset length = img.slice offset length := by
  refine slice_congr ?_
  intro i hlo hhi
  exact byte_write_of_disjoint img (by omega)

/-- Writing on where a write has stopped. -/
theorem write_append (img : Image) (offset : Nat) (bs cs : Bytes) :
    img.write offset (bs ++ cs) = (img.write offset bs).write (offset + bs.length) cs := by
  induction bs generalizing img offset with
  | nil => rfl
  | cons b bs ih =>
    have hoffset : offset + (b :: bs).length = offset + 1 + bs.length := by
      simp only [List.length_cons]
      omega
    rw [List.cons_append, hoffset]
    exact ih (img.put offset b) (offset + 1)

/-! ## Zeros -/

/-- A new length changes no byte if there are only zeros behind it. -/
theorem byte_resize_of_zeros {img : Image} {n : Nat} (h : ∀ i, n ≤ i → img.byte i = 0) (i : Nat) :
    (img.resize n).byte i = img.byte i := by
  rw [byte_resize]
  split
  · rfl
  · rename_i hbehind
    exact (h i (Nat.not_lt.1 hbehind)).symm

/-- A range of zeros reads as the word zero. -/
theorem slice_eq_ofWord_zero {img : Image} {offset k : Nat}
    (h : ∀ i, offset ≤ i → i < offset + k → img.byte i = 0) :
    img.slice offset k = Bytes.ofWord k 0 := by
  induction k generalizing offset with
  | zero => rfl
  | succ k ih =>
    have hfirst : img.slice offset 1 = [0] := by
      simp only [slice, List.range_one, List.map_cons, List.map_nil, Nat.add_zero]
      rw [h offset (by omega) (by omega)]
    have hrest : img.slice (offset + 1) k = Bytes.ofWord k 0 := by
      refine ih ?_
      intro i hlo hhi
      exact h i (by omega) (by omega)
    rw [Nat.add_comm k 1, slice_append, hfirst, hrest, Nat.add_comm 1 k]
    rfl

end Image
end WriteBehind
