import Std.Data.TreeMap
import WriteBehind.Bytes

/-!
# Image — the bytes of a file or of a region of memory

An `Image` has a length and holds a byte at each offset below it.  Only the bytes that were written
take up space, all others are zero, so a long image of few records is small.

* `Image.byte` is the view: every operation is described by what it does to it;
* `Image.write` puts bytes in place, `Image.resize` cuts the image or extends it with zeros.
-/

namespace WriteBehind

/-- A string of bytes with cheap runs of zeros. -/
structure Image where
  /-- The number of bytes. -/
  size : Nat := 0
  /-- The bytes that were written, by offset. -/
  cells : Std.TreeMap Nat UInt8 := ∅

namespace Image

/-! ## Operations -/

/-- The byte at an offset, zero beyond the end. -/
def byte (img : Image) (i : Nat) : UInt8 :=
  if i < img.size then img.cells.getD i 0 else 0

/-- `n` zero bytes. -/
def zeros (n : Nat) : Image := { size := n }

/-- Puts a byte in place; nothing is put beyond the end. -/
def put (img : Image) (i : Nat) (b : UInt8) : Image := { img with cells := img.cells.insert i b }

/-- Puts bytes in place, from an offset on. -/
def write (img : Image) : Nat → Bytes → Image
  | _, [] => img
  | offset, b :: bs => write (img.put offset b) (offset + 1) bs

/-- The image of length `n` that starts with the same bytes, followed by zeros. -/
def resize (img : Image) (n : Nat) : Image where
  size := n
  cells := img.cells.filter fun i _ => i < min n img.size

/-- The bytes of the range that starts at `offset`. -/
def slice (img : Image) (offset length : Nat) : Bytes :=
  (List.range length).map fun i => img.byte (offset + i)

/-- The image of a byte string. -/
def ofBytes (bytes : Bytes) : Image := (zeros bytes.length).write 0 bytes

/-- All bytes. -/
def toBytes (img : Image) : Bytes := img.slice 0 img.size

/-! ## The view -/

@[simp] theorem size_put (img : Image) (i : Nat) (b : UInt8) : (img.put i b).size = img.size := rfl

@[simp] theorem size_write (img : Image) (offset : Nat) (bs : Bytes) :
    (img.write offset bs).size = img.size := by
  induction bs generalizing img offset with
  | nil => rfl
  | cons b bs ih => simp [write, ih]

@[simp] theorem size_resize (img : Image) (n : Nat) : (img.resize n).size = n := rfl

@[simp] theorem size_zeros (n : Nat) : (zeros n).size = n := rfl

@[simp] theorem byte_zeros (n i : Nat) : (zeros n).byte i = 0 := by
  simp [byte, zeros]

theorem byte_eq_zero (img : Image) {i : Nat} (h : img.size ≤ i) : img.byte i = 0 := by
  simp [byte, Nat.not_lt.2 h]

/-- A cell is kept if it is in front of both ends. -/
theorem getD_cells_resize (img : Image) (n i : Nat) :
    (img.resize n).cells.getD i 0 = if i < min n img.size then img.cells.getD i 0 else 0 := by
  rw [resize, Std.TreeMap.getD_filter', Std.TreeMap.getD_eq_getD_getElem?]
  cases img.cells[i]? with
  | none => rw [Option.filter_none, Option.getD_none, ite_self]
  | some b =>
    rw [Option.filter_some]
    by_cases hkept : i < min n img.size
    · rw [if_pos hkept, if_pos (decide_eq_true hkept)]
    · rw [if_neg hkept, if_neg (mt of_decide_eq_true hkept), Option.getD_none]

theorem byte_resize (img : Image) (n i : Nat) :
    (img.resize n).byte i = if i < n then img.byte i else 0 := by
  rw [byte, getD_cells_resize, size_resize]
  by_cases hn : i < n
  · rw [if_pos hn, if_pos hn, byte]
    -- A byte behind the old end is zero.
    by_cases hs : i < img.size
    · rw [if_pos hs, if_pos (by omega)]
    · rw [if_neg hs, if_neg (by omega)]
  · rw [if_neg hn, if_neg hn]

theorem byte_put (img : Image) (k : Nat) (b : UInt8) (i : Nat) :
    (img.put k b).byte i = if i = k ∧ i < img.size then b else img.byte i := by
  by_cases hs : i < img.size
  · by_cases hk : k = i
    · simp [byte, put, hs, hk]
    · have hk' : ¬ i = k := fun h => hk h.symm
      simp [byte, put, hs, hk, hk', Std.TreeMap.getD_insert]
  · simp [byte, put, hs]

theorem byte_write (img : Image) (offset : Nat) (bs : Bytes) (i : Nat) :
    (img.write offset bs).byte i =
      if offset ≤ i ∧ i < offset + bs.length ∧ i < img.size then bs.getD (i - offset) 0
      else img.byte i := by
  induction bs generalizing img offset with
  | nil =>
    have h : ¬ (offset ≤ i ∧ i < offset + 0 ∧ i < img.size) := by omega
    simp only [write, List.length_nil, if_neg h]
  | cons b bs ih =>
    simp only [write, ih, byte_put, size_put, List.length_cons]
    by_cases hi : i = offset
    · subst hi
      have h : ¬ (i + 1 ≤ i ∧ i < i + 1 + bs.length ∧ i < img.size) := by omega
      by_cases hs : i < img.size
      · have hr : i ≤ i ∧ i < i + (bs.length + 1) ∧ i < img.size := by omega
        rw [if_neg h, if_pos hr, if_pos ⟨rfl, hs⟩, Nat.sub_self]
        rfl
      · have hr : ¬ (i ≤ i ∧ i < i + (bs.length + 1) ∧ i < img.size) := by omega
        rw [if_neg h, if_neg hr, if_neg (fun hc => hs hc.2)]
    · have hp : ¬ (i = offset ∧ i < img.size) := fun hc => hi hc.1
      rw [if_neg hp]
      by_cases hr : offset ≤ i ∧ i < offset + (bs.length + 1) ∧ i < img.size
      · have h : offset + 1 ≤ i ∧ i < offset + 1 + bs.length ∧ i < img.size := by omega
        have hk : i - offset = (i - (offset + 1)) + 1 := by omega
        rw [if_pos h, if_pos hr, hk, List.getD_cons_succ]
      · have h : ¬ (offset + 1 ≤ i ∧ i < offset + 1 + bs.length ∧ i < img.size) := by omega
        rw [if_neg h, if_neg hr]

@[simp] theorem length_slice (img : Image) (offset length : Nat) :
    (img.slice offset length).length = length := by
  simp [slice]

end Image

end WriteBehind
