import WriteBehind.Bytes
import WriteBehind.Ring.Geometry

/-!
# Header — the first bytes of a queue file

A queue file starts with 24 bytes: the write counter and the read counter as 64-bit words, the dirty
size as a signed 32-bit word, and a 32-bit mark that is set while a resize rewrites the file.

* `Header.encode` writes a header with the mark clear, `Header.decode` reads one;
* `Header.validate` checks the counters and the dirty size against a capacity;
* `Header.decode_encode` says that reading undoes writing.
-/

namespace WriteBehind
namespace Ring

/-- The fields of a header other than the resize mark. -/
structure Header where
  write : Nat := 0
  read : Nat := 0
  dirty : Int := 0
  deriving DecidableEq, Repr

namespace Header

/-! ## Layout -/

/-- The length of a header. -/
def size : Nat := 24

/-- Where the write counter is stored. -/
def writeOffset : Nat := 0

/-- Where the read counter is stored. -/
def readOffset : Nat := 8

/-- Where the dirty size is stored. -/
def dirtyOffset : Nat := 16

/-- Where the resize mark is stored. -/
def markOffset : Nat := 20

/-- The counters and the dirty size, the part in front of the resize mark. -/
def fields (h : Header) : Bytes :=
  Bytes.ofWord64 h.write ++ Bytes.ofWord64 h.read ++ Bytes.ofWord32 (Bytes.word32OfInt h.dirty)

/-- The bytes of a header with the resize mark clear. -/
def encode (h : Header) : Bytes := h.fields ++ Bytes.ofWord32 0

/-- Reads a header and leaves the resize mark aside. -/
def decode (bytes : Bytes) : Except Cause Header :=
  if bytes.length < size then .error .headerTooSmall
  else .ok {
    write := Bytes.toWord (bytes.take 8)
    read := Bytes.toWord ((bytes.drop readOffset).take 8)
    dirty := Bytes.intOfWord32 (Bytes.toWord ((bytes.drop dirtyOffset).take 4))
  }

/-- Whether a file was left between the start and the end of a resize. -/
def resizeInterrupted (bytes : Bytes) : Bool :=
  bytes.length ≥ size && Bytes.toWord ((bytes.drop markOffset).take 4) != 0

/-! ## Meaning -/

/-- The unread bytes, padding included. -/
def outstanding (h : Header) : Nat := h.write - h.read

/-- Checks a header against the capacity of its ring. -/
def validate (h : Header) (capacity : Nat) : Except Cause Unit :=
  if ¬ IsPowerOfTwo capacity then .error .capacityNotPowerOfTwo
  else if h.read > h.write then .error (.readAhead h.read)
  else if h.write - h.read > capacity then .error (.unreadExceedsCapacity h.write)
  else if h.dirty < 0 ∨ h.dirty ≥ capacity then .error .dirtySizeRange
  else .ok ()

/-! ## Laws -/

@[simp] theorem length_fields (h : Header) : h.fields.length = 20 := by
  simp [fields]

@[simp] theorem length_encode (h : Header) : h.encode.length = 24 := by
  simp [encode]

theorem intOfWord32_word32OfInt (z : Int) (hlo : -2147483648 ≤ z) (hhi : z < 2147483648) :
    Bytes.intOfWord32 (Bytes.word32OfInt z) = z := by
  have h : ((z % 4294967296).toNat : Int) = z % 4294967296 :=
    Int.toNat_of_nonneg (Int.emod_nonneg z (by omega))
  have hm : Bytes.intOfWord32 (Bytes.word32OfInt z)
      = Int.bmod ((z % 4294967296).toNat : Int) 4294967296 := rfl
  rw [hm, h]
  simp only [Int.bmod]
  omega

/-- A 32-bit word that does not stand for a negative number stands for itself. -/
theorem intOfWord32_of_nonneg {n : Nat} (hword : n < 2 ^ 32) (h : 0 ≤ Bytes.intOfWord32 n) :
    Bytes.intOfWord32 n = n := by
  have hm : Bytes.intOfWord32 n = Int.bmod (n : Int) 4294967296 := rfl
  rw [hm] at h ⊢
  simp only [Int.bmod] at h ⊢
  omega

/-- Reading undoes writing, but for a dirty size that is too large for its word. -/
theorem decode_encode_word (h : Header) (hw : h.write < 2 ^ 64) (hr : h.read < 2 ^ 64) :
    decode h.encode =
      .ok { h with dirty := Bytes.intOfWord32 (Bytes.word32OfInt h.dirty) } := by
  have hd : Bytes.word32OfInt h.dirty < 2 ^ 32 := by
    simp only [Bytes.word32OfInt]
    omega
  have hlen : ¬ h.encode.length < size := by simp [size]
  have htake : h.encode.take 8 = Bytes.ofWord64 h.write := by
    simp [encode, fields, List.append_assoc]
  have hread : (h.encode.drop 8).take 8 = Bytes.ofWord64 h.read := by
    simp [encode, fields, List.append_assoc]
  have hdirty : (h.encode.drop 16).take 4 = Bytes.ofWord32 (Bytes.word32OfInt h.dirty) := by
    have h16 : (Bytes.ofWord64 h.write ++ Bytes.ofWord64 h.read).length = 16 := by simp
    rw [encode, fields, List.append_assoc, ← h16, List.drop_left]
    simp
  simp only [decode, hlen, if_false, readOffset, dirtyOffset, htake, hread, hdirty,
    Bytes.toWord_ofWord64 _ hw, Bytes.toWord_ofWord64 _ hr, Bytes.toWord_ofWord32 _ hd]

theorem decode_encode (h : Header) (hw : h.write < 2 ^ 64) (hr : h.read < 2 ^ 64)
    (hlo : -2147483648 ≤ h.dirty) (hhi : h.dirty < 2147483648) : decode h.encode = .ok h := by
  rw [decode_encode_word h hw hr, intOfWord32_word32OfInt _ hlo hhi]

end Header

end Ring
end WriteBehind
