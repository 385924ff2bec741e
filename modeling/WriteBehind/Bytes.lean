/-!
# Bytes — byte strings and little-endian words

Payloads, keys, headers and file contents are lists of bytes.  Words are stored least significant
byte first:

* `Bytes.ofWord k n` writes the `k` low bytes of `n`;
* `Bytes.toWord` reads a word of any width;
* `Bytes.toWord_ofWord` and `Bytes.ofWord_toWord` say that the two are inverse on words that fit.
-/

namespace WriteBehind

-- In this namespace a power of a number means the same wherever it stands, whatever else is imported
-- there, and so does the zero that a sum starts with.  The type of an exponent that is a numeral is a
-- default, and defaults know no namespace.
attribute [scoped instance (high)] instPowNat Zero.ofOfNat0
attribute [default_instance high] instPowNat

/-- A byte string. -/
abbrev Bytes := List UInt8

namespace Bytes

/-! ## Words -/

/-- The `k` low bytes of `n`, least significant first. -/
def ofWord : Nat → Nat → Bytes
  | 0, _ => []
  | k + 1, n => UInt8.ofNat n :: ofWord k (n / 256)

/-- The number whose bytes these are, least significant first. -/
def toWord : Bytes → Nat
  | [] => 0
  | b :: bs => b.toNat + 256 * toWord bs

/-- A 32-bit word in four bytes. -/
def ofWord32 (n : Nat) : Bytes := ofWord 4 n

/-- A 64-bit word in eight bytes. -/
def ofWord64 (n : Nat) : Bytes := ofWord 8 n

/-- The 32-bit word that stands for `z` in two's complement. -/
def word32OfInt (z : Int) : Nat := (z % 2 ^ 32).toNat

/-- The integer that a 32-bit word stands for in two's complement. -/
def intOfWord32 (n : Nat) : Int := Int.bmod n (2 ^ 32)

/-! ## Laws -/

@[simp] theorem length_ofWord (k n : Nat) : (ofWord k n).length = k := by
  induction k generalizing n with
  | zero => rfl
  | succ k ih => simp [ofWord, ih]

@[simp] theorem length_ofWord32 (n : Nat) : (ofWord32 n).length = 4 := length_ofWord 4 n

@[simp] theorem length_ofWord64 (n : Nat) : (ofWord64 n).length = 8 := length_ofWord 8 n

theorem toWord_ofWord (k n : Nat) : toWord (ofWord k n) = n % 256 ^ k := by
  induction k generalizing n with
  | zero => simp [ofWord, toWord, Nat.mod_one]
  | succ k ih =>
    have hb : (UInt8.ofNat n).toNat = n % 256 := by simp
    rw [ofWord, toWord, ih, hb, Nat.pow_succ, Nat.mul_comm (256 ^ k) 256, Nat.mod_mul]

theorem toWord_ofWord32 (n : Nat) (h : n < 2 ^ 32) : toWord (ofWord32 n) = n := by
  rw [ofWord32, toWord_ofWord]
  exact Nat.mod_eq_of_lt (by omega)

theorem toWord_ofWord64 (n : Nat) (h : n < 2 ^ 64) : toWord (ofWord64 n) = n := by
  rw [ofWord64, toWord_ofWord]
  exact Nat.mod_eq_of_lt (by omega)

theorem toWord_lt (bs : Bytes) : toWord bs < 256 ^ bs.length := by
  induction bs with
  | nil => simp [toWord]
  | cons b bs ih =>
    have hb := b.toNat_lt
    simp only [toWord, List.length_cons, Nat.pow_succ]
    omega

theorem ofWord_toWord (bs : Bytes) : ofWord bs.length (toWord bs) = bs := by
  induction bs with
  | nil => rfl
  | cons b bs ih =>
    have hb := b.toNat_lt
    have hdiv : (b.toNat + 256 * toWord bs) / 256 = toWord bs := by omega
    simp only [List.length_cons, ofWord, toWord, hdiv, ih]
    congr 1
    apply UInt8.toNat_inj.1
    rw [UInt8.toNat_ofNat']
    omega

/-- Four bytes at most are a 32-bit word. -/
theorem toWord_lt_of_length_le {bs : Bytes} (h : bs.length ≤ 4) : toWord bs < 2 ^ 32 :=
  calc toWord bs < 256 ^ bs.length := toWord_lt bs
    _ ≤ 256 ^ 4 := Nat.pow_le_pow_right (by decide) h

theorem ofWord32_toWord {bs : Bytes} (h : bs.length = 4) : ofWord32 (toWord bs) = bs :=
  calc ofWord32 (toWord bs) = ofWord bs.length (toWord bs) := by rw [h, ofWord32]
    _ = bs := ofWord_toWord bs

/-- What does not fit into a word leaves no trace in it. -/
theorem ofWord_mod (k n : Nat) : ofWord k (n % 256 ^ k) = ofWord k n := by
  have hword := ofWord_toWord (ofWord k n)
  rwa [length_ofWord, toWord_ofWord] at hword

end Bytes

end WriteBehind
