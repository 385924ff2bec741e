import WriteBehind.Bytes

/-!
# Hex — bytes as pairs of lower-case hexadecimal digits

* `Hex.encode` writes two digits for each byte;
* `Hex.decode?` reads them back and takes digits of either case;
* `Hex.decode?_encode` says that reading undoes writing.
-/

namespace WriteBehind
namespace Hex

/-- The digit for a number below sixteen. -/
def digit (n : Nat) : Char :=
  if n < 10 then Char.ofNat (48 + n) else Char.ofNat (87 + n)

/-- The value of a digit of either case. -/
def digitValue? (c : Char) : Option Nat :=
  let n := c.toNat
  if 48 ≤ n ∧ n ≤ 57 then some (n - 48)
  else if 97 ≤ n ∧ n ≤ 102 then some (n - 87)
  else if 65 ≤ n ∧ n ≤ 70 then some (n - 55)
  else none

/-- Two digits for each byte, as characters. -/
def encodeChars : Bytes → List Char
  | [] => []
  | b :: bs => digit (b.toNat / 16) :: digit (b.toNat % 16) :: encodeChars bs

/-- Two digits for each byte. -/
def encode (bs : Bytes) : String := String.ofList (encodeChars bs)

/-- Reads pairs of digits. -/
def decodeChars? : List Char → Option Bytes
  | [] => some []
  | [_] => none
  | hi :: lo :: rest => do
    let h ← digitValue? hi
    let l ← digitValue? lo
    let bs ← decodeChars? rest
    return UInt8.ofNat (16 * h + l) :: bs

/-- Reads a string of pairs of digits. -/
def decode? (s : String) : Option Bytes := decodeChars? s.toList

theorem digitValue?_digit : ∀ n, n < 16 → digitValue? (digit n) = some n := by decide

theorem decodeChars?_encodeChars (bs : Bytes) : decodeChars? (encodeChars bs) = some bs := by
  induction bs with
  | nil => rfl
  | cons b bs ih =>
    have hb := b.toNat_lt
    have hhi := digitValue?_digit (b.toNat / 16) (by omega)
    have hlo := digitValue?_digit (b.toNat % 16) (by omega)
    have hbyte : UInt8.ofNat (16 * (b.toNat / 16) + b.toNat % 16) = b := by
      rw [Nat.div_add_mod]
      simp
    simp only [encodeChars, decodeChars?, hhi, hlo, ih, hbyte, Option.bind_eq_bind,
      Option.bind_some, Option.pure_def]

theorem decode?_encode (bs : Bytes) : decode? (encode bs) = some bs := by
  simp [decode?, encode, decodeChars?_encodeChars]

end Hex
end WriteBehind
