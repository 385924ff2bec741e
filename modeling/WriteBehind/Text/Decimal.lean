/-!
# Decimal — numbers in base ten

* `Decimal.encode` writes a number without leading zeros, `Decimal.value` reads digits back;
* `Decimal.value_encode` says that reading undoes writing, so no two numbers share a text.
-/

namespace WriteBehind
namespace Decimal

/-- The digit for a number below ten. -/
def digit (n : Nat) : Char := Char.ofNat (48 + n)

/-- Whether a character is a digit. -/
def isDigit (c : Char) : Bool := 48 ≤ c.toNat && c.toNat ≤ 57

/-- The digits of a number. -/
def encode (n : Nat) : List Char :=
  if n < 10 then [digit n] else encode (n / 10) ++ [digit (n % 10)]
termination_by n
decreasing_by omega

/-- The number that digits stand for. -/
def value (cs : List Char) : Nat := cs.foldl (fun n c => 10 * n + (c.toNat - 48)) 0

/-- A number with its sign. -/
def encodeInt : Int → List Char
  | .ofNat n => encode n
  | .negSucc n => '-' :: encode (n + 1)

/-- The digits of a number, with zeros in front up to a width. -/
def padded (width n : Nat) : List Char :=
  List.replicate (width - (encode n).length) '0' ++ encode n

/-- The digits of a number as a string. -/
def text (n : Nat) : String := String.ofList (encode n)

/-! ## Laws -/

theorem toNat_digit {n : Nat} (h : n < 10) : (digit n).toNat = 48 + n := by
  have hv : (48 + n).isValidChar := by simp only [Nat.isValidChar]; omega
  rw [digit, Char.ofNat, dif_pos hv]
  rfl

theorem isDigit_digit {n : Nat} (h : n < 10) : isDigit (digit n) = true := by
  simp only [isDigit, toNat_digit h, Bool.and_eq_true, decide_eq_true_eq]
  omega

theorem value_append_singleton (cs : List Char) (c : Char) :
    value (cs ++ [c]) = 10 * value cs + (c.toNat - 48) := by
  simp [value]

theorem value_encode (n : Nat) : value (encode n) = n := by
  induction n using Nat.strongRecOn with
  | ind n ih =>
    rw [encode]
    split
    · rename_i h
      simp [value, toNat_digit h]
    · rename_i h
      rw [value_append_singleton, ih (n / 10) (by omega), toNat_digit (Nat.mod_lt _ (by omega))]
      omega

theorem encode_inj {m n : Nat} (h : encode m = encode n) : m = n := by
  rw [← value_encode m, ← value_encode n, h]

theorem isDigit_of_mem_encode {n : Nat} {c : Char} (h : c ∈ encode n) : isDigit c = true := by
  induction n using Nat.strongRecOn with
  | ind n ih =>
    rw [encode] at h
    split at h
    · rename_i hn
      rw [List.mem_singleton.1 h]
      exact isDigit_digit hn
    · rename_i hn
      rcases List.mem_append.1 h with h | h
      · exact ih (n / 10) (by omega) h
      · rw [List.mem_singleton.1 h]
        exact isDigit_digit (Nat.mod_lt _ (by omega))

theorem encode_ne_nil (n : Nat) : encode n ≠ [] := by
  rw [encode]
  split <;> simp

end Decimal
end WriteBehind
