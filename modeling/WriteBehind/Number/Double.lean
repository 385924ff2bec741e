import WriteBehind.Bytes

/-!
# Double — binary numbers of 53 bits

A `Double` is a natural number of at most 53 bits times a power of two, as 64-bit floating point
numbers hold it, without the sign.

* `Double.ofRatio?` rounds a fraction to the nearest one, ties to the even one;
* `Double.mul?` and `Double.div?` round products and quotients, and fail where the result is too
  large.
-/

namespace WriteBehind

/-- The number `mantissa * 2 ^ exponent`. -/
structure Double where
  mantissa : Nat
  exponent : Int
  deriving DecidableEq, Repr

namespace Double

/-- The exponent of the least positive number. -/
def minExponent : Int := -1074

/-- The exponent of the greatest number. -/
def maxExponent : Int := 971

/-- Zero. -/
def zero : Double := ⟨0, minExponent⟩

/-- The quotient rounded to the nearest natural number, ties to the even one. -/
def roundDiv (num den : Nat) : Nat :=
  let q := num / den
  let r := 2 * (num % den)
  if r > den ∨ (r = den ∧ q % 2 = 1) then q + 1 else q

/-- A fraction multiplied by a power of two. -/
def shift (num den : Nat) (e : Int) : Nat × Nat :=
  if e ≥ 0 then (num * 2 ^ e.toNat, den) else (num, den * 2 ^ (-e).toNat)

/-- The fraction rounded to a multiple of `2 ^ e`. -/
def mantissaAt (num den : Nat) (e : Int) : Nat :=
  let scaled := shift num den (-e)
  roundDiv scaled.1 scaled.2

/-- The exponent at which a positive fraction has 53 bits in front of the point. -/
def exponentOf (num den : Nat) : Int :=
  let e : Int := (num.log2 : Int) - den.log2 - 53
  let scaled := shift num den (-e)
  max minExponent (if scaled.1 / scaled.2 ≥ 2 ^ 53 then e + 1 else e)

/-- The nearest number to a fraction, unless it is too large. -/
def ofRatio? (num den : Nat) : Option Double :=
  if num = 0 then some zero
  else
    let e := exponentOf num den
    let m := mantissaAt num den e
    let d : Double := if m = 2 ^ 53 then ⟨2 ^ 52, e + 1⟩ else ⟨m, e⟩
    if d.exponent > maxExponent then none else some d

/-- The nearest number to a natural number of at most 1023 bits. -/
def ofNat (n : Nat) : Double := (ofRatio? n 1).getD zero

/-- The rounded product. -/
def mul? (a b : Double) : Option Double :=
  let scaled := shift (a.mantissa * b.mantissa) 1 (a.exponent + b.exponent)
  ofRatio? scaled.1 scaled.2

/-- The rounded quotient by a number other than zero. -/
def div? (a b : Double) : Option Double :=
  let scaled := shift a.mantissa b.mantissa (a.exponent - b.exponent)
  ofRatio? scaled.1 scaled.2

end Double
end WriteBehind
