import WriteBehind.Json.Cursor

/-!
# Numeral — numbers in a JSON text

A number without fraction and exponent is an integer as long as it fits in 64 bits; every other
number is a `Double`.  Of its digits only those that fit in 64 bits count, and the power of ten is
applied to them in one rounded step, or in several where it is below `10 ^ -308`.

* `Numeral` is a number that was read, `Cursor.numeral` reads one.
-/

namespace WriteBehind
namespace Json

/-- A number that was read. -/
inductive Numeral
  | natural (n : Nat)
  /-- The integer `-n`, for a positive `n`. -/
  | negative (n : Nat)
  | floating (negative : Bool) (d : Double)
  deriving DecidableEq, Repr

/-- What a number is where something else was expected. -/
def Numeral.found : Numeral → Found
  | natural n => .integer n
  | negative n => .integer (-n)
  | floating sign d => .floating sign d

/-! ## Values -/

namespace Numeral

/-- Appends digits to a significand for as long as it fits in 64 bits, and counts those that were
taken. -/
def absorb (significand : Nat) : List Nat → Nat × Nat
  | [] => (significand, 0)
  | d :: ds =>
    if 10 * significand + d < 2 ^ 64 then
      let (s, taken) := absorb (10 * significand + d) ds
      (s, taken + 1)
    else (significand, 0)

/-- A number times a power of ten. -/
def scale (d : Double) (exponent : Int) : Option Double :=
  if exponent.natAbs ≤ 308 then
    if exponent ≥ 0 then d.mul? (Double.ofNat (10 ^ exponent.natAbs))
    else d.div? (Double.ofNat (10 ^ exponent.natAbs))
  else if d.mantissa = 0 then some d
  else if exponent ≥ 0 then none
  else
    match d.div? (Double.ofNat (10 ^ 308)) with
    | none => none
    | some d => scale d (exponent + 308)
termination_by exponent.natAbs
decreasing_by omega

/-- How many of the digits of an exponent are needed to exceed 31 bits, if they do. -/
def overflowLength (value : Nat) : List Nat → Option Nat
  | [] => none
  | d :: ds =>
    if 10 * value + d ≥ 2 ^ 31 then some 1
    else (overflowLength (10 * value + d) ds).map (· + 1)

end Numeral

/-! ## Reading -/

namespace Cursor

/-- The digits in front of the cursor and the cursor behind them. -/
def digits (c : Cursor) : List Nat × Cursor :=
  let ds := c.rest.takeWhile Mark.isDigit
  (ds.map Mark.digitValue, ⟨c.rest.dropWhile Mark.isDigit, c.index + ds.length⟩)

/-- The number with this significand and power of ten. -/
def floatingPoint (sign : Bool) (significand : Nat) (exponent : Int) (c : Cursor) :
    Except Failure (Numeral × Cursor) :=
  match Numeral.scale (Double.ofNat significand) exponent with
  | none => .error (c.fail .numberOutOfRange)
  | some d => .ok (.floating sign d, c)

/-- Reads what follows the letter of an exponent. -/
def exponentPart (sign : Bool) (significand : Nat) (exponent : Int) (c : Cursor) :
    Except Failure (Numeral × Cursor) :=
  let (negative, c) :=
    match c.rest with
    | b :: r =>
      if b = Mark.minus then (true, c.step r)
      else if b = Mark.of '+' then (false, c.step r)
      else (false, c)
    | [] => (false, c)
  match c.digits with
  | ([], _) =>
    match c.rest with
    | [] => .error (c.fail .endInValue)
    | _ :: r => .error ((c.step r).fail .invalidNumber)
  | (ds, behind) =>
    match Numeral.overflowLength 0 ds with
    | some n =>
      if significand ≠ 0 ∧ ¬ negative then
        .error ⟨.malformed .numberOutOfRange, c.index + n⟩
      else .ok (.floating sign .zero, behind)
    | none =>
      let value : Int := (ds.foldl (fun n d => 10 * n + d) 0 : Nat)
      floatingPoint sign significand (if negative then exponent - value else exponent + value)
        behind

/-- Reads the exponent, if there is one, and gives the number. -/
def scaled (sign : Bool) (significand : Nat) (exponent : Int) (c : Cursor) :
    Except Failure (Numeral × Cursor) :=
  match c.rest with
  | b :: r =>
    if b = Mark.of 'e' ∨ b = Mark.of 'E' then
      exponentPart sign significand exponent (c.step r)
    else floatingPoint sign significand exponent c
  | [] => floatingPoint sign significand exponent c

/-- Reads what follows the point. -/
def fractionPart (sign : Bool) (significand : Nat) (exponent : Int) (c : Cursor) :
    Except Failure (Numeral × Cursor) :=
  match c.digits with
  | ([], _) => .error (c.failNext (if c.rest.isEmpty then .endInValue else .invalidNumber))
  | (ds, behind) =>
    let (significand, taken) := Numeral.absorb significand ds
    scaled sign significand (exponent - taken) behind

/-- The number whose integer part has been read.  Minus zero is no integer, nor is a number below
the least of 64 bits. -/
def afterInteger (sign : Bool) (significand dropped : Nat) (c : Cursor) :
    Except Failure (Numeral × Cursor) :=
  match c.rest with
  | b :: r =>
    if b = Mark.of '.' then fractionPart sign significand dropped (c.step r)
    else if b = Mark.of 'e' ∨ b = Mark.of 'E' then
      exponentPart sign significand dropped (c.step r)
    else whole c
  | [] => whole c
where
  /-- The number where nothing follows the integer part. -/
  whole (c : Cursor) : Except Failure (Numeral × Cursor) :=
    if dropped > 0 then floatingPoint sign significand dropped c
    else if ¬ sign then .ok (.natural significand, c)
    else if significand = 0 ∨ significand > 2 ^ 63 then
      .ok (.floating true (Double.ofNat significand), c)
    else .ok (.negative significand, c)

/-- Reads a number, behind its sign. -/
def magnitude (sign : Bool) (c : Cursor) : Except Failure (Numeral × Cursor) :=
  match c.digits with
  | ([], _) =>
    match c.rest with
    | [] => .error (c.fail .endInValue)
    | _ :: r => .error ((c.step r).fail .invalidNumber)
  | (0 :: _ :: _, _) => .error ⟨.malformed .invalidNumber, c.index + 2⟩
  | (ds, behind) =>
    let (significand, taken) := Numeral.absorb 0 ds
    afterInteger sign significand (ds.length - taken) behind

/-- Reads a number, at a sign or a digit. -/
def numeral (c : Cursor) : Except Failure (Numeral × Cursor) :=
  match c.rest with
  | b :: r => if b = Mark.minus then magnitude true (c.step r) else magnitude false c
  | [] => magnitude false c

end Cursor

end Json
end WriteBehind
