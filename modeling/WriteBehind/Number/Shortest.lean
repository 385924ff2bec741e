import WriteBehind.Number.Double
import WriteBehind.Text.Decimal

/-!
# Shortest — the fewest digits that read back

The text of a number has as few significant digits as will read back as the same number, and of
those the digits nearest to it, the even ones where two are equally near.

* `Shortest.digits` finds them on decimal grids that get finer step by step;
* `Shortest.text` writes them, with a point or with an exponent.
-/

namespace WriteBehind
namespace Shortest

/-- Digits and the place of the point: the number `digits * 10 ^ place`. -/
structure Scaled where
  digits : Nat
  place : Int
  deriving DecidableEq, Repr

/-- A fraction multiplied by a power of ten. -/
def shift (num den : Nat) (e : Int) : Nat × Nat :=
  if e ≥ 0 then (num * 10 ^ e.toNat, den) else (num, den * 10 ^ (-e).toNat)

/-- The exponent of the greatest power of ten that is at most a positive fraction. -/
def magnitude (num den : Nat) : Int :=
  if num ≥ den then ((Decimal.encode (num / den)).length : Int) - 1
  else -((Decimal.encode ((den - 1) / num)).length : Int)

/-- The gap that a number has to its neighbours, in quarters of its last place: to the lower one and
to the upper one, halved.  At a power of two the lower neighbour is nearer. -/
def halfGaps (d : Double) : Nat × Nat :=
  if d.mantissa = 2 ^ 52 ∧ d.exponent > Double.minExponent then (1, 2) else (2, 2)

/-- Whether `c * 10 ^ place` reads back as the number. -/
def readsBack (d : Double) (c : Nat) (place : Int) : Bool :=
  let quarter := d.exponent - 2
  let low := 4 * d.mantissa - (halfGaps d).1
  let high := 4 * d.mantissa + (halfGaps d).2
  let x := shift c 1 place
  let unit := Double.shift 1 1 quarter
  let left := x.1 * unit.2
  let scale := x.2 * unit.1
  if d.mantissa % 2 = 0 then low * scale ≤ left && left ≤ high * scale
  else low * scale < left && left < high * scale

/-- Whether the upper one of two neighbours on a grid is taken, where `rem / den` is the way from
the lower one `c`: the nearer one is, and half-way between them the even one. -/
def takesUpper (c rem den : Nat) : Bool :=
  2 * rem > den || (2 * rem == den && c % 2 == 1)

/-- The digits of the number on the grid `10 ^ place`, if one of its two neighbours there reads
back. -/
def onGrid (d : Double) (place : Int) : Option Nat :=
  let value := Double.shift d.mantissa 1 d.exponent
  let scaled := shift value.1 value.2 (-place)
  let c := scaled.1 / scaled.2
  match readsBack d c place, readsBack d (c + 1) place with
  | true, true => some (if takesUpper c (scaled.1 % scaled.2) scaled.2 then c + 1 else c)
  | true, false => some c
  | false, true => some (c + 1)
  | false, false => none

/-- The first grid on which some digits read back, of `n` grids from `place` downwards. -/
def search (d : Double) : Nat → Int → Scaled
  | 0, place => ⟨(onGrid d place).getD 0, place⟩
  | n + 1, place =>
    match onGrid d place with
    | some c => ⟨c, place⟩
    | none => search d n (place - 1)

/-- The digits without the zeros at the end. -/
def Scaled.trim (s : Scaled) : Scaled :=
  let cs := Decimal.encode s.digits
  let zeros := (cs.reverse.takeWhile (· == '0')).length
  ⟨Decimal.value (cs.take (cs.length - zeros)), s.place + zeros⟩

/-- The fewest digits that read back; a positive number needs no more than 17. -/
def digits (d : Double) : Scaled :=
  let value := Double.shift d.mantissa 1 d.exponent
  (search d 17 (magnitude value.1 value.2)).trim

/-- Where the text of a number has an exponent: from `10 ^ 16` up and below `10 ^ -5`. -/
def positional (exponent : Int) : Bool := -5 ≤ exponent && exponent ≤ 15

/-- The text of a number.  In positional notation at least one digit follows the point, and an
exponent has a sign. -/
def text (negative : Bool) (d : Double) : String :=
  let sign := if negative then ['-'] else []
  if d.mantissa = 0 then String.ofList (sign ++ ['0', '.', '0'])
  else
    let s := digits d
    let cs := Decimal.encode s.digits
    let exponent := s.place + cs.length - 1
    let body :=
      if positional exponent then
        if s.place ≥ 0 then cs ++ List.replicate s.place.toNat '0' ++ ['.', '0']
        else if exponent ≥ 0 then
          cs.take (exponent.toNat + 1) ++ '.' :: cs.drop (exponent.toNat + 1)
        else '0' :: '.' :: List.replicate (-exponent - 1).toNat '0' ++ cs
      else
        cs.take 1 ++ (if cs.length > 1 then '.' :: cs.drop 1 else [])
          ++ 'e' :: (if exponent < 0 then '-' else '+') :: Decimal.encode exponent.natAbs
    String.ofList (sign ++ body)

end Shortest
end WriteBehind
