import WriteBehind.Bytes
import WriteBehind.Json.Defect

/-!
# Cursor — a place in a text that is being read

A `Cursor` holds the bytes that are still to be read and counts those that have been.

* `Cursor.skipBlank` passes blanks, `Cursor.word` a given word;
* `Failure` is a defect and the number of bytes in front of it, `Failure.locate` turns that into a
  line and a column.
-/

namespace WriteBehind
namespace Json

/-! ## Bytes with a meaning -/

namespace Mark

/-- The byte of an ASCII character. -/
def of (c : Char) : UInt8 := UInt8.ofNat c.toNat

/-- Bytes that may stand between tokens. -/
def isBlank (b : UInt8) : Bool := b == 32 || b == 10 || b == 9 || b == 13

/-- Bytes of digits. -/
def isDigit (b : UInt8) : Bool := 48 ≤ b.toNat && b.toNat ≤ 57

/-- The value of a digit. -/
def digitValue (b : UInt8) : Nat := b.toNat - 48

def quote : UInt8 := of '"'
def backslash : UInt8 := of '\\'
def comma : UInt8 := of ','
def colon : UInt8 := of ':'
def minus : UInt8 := of '-'
def openBracket : UInt8 := of '['
def closeBracket : UInt8 := of ']'
def openBrace : UInt8 := of '\x7b'
def closeBrace : UInt8 := of '\x7d'

end Mark

/-! ## Cursors -/

/-- The rest of a text, and the number of bytes in front of it. -/
structure Cursor where
  rest : Bytes
  index : Nat := 0
  deriving DecidableEq, Repr

/-- A defect, and the number of bytes in front of the place where it was found. -/
structure Failure where
  defect : Defect
  index : Nat
  deriving DecidableEq, Repr

namespace Cursor

/-- The cursor behind one more byte, where `rest` is left. -/
def step (c : Cursor) (rest : Bytes) : Cursor := ⟨rest, c.index + 1⟩

/-- A syntax error in front of the cursor. -/
def fail (c : Cursor) (e : SyntaxError) : Failure := ⟨.malformed e, c.index⟩

/-- A syntax error in the byte behind the cursor. -/
def failNext (c : Cursor) (e : SyntaxError) : Failure :=
  ⟨.malformed e, if c.rest.isEmpty then c.index else c.index + 1⟩

/-- A misfit in front of the cursor. -/
def misfit (c : Cursor) (m : Misfit) : Failure := ⟨.misfit m, c.index⟩

/-- The cursor behind all blanks. -/
def skipBlank (c : Cursor) : Cursor :=
  ⟨c.rest.dropWhile Mark.isBlank, c.index + (c.rest.takeWhile Mark.isBlank).length⟩

/-- The cursor behind a word that has to come next. -/
def word : List Char → Cursor → Except Failure Cursor
  | [], c => .ok c
  | w :: ws, c =>
    match c.rest with
    | [] => .error (c.fail .endInValue)
    | b :: r =>
      if b = Mark.of w then word ws (c.step r) else .error ((c.step r).fail .expectedWord)

end Cursor

/-- The line and the column of a place in a text. -/
def Failure.locate (f : Failure) (text : Bytes) : Located :=
  let before := text.take f.index
  { defect := f.defect
    line := (before.filter (· == 10)).length + 1
    column := (before.reverse.takeWhile (· != 10)).length }

end Json
end WriteBehind
