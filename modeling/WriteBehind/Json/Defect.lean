import WriteBehind.Number.Shortest
import WriteBehind.Text.Quoted

/-!
# Defect — why a text is not the JSON that was asked for

A text may fail to be JSON at all, or hold something other than what its place calls for.

* `SyntaxError` lists the ways in which a text fails to be JSON;
* `Misfit` lists the ways in which a value does not suit its place, `Found` the kinds of value;
* `Defect` is either of them, and `Located` says where in the text it was found.
-/

namespace WriteBehind
namespace Json

/-! ## Syntax -/

/-- What is wrong with a text that is not JSON. -/
inductive SyntaxError
  | endInList | endInObject | endInString | endInValue
  | expectedColon | expectedListCommaOrEnd | expectedObjectCommaOrEnd
  | expectedWord | expectedValue
  | invalidEscape | invalidNumber | numberOutOfRange | invalidCodePoint | controlCharacter
  | keyNotString | loneSurrogate | unfinishedSurrogatePair
  | trailingComma | trailingCharacters
  deriving DecidableEq, Repr

/-- The wording of a syntax error. -/
def SyntaxError.text : SyntaxError → String
  | endInList => "EOF while parsing a list"
  | endInObject => "EOF while parsing an object"
  | endInString => "EOF while parsing a string"
  | endInValue => "EOF while parsing a value"
  | expectedColon => "expected `:`"
  | expectedListCommaOrEnd => "expected `,` or `]`"
  | expectedObjectCommaOrEnd => "expected `,` or `\x7d`"
  | expectedWord => "expected ident"
  | expectedValue => "expected value"
  | invalidEscape => "invalid escape"
  | invalidNumber => "invalid number"
  | numberOutOfRange => "number out of range"
  | invalidCodePoint => "invalid unicode code point"
  | controlCharacter => "control character (\\u0000-\\u001F) found while parsing a string"
  | keyNotString => "key must be a string"
  | loneSurrogate => "lone leading surrogate in hex escape"
  | unfinishedSurrogatePair => "unexpected end of hex escape"
  | trailingComma => "trailing comma"
  | trailingCharacters => "trailing characters"

/-! ## Misfits -/

/-- What stands in a place that calls for something else. -/
inductive Found
  | integer (n : Int)
  | floating (negative : Bool) (d : Double)
  | boolean (b : Bool)
  | null
  | string (s : String)
  | sequence
  | map
  deriving DecidableEq, Repr

/-- The description of what was found. -/
def Found.text : Found → String
  | integer n => "integer `" ++ String.ofList (Decimal.encodeInt n) ++ "`"
  | floating negative d => "floating point `" ++ Shortest.text negative d ++ "`"
  | boolean true => "boolean `true`"
  | boolean false => "boolean `false`"
  | null => "null"
  | string s => "string " ++ Quoted.encode s
  | sequence => "sequence"
  | map => "map"

/-- A value that does not suit its place. -/
inductive Misfit
  | unknownField (name : String) (known : List String)
  | duplicateField (name : String)
  | unknownVariant (name : String) (known : List String)
  | invalidType (found : Found) (expected : String)
  | invalidValue (found : Found) (expected : String)
  deriving DecidableEq, Repr

/-- A list of names to choose from. -/
def choice : List String → String
  | [] => "nothing"
  | [a] => "`" ++ a ++ "`"
  | [a, b] => "`" ++ a ++ "` or `" ++ b ++ "`"
  | names => "one of " ++ ", ".intercalate (names.map fun n => "`" ++ n ++ "`")

/-- The wording of a misfit. -/
def Misfit.text : Misfit → String
  | unknownField name known => "unknown field `" ++ name ++ "`, expected " ++ choice known
  | duplicateField name => "duplicate field `" ++ name ++ "`"
  | unknownVariant name known => "unknown variant `" ++ name ++ "`, expected " ++ choice known
  | invalidType found expected => "invalid type: " ++ found.text ++ ", expected " ++ expected
  | invalidValue found expected => "invalid value: " ++ found.text ++ ", expected " ++ expected

/-! ## Defects -/

/-- Why a text could not be read. -/
inductive Defect
  | malformed (e : SyntaxError)
  | misfit (m : Misfit)
  deriving DecidableEq, Repr

/-- The wording of a defect. -/
def Defect.text : Defect → String
  | malformed e => e.text
  | misfit m => m.text

/-- A defect, and the line and column behind which it was found. -/
structure Located where
  defect : Defect
  /-- Counted from one. -/
  line : Nat
  /-- Bytes since the start of the line. -/
  column : Nat
  deriving DecidableEq, Repr

/-- The wording of a defect and its place. -/
def Located.text (l : Located) : String :=
  s!"{l.defect.text} at line {l.line} column {l.column}"

end Json
end WriteBehind
