import WriteBehind.Text.Decimal
import WriteBehind.Text.Hex

/-!
# Json — values and their compact text

* `Json` is a value without fractions: all numbers that the library writes are integers;
* `Json.compact` is the text without blanks, `Json.line` the text as one line of output;
* `Json.sorted` puts the fields of all objects into alphabetical order.
-/

namespace WriteBehind

/-- A JSON value. -/
inductive Json
  | null
  | bool (b : Bool)
  | number (n : Int)
  | string (s : String)
  | array (items : List Json)
  | object (fields : List (String × Json))

namespace Json

/-- A number that is not negative. -/
def nat (n : Nat) : Json := .number n

/-- An array of strings. -/
def strings (ss : List String) : Json := .array (ss.map .string)

/-! ## Strings -/

/-- A character inside quotes.  Quotes, backslashes and control characters are escaped, everything
else stands for itself. -/
def escapeChar (c : Char) : List Char :=
  if c = '"' then ['\\', '"']
  else if c = '\\' then ['\\', '\\']
  else if c.toNat = 8 then ['\\', 'b']
  else if c.toNat = 9 then ['\\', 't']
  else if c.toNat = 10 then ['\\', 'n']
  else if c.toNat = 12 then ['\\', 'f']
  else if c.toNat = 13 then ['\\', 'r']
  else if c.toNat < 32 then
    ['\\', 'u', '0', '0', Hex.digit (c.toNat / 16), Hex.digit (c.toNat % 16)]
  else [c]

/-- A string in quotes. -/
def quoted (s : String) : List Char := '"' :: s.toList.flatMap escapeChar ++ ['"']

/-! ## Values -/

mutual

/-- The characters of the compact text. -/
def chars : Json → List Char
  | .null => "null".toList
  | .bool true => "true".toList
  | .bool false => "false".toList
  | .number n => Decimal.encodeInt n
  | .string s => quoted s
  | .array items => '[' :: itemChars items ++ [']']
  | .object fields => '\x7b' :: fieldChars fields ++ ['\x7d']

/-- The items of an array, with commas between them. -/
def itemChars : List Json → List Char
  | [] => []
  | [v] => chars v
  | v :: vs => chars v ++ ',' :: itemChars vs

/-- The fields of an object, with commas between them. -/
def fieldChars : List (String × Json) → List Char
  | [] => []
  | [(k, v)] => quoted k ++ ':' :: chars v
  | (k, v) :: fs => quoted k ++ ':' :: chars v ++ ',' :: fieldChars fs

end

/-- The compact text. -/
def compact (v : Json) : String := String.ofList v.chars

/-- The compact text as a line of output. -/
def line (v : Json) : String := v.compact ++ "\n"

mutual

/-- The value with the fields of every object in alphabetical order. -/
def sorted : Json → Json
  | .array items => .array (sortedItems items)
  | .object fields =>
    .object ((sortedFields fields).mergeSort fun a b => decide (a.1 ≤ b.1))
  | v => v

/-- The items of an array, each with its fields in order. -/
def sortedItems : List Json → List Json
  | [] => []
  | v :: vs => sorted v :: sortedItems vs

/-- The fields of an object, each value with its own fields in order. -/
def sortedFields : List (String × Json) → List (String × Json)
  | [] => []
  | (k, v) :: fs => (k, sorted v) :: sortedFields fs

end

end Json
end WriteBehind
