import WriteBehind.Text.Hex
import WriteBehind.Text.Invisible

/-!
# Quoted — text in quotes, safe to show

Messages and settings show text between double quotes.  Quotes and backslashes are escaped, the
usual control characters have short escapes, and every other invisible character is given by its
number.

* `Quoted.encode` writes a string in quotes.
-/

namespace WriteBehind
namespace Quoted

/-- The hexadecimal digits of a number. -/
def hexDigits (n : Nat) : List Char :=
  if n < 16 then [Hex.digit n] else hexDigits (n / 16) ++ [Hex.digit (n % 16)]
termination_by n
decreasing_by omega

/-- A character between quotes. -/
def escapeChar (c : Char) : List Char :=
  if c = '"' then ['\\', '"']
  else if c = '\\' then ['\\', '\\']
  else if c.toNat = 0 then ['\\', '0']
  else if c.toNat = 9 then ['\\', 't']
  else if c.toNat = 10 then ['\\', 'n']
  else if c.toNat = 13 then ['\\', 'r']
  else if Invisible.contains c then ['\\', 'u', '\x7b'] ++ hexDigits c.toNat ++ ['\x7d']
  else [c]

/-- A string in quotes. -/
def encode (s : String) : String :=
  String.ofList ('"' :: s.toList.flatMap escapeChar ++ ['"'])

end Quoted
end WriteBehind
