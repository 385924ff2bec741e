/-!
# Blank — white space of all scripts

* `Blank.contains` says whether a character is white space;
* `Blank.firstLine` is the first line of a text without the blanks around it.
-/

namespace WriteBehind
namespace Blank

/-- The ranges of white space, each with its first and its last character. -/
def ranges : List (Nat × Nat) :=
  [(0x09, 0x0d), (0x20, 0x20), (0x85, 0x85), (0xa0, 0xa0), (0x1680, 0x1680), (0x2000, 0x200a),
    (0x2028, 0x2029), (0x202f, 0x202f), (0x205f, 0x205f), (0x3000, 0x3000)]

/-- Whether a character is white space. -/
def contains (c : Char) : Bool := ranges.any fun r => r.1 ≤ c.toNat && c.toNat ≤ r.2

/-- The characters without the blanks at both ends. -/
def trim (cs : List Char) : List Char :=
  ((cs.dropWhile contains).reverse.dropWhile contains).reverse

/-- The first line of a text without the blanks at both ends. -/
def firstLine (s : String) : String :=
  String.ofList (trim (s.toList.takeWhile (· ≠ '\n')))

end Blank
end WriteBehind
