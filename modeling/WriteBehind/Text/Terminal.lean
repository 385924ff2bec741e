import WriteBehind.Text.Utf8

/-!
# Terminal — text without the sequences that control a terminal

A terminal shows characters, and takes sequences that begin with the escape character as commands.
Text that is not meant for a terminal is written without such sequences and without control
characters other than those of the layout.

* `Terminal.Mode` says what the character that comes next belongs to, `Mode.next` how that changes;
* `Terminal.shown` keeps what a terminal would show, `Terminal.strip` does so for a string.
-/

namespace WriteBehind
namespace Terminal

/-! ## Sequences -/

/-- What the character that comes next belongs to. -/
inductive Mode
  /-- To the text. -/
  | text
  /-- To a sequence of which only the escape character has come. -/
  | escape
  /-- To a short sequence with marks behind the escape character. -/
  | short
  /-- To a control sequence, which a letter ends. -/
  | control
  /-- To a command for the terminal itself, which a bell ends. -/
  | command
  /-- To the parameters in front of a string for a device, of which none has come. -/
  | deviceStart
  /-- To these parameters, of which some have come. -/
  | deviceParameter
  /-- To the marks behind these parameters. -/
  | deviceMark
  /-- To the string for the device. -/
  | device
  deriving DecidableEq, Repr

/-- The control characters that lay out a text. -/
def isLayout (c : Char) : Bool := c = '\t' || c = '\n' || c = '\x0c' || c = '\r'

/-- Whether the byte that ends a string for a device is among those of a character. -/
def endsString (c : Char) : Bool := (Utf8.encodeChar c).contains 0x9c

namespace Mode

/-- Whether layout is carried out even within a sequence. -/
def passesLayout : Mode → Bool
  | text | escape | short | control => true
  | command | deviceStart | deviceParameter | deviceMark | device => false

/-- Whether a character is shown. -/
def shows (m : Mode) (c : Char) : Bool :=
  if isLayout c then m.passesLayout
  else m == text && 0x20 ≤ c.toNat && c.toNat ≠ 0x7f

/-- The mode behind the escape character and one more. -/
def opened (c : Char) : Mode :=
  if c = '[' then control
  else if c = ']' then command
  else if c = 'P' then deviceStart
  else if c = 'X' ∨ c = '^' ∨ c = '_' then device
  else if 0x20 ≤ c.toNat ∧ c.toNat < 0x30 then short
  else if 0x30 ≤ c.toNat ∧ c.toNat < 0x7f then text
  else escape

/-- The mode behind an ASCII character that belongs to a sequence. -/
def within (m : Mode) (c : Char) : Mode :=
  let n := c.toNat
  match m with
  | text => text
  | escape => opened c
  | short => if 0x30 ≤ n ∧ n < 0x7f then text else short
  | control => if 0x40 ≤ n ∧ n < 0x7f then text else control
  | command => if n = 0x07 then text else command
  | deviceStart =>
    if 0x20 ≤ n ∧ n < 0x30 then deviceMark
    else if 0x30 ≤ n ∧ n < 0x40 then deviceParameter
    else if 0x40 ≤ n ∧ n < 0x7f then device
    else deviceStart
  | deviceParameter =>
    if 0x20 ≤ n ∧ n < 0x30 then deviceMark
    else if 0x3c ≤ n ∧ n < 0x7f then device
    else deviceParameter
  | deviceMark => if 0x30 ≤ n ∧ n < 0x7f then device else deviceMark
  | device => device

/-- The mode behind a character.  Characters that are shown and two that call off a sequence end it,
an escape character begins another, and characters beyond ASCII leave it as it is, unless they hold
the byte that ends a string for a device. -/
def next (m : Mode) (c : Char) : Mode :=
  let n := c.toNat
  if m.shows c ∨ n = 0x18 ∨ n = 0x1a then text
  else if n = 0x1b then escape
  else if n < 0x80 then m.within c
  else if m = device ∧ endsString c then text
  else m

end Mode

/-! ## Texts -/

/-- What is shown of a text. -/
def shown (m : Mode) : List Char → List Char
  | [] => []
  | c :: cs => if m.shows c then c :: shown (m.next c) cs else shown (m.next c) cs

/-- A string without the sequences that control a terminal. -/
def strip (s : String) : String := String.ofList (shown .text s.toList)

end Terminal
end WriteBehind
