import WriteBehind.Json.Numeral
import WriteBehind.Json.Text

/-!
# Schema — reading a JSON text into records

A text is read once from front to back, and the first defect ends the reading.

* `Cursor.natural`, `text`, `optionalText` and `variant` read single values;
* a `Schema` lists the fields of a record; `Schema.read` reads an object, whose fields may come in
  any order, or an array of the fields in the order of the schema; fields that are missing keep
  their defaults;
* `document` reads a whole text.
-/

namespace WriteBehind
namespace Json

namespace Cursor

/-! ## Misplaced values -/

/-- Reads a word of three or four letters, and says what was found. -/
def wordFound (rest : List Char) (found : Found) (c : Cursor) : Except Failure (Found × Cursor) :=
  match c.word rest with
  | .error f => .error f
  | .ok c => .ok (found, c)

/-- Reads as much of a value as it takes to say what it is. -/
def found (c : Cursor) : Except Failure (Found × Cursor) :=
  match c.rest with
  | [] => .error (c.failNext .expectedValue)
  | b :: r =>
    if b = Mark.of 'n' then wordFound ['u', 'l', 'l'] .null (c.step r)
    else if b = Mark.of 't' then wordFound ['r', 'u', 'e'] (.boolean true) (c.step r)
    else if b = Mark.of 'f' then wordFound ['a', 'l', 's', 'e'] (.boolean false) (c.step r)
    else if b = Mark.minus ∨ Mark.isDigit b then
      match numeral c with
      | .error f => .error f
      | .ok (n, c) => .ok (n.found, c)
    else if b = Mark.quote then
      match stringText (c.step r) with
      | .error f => .error f
      | .ok (s, c) => .ok (.string s, c)
    else if b = Mark.openBracket then .ok (.sequence, c)
    else if b = Mark.openBrace then .ok (.map, c)
    else .error (c.failNext .expectedValue)

/-- The failure of a value that is not of the expected type. -/
def misplaced (expected : String) (c : Cursor) : Failure :=
  match found c with
  | .error f => f
  | .ok (what, c) => c.misfit (.invalidType what expected)

/-! ## Single values -/

/-- Reads a natural number of at most `greatest`. -/
def natural (greatest : Nat) (expected : String) (c : Cursor) : Except Failure (Nat × Cursor) :=
  let c := c.skipBlank
  match c.rest with
  | [] => .error (c.failNext .endInValue)
  | b :: _ =>
    if b = Mark.minus ∨ Mark.isDigit b then
      match numeral c with
      | .error f => .error f
      | .ok (.natural n, c) =>
        if n ≤ greatest then .ok (n, c)
        else .error (c.misfit (.invalidValue (.integer n) expected))
      | .ok (.negative n, c) => .error (c.misfit (.invalidValue (.integer (-n)) expected))
      | .ok (.floating sign d, c) => .error (c.misfit (.invalidType (.floating sign d) expected))
    else .error (misplaced expected c)

/-- Reads a string. -/
def text (expected : String) (c : Cursor) : Except Failure (String × Cursor) :=
  let c := c.skipBlank
  match c.rest with
  | [] => .error (c.failNext .endInValue)
  | b :: r => if b = Mark.quote then stringText (c.step r) else .error (misplaced expected c)

/-- Reads a string, or nothing at `null`. -/
def optionalText (expected : String) (c : Cursor) : Except Failure (Option String × Cursor) :=
  let c := c.skipBlank
  let present :=
    match text expected c with
    | .error f => .error f
    | .ok (s, c) => .ok (some s, c)
  match c.rest with
  | b :: r =>
    if b = Mark.of 'n' then
      match (c.step r).word ['u', 'l', 'l'] with
      | .error f => .error f
      | .ok c => .ok (none, c)
    else present
  | [] => present

/-- Reads `null`. -/
def unit (c : Cursor) : Except Failure Cursor :=
  let c := c.skipBlank
  match c.rest with
  | [] => .error (c.failNext .endInValue)
  | b :: r =>
    if b = Mark.of 'n' then (c.step r).word ['u', 'l', 'l'] else .error (misplaced "unit" c)

/-- Reads the colon between a key and its value. -/
def colon (c : Cursor) : Except Failure Cursor :=
  let c := c.skipBlank
  match c.rest with
  | [] => .error (c.failNext .endInObject)
  | b :: r => if b = Mark.colon then .ok (c.step r) else .error (c.failNext .expectedColon)

/-- Reads the name of a variant. -/
def variantName {α : Type} (names : List (String × α)) (c : Cursor) :
    Except Failure (α × Cursor) :=
  match text "variant identifier" c with
  | .error f => .error f
  | .ok (s, c) =>
    match names.lookup s with
    | some a => .ok (a, c)
    | none => .error (c.misfit (.unknownVariant s (names.map Prod.fst)))

/-- Makes sure that a string comes next, where there is a key at all. -/
def keyAhead (c : Cursor) : Except Failure Cursor :=
  let c := c.skipBlank
  match c.rest with
  | [] => .error (c.failNext .endInObject)
  | b :: _ =>
    if b = Mark.quote ∨ b = Mark.closeBrace then .ok c else .error (c.failNext .keyNotString)

/-- Reads a variant without contents: its name, or an object of its name and `null`. -/
def variant {α : Type} (names : List (String × α)) (c : Cursor) : Except Failure (α × Cursor) :=
  let c := c.skipBlank
  match c.rest with
  | [] => .error (c.failNext .endInValue)
  | b :: r =>
    if b = Mark.quote then variantName names c
    else if b = Mark.openBrace then
      match keyAhead (c.step r) with
      | .error f => .error f
      | .ok c =>
        match variantName names c with
        | .error f => .error f
        | .ok (a, c) =>
          match colon c with
          | .error f => .error f
          | .ok c =>
            match unit c with
            | .error f => .error f
            | .ok c =>
              let c := c.skipBlank
              match c.rest with
              | [] => .error (c.fail .endInObject)
              | b :: r =>
                if b = Mark.closeBrace then .ok (a, c.step r) else .error (c.fail .expectedValue)
    else .error (c.failNext .expectedValue)

end Cursor

/-! ## Records -/

/-- A field: its name, and how its value is read into a record. -/
structure Field (α : Type) where
  name : String
  read : α → Cursor → Except Failure (α × Cursor)

/-- The fields of a record. -/
structure Schema (α : Type) where
  /-- What messages call the record. -/
  expected : String
  fields : List (Field α)

namespace Schema

variable {α : Type}

/-- Takes the field with this name out of a list. -/
def pick (name : String) : List (Field α) → Option (Field α × List (Field α))
  | [] => none
  | f :: fs =>
    if f.name = name then some (f, fs)
    else
      match pick name fs with
      | none => none
      | some (g, gs) => some (g, f :: gs)

theorem length_pick {name : String} {fs gs : List (Field α)} {g : Field α}
    (h : pick name fs = some (g, gs)) : gs.length < fs.length := by
  induction fs generalizing gs with
  | nil => contradiction
  | cons f fs ih =>
    simp only [pick] at h
    split at h
    · cases h
      simp
    · split at h
      · contradiction
      · rename_i hp
        cases h
        have := ih hp
        simp only [List.length_cons]
        omega

/-- The failure of a key that names no field, or one that has been read.  It is placed behind the
end of the object where that comes next. -/
def badKey (s : Schema α) (name : String) (c : Cursor) : Failure :=
  let c := c.skipBlank
  let place := if c.rest.head? = some Mark.closeBrace then c.index + 1 else c.index
  if s.fields.any (·.name == name) then ⟨.misfit (.duplicateField name), place⟩
  else ⟨.misfit (.unknownField name (s.fields.map (·.name))), place⟩

/-- Passes the comma in front of a key, and comes to the key or to the end of the object. -/
def toKey (first : Bool) (c : Cursor) : Except Failure Cursor :=
  let c := c.skipBlank
  match c.rest with
  | [] => .error (c.failNext .endInObject)
  | b :: r =>
    if b = Mark.closeBrace ∨ first then .ok c
    else if b = Mark.comma then
      let c := (c.step r).skipBlank
      if c.rest.head? = some Mark.closeBrace then .error (c.failNext .trailingComma) else .ok c
    else .error (c.failNext .expectedObjectCommaOrEnd)

/-- Reads the fields of an object up to its end.  Only the fields in `unseen` may still come. -/
def objectBody (s : Schema α) (unseen : List (Field α)) (first : Bool) (a : α) (c : Cursor) :
    Except Failure (α × Cursor) :=
  match toKey first c with
  | .error f => .error f
  | .ok c =>
    match c.rest with
    | [] => .error (c.failNext .endInValue)
    | b :: r =>
      if b = Mark.closeBrace then .ok (a, c.step r)
      else if b ≠ Mark.quote then .error (c.failNext .keyNotString)
      else
        match (c.step r).stringText with
        | .error f => .error f
        | .ok (name, c) =>
          match _hp : pick name unseen with
          | none => .error (s.badKey name c)
          | some (field, others) =>
            match c.colon with
            | .error f => .error f
            | .ok c =>
              match field.read a c with
              | .error f => .error f
              | .ok (a, c) => objectBody s others false a c
termination_by unseen.length
decreasing_by exact length_pick _hp

/-- Passes the comma in front of an item, and comes to the item or to the end of the array. -/
def toItem (first : Bool) (c : Cursor) : Except Failure Cursor :=
  let c := c.skipBlank
  match c.rest with
  | [] => .error (c.failNext .endInList)
  | b :: r =>
    if b = Mark.closeBracket ∨ first then .ok c
    else if b = Mark.comma then
      let c := (c.step r).skipBlank
      match c.rest with
      | [] => .error (c.failNext .endInValue)
      | b :: _ => if b = Mark.closeBracket then .error (c.failNext .trailingComma) else .ok c
    else .error (c.failNext .expectedListCommaOrEnd)

/-- Reads the fields of a record from an array; the array may end early. -/
def arrayBody : List (Field α) → Bool → α → Cursor → Except Failure (α × Cursor)
  | [], _, a, c => .ok (a, c)
  | field :: fields, first, a, c =>
    match toItem first c with
    | .error f => .error f
    | .ok c =>
      if c.rest.head? = some Mark.closeBracket then .ok (a, c)
      else
        match field.read a c with
        | .error f => .error f
        | .ok (a, c) => arrayBody fields false a c

/-- Passes the end of an array. -/
def arrayEnd (c : Cursor) : Except Failure Cursor :=
  let c := c.skipBlank
  match c.rest with
  | [] => .error (c.failNext .endInList)
  | b :: r =>
    if b = Mark.closeBracket then .ok (c.step r)
    else if b = Mark.comma then
      let c := (c.step r).skipBlank
      if c.rest.head? = some Mark.closeBracket then .error (c.failNext .trailingComma)
      else .error (c.failNext .trailingCharacters)
    else .error (c.failNext .trailingCharacters)

/-- Reads a record, starting from its defaults. -/
def read (s : Schema α) (default : α) (c : Cursor) : Except Failure (α × Cursor) :=
  let c := c.skipBlank
  match c.rest with
  | [] => .error (c.failNext .endInValue)
  | b :: r =>
    if b = Mark.openBrace then s.objectBody s.fields true default (c.step r)
    else if b = Mark.openBracket then
      match arrayBody s.fields true default (c.step r) with
      | .error f => .error f
      | .ok (a, c) =>
        match arrayEnd c with
        | .error f => .error f
        | .ok c => .ok (a, c)
    else .error (c.misplaced s.expected)

end Schema

/-! ## Whole texts -/

/-- Reads a whole text as a record. -/
def document {α : Type} (s : Schema α) (default : α) (bytes : Bytes) : Except Located α :=
  match s.read default ⟨bytes, 0⟩ with
  | .error f => .error (f.locate bytes)
  | .ok (a, c) =>
    let c := c.skipBlank
    if c.rest.isEmpty then .ok a else .error ((c.failNext .trailingCharacters).locate bytes)

end Json
end WriteBehind
