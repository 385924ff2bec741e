import WriteBehind.Json.Cursor
import WriteBehind.Text.Utf8

/-!
# Text — strings in a JSON text

* `Cursor.stringBody` reads the bytes of a string up to the closing quote, and resolves its escapes;
* `Cursor.stringText` also makes sure that the bytes are UTF-8.
-/

namespace WriteBehind
namespace Json
namespace Cursor

/-! ## Escapes -/

/-- The value of a hexadecimal digit of either case. -/
def hexValue? (b : UInt8) : Option Nat :=
  let n := b.toNat
  if 48 ≤ n ∧ n ≤ 57 then some (n - 48)
  else if 97 ≤ n ∧ n ≤ 102 then some (n - 87)
  else if 65 ≤ n ∧ n ≤ 70 then some (n - 55)
  else none

/-- Reads four hexadecimal digits. -/
def fourDigits (c : Cursor) : Except Failure (Nat × Cursor) :=
  match c.rest with
  | a :: b :: d :: e :: r =>
    let c : Cursor := ⟨r, c.index + 4⟩
    match hexValue? a, hexValue? b, hexValue? d, hexValue? e with
    | some a, some b, some d, some e => .ok (((a * 16 + b) * 16 + d) * 16 + e, c)
    | _, _, _, _ => .error (c.fail .invalidEscape)
  | rest => .error ⟨.malformed .endInString, c.index + rest.length⟩

/-- Passes a byte between the two halves of a surrogate pair. -/
def pairByte (wanted : UInt8) (c : Cursor) : Except Failure Cursor :=
  match c.rest with
  | [] => .error (c.fail .endInString)
  | b :: r =>
    if b = wanted then .ok (c.step r) else .error ((c.step r).fail .unfinishedSurrogatePair)

/-- Reads a character that is given by its number, behind `\u`.  Characters beyond 16 bits are given
by a pair of surrogates. -/
def numbered (c : Cursor) : Except Failure (Char × Cursor) :=
  match fourDigits c with
  | .error f => .error f
  | .ok (n, c) =>
    if 0xDC00 ≤ n ∧ n ≤ 0xDFFF then .error (c.fail .loneSurrogate)
    else if n < 0xD800 ∨ n > 0xDBFF then .ok (Char.ofNat n, c)
    else
      match pairByte Mark.backslash c with
      | .error f => .error f
      | .ok c =>
        match pairByte (Mark.of 'u') c with
        | .error f => .error f
        | .ok c =>
          match fourDigits c with
          | .error f => .error f
          | .ok (m, c) =>
            if m < 0xDC00 ∨ m > 0xDFFF then .error (c.fail .loneSurrogate)
            else .ok (Char.ofNat (0x10000 + (n - 0xD800) * 1024 + (m - 0xDC00)), c)

/-- The characters with an escape of one letter. -/
def letterEscapes : List (Char × Char) :=
  [('"', '"'), ('\\', '\\'), ('/', '/'), ('b', '\x08'), ('f', '\x0c'), ('n', '\n'), ('r', '\r'),
    ('t', '\t')]

/-- Reads an escaped character, behind the backslash. -/
def escaped (c : Cursor) : Except Failure (Char × Cursor) :=
  match c.rest with
  | [] => .error (c.fail .endInString)
  | b :: r =>
    if b = Mark.of 'u' then numbered (c.step r)
    else
      match letterEscapes.find? fun e => Mark.of e.1 == b with
      | some e => .ok (e.2, c.step r)
      | none => .error ((c.step r).fail .invalidEscape)

/-! ## An escape takes up bytes -/

theorem length_fourDigits {c c' : Cursor} {n : Nat} (h : fourDigits c = .ok (n, c')) :
    c'.rest.length ≤ c.rest.length := by
  simp only [fourDigits] at h
  split at h
  · rename_i hr
    split at h
    · cases h
      simp only [hr, List.length_cons]
      omega
    · contradiction
  · contradiction

theorem length_pairByte {w : UInt8} {c c' : Cursor} (h : pairByte w c = .ok c') :
    c'.rest.length ≤ c.rest.length := by
  simp only [pairByte] at h
  split at h
  · contradiction
  · rename_i hr
    split at h
    · cases h
      simp [hr, Cursor.step]
    · contradiction

theorem length_numbered {c c' : Cursor} {ch : Char} (h : numbered c = .ok (ch, c')) :
    c'.rest.length ≤ c.rest.length := by
  simp only [numbered] at h
  split at h
  · contradiction
  · rename_i h₁
    have l₁ := length_fourDigits h₁
    split at h
    · contradiction
    · split at h
      · cases h
        exact l₁
      · split at h
        · contradiction
        · rename_i h₂
          have l₂ := length_pairByte h₂
          split at h
          · contradiction
          · rename_i h₃
            have l₃ := length_pairByte h₃
            split at h
            · contradiction
            · rename_i h₄
              have l₄ := length_fourDigits h₄
              split at h
              · contradiction
              · simp only [Except.ok.injEq, Prod.mk.injEq] at h
                obtain ⟨_, rfl⟩ := h
                omega

theorem length_escaped {c c' : Cursor} {ch : Char} (h : escaped c = .ok (ch, c')) :
    c'.rest.length ≤ c.rest.length := by
  simp only [escaped] at h
  split at h
  · contradiction
  · rename_i hr
    split at h
    · have := length_numbered h
      simp only [Cursor.step] at this
      simp only [hr, List.length_cons]
      omega
    · split at h
      · cases h
        simp [hr, Cursor.step]
      · contradiction

/-! ## Strings -/

/-- Reads a string behind its opening quote, and gives its bytes with all escapes resolved. -/
def stringBody (c : Cursor) : Except Failure (Bytes × Cursor) :=
  match _hr : c.rest with
  | [] => .error (c.fail .endInString)
  | b :: r =>
    if b = Mark.quote then .ok ([], c.step r)
    else if b = Mark.backslash then
      match _he : escaped (c.step r) with
      | .error f => .error f
      | .ok (ch, c') =>
        match stringBody c' with
        | .error f => .error f
        | .ok (bytes, c') => .ok (Utf8.encodeChar ch ++ bytes, c')
    else if b.toNat < 32 then .error ((c.step r).fail .controlCharacter)
    else
      match stringBody (c.step r) with
      | .error f => .error f
      | .ok (bytes, c') => .ok (b :: bytes, c')
termination_by c.rest.length
decreasing_by
  · have := length_escaped _he
    simp only [Cursor.step] at this
    simp only [_hr, List.length_cons]
    omega
  · simp [_hr, Cursor.step]

/-- Reads a string behind its opening quote.  Bytes that are no text are reported once the string has
been read.  Their place is counted back from the closing quote in bytes of the resolved string, so
that escapes behind them, which are longer in the text, make it come out too late. -/
def stringText (c : Cursor) : Except Failure (String × Cursor) :=
  match stringBody c with
  | .error f => .error f
  | .ok (bytes, after) =>
    match Utf8.decode? bytes with
    | none =>
      let unsound := bytes.length - Utf8.soundLength bytes
      .error ⟨.malformed .invalidCodePoint, after.index - unsound⟩
    | some cs => .ok (String.ofList cs, after)

end Cursor
end Json
end WriteBehind
