import WriteBehind.Json.Text
import WriteBehind.Json.Value

/-!
# Quotation — a string is read back from its quotes

What is written for a character of a string is an escape or the character itself.  A reader resolves
the escapes and takes every other byte as it stands, and it stops at the first quote that is not
escaped, so that it comes to the end of the string exactly where the string was ended.

* `Json.Reads read text b rest`: in front of `text` a reader gives `b` and leaves `rest`;
* `Json.Written ch cs`: the ways in which a character is written, of which `written_escapeChar` says
  that there are no others;
* `Json.reads_quoted` says that a string is read back, whatever stands behind it;
* `Json.quoted_append_inj`: hence a text begins with one quoted string at most.
-/

namespace WriteBehind

/-! ## Bytes of characters -/

namespace Utf8

variable {c : Char} {cs ds : List Char}

theorem encode_cons (c : Char) (cs : List Char) : encode (c :: cs) = encodeChar c ++ encode cs :=
  List.flatMap_cons

theorem encode_append (cs ds : List Char) : encode (cs ++ ds) = encode cs ++ encode ds :=
  List.flatMap_append

theorem encode_inj (h : encode cs = encode ds) : cs = ds := by
  have hread := decode?_encode cs
  rw [h, decode?_encode] at hread
  exact (Option.some.inj hread).symm

/-- Characters of ASCII take one byte. -/
theorem encodeChar_of_lt (h : c.toNat < 0x80) : encodeChar c = [Json.Mark.of c] := by
  simp only [encodeChar, if_pos h, Json.Mark.of]

/-- No byte of another character is one of ASCII. -/
theorem le_of_mem_encodeChar (h : 0x80 ≤ c.toNat) {b : UInt8} (hb : b ∈ encodeChar c) :
    0x80 ≤ b.toNat := by
  have hlast : c.toNat < 0x110000 := by
    have hvalid : c.toNat.isValidChar := c.valid
    simp only [Nat.isValidChar] at hvalid
    omega
  have hbyte : ∀ {n : Nat}, 0x80 ≤ n → n < 256 → 0x80 ≤ (UInt8.ofNat n).toNat := by
    intro n hlo hhi
    rw [UInt8.toNat_ofNat']
    omega
  simp only [encodeChar, if_neg (Nat.not_lt.2 h)] at hb
  split at hb
  · simp only [List.mem_cons, List.not_mem_nil, or_false] at hb
    rcases hb with rfl | rfl <;> exact hbyte (by omega) (by omega)
  split at hb
  · simp only [List.mem_cons, List.not_mem_nil, or_false] at hb
    rcases hb with rfl | rfl | rfl <;> exact hbyte (by omega) (by omega)
  · simp only [List.mem_cons, List.not_mem_nil, or_false] at hb
    rcases hb with rfl | rfl | rfl | rfl <;> exact hbyte (by omega) (by omega)

end Utf8

namespace Json

open Cursor

/-! ## Readers -/

/-- In front of `text`, wherever in a document that is, a reader gives `b` and comes to `rest`. -/
def Reads {β : Type} (read : Cursor → Except Failure (β × Cursor)) (text : Bytes) (b : β)
    (rest : Bytes) : Prop :=
  ∀ i, ∃ j, read ⟨text, i⟩ = .ok (b, ⟨rest, j⟩)

/-- A reader gives one value at one place. -/
theorem Reads.unique {β : Type} {read : Cursor → Except Failure (β × Cursor)} {text : Bytes}
    {b b' : β} {rest rest' : Bytes} (h : Reads read text b rest) (h' : Reads read text b' rest') :
    b = b' ∧ rest = rest' := by
  rcases h 0 with ⟨j, hj⟩
  rcases h' 0 with ⟨j', hj'⟩
  cases hj.symm.trans hj'
  exact ⟨rfl, rfl⟩

/-! ## Strings, byte by byte -/

variable {bytes r rest : Bytes}

theorem reads_quote (r : Bytes) : Reads stringBody (Mark.quote :: r) [] r := by
  intro i
  rw [stringBody]
  exact ⟨i + 1, rfl⟩

/-- A byte that stands for itself. -/
def Plain (b : UInt8) : Prop := b ≠ Mark.quote ∧ b ≠ Mark.backslash ∧ 32 ≤ b.toNat

theorem reads_plain {b : UInt8} (hb : Plain b) (h : Reads stringBody r bytes rest) :
    Reads stringBody (b :: r) (b :: bytes) rest := by
  intro i
  rcases h (i + 1) with ⟨j, hj⟩
  refine ⟨j, ?_⟩
  rw [stringBody]
  simp only [if_neg hb.1, if_neg hb.2.1, if_neg (Nat.not_lt.2 hb.2.2), Cursor.step, hj]

theorem reads_plain_append {bs : Bytes} (hbs : ∀ b ∈ bs, Plain b)
    (h : Reads stringBody r bytes rest) : Reads stringBody (bs ++ r) (bs ++ bytes) rest := by
  induction bs with
  | nil => exact h
  | cons b bs ih =>
    have hrest := ih fun b' hb' => hbs b' (List.mem_cons_of_mem b hb')
    exact reads_plain (hbs b List.mem_cons_self) hrest

theorem reads_escape {ch : Char} {r' : Bytes} (hescape : Reads escaped r' ch r)
    (h : Reads stringBody r bytes rest) :
    Reads stringBody (Mark.backslash :: r') (Utf8.encodeChar ch ++ bytes) rest := by
  intro i
  have hbackslash : Mark.backslash ≠ Mark.quote := by decide
  rcases hescape (i + 1) with ⟨k, hk⟩
  rcases h k with ⟨j, hj⟩
  refine ⟨j, ?_⟩
  rw [stringBody]
  simp only [if_neg hbackslash, if_true, Cursor.step]
  split
  · rename_i hfail
    cases hk.symm.trans hfail
  · rename_i hread
    cases hk.symm.trans hread
    rw [hj]

/-! ## Escapes -/

theorem reads_letter {e : Char × Char} (he : e ∈ letterEscapes) (r : Bytes) :
    Reads escaped (Mark.of e.1 :: r) e.2 r := by
  intro i
  refine ⟨i + 1, ?_⟩
  simp only [letterEscapes, List.mem_cons, List.not_mem_nil, or_false] at he
  rcases he with rfl | rfl | rfl | rfl | rfl | rfl | rfl | rfl <;> rfl

theorem hexValue?_digit : ∀ n, n < 16 → hexValue? (Mark.of (Hex.digit n)) = some n := by decide

/-- A control character is given by two digits behind two zeros. -/
theorem reads_number {ch : Char} (hch : ch.toNat < 32) (r : Bytes) :
    Reads escaped
      (Mark.of 'u' :: Mark.of '0' :: Mark.of '0' :: Mark.of (Hex.digit (ch.toNat / 16)) ::
        Mark.of (Hex.digit (ch.toNat % 16)) :: r) ch r := by
  intro i
  refine ⟨i + 1 + 4, ?_⟩
  have hzero : hexValue? (Mark.of '0') = some 0 := by decide
  have hhi := hexValue?_digit (ch.toNat / 16) (by omega)
  have hlo := hexValue?_digit (ch.toNat % 16) (by omega)
  have hvalue : ((0 * 16 + 0) * 16 + ch.toNat / 16) * 16 + ch.toNat % 16 = ch.toNat := by omega
  have hleast : ch.toNat < 0xD800 ∨ ch.toNat > 0xDBFF := by omega
  have hpair : ¬ (0xDC00 ≤ ch.toNat ∧ ch.toNat ≤ 0xDFFF) := by omega
  simp only [escaped, if_true, numbered, Cursor.step, fourDigits, hzero, hhi, hlo, hvalue,
    if_neg hpair, if_pos hleast, Char.ofNat_toNat]

/-! ## Characters -/

/-- A character is written as itself or as an escape. -/
inductive Written : Char → List Char → Prop
  | letter {e : Char × Char} (he : e ∈ letterEscapes) : Written e.2 ['\\', e.1]
  | number {ch : Char} (hch : ch.toNat < 32) :
      Written ch ['\\', 'u', '0', '0', Hex.digit (ch.toNat / 16), Hex.digit (ch.toNat % 16)]
  | itself {ch : Char} (hquote : ch ≠ '"') (hbackslash : ch ≠ '\\') (hch : 32 ≤ ch.toNat) :
      Written ch [ch]

theorem written_escapeChar (ch : Char) : Written ch (escapeChar ch) := by
  have hletter : ∀ {letter c : Char}, (letter, c) ∈ letterEscapes → ch.toNat = c.toNat →
      Written ch ['\\', letter] := by
    intro letter c he hch
    rw [Char.toNat_inj.1 hch]
    exact .letter he
  -- The seven characters with a letter of their own, the other controls, and the rest.
  unfold escapeChar
  split
  · rename_i h
    exact hletter (c := '"') (by decide) (congrArg Char.toNat h)
  split
  · rename_i h
    exact hletter (c := '\\') (by decide) (congrArg Char.toNat h)
  split
  · rename_i h
    exact hletter (c := '\x08') (by decide) h
  split
  · rename_i h
    exact hletter (c := '\t') (by decide) h
  split
  · rename_i h
    exact hletter (c := '\n') (by decide) h
  split
  · rename_i h
    exact hletter (c := '\x0c') (by decide) h
  split
  · rename_i h
    exact hletter (c := '\r') (by decide) h
  split
  · rename_i h
    exact .number h
  · rename_i hquote hbackslash _ _ _ _ _ h
    exact .itself hquote hbackslash (Nat.not_lt.1 h)

/-- None of the bytes of a character that stands for itself ends the string or starts an escape. -/
theorem plain_of_mem_encodeChar {ch : Char} (hquote : ch ≠ '"') (hbackslash : ch ≠ '\\')
    (hch : 32 ≤ ch.toNat) {b : UInt8} (hb : b ∈ Utf8.encodeChar ch) : Plain b := by
  by_cases hascii : ch.toNat < 0x80
  · rw [Utf8.encodeChar_of_lt hascii, List.mem_singleton] at hb
    have hvalue : b.toNat = ch.toNat := by
      rw [hb, Mark.of, UInt8.toNat_ofNat']
      omega
    refine ⟨?_, ?_, hvalue ▸ hch⟩
    · rintro rfl
      exact hquote (Char.toNat_inj.1 hvalue.symm)
    · rintro rfl
      exact hbackslash (Char.toNat_inj.1 hvalue.symm)
  · have hlarge := Utf8.le_of_mem_encodeChar (Nat.not_lt.1 hascii) hb
    refine ⟨?_, ?_, by omega⟩
    · rintro rfl
      exact absurd hlarge (by decide)
    · rintro rfl
      exact absurd hlarge (by decide)

theorem Written.reads {ch : Char} {cs : List Char} (hwritten : Written ch cs)
    (h : Reads stringBody r bytes rest) :
    Reads stringBody (Utf8.encode cs ++ r) (Utf8.encodeChar ch ++ bytes) rest := by
  cases hwritten with
  | @letter e he =>
    have hascii : ∀ e ∈ letterEscapes, e.1.toNat < 0x80 := by decide
    have htext : Utf8.encode ['\\', e.1] = [Mark.backslash, Mark.of e.1] := by
      rw [Utf8.encode_cons, Utf8.encode_cons, Utf8.encodeChar_of_lt (hascii e he)]
      rfl
    rw [htext]
    exact reads_escape (reads_letter he r) h
  | number hch =>
    have hascii : ∀ n, n < 16 → (Hex.digit n).toNat < 0x80 := by decide
    have htext : Utf8.encode
        ['\\', 'u', '0', '0', Hex.digit (ch.toNat / 16), Hex.digit (ch.toNat % 16)] =
          [Mark.backslash, Mark.of 'u', Mark.of '0', Mark.of '0',
            Mark.of (Hex.digit (ch.toNat / 16)), Mark.of (Hex.digit (ch.toNat % 16))] := by
      simp only [Utf8.encode_cons, Utf8.encodeChar_of_lt (hascii (ch.toNat / 16) (by omega)),
        Utf8.encodeChar_of_lt (hascii (ch.toNat % 16) (by omega))]
      rfl
    rw [htext]
    exact reads_escape (reads_number hch r) h
  | itself hquote hbackslash hch =>
    rw [Utf8.encode_cons, List.append_assoc]
    exact reads_plain_append (fun b => plain_of_mem_encodeChar hquote hbackslash hch) h

/-! ## Whole strings -/

theorem reads_escaped (cs : List Char) (rest : Bytes) :
    Reads stringBody (Utf8.encode (cs.flatMap escapeChar) ++ Mark.quote :: rest) (Utf8.encode cs)
      rest := by
  induction cs with
  | nil => exact reads_quote rest
  | cons c cs ih =>
    rw [List.flatMap_cons, Utf8.encode_append, Utf8.encode_cons, List.append_assoc]
    exact (written_escapeChar c).reads ih

/-- The bytes of a string in quotes. -/
theorem encode_quoted (s : String) : Utf8.encode (quoted s) =
    Mark.quote :: Utf8.encode (s.toList.flatMap escapeChar) ++ [Mark.quote] := by
  rw [quoted, Utf8.encode_append, Utf8.encode_cons]
  rfl

/-- Behind its opening quote a string is read, and the reader stops behind the closing one. -/
theorem reads_quoted (s : String) (rest : Bytes) :
    Reads stringText (Utf8.encode (s.toList.flatMap escapeChar) ++ Mark.quote :: rest) s rest := by
  intro i
  rcases reads_escaped s.toList rest i with ⟨j, hj⟩
  refine ⟨j, ?_⟩
  simp only [stringText, hj, Utf8.decode?_encode, String.ofList_toList]

/-- A text begins with one string in quotes at most. -/
theorem quoted_append_inj {s t : String} {cs ds : List Char} (h : quoted s ++ cs = quoted t ++ ds) :
    s = t ∧ cs = ds := by
  have hbytes := congrArg Utf8.encode h
  simp only [Utf8.encode_append, encode_quoted, List.cons_append, List.append_assoc,
    List.cons.injEq, true_and, List.nil_append] at hbytes
  have hread := reads_quoted s (Utf8.encode cs)
  rw [hbytes] at hread
  rcases hread.unique (reads_quoted t (Utf8.encode ds)) with ⟨hstring, hrest⟩
  exact ⟨hstring, Utf8.encode_inj hrest⟩

end Json
end WriteBehind
