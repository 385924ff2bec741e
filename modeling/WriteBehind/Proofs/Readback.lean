import WriteBehind.Json.Schema
import WriteBehind.Proofs.Distinct

/-!
# Readback — a record is read from the text that was printed for it

A reader of single values stops where the next comma or closing brace is, and a compact text has
nothing else between its values.  Fields that were printed in the order of a schema are therefore read
one after the other, and the record comes out that they were taken from.

* `Json.Takes read v b`: a reader passes the text of `v`, whatever comes behind it, and gives `b`;
* `Json.takes_natural`, `takes_text`, `takes_optionalText` and `takes_variant` say so of single values;
* `Json.Slot` is a field with the value that was printed for it, and `Json.Schema.takes_record` says
  that an object of slots is read as the record they make up;
* `Json.Field.Keeps` and `Json.Schema.read_keeps` say what holds of every record that is read, from
  whatever text.
-/

namespace WriteBehind

namespace Utf8

theorem encode_of_lt {cs : List Char} (h : ∀ c ∈ cs, c.toNat < 0x80) :
    encode cs = cs.map Json.Mark.of := by
  induction cs with
  | nil => rfl
  | cons c cs ih =>
    rw [encode_cons, encodeChar_of_lt (h c List.mem_cons_self),
      ih fun c' hc' => h c' (List.mem_cons_of_mem c hc')]
    rfl

end Utf8

namespace Json

open Cursor

/-! ## Places in a text -/

/-- What may stand behind a value in an object: nothing, or a mark that no value goes on with. -/
def Closed (rest : Bytes) : Prop := ∀ b ∈ rest.head?, b = Mark.comma ∨ b = Mark.closeBrace

theorem closed_nil : Closed [] := fun _ hb => nomatch hb

/-- A reader passes the text of a value and gives `b`. -/
def Takes {β : Type} (read : Cursor → Except Failure (β × Cursor)) (v : Json) (b : β) : Prop :=
  ∀ rest, Closed rest → Reads read (Utf8.encode v.chars ++ rest) b rest

theorem skipBlank_cons {b : UInt8} (h : Mark.isBlank b = false) (r : Bytes) (i : Nat) :
    Cursor.skipBlank ⟨b :: r, i⟩ = ⟨b :: r, i⟩ := by
  rw [Cursor.skipBlank, List.dropWhile_cons_of_neg (by rw [h]; decide),
    List.takeWhile_cons_of_neg (by rw [h]; decide)]
  rfl

theorem Takes.map {β γ : Type} {read : Cursor → Except Failure (β × Cursor)} {v : Json} {b : β}
    (h : Takes read v b) (f : β → γ) :
    Takes (fun c => (read c).map fun (b, c) => (f b, c)) v (f b) := by
  intro rest hrest i
  rcases h rest hrest i with ⟨j, hj⟩
  refine ⟨j, ?_⟩
  simp only [hj, Except.map]

/-! ## Numbers -/

/-- The number that a list of digits stands for, behind digits that stand for `n`. -/
def numberFrom (n : Nat) (ds : List Nat) : Nat := ds.foldl (fun n d => 10 * n + d) n

theorem le_numberFrom (n : Nat) (ds : List Nat) : n ≤ numberFrom n ds := by
  induction ds generalizing n with
  | nil => exact Nat.le_refl n
  | cons d ds ih =>
    have hstep : n ≤ 10 * n + d := by omega
    exact Nat.le_trans hstep (ih (10 * n + d))

/-- No digit is dropped of a number of 64 bits. -/
theorem absorb_eq {n : Nat} {ds : List Nat} (h : numberFrom n ds < 2 ^ 64) :
    Numeral.absorb n ds = (numberFrom n ds, ds.length) := by
  induction ds generalizing n with
  | nil => rfl
  | cons d ds ih =>
    have hstep : 10 * n + d < 2 ^ 64 := Nat.lt_of_le_of_lt (le_numberFrom _ ds) h
    simp only [Numeral.absorb, if_pos hstep]
    rw [ih h]
    rfl

/-- The digits of a number. -/
def figures (n : Nat) : List Nat := (Decimal.encode n).map fun c => c.toNat - 48

theorem numberFrom_figures (n : Nat) : numberFrom 0 (figures n) = n := by
  rw [numberFrom, figures, List.foldl_map]
  exact Decimal.value_encode n

/-- A number that is not zero starts with a digit that is not zero. -/
theorem figures_pos {n : Nat} (h : 0 < n) : ∃ d ds, figures n = d :: ds ∧ d ≠ 0 := by
  induction n using Nat.strongRecOn with
  | ind n ih =>
    rw [figures, Decimal.encode]
    split
    · rename_i hsmall
      refine ⟨n, [], ?_, by omega⟩
      rw [List.map_singleton, Decimal.toNat_digit hsmall, Nat.add_sub_cancel_left]
    · rename_i hlarge
      rcases ih (n / 10) (by omega) (by omega) with ⟨d, ds, hfigures, hd⟩
      rw [figures] at hfigures
      rw [List.map_append, hfigures]
      exact ⟨d, _, rfl, hd⟩

theorem figures_cases (n : Nat) : ∃ d ds, figures n = d :: ds ∧ (d = 0 → ds = []) := by
  by_cases h : n = 0
  · subst h
    refine ⟨0, [], ?_, fun _ => rfl⟩
    rw [figures, Decimal.encode]
    rfl
  · rcases figures_pos (Nat.pos_of_ne_zero h) with ⟨d, ds, hfigures, hd⟩
    exact ⟨d, ds, hfigures, fun hzero => absurd hzero hd⟩

theorem toNat_of_isDigit {c : Char} (h : Decimal.isDigit c = true) :
    (Mark.of c).toNat = c.toNat ∧ 48 ≤ c.toNat ∧ c.toNat ≤ 57 := by
  simp only [Decimal.isDigit, Bool.and_eq_true, decide_eq_true_eq] at h
  refine ⟨?_, h⟩
  rw [Mark.of, UInt8.toNat_ofNat']
  omega

theorem isDigit_of_mem {n : Nat} {b : UInt8} (hb : b ∈ (Decimal.encode n).map Mark.of) :
    Mark.isDigit b = true := by
  rcases List.mem_map.1 hb with ⟨c, hc, rfl⟩
  have hdigit := toNat_of_isDigit (Decimal.isDigit_of_mem_encode hc)
  rw [Mark.isDigit, hdigit.1, Bool.and_eq_true, decide_eq_true_eq, decide_eq_true_eq]
  exact hdigit.2

theorem encode_number (n : Nat) :
    Utf8.encode (nat n).chars = (Decimal.encode n).map Mark.of := by
  refine Utf8.encode_of_lt ?_
  intro c hc
  have hdigit := toNat_of_isDigit (Decimal.isDigit_of_mem_encode hc)
  omega

theorem isDigit_of_closed {rest : Bytes} (h : Closed rest) :
    ∀ b ∈ rest.head?, Mark.isDigit b = false := by
  intro b hb
  rcases h b hb with rfl | rfl <;> decide

theorem digits_encode {rest : Bytes} (hrest : Closed rest) (n i : Nat) :
    ∃ j, Cursor.digits ⟨(Decimal.encode n).map Mark.of ++ rest, i⟩ = (figures n, ⟨rest, j⟩) := by
  have hstop : rest.takeWhile Mark.isDigit = [] ∧ rest.dropWhile Mark.isDigit = rest := by
    cases rest with
    | nil => exact ⟨rfl, rfl⟩
    | cons b rest =>
      have hb : ¬ Mark.isDigit b = true := by
        rw [isDigit_of_closed hrest b rfl]
        decide
      exact ⟨List.takeWhile_cons_of_neg hb, List.dropWhile_cons_of_neg hb⟩
  have hvalues : ((Decimal.encode n).map Mark.of).map Mark.digitValue = figures n := by
    rw [List.map_map, figures]
    refine List.map_congr_left ?_
    intro c hc
    have hdigit := toNat_of_isDigit (Decimal.isDigit_of_mem_encode hc)
    rw [Function.comp_apply, Mark.digitValue, hdigit.1]
  refine ⟨i + ((Decimal.encode n).map Mark.of).length, ?_⟩
  simp only [Cursor.digits]
  rw [List.takeWhile_append_of_pos fun b => isDigit_of_mem,
    List.dropWhile_append_of_pos fun b => isDigit_of_mem, hstop.1, hstop.2, List.append_nil,
    hvalues]

theorem reads_magnitude {n : Nat} (hn : n < 2 ^ 64) {rest : Bytes} (hrest : Closed rest) :
    Reads (magnitude false) ((Decimal.encode n).map Mark.of ++ rest) (.natural n) rest := by
  intro i
  rcases digits_encode hrest n i with ⟨j, hdigits⟩
  rcases figures_cases n with ⟨d, ds, hfigures, hleading⟩
  refine ⟨j, ?_⟩
  have habsorb : Numeral.absorb 0 (figures n) = (n, (figures n).length) := by
    rw [absorb_eq (by rwa [numberFrom_figures]), numberFrom_figures]
  have hwhole : afterInteger false n 0 ⟨rest, j⟩ = .ok (.natural n, ⟨rest, j⟩) := by
    cases rest with
    | nil => rfl
    | cons b rest => rcases hrest b rfl with rfl | rfl <;> rfl
  simp only [magnitude, hdigits]
  split
  · rename_i hempty
    rw [hfigures] at hempty
    cases hempty
  · rename_i hzeros
    rw [hfigures, Prod.mk.injEq, List.cons.injEq] at hzeros
    rw [hleading hzeros.1.1] at hzeros
    cases hzeros.1.2
  · rename_i hpair
    cases hpair
    simp only [habsorb, Nat.sub_self]
    exact hwhole

theorem takes_natural {n greatest : Nat} (expected : String) (hn : n ≤ greatest)
    (hgreatest : greatest < 2 ^ 64) : Takes (natural greatest expected) (nat n) n := by
  intro rest hrest i
  rcases reads_magnitude (Nat.lt_of_le_of_lt hn hgreatest) hrest i with ⟨j, hj⟩
  refine ⟨j, ?_⟩
  rw [encode_number]
  cases hbytes : (Decimal.encode n).map Mark.of with
  | nil => exact absurd (List.map_eq_nil_iff.1 hbytes) (Decimal.encode_ne_nil n)
  | cons b bs =>
    have hdigit : Mark.isDigit b = true := isDigit_of_mem (hbytes ▸ List.mem_cons_self)
    have hrange : 48 ≤ b.toNat ∧ b.toNat ≤ 57 := by
      simpa only [Mark.isDigit, Bool.and_eq_true, decide_eq_true_eq] using hdigit
    have hminus : b ≠ Mark.minus := by
      rintro rfl
      exact absurd hrange (by decide)
    have hblank : Mark.isBlank b = false := by
      have hne : ∀ m : UInt8, m.toNat < 48 → (b == m) = false := by
        intro m hm
        refine beq_eq_false_iff_ne.2 ?_
        rintro rfl
        omega
      rw [Mark.isBlank, hne 32 (by decide), hne 10 (by decide), hne 9 (by decide),
        hne 13 (by decide)]
      rfl
    rw [hbytes] at hj
    simp only [List.cons_append] at hj ⊢
    simp only [natural, skipBlank_cons hblank, hdigit, or_true, if_true, numeral, if_neg hminus, hj,
      if_pos hn]

/-! ## Strings, and what may stand in their place -/

/-- A string in quotes, and what stands behind it. -/
theorem encode_quoted_append (s : String) (rest : Bytes) : Utf8.encode (quoted s) ++ rest =
    Mark.quote :: (Utf8.encode (s.toList.flatMap escapeChar) ++ Mark.quote :: rest) := by
  simp only [encode_quoted, List.cons_append, List.append_assoc, List.nil_append]

theorem skipBlank_quote (r : Bytes) (i : Nat) :
    Cursor.skipBlank ⟨Mark.quote :: r, i⟩ = ⟨Mark.quote :: r, i⟩ :=
  skipBlank_cons (by decide) r i

theorem reads_text (expected s : String) (rest : Bytes) :
    Reads (text expected) (Utf8.encode (quoted s) ++ rest) s rest := by
  intro i
  rcases reads_quoted s rest (i + 1) with ⟨j, hj⟩
  refine ⟨j, ?_⟩
  rw [encode_quoted_append]
  simp only [text, skipBlank_quote, if_true,
    Cursor.step, hj]

theorem takes_text (expected s : String) : Takes (text expected) (string s) s :=
  fun rest _ => reads_text expected s rest

theorem takes_optionalText (expected : String) (p : Option String) :
    Takes (optionalText expected) (match p with | some s => .string s | none => .null) p := by
  intro rest _ i
  cases p with
  | none => exact ⟨i + 1 + 1 + 1 + 1, rfl⟩
  | some s =>
    rcases reads_text expected s rest i with ⟨j, hj⟩
    refine ⟨j, ?_⟩
    have hletter : Mark.quote ≠ Mark.of 'n' := by decide
    show optionalText expected ⟨Utf8.encode (quoted s) ++ rest, i⟩ = _
    rw [encode_quoted_append] at hj ⊢
    simp only [optionalText, skipBlank_quote,
      if_neg hletter, hj]

theorem takes_variant {α : Type} {names : List (String × α)} {name : String} {a : α}
    (h : names.lookup name = some a) : Takes (variant names) (.string name) a := by
  intro rest _ i
  rcases reads_text "variant identifier" name rest i with ⟨j, hj⟩
  refine ⟨j, ?_⟩
  show variant names ⟨Utf8.encode (quoted name) ++ rest, i⟩ = _
  rw [encode_quoted_append] at hj ⊢
  simp only [variant, skipBlank_quote, if_true,
    variantName, hj, h]

/-! ## Records -/

variable {α : Type}

/-- A field of a record, the value that was printed for it, and what reading that value does. -/
structure Slot (α : Type) where
  field : Field α
  value : Json
  put : α → α

/-- The name and the value, as they are printed. -/
def Slot.entry (t : Slot α) : String × Json := (t.field.name, t.value)

/-- Reading the value does what it should. -/
def Slot.Sound (t : Slot α) : Prop := ∀ a, Takes (t.field.read a) t.value (t.put a)

/-- The record once all slots have been read. -/
def Slot.putAll (slots : List (Slot α)) (a : α) : α := slots.foldl (fun a t => t.put a) a

theorem encode_fieldTail_nil (rest : Bytes) :
    Utf8.encode (fieldTail []) ++ Mark.closeBrace :: rest = Mark.closeBrace :: rest := rfl

theorem encode_fieldChars_cons (k : String) (v : Json) (fs : List (String × Json)) (rest : Bytes) :
    Utf8.encode (fieldChars ((k, v) :: fs)) ++ rest = Utf8.encode (quoted k) ++
      Mark.colon :: (Utf8.encode v.chars ++ (Utf8.encode (fieldTail fs) ++ rest)) := by
  have hcolon : Utf8.encodeChar ':' = [Mark.colon] := by decide
  rw [fieldChars_cons]
  simp only [Utf8.encode_append, Utf8.encode_cons, hcolon, List.append_assoc, List.cons_append,
    List.nil_append]

theorem encode_fieldTail_cons (f : String × Json) (fs : List (String × Json)) (rest : Bytes) :
    Utf8.encode (fieldTail (f :: fs)) ++ rest =
      Mark.comma :: (Utf8.encode (fieldChars (f :: fs)) ++ rest) := by
  have hcomma : Utf8.encodeChar ',' = [Mark.comma] := by decide
  simp only [fieldTail, Utf8.encode_cons, hcomma, List.cons_append, List.nil_append]

theorem closed_fieldTail (fs : List (String × Json)) (rest : Bytes) :
    Closed (Utf8.encode (fieldTail fs) ++ Mark.closeBrace :: rest) := by
  intro b hb
  cases fs with
  | nil =>
    cases hb
    exact .inr rfl
  | cons f fs =>
    rw [encode_fieldTail_cons] at hb
    cases hb
    exact .inl rfl

namespace Schema

/-- In front of a field that comes next in the schema, its value is read and the rest is left. -/
theorem objectBody_of_key (s : Schema α) {t : Slot α} (ht : t.Sound) (others : List (Field α)) (a : α)
    {first : Bool} {c : Cursor} {fs : List (String × Json)} {rest : Bytes} {i : Nat}
    (hkey : toKey first c =
      .ok ⟨Utf8.encode (fieldChars (t.entry :: fs)) ++ Mark.closeBrace :: rest, i⟩) :
    ∃ j, s.objectBody (t.field :: others) first a c = s.objectBody others false (t.put a)
      ⟨Utf8.encode (fieldTail fs) ++ Mark.closeBrace :: rest, j⟩ := by
  rcases reads_quoted t.field.name (Mark.colon :: (Utf8.encode t.value.chars ++
    (Utf8.encode (fieldTail fs) ++ Mark.closeBrace :: rest))) (i + 1) with ⟨k, hname⟩
  rcases ht a _ (closed_fieldTail fs rest) (k + 1) with ⟨j, hvalue⟩
  refine ⟨j, ?_⟩
  have hbrace : Mark.quote ≠ Mark.closeBrace := by decide
  have hpick : pick t.field.name (t.field :: others) = some (t.field, others) := if_pos rfl
  rw [objectBody, hkey, Slot.entry, encode_fieldChars_cons, encode_quoted_append]
  simp only [if_neg hbrace, ne_eq, not_true_eq_false, if_false, Cursor.step, hname]
  split
  · rename_i hnone
    cases hpick.symm.trans hnone
  · rename_i hsome
    cases hpick.symm.trans hsome
    simp only [colon, skipBlank_cons (by decide : Mark.isBlank Mark.colon = false), if_true,
      Cursor.step, hvalue]

/-- Behind a field, all others are read that were printed, up to the brace. -/
theorem reads_fieldTail (s : Schema α) {slots : List (Slot α)} (hslots : ∀ t ∈ slots, t.Sound)
    (a : α) (rest : Bytes) :
    Reads (s.objectBody (slots.map Slot.field) false a)
      (Utf8.encode (fieldTail (slots.map Slot.entry)) ++ Mark.closeBrace :: rest)
      (Slot.putAll slots a) rest := by
  induction slots generalizing a with
  | nil =>
    intro i
    refine ⟨i + 1, ?_⟩
    rw [List.map_nil, List.map_nil, encode_fieldTail_nil, objectBody]
    rfl
  | cons t slots ih =>
    intro i
    have hkey : toKey false ⟨Utf8.encode (fieldTail (t.entry :: slots.map Slot.entry)) ++
          Mark.closeBrace :: rest, i⟩ =
        .ok ⟨Utf8.encode (fieldChars (t.entry :: slots.map Slot.entry)) ++
          Mark.closeBrace :: rest, i + 1⟩ := by
      rw [encode_fieldTail_cons, Slot.entry, encode_fieldChars_cons, encode_quoted_append]
      rfl
    rcases s.objectBody_of_key (hslots t List.mem_cons_self) (slots.map Slot.field) a hkey
      with ⟨j, hbody⟩
    rcases ih (fun t' ht' => hslots t' (List.mem_cons_of_mem t ht')) (t.put a) j with ⟨k, hk⟩
    exact ⟨k, hbody.trans hk⟩

/-- Behind the opening brace, all fields are read that were printed. -/
theorem reads_fieldChars (s : Schema α) {slots : List (Slot α)} (hslots : ∀ t ∈ slots, t.Sound)
    (a : α) (rest : Bytes) :
    Reads (s.objectBody (slots.map Slot.field) true a)
      (Utf8.encode (fieldChars (slots.map Slot.entry)) ++ Mark.closeBrace :: rest)
      (Slot.putAll slots a) rest := by
  intro i
  cases slots with
  | nil =>
    refine ⟨i + 1, ?_⟩
    rw [List.map_nil, objectBody]
    rfl
  | cons t slots =>
    have hkey : toKey true ⟨Utf8.encode (fieldChars (t.entry :: slots.map Slot.entry)) ++
          Mark.closeBrace :: rest, i⟩ =
        .ok ⟨Utf8.encode (fieldChars (t.entry :: slots.map Slot.entry)) ++
          Mark.closeBrace :: rest, i⟩ := by
      rw [Slot.entry, encode_fieldChars_cons, encode_quoted_append]
      rfl
    rcases s.objectBody_of_key (hslots t List.mem_cons_self) (slots.map Slot.field) a hkey
      with ⟨j, hbody⟩
    rcases s.reads_fieldTail (fun t' ht' => hslots t' (List.mem_cons_of_mem t ht')) (t.put a) rest j
      with ⟨k, hk⟩
    exact ⟨k, hbody.trans hk⟩

/-- An object with the fields of the schema, in its order, is read slot by slot. -/
theorem takes_record (s : Schema α) (slots : List (Slot α)) (hfields : slots.map Slot.field = s.fields)
    (hslots : ∀ t ∈ slots, t.Sound) (default : α) :
    Takes (s.read default) (.object (slots.map Slot.entry)) (Slot.putAll slots default) := by
  intro rest _ i
  have htext : Utf8.encode (object (slots.map Slot.entry)).chars ++ rest =
      Mark.openBrace :: (Utf8.encode (fieldChars (slots.map Slot.entry)) ++
        Mark.closeBrace :: rest) := by
    have hopen : Utf8.encodeChar '\x7b' = [Mark.openBrace] := by decide
    have hclose : Utf8.encode ['\x7d'] = [Mark.closeBrace] := by decide
    simp only [chars, Utf8.encode_append, Utf8.encode_cons, hopen, List.cons_append,
      List.append_assoc, List.nil_append, hclose]
  rcases s.reads_fieldChars hslots default rest (i + 1) with ⟨j, hj⟩
  refine ⟨j, ?_⟩
  rw [htext]
  simp only [read, skipBlank_cons (by decide : Mark.isBlank Mark.openBrace = false), if_true,
    Cursor.step, ← hfields, hj]

/-- A whole text that holds nothing else. -/
theorem document_eq_ok {s : Schema α} {default a : α} {v : Json} (h : Takes (s.read default) v a) :
    document s default (Utf8.encode v.chars) = .ok a := by
  rcases h [] closed_nil 0 with ⟨j, hj⟩
  rw [List.append_nil] at hj
  simp only [document, hj]
  rfl

end Schema

/-! ## What holds of every record that is read -/

theorem exists_of_map_eq_ok {β γ : Type} {f : β → γ} {x : Except Failure (β × Cursor)} {a : γ}
    {c : Cursor} (h : (x.map fun (b, c) => (f b, c)) = .ok (a, c)) :
    ∃ b, x = .ok (b, c) ∧ f b = a := by
  cases x with
  | error e => cases h
  | ok p =>
    cases h
    exact ⟨p.1, rfl, rfl⟩

/-- A field leaves a property of the record alone, whatever it reads. -/
def Field.Keeps (P : α → Prop) (f : Field α) : Prop :=
  ∀ {a a' c c'}, P a → f.read a c = .ok (a', c') → P a'

/-- A field that puts what a reader gives into the record. -/
theorem Field.keeps_put {β : Type} {name : String} {read : Cursor → Except Failure (β × Cursor)}
    {P : α → Prop} (put : α → β → α)
    (h : ∀ {a b c c'}, P a → read c = .ok (b, c') → P (put a b)) :
    Field.Keeps P ⟨name, fun a c => (read c).map fun (b, c) => (put a b, c)⟩ := by
  intro a a' c c' ha hread
  rcases exists_of_map_eq_ok hread with ⟨b, hb, rfl⟩
  exact h ha hb

namespace Schema

variable {P : α → Prop}

theorem mem_of_pick {name : String} {fs gs : List (Field α)} {g : Field α}
    (h : pick name fs = some (g, gs)) : g ∈ fs ∧ ∀ f ∈ gs, f ∈ fs := by
  induction fs generalizing gs with
  | nil => cases h
  | cons f fs ih =>
    simp only [pick] at h
    split at h
    · cases h
      exact ⟨List.mem_cons_self, fun f' => List.mem_cons_of_mem g⟩
    · split at h
      · cases h
      · rename_i hpick
        cases h
        rcases ih hpick with ⟨hg, hgs⟩
        refine ⟨List.mem_cons_of_mem f hg, ?_⟩
        intro f' hf'
        rcases List.mem_cons.1 hf' with rfl | hf'
        · exact List.mem_cons_self
        · exact List.mem_cons_of_mem f (hgs f' hf')

theorem objectBody_keeps (s : Schema α) {unseen : List (Field α)} {first : Bool} {a a' : α}
    {c c' : Cursor} (hunseen : ∀ f ∈ unseen, f.Keeps P) (ha : P a)
    (h : s.objectBody unseen first a c = .ok (a', c')) : P a' := by
  -- The recursion goes on with the fields that are left.
  induction hn : unseen.length using Nat.strongRecOn generalizing unseen first a c with
  | ind n ih =>
    rw [objectBody] at h
    split at h
    · cases h
    split at h
    · cases h
    split at h
    · cases h
      exact ha
    split at h
    · cases h
    split at h
    · cases h
    split at h
    · cases h
    rename_i field others hpick
    split at h
    · cases h
    split at h
    · cases h
    rename_i hread
    rcases mem_of_pick hpick with ⟨hfield, hothers⟩
    have hless := length_pick hpick
    exact ih others.length (hn ▸ hless) (fun f hf => hunseen f (hothers f hf))
      (hunseen field hfield ha hread) h rfl

theorem arrayBody_keeps {fields : List (Field α)} {first : Bool} {a a' : α} {c c' : Cursor}
    (hfields : ∀ f ∈ fields, f.Keeps P) (ha : P a)
    (h : arrayBody fields first a c = .ok (a', c')) : P a' := by
  induction fields generalizing first a c with
  | nil =>
    cases h
    exact ha
  | cons field fields ih =>
    simp only [arrayBody] at h
    split at h
    · cases h
    split at h
    · cases h
      exact ha
    split at h
    · cases h
    rename_i hread
    exact ih (fun f hf => hfields f (List.mem_cons_of_mem field hf))
      (hfields field List.mem_cons_self ha hread) h

/-- What the defaults have and every field leaves alone, a record has that was read from an object or
from an array. -/
theorem read_keeps (s : Schema α) {default a : α} {c c' : Cursor}
    (hfields : ∀ f ∈ s.fields, f.Keeps P) (hdefault : P default)
    (h : s.read default c = .ok (a, c')) : P a := by
  simp only [read] at h
  split at h
  · cases h
  split at h
  · exact s.objectBody_keeps hfields hdefault h
  split at h
  · split at h
    · cases h
    rename_i hbody
    split at h
    · cases h
    cases h
    exact arrayBody_keeps hfields hdefault hbody
  · cases h

theorem document_keeps (s : Schema α) {default a : α} {bytes : Bytes}
    (hfields : ∀ f ∈ s.fields, f.Keeps P) (hdefault : P default)
    (h : document s default bytes = .ok a) : P a := by
  simp only [document] at h
  split at h
  · cases h
  rename_i hread
  split at h
  · cases h
    exact s.read_keeps hfields hdefault hread
  · cases h

end Schema

theorem natural_le {greatest n : Nat} {expected : String} {c c' : Cursor}
    (h : natural greatest expected c = .ok (n, c')) : n ≤ greatest := by
  simp only [natural] at h
  split at h
  · cases h
  split at h
  · split at h
    · cases h
    · split at h
      · rename_i hle
        cases h
        exact hle
      · cases h
    · cases h
    · cases h
  · cases h

end Json
end WriteBehind
