import WriteBehind.Inspection.Printer
import WriteBehind.Proofs.Quotation

/-!
# Distinct — no two records are printed alike

The first character of a value tells what kind of value it is, and a value shows where it ends, or the
character behind it does, which is never a digit.  So a text is the text of one value at most, and what
is printed for a record can be told from what is printed for any other.

* `Json.Kind` tells values apart as their first characters do, `Json.kind_of_append`;
* `Json.chars_append_inj`, `itemChars_append_inj` and `fieldChars_append_inj` say of a value, of items
  and of fields that a text begins with one of them at most, by recursion over the value;
* `Json.compact_inj`: no two values have the same text;
* `argumentJson_inj`: text and bytes that are no text are never shown alike;
* `Entry.distinct_of_text`: records are the same where their lines are, and so are whole lists of them.
-/

namespace WriteBehind

namespace Json

/-! ## Numbers -/

/-- No digit comes next. -/
def Undigited (cs : List Char) : Prop := ∀ c ∈ cs.head?, Decimal.isDigit c = false

theorem undigited_cons {c : Char} {cs : List Char} (h : Decimal.isDigit c = false) :
    Undigited (c :: cs) := by
  intro c' hc'
  cases hc'
  exact h

variable {cs ds : List Char} {m n : Nat}

theorem takeWhile_encode_append (hcs : Undigited cs) :
    (Decimal.encode n ++ cs).takeWhile Decimal.isDigit = Decimal.encode n := by
  have hstop : cs.takeWhile Decimal.isDigit = [] := by
    cases cs with
    | nil => rfl
    | cons c cs => exact List.takeWhile_cons_of_neg (by rw [hcs c rfl]; decide)
  rw [List.takeWhile_append_of_pos fun c => Decimal.isDigit_of_mem_encode, hstop, List.append_nil]

theorem encode_append_inj (hcs : Undigited cs) (hds : Undigited ds)
    (h : Decimal.encode m ++ cs = Decimal.encode n ++ ds) : m = n ∧ cs = ds := by
  have hdigits := congrArg (List.takeWhile Decimal.isDigit) h
  rw [takeWhile_encode_append hcs, takeWhile_encode_append hds] at hdigits
  rw [hdigits] at h
  exact ⟨Decimal.encode_inj hdigits, List.append_cancel_left h⟩

/-- A number starts with a digit. -/
theorem exists_encode_eq_cons (n : Nat) :
    ∃ c cs, Decimal.encode n = c :: cs ∧ Decimal.isDigit c = true := by
  cases hencode : Decimal.encode n with
  | nil => exact absurd hencode (Decimal.encode_ne_nil n)
  | cons c cs =>
    have hmem : c ∈ Decimal.encode n := hencode ▸ List.mem_cons_self
    exact ⟨c, cs, rfl, Decimal.isDigit_of_mem_encode hmem⟩

theorem minus_ne_encode (n : Nat) : '-' :: cs ≠ Decimal.encode n ++ ds := by
  rcases exists_encode_eq_cons n with ⟨c, cs', hencode, hdigit⟩
  rw [hencode]
  intro h
  cases h
  exact absurd hdigit (by decide)

theorem encodeInt_append_inj {a b : Int} (hcs : Undigited cs) (hds : Undigited ds)
    (h : Decimal.encodeInt a ++ cs = Decimal.encodeInt b ++ ds) : a = b ∧ cs = ds := by
  cases a with
  | ofNat m =>
    cases b with
    | ofNat n =>
      rcases encode_append_inj hcs hds h with ⟨rfl, hrest⟩
      exact ⟨rfl, hrest⟩
    | negSucc n => exact absurd h.symm (minus_ne_encode m)
  | negSucc m =>
    cases b with
    | ofNat n => exact absurd h (minus_ne_encode n)
    | negSucc n =>
      rcases encode_append_inj hcs hds (List.cons.inj h).2 with ⟨hsucc, hrest⟩
      rw [Nat.succ_inj.1 hsucc]
      exact ⟨rfl, hrest⟩

/-! ## Kinds -/

/-- What the first character of a value tells about it. -/
inductive Kind
  | null | true | false | number | string | array | object
  deriving DecidableEq

/-- The kind of a value. -/
def kind : Json → Kind
  | .null => .null
  | .bool .true => .true
  | .bool .false => .false
  | .number _ => .number
  | .string _ => .string
  | .array _ => .array
  | .object _ => .object

/-- The kind of the values that start with this character. -/
def Kind.of? (c : Char) : Option Kind :=
  if c = '-' ∨ Decimal.isDigit c then some .number
  else if c = '"' then some .string
  else if c = '[' then some .array
  else if c = '\x7b' then some .object
  else if c = 'n' then some .null
  else if c = 't' then some .true
  else if c = 'f' then some .false
  else none

/-- The kind of value that a text starts with. -/
def Kind.ofText? (cs : List Char) : Option Kind := cs.head?.bind Kind.of?

theorem kind_encodeInt (a : Int) (cs : List Char) :
    Kind.ofText? (Decimal.encodeInt a ++ cs) = some .number := by
  cases a with
  | ofNat n =>
    rcases exists_encode_eq_cons n with ⟨c, cs', hencode, hdigit⟩
    have htext : Decimal.encodeInt (Int.ofNat n) = c :: cs' := hencode
    rw [htext]
    exact if_pos (.inr hdigit)
  | negSucc n => rfl

/-- A value is of the kind that its first character tells. -/
theorem kind_of_append (v : Json) (cs : List Char) : Kind.ofText? (v.chars ++ cs) = some v.kind := by
  cases v with
  | null | string | array | object => rfl
  | bool b => cases b <;> rfl
  | number a => exact kind_encodeInt a cs

theorem kind_eq {v w : Json} (h : v.chars ++ cs = w.chars ++ ds) : v.kind = w.kind := by
  have hkind := kind_of_append v cs
  rw [h, kind_of_append] at hkind
  exact (Option.some.inj hkind).symm

/-- No value starts as the text behind all items does. -/
theorem chars_append_ne {v : Json} {c : Char} (hc : Kind.of? c = none) :
    v.chars ++ cs ≠ c :: ds := by
  intro h
  have hkind := kind_of_append v cs
  rw [h] at hkind
  cases hkind.symm.trans hc

/-! ## Items and fields -/

/-- Items that come behind another one. -/
def itemTail : List Json → List Char
  | [] => []
  | v :: vs => ',' :: itemChars (v :: vs)

/-- Fields that come behind another one. -/
def fieldTail : List (String × Json) → List Char
  | [] => []
  | f :: fs => ',' :: fieldChars (f :: fs)

theorem itemChars_cons (v : Json) (vs : List Json) :
    itemChars (v :: vs) = v.chars ++ itemTail vs := by
  cases vs with
  | nil => simp only [itemChars, itemTail, List.append_nil]
  | cons w ws => rfl

theorem fieldChars_cons (k : String) (v : Json) (fs : List (String × Json)) :
    fieldChars ((k, v) :: fs) = quoted k ++ ':' :: (v.chars ++ fieldTail fs) := by
  cases fs with
  | nil => simp only [fieldChars, fieldTail, List.append_nil]
  | cons f fs => simp only [fieldChars, fieldTail, List.append_assoc, List.cons_append]

theorem undigited_itemTail (vs : List Json) (cs : List Char) :
    Undigited (itemTail vs ++ ']' :: cs) := by
  cases vs <;> exact undigited_cons (by decide)

theorem undigited_fieldTail (fs : List (String × Json)) (cs : List Char) :
    Undigited (fieldTail fs ++ '\x7d' :: cs) := by
  cases fs <;> exact undigited_cons (by decide)

/-! ## Values -/

mutual

theorem chars_append_inj : ∀ (v w : Json) {cs ds : List Char}, Undigited cs → Undigited ds →
    v.chars ++ cs = w.chars ++ ds → v = w ∧ cs = ds
  | .null, w, cs, ds, _, _, h => by
    -- The first character tells one kind of value from the others.
    have hkind := kind_eq h
    cases w with
    | null => exact ⟨rfl, List.append_cancel_left h⟩
    | bool b => cases b <;> cases hkind
    | _ => cases hkind
  | .bool a, w, cs, ds, _, _, h => by
    have hkind := kind_eq h
    cases w with
    | bool b =>
      cases a <;> cases b
      · exact ⟨rfl, List.append_cancel_left h⟩
      · cases hkind
      · cases hkind
      · exact ⟨rfl, List.append_cancel_left h⟩
    | _ => cases a <;> cases hkind
  | .number a, w, cs, ds, hcs, hds, h => by
    have hkind := kind_eq h
    cases w with
    | number b =>
      rcases encodeInt_append_inj hcs hds h with ⟨rfl, hrest⟩
      exact ⟨rfl, hrest⟩
    | bool b => cases b <;> cases hkind
    | _ => cases hkind
  | .string s, w, cs, ds, _, _, h => by
    have hkind := kind_eq h
    cases w with
    | string t =>
      rcases quoted_append_inj h with ⟨rfl, hrest⟩
      exact ⟨rfl, hrest⟩
    | bool b => cases b <;> cases hkind
    | _ => cases hkind
  | .array vs, w, cs, ds, _, _, h => by
    have hkind := kind_eq h
    cases w with
    | array ws =>
      simp only [chars, List.cons_append, List.append_assoc, List.nil_append, List.cons.injEq,
        true_and] at h
      rcases itemChars_append_inj vs ws h with ⟨rfl, hrest⟩
      exact ⟨rfl, hrest⟩
    | bool b => cases b <;> cases hkind
    | _ => cases hkind
  | .object fs, w, cs, ds, _, _, h => by
    have hkind := kind_eq h
    cases w with
    | object gs =>
      simp only [chars, List.cons_append, List.append_assoc, List.nil_append, List.cons.injEq,
        true_and] at h
      rcases fieldChars_append_inj fs gs h with ⟨rfl, hrest⟩
      exact ⟨rfl, hrest⟩
    | bool b => cases b <;> cases hkind
    | _ => cases hkind

theorem itemChars_append_inj : ∀ (vs ws : List Json) {cs ds : List Char},
    itemChars vs ++ ']' :: cs = itemChars ws ++ ']' :: ds → vs = ws ∧ cs = ds
  | [], [], cs, ds, h => ⟨rfl, (List.cons.inj h).2⟩
  | [], w :: ws, cs, ds, h => by
    rw [itemChars_cons, List.append_assoc] at h
    exact absurd h.symm (chars_append_ne (by decide))
  | v :: vs, [], cs, ds, h => by
    rw [itemChars_cons, List.append_assoc] at h
    exact absurd h (chars_append_ne (by decide))
  | v :: vs, w :: ws, cs, ds, h => by
    rw [itemChars_cons, itemChars_cons, List.append_assoc, List.append_assoc] at h
    rcases chars_append_inj v w (undigited_itemTail vs cs) (undigited_itemTail ws ds) h with
      ⟨rfl, htail⟩
    -- Behind an item comes the end of the list, or a comma and more items.
    cases vs with
    | nil =>
      cases ws with
      | nil => exact ⟨rfl, (List.cons.inj htail).2⟩
      | cons => cases htail
    | cons v' vs =>
      cases ws with
      | nil => cases htail
      | cons w' ws =>
        rcases itemChars_append_inj (v' :: vs) (w' :: ws) (List.cons.inj htail).2 with ⟨hitems, hrest⟩
        rw [hitems]
        exact ⟨rfl, hrest⟩

theorem fieldChars_append_inj : ∀ (fs gs : List (String × Json)) {cs ds : List Char},
    fieldChars fs ++ '\x7d' :: cs = fieldChars gs ++ '\x7d' :: ds → fs = gs ∧ cs = ds
  | [], [], cs, ds, h => ⟨rfl, (List.cons.inj h).2⟩
  | [], (k, v) :: gs, cs, ds, h => by
    rw [fieldChars_cons] at h
    cases h
  | (k, v) :: fs, [], cs, ds, h => by
    rw [fieldChars_cons] at h
    cases h
  | (k, v) :: fs, (l, w) :: gs, cs, ds, h => by
    simp only [fieldChars_cons, List.append_assoc, List.cons_append] at h
    rcases quoted_append_inj h with ⟨rfl, hvalue⟩
    rcases chars_append_inj v w (undigited_fieldTail fs cs) (undigited_fieldTail gs ds)
      (List.cons.inj hvalue).2 with ⟨rfl, htail⟩
    cases fs with
    | nil =>
      cases gs with
      | nil => exact ⟨rfl, (List.cons.inj htail).2⟩
      | cons => cases htail
    | cons f fs =>
      cases gs with
      | nil => cases htail
      | cons g gs =>
        rcases fieldChars_append_inj (f :: fs) (g :: gs) (List.cons.inj htail).2 with
          ⟨hfields, hrest⟩
        rw [hfields]
        exact ⟨rfl, hrest⟩

end

/-- No two values have the same text. -/
theorem compact_inj {v w : Json} (h : v.compact = w.compact) : v = w := by
  have hchars : v.chars ++ [] = w.chars ++ [] := by
    rw [List.append_nil, List.append_nil]
    exact String.ofList_injective h
  have hend : Undigited [] := fun _ hc => nomatch hc
  exact (chars_append_inj v w hend hend hchars).1

end Json

/-! ## Records -/

theorem Hex.encode_inj {bs bs' : Bytes} (h : Hex.encode bs = Hex.encode bs') : bs = bs' := by
  have hread := Hex.decode?_encode bs
  rw [h, Hex.decode?_encode] at hread
  exact (Option.some.inj hread).symm

theorem Command.ofName?_name (c : Command) : Command.ofName? c.name = some c := by
  cases c <;> decide +kernel

theorem Command.name_inj {c c' : Command} (h : c.name = c'.name) : c = c' := by
  have hread := Command.ofName?_name c
  rw [h, Command.ofName?_name] at hread
  exact (Option.some.inj hread).symm

/-- Arguments are shown alike if they are the same bytes only.  One that is text is shown as a string,
even where it looks like the digits of another that is not, which is shown as an object. -/
theorem argumentJson_inj {a b : Bytes} (h : argumentJson a = argumentJson b) : a = b := by
  simp only [argumentJson] at h
  cases ha : Utf8.decode? a with
  | some cs =>
    cases hb : Utf8.decode? b with
    | some ds =>
      simp only [ha, hb, Json.string.injEq] at h
      rw [Utf8.eq_encode_of_decode? ha, Utf8.eq_encode_of_decode? hb, String.ofList_injective h]
    | none =>
      simp only [ha, hb] at h
      cases h
  | none =>
    cases hb : Utf8.decode? b with
    | some ds =>
      simp only [ha, hb] at h
      cases h
    | none =>
      simp only [ha, hb, Json.object.injEq, List.cons.injEq, Prod.mk.injEq, Json.string.injEq,
        true_and, and_true] at h
      exact Hex.encode_inj h

namespace Entry

theorem toJson_inj {e e' : Entry} (h : e.toJson = e'.toJson) : e = e' := by
  rcases e with ⟨counter, timestamp, command, args⟩
  rcases e' with ⟨counter', timestamp', command', args'⟩
  simp only [toJson, Json.nat, Json.object.injEq, List.cons.injEq, Prod.mk.injEq,
    Json.array.injEq, Json.string.injEq, Json.number.injEq, true_and, and_true] at h
  rcases h with ⟨hargs, hcommand, hcounter, -, htimestamp⟩
  have hsame : args = args' := (List.map_inj_right fun _ _ => argumentJson_inj).1 hargs
  rw [hsame, Command.name_inj hcommand, Int.ofNat.inj hcounter, Int.ofNat.inj htimestamp]

theorem toList_lines (es : List Entry) :
    (String.join (es.map fun e => e.toJson.line)).toList =
      es.flatMap fun e => e.toJson.chars ++ ['\n'] := by
  simp only [String.toList_join, List.flatMap_map, Json.line, Json.compact, String.toList_append,
    String.toList_ofList]
  rfl

theorem lines_inj {es es' : List Entry}
    (h : es.flatMap (fun e => e.toJson.chars ++ ['\n']) =
      es'.flatMap fun e => e.toJson.chars ++ ['\n']) : es = es' := by
  induction es generalizing es' with
  | nil =>
    cases es' with
    | nil => rfl
    | cons e' es' => cases h
  | cons e es ih =>
    cases es' with
    | nil => cases h
    | cons e' es' =>
      simp only [List.flatMap_cons, List.append_assoc] at h
      rcases Json.chars_append_inj e.toJson e'.toJson (Json.undigited_cons (by decide))
        (Json.undigited_cons (by decide)) h with ⟨hjson, hrest⟩
      rw [toJson_inj hjson, ih (List.cons.inj hrest).2]

/-- Two records have the same text exactly if they start at the same counter, were stamped with the
same second, and hold the same command with the same arguments, byte for byte.  Of a whole list of
records the lines tell how many there are, and each of them. -/
theorem distinct_of_text :
    (∀ e e' : Entry, e.toJson.compact = e'.toJson.compact ↔
      e.counter = e'.counter ∧ e.job.timestamp = e'.job.timestamp ∧
        e.job.command = e'.job.command ∧ e.job.args = e'.job.args) ∧
    ∀ es es' : List Entry, String.join (es.map fun e => e.toJson.line) =
      String.join (es'.map fun e => e.toJson.line) ↔ es = es' := by
  refine ⟨fun e e' => ⟨fun h => ?_, ?_⟩, fun es es' => ⟨fun h => ?_, fun h => by rw [h]⟩⟩
  · cases toJson_inj (Json.compact_inj h)
    exact ⟨rfl, rfl, rfl, rfl⟩
  · rcases e with ⟨counter, timestamp, command, args⟩
    rcases e' with ⟨counter', timestamp', command', args'⟩
    rintro ⟨rfl, rfl, rfl, rfl⟩
    rfl
  · have hlines := congrArg String.toList h
    rw [toList_lines, toList_lines] at hlines
    exact lines_inj hlines

end Entry
end WriteBehind
