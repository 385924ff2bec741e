import WriteBehind.Json.Value

/-!
# Compact — a compact text stands on one line

A string may hold any characters, and none below the blank is written as it is.  Everything else that
a compact text is made of is punctuation and digits.

* `Printable` characters are none of the control characters below the blank;
* `printable_chars`, `printable_itemChars` and `printable_fieldChars` say so of a value, of items and of
  fields, by recursion over the value;
* `AreLines text lines` says that a text consists of these lines, and `areLines_join` that printed values
  do.
-/

namespace WriteBehind

/-! ## Characters -/

/-- None of the characters is a control character. -/
def Printable (cs : List Char) : Prop := ∀ c ∈ cs, 32 ≤ c.toNat

instance : DecidablePred Printable := fun cs =>
  decidable_of_iff (cs.all (fun c => decide (32 ≤ c.toNat)) = true) <| by
    simp only [Printable, List.all_eq_true, decide_eq_true_eq]

namespace Printable

variable {cs ds : List Char} {c : Char}

theorem nil : Printable [] := List.forall_mem_nil _

theorem cons (hc : 32 ≤ c.toNat) (h : Printable cs) : Printable (c :: cs) :=
  List.forall_mem_cons.2 ⟨hc, h⟩

theorem append (h : Printable cs) (h' : Printable ds) : Printable (cs ++ ds) :=
  List.forall_mem_append.2 ⟨h, h'⟩

/-- Characters that are chosen by a condition. -/
theorem ite {p : Prop} [Decidable p] (h : Printable cs) (h' : ¬ p → Printable ds) :
    Printable (if p then cs else ds) := by
  by_cases hp : p
  · rwa [if_pos hp]
  · rw [if_neg hp]
    exact h' hp

theorem newline_notMem (h : Printable cs) : '\n' ∉ cs :=
  fun hmem => absurd (h '\n' hmem) (by decide)

end Printable

namespace Json

theorem printable_digit : ∀ n, n < 16 → 32 ≤ (Hex.digit n).toNat := by decide

/-- What takes the place of a character in quotes. -/
theorem printable_escapeChar (c : Char) : Printable (escapeChar c) := by
  rw [escapeChar]
  iterate 7 refine .ite (by decide) fun _ => ?_
  -- What is left is a control character without a letter of its own, or stands for itself.
  by_cases hcontrol : c.toNat < 32
  · rw [if_pos hcontrol]
    have hhi := printable_digit (c.toNat / 16) (by omega)
    have hlo := printable_digit (c.toNat % 16) (by omega)
    exact Printable.append (show Printable ['\\', 'u', '0', '0'] by decide) (.cons hhi (.cons hlo .nil))
  · rw [if_neg hcontrol]
    exact .cons (Nat.le_of_not_lt hcontrol) .nil

theorem printable_quoted (s : String) : Printable (quoted s) := by
  have hbody : Printable (s.toList.flatMap escapeChar) := by
    intro c hc
    rcases List.mem_flatMap.1 hc with ⟨c', -, hmem⟩
    exact printable_escapeChar c' c hmem
  rw [quoted]
  exact .append (.cons (by decide) hbody) (.cons (by decide) .nil)

theorem printable_encode (n : Nat) : Printable (Decimal.encode n) := by
  intro c hc
  have hdigit := Decimal.isDigit_of_mem_encode hc
  simp only [Decimal.isDigit, Bool.and_eq_true, decide_eq_true_eq] at hdigit
  omega

theorem printable_encodeInt : ∀ n : Int, Printable (Decimal.encodeInt n)
  | .ofNat n => printable_encode n
  | .negSucc n => .cons (by decide) (printable_encode (n + 1))

/-! ## Values -/

mutual

theorem printable_chars : ∀ v : Json, Printable v.chars
  | .null => (by decide : Printable "null".toList)
  | .bool true => (by decide : Printable "true".toList)
  | .bool false => (by decide : Printable "false".toList)
  | .number n => printable_encodeInt n
  | .string s => printable_quoted s
  | .array items => .append (.cons (by decide) (printable_itemChars items)) (.cons (by decide) .nil)
  | .object fields => .append (.cons (by decide) (printable_fieldChars fields)) (.cons (by decide) .nil)

theorem printable_itemChars : ∀ items : List Json, Printable (itemChars items)
  | [] => .nil
  | [v] => printable_chars v
  | v :: w :: vs => .append (printable_chars v) (.cons (by decide) (printable_itemChars (w :: vs)))

theorem printable_fieldChars : ∀ fields : List (String × Json), Printable (fieldChars fields)
  | [] => .nil
  | [(k, v)] => .append (printable_quoted k) (.cons (by decide) (printable_chars v))
  | (k, v) :: f :: fs =>
    .append (.append (printable_quoted k) (.cons (by decide) (printable_chars v)))
      (.cons (by decide) (printable_fieldChars (f :: fs)))

end

end Json

/-! ## Lines -/

/-- The text consists of these lines, each with a line feed behind it. -/
def AreLines (text : String) (lines : List String) : Prop :=
  text = String.join (lines.map (· ++ "\n")) ∧ ∀ line ∈ lines, '\n' ∉ line.toList

/-- Every value that is printed is a line. -/
theorem areLines_join {α : Type} (items : List α) (value : α → Json) :
    AreLines (String.join (items.map fun a => (value a).line))
      (items.map fun a => (value a).compact) := by
  refine ⟨?_, ?_⟩
  · rw [List.map_map]
    rfl
  · intro line hline
    rcases List.mem_map.1 hline with ⟨a, -, rfl⟩
    rw [Json.compact, String.toList_ofList]
    exact (Json.printable_chars (value a)).newline_notMem

end WriteBehind
