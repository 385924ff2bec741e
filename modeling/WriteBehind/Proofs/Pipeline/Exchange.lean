import WriteBehind.Pipeline.Mailbox

/-!
# Exchange — a mailbox hands over every record once, in order

The two ends of a mailbox share a buffer that keeps the bytes of earlier records, and a length that
tells how many of them count.  Whatever calls they make, what has been taken out, followed by what is
still there, is what was put in.

* `Mailbox.Call` is a call of either end, `Mailbox.Event` a call with its answer;
* `Mailbox.call` makes one call, `Mailbox.calls` makes one after the other;
* `Mailbox.conserved_by_call` says so of one call, `Mailbox.conserved_by_calls` of any number;
* `Mailbox.exchanged_of_calls` says what a mailbox does for its ends after any calls.
-/

namespace WriteBehind
namespace Mailbox

/-! ## Calls -/

/-- A call of one of the two ends. -/
inductive Call
  /-- The dispatcher puts a record in. -/
  | deliver (payload : Bytes)
  /-- The worker takes a record out. -/
  | take
  deriving DecidableEq, Repr

/-- A call and its answer. -/
inductive Event
  | deliver (payload : Bytes) (accepted : Bool)
  | take (found : Option Bytes)
  deriving DecidableEq, Repr

/-- The records that an event brought into the mailbox. -/
def Event.delivered : Event → List Bytes
  | deliver payload true => [payload]
  | _ => []

/-- The records that an event brought out of the mailbox. -/
def Event.taken : Event → List Bytes
  | take found => found.toList
  | _ => []

/-- Makes a call. -/
def call (m : Mailbox) : Call → Event × Mailbox
  | .deliver payload =>
    match m.deliver? payload with
    | some m' => (.deliver payload true, m')
    | none => (.deliver payload false, m)
  | .take =>
    match m.take? with
    | some (payload, m') => (.take (some payload), m')
    | none => (.take none, m)

/-- Makes calls, and gives what happened. -/
def calls (m : Mailbox) : List Call → List Event × Mailbox
  | [] => ([], m)
  | c :: cs =>
    let (event, m) := m.call c
    let (log, m) := m.calls cs
    (event :: log, m)

/-! ## One call -/

variable {m m' : Mailbox} {p : Bytes}

theorem contents?_eq_none_iff : m.contents? = none ↔ m.length = 0 := by
  rw [contents?, isFree]
  by_cases h : m.length = 0 <;> simp [h]

theorem deliver?_cases (m : Mailbox) (p : Bytes) :
    (m.length = 0 ∧ 1 ≤ p.length ∧ p.length ≤ m.buffer.size ∧
      ∃ m', m.deliver? p = some m' ∧ m'.length = p.length ∧ m'.buffer.size = m.buffer.size) ∨
    (¬ (m.length = 0 ∧ 1 ≤ p.length ∧ p.length ≤ m.buffer.size) ∧ m.deliver? p = none) := by
  have hempty : 1 ≤ p.length ↔ p ≠ [] := List.length_pos_iff
  by_cases h : ¬ m.isFree ∨ p = [] ∨ p.length > m.buffer.size
  · refine .inr ⟨?_, if_pos h⟩
    rintro ⟨hfree, hpos, hsize⟩
    rcases h with h | h | h
    · exact h (beq_iff_eq.2 hfree)
    · exact hempty.1 hpos h
    · exact Nat.not_lt.2 hsize h
  · simp only [not_or, Decidable.not_not] at h
    refine .inl ⟨beq_iff_eq.1 h.1, hempty.2 h.2.1, Nat.not_lt.1 h.2.2, _, if_neg ?_, rfl, ?_⟩
    · simp only [not_or, Decidable.not_not]
      exact h
    · exact Image.size_write m.buffer 0 p

theorem call_deliver_cases (m : Mailbox) (p : Bytes) :
    (m.length = 0 ∧ 1 ≤ p.length ∧ p.length ≤ m.buffer.size ∧
      ∃ m', m.call (.deliver p) = (.deliver p true, m') ∧ m'.contents? = some p ∧
        m'.length = p.length ∧ m'.buffer.size = m.buffer.size) ∨
    (¬ (m.length = 0 ∧ 1 ≤ p.length ∧ p.length ≤ m.buffer.size) ∧
      m.call (.deliver p) = (.deliver p false, m)) := by
  rcases deliver?_cases m p with ⟨hfree, hpos, hle, m', hm', hlength, hsize⟩ | ⟨hrefused, hnone⟩
  · refine .inl ⟨hfree, hpos, hle, m', ?_, contents?_deliver? hm', hlength, hsize⟩
    simp only [call, hm']
  · refine .inr ⟨hrefused, ?_⟩
    simp only [call, hnone]

/-- Who takes gets what is there, and leaves a mailbox that is free. -/
theorem call_take_cases (m : Mailbox) :
    (m.contents? = none ∧ m.call .take = (.take none, m)) ∨
      ∃ p, m.contents? = some p ∧ m.call .take = (.take (some p), m.clear) := by
  cases h : m.contents? with
  | none => exact .inl ⟨rfl, by simp only [call, take?, h, Option.map_none]⟩
  | some p => exact .inr ⟨p, rfl, by simp only [call, take?, h, Option.map_some]⟩

/-- What an event brought out and what is there afterwards is what was there and what it brought in. -/
theorem conserved_by_call (m : Mailbox) (c : Call) :
    (m.call c).1.taken ++ (m.call c).2.contents?.toList =
      m.contents?.toList ++ (m.call c).1.delivered := by
  cases c with
  | deliver p =>
    rcases call_deliver_cases m p with ⟨hfree, -, -, m', hcall, hcontents, -, -⟩ | ⟨-, hcall⟩
    · rw [hcall, hcontents, contents?_eq_none_iff.2 hfree]
      rfl
    · rw [hcall]
      exact (List.append_nil _).symm
  | take =>
    rcases call_take_cases m with ⟨hnone, hcall⟩ | ⟨p, hsome, hcall⟩
    · rw [hcall, hnone]
      rfl
    · rw [hcall, hsome, contents?_clear]
      rfl

/-- The record lies within a buffer of this size. -/
def Fitting (size : Nat) (m : Mailbox) : Prop := m.buffer.size = size ∧ m.length ≤ size

theorem Fitting.call {size : Nat} (h : m.Fitting size) (c : Call) : (m.call c).2.Fitting size := by
  cases c with
  | deliver p =>
    rcases call_deliver_cases m p with ⟨-, -, hle, m', hcall, -, hlength, hsize⟩ | ⟨-, hcall⟩
    · rw [hcall]
      exact ⟨hsize.trans h.1, hlength ▸ h.1 ▸ hle⟩
    · rw [hcall]
      exact h
  | take =>
    rcases call_take_cases m with ⟨-, hcall⟩ | ⟨p, -, hcall⟩
    · rw [hcall]
      exact h
    · rw [hcall]
      exact ⟨h.1, Nat.zero_le size⟩

/-! ## Any number of calls -/

theorem conserved_by_calls (m : Mailbox) (cs : List Call) :
    (m.calls cs).1.flatMap Event.taken ++ (m.calls cs).2.contents?.toList =
      m.contents?.toList ++ (m.calls cs).1.flatMap Event.delivered := by
  induction cs generalizing m with
  | nil => exact (List.append_nil _).symm
  | cons c cs ih =>
    simp only [calls, List.flatMap_cons]
    rw [List.append_assoc, ih, ← List.append_assoc, conserved_by_call, List.append_assoc]

theorem Fitting.calls {size : Nat} (h : m.Fitting size) (cs : List Call) :
    (m.calls cs).2.Fitting size := by
  induction cs generalizing m with
  | nil => exact h
  | cons c cs ih => exact ih (h.call c)

/-- After any calls, the records that were taken out and the one that is still there are those that
were put in, in order and byte for byte.  A record is put in exactly where the mailbox is free and the
record has at least one byte and not more than the buffer, and is refused without any change otherwise.
A worker gets the record that is there, and none exactly where the mailbox is free.  What is read never
goes beyond the buffer. -/
theorem exchanged_of_calls (size : Nat) (cs : List Call) :
    let log := ((ofSize size).calls cs).1
    let m := ((ofSize size).calls cs).2
    log.flatMap Event.taken ++ m.contents?.toList = log.flatMap Event.delivered ∧
      (∀ p, (m.call (.deliver p)).1 = .deliver p true ↔
        m.length = 0 ∧ 1 ≤ p.length ∧ p.length ≤ size) ∧
      (∀ p, (m.call (.deliver p)).1 = .deliver p true ∨
        m.call (.deliver p) = (.deliver p false, m)) ∧
      (m.call .take).1 = .take m.contents? ∧
      ((m.call .take).1 = .take none ↔ m.length = 0) ∧
      m.length ≤ m.buffer.size := by
  intro log m
  have hfitting : m.Fitting size := Fitting.calls ⟨rfl, Nat.zero_le size⟩ cs
  have htake : (m.call .take).1 = .take m.contents? := by
    rcases call_take_cases m with ⟨hnone, hcall⟩ | ⟨p, hsome, hcall⟩
    · rw [hcall, hnone]
    · rw [hcall, hsome]
  -- What came of the calls before does not matter: the next call goes by the mailbox as it is.
  refine ⟨conserved_by_calls (ofSize size) cs, fun p => ?_, fun p => ?_, htake, ?_, ?_⟩
  · rw [← hfitting.1]
    rcases call_deliver_cases m p with ⟨hfree, hpos, hle, m', hcall, -⟩ | ⟨hrefused, hcall⟩
    · rw [hcall]
      exact iff_of_true rfl ⟨hfree, hpos, hle⟩
    · rw [hcall]
      exact iff_of_false (by simp) hrefused
  · rcases call_deliver_cases m p with ⟨-, -, -, m', hcall, -⟩ | ⟨-, hcall⟩
    · exact .inl (congrArg Prod.fst hcall)
    · exact .inr hcall
  · rw [htake, Event.take.injEq]
    exact contents?_eq_none_iff
  · exact hfitting.1.symm ▸ hfitting.2

/-- A shorter record behind a longer one: what is left of the longer one does not show. -/
example : ((ofSize 4).calls [.deliver [1, 2, 3], .deliver [4], .take, .deliver [5], .take, .take]).1 =
    [.deliver [1, 2, 3] true, .deliver [4] false, .take (some [1, 2, 3]), .deliver [5] true,
      .take (some [5]), .take none] := by decide +kernel

end Mailbox
end WriteBehind
