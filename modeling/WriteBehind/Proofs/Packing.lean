import WriteBehind.Record

/-!
# Packing — which commands are persisted, and what is left of one that is not

A command passes five checks before its record stands in the caller's buffer.  The last of them adds up the
record's length while the arguments are written.

* `recordLength args`: how long a record of these arguments is, and `argumentsFit_iff`: the check on the way
  is one of this length;
* `Persistable`: what is asked of a command, and `conditions`: the same in the order of the checks, each
  with the refusal that it ends in;
* `pack_cases` and `pack_exact`: a command is packed when it is persistable, and is refused for the first
  condition that fails otherwise.
-/

namespace WriteBehind
namespace Record

/-! ## Lengths -/

/-- The bytes of a record of these arguments: its header, and each argument behind its length. -/
def recordLength (args : List Bytes) : Nat :=
  headerLength + (args.map fun arg => 4 + arg.length).sum

theorem length_encodeArg (arg : Bytes) : (encodeArg arg).length = 4 + arg.length := by
  rw [encodeArg, List.length_append, Bytes.length_ofWord32]

theorem length_flatMap_encodeArg (args : List Bytes) :
    (args.flatMap encodeArg).length = (args.map fun arg => 4 + arg.length).sum := by
  rw [List.length_flatMap]
  exact congrArg List.sum (List.map_congr_left fun arg _ => length_encodeArg arg)

theorem length_encode (j : Job) :
    j.encode.length = headerLength + (j.args.flatMap encodeArg).length := by
  rw [Job.encode, List.length_append, List.length_append, Bytes.length_ofWord32,
    Bytes.length_ofWord32, headerLength]

theorem length_encode_eq_recordLength (j : Job) : j.encode.length = recordLength j.args := by
  rw [length_encode, length_flatMap_encodeArg, recordLength]

/-- A length that stays below the limit to the end has been below it all along. -/
theorem argumentsFit_iff {limit used : Nat} {args : List Bytes} :
    argumentsFit limit used args = true ↔
      args = [] ∨ used + (args.map fun arg => 4 + arg.length).sum < limit := by
  induction args generalizing used with
  | nil => exact iff_of_true rfl (.inl rfl)
  | cons arg args ih =>
    have htotal : used + ((arg :: args).map fun arg => 4 + arg.length).sum =
        used + 4 + arg.length + (args.map fun arg => 4 + arg.length).sum := by
      rw [List.map_cons, List.sum_cons]
      omega
    rw [argumentsFit, Bool.and_eq_true, decide_eq_true_eq, ih, htotal]
    constructor
    · rintro ⟨hnext, rfl | hrest⟩
      · exact .inr hnext
      · exact .inr hrest
    · rintro (hnil | hrest)
      · cases hnil
      · exact ⟨Nat.lt_of_le_of_lt (Nat.le_add_right _ _) hrest, .inr hrest⟩

/-- No argument is longer than the record. -/
theorem length_lt_recordLength {args : List Bytes} {arg : Bytes} (h : arg ∈ args) :
    arg.length < recordLength args := by
  rcases List.append_of_mem h with ⟨front, back, rfl⟩
  rw [recordLength, List.map_append, List.map_cons, List.sum_append_nat, List.sum_cons]
  omega

/-! ## Conditions -/

/-- What a command has to be like to be persisted: it has a key and 1022 arguments at most, as many as it
takes, the key is shorter than 32 bytes, and the record is below the limit. -/
structure Persistable (command : Command) (args : List Bytes) (limit : Nat) : Prop where
  count : 1 ≤ args.length ∧ args.length ≤ 1022
  arity : command.arity.accepts args.length = true
  key : (args.headD []).length < 32
  size : recordLength args < limit

/-- What has to hold of a command, and what the command is refused for where it does not. -/
structure Condition where
  holds : Prop
  cause : Cause

/-- The conditions in the order in which they are looked at. -/
def conditions (command : Command) (args : List Bytes) (limit : Nat) : List Condition :=
  [⟨args.length ≤ 1022, .tooManyArguments args.length⟩,
    ⟨args ≠ [], .keyMissing command⟩,
    ⟨command.arity.accepts args.length = true, .arityMismatch command args.length⟩,
    ⟨(args.headD []).length < 32, .keyTooLong (args.headD []).length⟩,
    ⟨recordLength args < limit, .recordTooLong command limit⟩]

section Packing

variable (command : Command) (timestamp : Nat) (args : List Bytes) (limit : Nat) (buffer : Bytes)

theorem persistable_iff :
    Persistable command args limit ↔ ∀ condition ∈ conditions command args limit, condition.holds := by
  simp only [conditions, List.forall_mem_cons]
  constructor
  · rintro ⟨⟨hsome, hcount⟩, harity, hkey, hsize⟩
    exact ⟨hcount, List.length_pos_iff.1 hsome, harity, hkey, hsize, by rintro _ ⟨⟩⟩
  · rintro ⟨hcount, hsome, harity, hkey, hsize, -⟩
    exact ⟨⟨List.length_pos_iff.2 hsome, hcount⟩, harity, hkey, hsize⟩

/-- A command is packed where all conditions hold.  It is refused for the first that does not, and then
the buffer is left alone unless that is the last of them. -/
theorem pack_cases :
    (Persistable command args limit ∧
      pack command timestamp args limit buffer =
        (.ok (recordLength args), Job.encode ⟨timestamp, command, args⟩)) ∨
    ∃ held violated others, conditions command args limit = held ++ violated :: others ∧
      (∀ condition ∈ held, condition.holds) ∧ ¬ violated.holds ∧
      pack command timestamp args limit buffer =
        (.error violated.cause, if others = [] then [] else buffer) := by
  unfold pack
  -- One check after the other: with each that is passed, one more condition holds.
  by_cases hcount : args.length + 1 ≥ argumentLimit
  · refine .inr ⟨[], _, _, rfl, by rintro _ ⟨⟩, ?_, ?_⟩
    · exact fun (hle : args.length ≤ 1022) => absurd hle (by rw [argumentLimit] at hcount; omega)
    · rw [if_pos hcount, if_neg (List.cons_ne_nil _ _)]
  have hle : args.length ≤ 1022 := by
    rw [argumentLimit] at hcount
    omega
  cases args with
  | nil =>
    refine .inr ⟨[_], _, _, rfl, ?_, fun hsome => hsome rfl, ?_⟩
    · exact List.forall_mem_singleton.2 hle
    · rw [if_neg hcount, if_neg (List.cons_ne_nil _ _)]
  | cons key values =>
    have hsome : key :: values ≠ [] := List.cons_ne_nil key values
    rw [if_neg hcount]
    dsimp only
    by_cases hrefused : ¬ command.arity.accepts (key :: values).length
    · refine .inr ⟨[_, _], _, _, rfl, ?_, hrefused, ?_⟩
      · exact List.forall_mem_cons.2 ⟨hle, List.forall_mem_singleton.2 hsome⟩
      · rw [if_pos hrefused, if_neg (List.cons_ne_nil _ _)]
    rw [if_neg hrefused]
    have harity : command.arity.accepts (key :: values).length = true := Decidable.not_not.1 hrefused
    by_cases hkey : key.length ≥ keyLimit
    · refine .inr ⟨[_, _, _], _, _, rfl, ?_, Nat.not_lt.2 hkey, ?_⟩
      · exact List.forall_mem_cons.2 ⟨hle, List.forall_mem_cons.2 ⟨hsome,
          List.forall_mem_singleton.2 harity⟩⟩
      · rw [if_pos hkey, if_neg (List.cons_ne_nil _ _)]
        rfl
    rw [if_neg hkey]
    have hshort : key.length < 32 := Nat.not_le.1 hkey
    by_cases hfit : argumentsFit limit headerLength (key :: values) = true
    · rw [if_pos hfit, length_encode_eq_recordLength]
      rcases argumentsFit_iff.1 hfit with hnil | hsize
      · exact absurd hnil hsome
      · exact .inl ⟨⟨⟨List.length_pos_iff.2 hsome, hle⟩, harity, hshort, hsize⟩, rfl⟩
    · refine .inr ⟨[_, _, _, _], _, _, rfl, ?_, ?_, ?_⟩
      · exact List.forall_mem_cons.2 ⟨hle, List.forall_mem_cons.2 ⟨hsome,
          List.forall_mem_cons.2 ⟨harity, List.forall_mem_singleton.2 hshort⟩⟩⟩
      · exact fun hsize => hfit (argumentsFit_iff.2 (.inr hsize))
      · rw [if_neg hfit, if_pos rfl]

/-- Packing succeeds for the persistable commands and for no others.  The buffer then holds the record of
the command and nothing of what it held before, and the result is the record's length.  Any other command
is refused for the first of five conditions that it violates: its arguments are too many, it has no key, it
does not take so many arguments, its key is too long, or its record is.  In the last case the buffer is
emptied, in the others it is left as it was. -/
theorem pack_exact :
    ((∃ n, (pack command timestamp args limit buffer).1 = .ok n) ↔ Persistable command args limit) ∧
    (Persistable command args limit →
      pack command timestamp args limit buffer =
        (.ok (recordLength args), Job.encode ⟨timestamp, command, args⟩) ∧
      (Job.encode ⟨timestamp, command, args⟩).length = recordLength args) ∧
    (¬ Persistable command args limit →
      ∃ held violated others, conditions command args limit = held ++ violated :: others ∧
        (∀ condition ∈ held, condition.holds) ∧ ¬ violated.holds ∧
        pack command timestamp args limit buffer =
          (.error violated.cause, if others = [] then [] else buffer)) ∧
    (conditions command args limit).map (fun condition => condition.cause.kind) =
      [.argcOverflow, .usage, .unsupportedCommand, .keySizeExceeded, .sizeOverflow] := by
  rcases pack_cases command timestamp args limit buffer with
    ⟨hpersistable, hpack⟩ | ⟨held, violated, others, hconditions, hheld, hviolated, hpack⟩
  · refine ⟨iff_of_true ⟨_, by rw [hpack]⟩ hpersistable, fun _ => ⟨hpack, ?_⟩,
      fun hnot => absurd hpersistable hnot, rfl⟩
    exact length_encode_eq_recordLength _
  · have hnot : ¬ Persistable command args limit := by
      rw [persistable_iff, hconditions]
      exact fun hall => hviolated (hall violated (List.mem_append_right _ List.mem_cons_self))
    refine ⟨iff_of_false ?_ hnot, fun hpersistable => absurd hpersistable hnot,
      fun _ => ⟨held, violated, others, hconditions, hheld, hviolated, hpack⟩, rfl⟩
    rintro ⟨n, hok⟩
    rw [hpack] at hok
    cases hok

example : pack .mSet 0 [[107], [1], [2]] 100 [7, 7] = (.error (.arityMismatch .mSet 3), [7, 7]) := rfl

end Packing

end Record
end WriteBehind
