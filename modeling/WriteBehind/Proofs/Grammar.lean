import WriteBehind.Proofs.Record

/-!
# Grammar — the byte strings that are records

A record is a timestamp, the tag of a command, and one argument or more, each behind its length.  A reader
accepts just these byte strings, and each of them stands for one job.

* `IsRecord bytes job`: the bytes are laid out as the record of the job;
* `Stray` and `Defect bytes cause`: what other bytes look like, and what they are refused for;
* `decodeArgs_cases` and `unpack_cases`: reading ends in one of these ways;
* `unpack_exact`: records are accepted, all else is refused as corrupt, and writing undoes reading.
-/

namespace WriteBehind
namespace Record

/-! ## The grammar -/

/-- The bytes are the timestamp of the job, the tag of its command, and each of its arguments behind its
length, of which there are 1 to 1024. -/
structure IsRecord (bytes : Bytes) (job : Job) : Prop where
  layout : bytes = Bytes.ofWord32 job.timestamp ++ Bytes.ofWord32 job.command.tag ++
    job.args.flatMap fun arg => Bytes.ofWord32 arg.length ++ arg
  timestamp_lt : job.timestamp < 2 ^ 32
  lengths : ∀ arg ∈ job.args, arg.length < 2 ^ 32
  count : 1 ≤ job.args.length ∧ job.args.length ≤ 1024

/-- What stands at `position`, behind `count` arguments, and cannot be read as another one. -/
inductive Stray (position count : Nat) : Bytes → Cause → Prop
  /-- Fewer bytes than a length takes. -/
  | fragment {tail : Bytes} (hpos : 0 < tail.length) (hshort : tail.length < 4) :
      Stray position count tail (.argumentLengthTruncated position)
  /-- A length, and fewer bytes than that behind it. -/
  | overrun {length : Nat} {tail : Bytes} (hword : length < 2 ^ 32) (hover : tail.length < length) :
      Stray position count (Bytes.ofWord32 length ++ tail) (.argumentPastEnd position)
  /-- The 1025th argument. -/
  | surplus {arg rest : Bytes} (hword : arg.length < 2 ^ 32) (hcount : count = 1024) :
      Stray position count (encodeArg arg ++ rest) .argumentCount

/-- What keeps bytes from being a record, and what they are refused for. -/
inductive Defect : Bytes → Cause → Prop
  /-- The bytes end before the arguments begin. -/
  | short {bytes : Bytes} (hshort : bytes.length < 8) : Defect bytes .recordTooShort
  /-- No command has this tag. -/
  | unknown {timestamp tag : Nat} {rest : Bytes} (hword : tag < 2 ^ 32)
      (hunknown : ∀ command : Command, command.tag ≠ tag) :
      Defect (Bytes.ofWord32 timestamp ++ Bytes.ofWord32 tag ++ rest) (.unknownTag tag)
  /-- Behind some arguments, or behind none, stands what is no argument. -/
  | stray {timestamp : Nat} {command : Command} {args : List Bytes} {tail : Bytes} {cause : Cause}
      (hlengths : ∀ arg ∈ args, arg.length < 2 ^ 32) (hcount : args.length ≤ 1024)
      (hstray : Stray (8 + (args.flatMap encodeArg).length) args.length tail cause) :
      Defect (Bytes.ofWord32 timestamp ++ Bytes.ofWord32 command.tag ++
        (args.flatMap encodeArg ++ tail)) cause
  /-- There is no argument. -/
  | keyless {timestamp : Nat} {command : Command} :
      Defect (Bytes.ofWord32 timestamp ++ Bytes.ofWord32 command.tag ++ []) .recordWithoutKey

/-- Arguments that can be told apart, and no more of them than a record takes behind `count` others, and
then the tail. -/
structure Splits (count : Nat) (bytes : Bytes) (args : List Bytes) (tail : Bytes) : Prop where
  layout : bytes = args.flatMap encodeArg ++ tail
  lengths : ∀ arg ∈ args, arg.length < 2 ^ 32
  count_le : count + args.length ≤ argumentLimit

/-! ## Reading arguments -/

section Arguments

variable {position count : Nat} {bytes tail : Bytes} {args : List Bytes} {cause : Cause}

theorem Splits.nil (h : count ≤ argumentLimit) : Splits count tail [] tail :=
  ⟨rfl, by rintro _ ⟨⟩, h⟩

theorem Splits.cons {arg rest : Bytes} (hbytes : encodeArg arg ++ rest = bytes)
    (hword : arg.length < 2 ^ 32) (h : Splits (count + 1) rest args tail) :
    Splits count bytes (arg :: args) tail := by
  have hcount := h.count_le
  refine ⟨?_, ?_, ?_⟩
  · rw [← hbytes, h.layout, List.flatMap_cons, List.append_assoc]
  · intro other hmem
    rcases List.mem_cons.1 hmem with rfl | hmem
    · exact hword
    · exact h.lengths other hmem
  · rw [List.length_cons]
    omega

/-- Where one more argument stands in front, what is stray is so at the same place. -/
theorem Stray.cons {arg : Bytes}
    (h : Stray (position + 4 + arg.length + (args.flatMap encodeArg).length)
      (count + 1 + args.length) tail cause) :
    Stray (position + ((arg :: args).flatMap encodeArg).length) (count + (arg :: args).length) tail
      cause := by
  have hposition : position + ((arg :: args).flatMap encodeArg).length =
      position + 4 + arg.length + (args.flatMap encodeArg).length := by
    rw [length_flatMap_encodeArg_cons]
    omega
  have hcount : count + (arg :: args).length = count + 1 + args.length := by
    rw [List.length_cons]
    omega
  rwa [hposition, hcount]

theorem Stray.decodeArgs_eq (h : Stray position count tail cause) :
    decodeArgs position count tail = .error cause := by
  cases h with
  | fragment hpos hshort =>
    rw [decodeArgs, dif_neg (List.length_pos_iff.1 hpos), if_pos hshort]
  | overrun hword hover => rw [decodeArgs_ofWord32_append hword, if_pos hover]
  | @surplus arg rest hword hcount =>
    have hfits : ¬ (arg ++ rest).length < arg.length := by
      rw [List.length_append]
      omega
    have hfull : count + 1 > argumentLimit := by
      rw [hcount]
      decide
    rw [encodeArg, List.append_assoc, decodeArgs_ofWord32_append hword, if_neg hfits, if_pos hfull]

/-- The argument that is read off the front of some bytes is what stands there. -/
theorem encodeArg_take_append_drop (hlong : 4 ≤ bytes.length)
    (hfits : Bytes.toWord (bytes.take 4) ≤ (bytes.drop 4).length) :
    ((bytes.drop 4).take (Bytes.toWord (bytes.take 4))).length = Bytes.toWord (bytes.take 4) ∧
      ((bytes.drop 4).take (Bytes.toWord (bytes.take 4))).length < 2 ^ 32 ∧
      encodeArg ((bytes.drop 4).take (Bytes.toWord (bytes.take 4))) ++
        (bytes.drop 4).drop (Bytes.toWord (bytes.take 4)) = bytes := by
  have hlength := List.length_take_of_le hfits
  refine ⟨hlength, ?_, ?_⟩
  · rw [hlength]
    exact Bytes.toWord_lt_of_length_le (List.length_take_le 4 bytes)
  calc encodeArg ((bytes.drop 4).take (Bytes.toWord (bytes.take 4))) ++
        (bytes.drop 4).drop (Bytes.toWord (bytes.take 4))
      = bytes.take 4 ++ ((bytes.drop 4).take (Bytes.toWord (bytes.take 4)) ++
          (bytes.drop 4).drop (Bytes.toWord (bytes.take 4))) := by
        rw [encodeArg, hlength, Bytes.ofWord32_toWord (List.length_take_of_le hlong),
          List.append_assoc]
    _ = bytes.take 4 ++ bytes.drop 4 := by rw [List.take_append_drop]
    _ = bytes := List.take_append_drop 4 bytes

/-- Reading goes over arguments and ends with them, or at what is stray behind them. -/
theorem decodeArgs_cases (position count : Nat) (bytes : Bytes) (hcount : count ≤ argumentLimit) :
    ∃ args tail, Splits count bytes args tail ∧
      (tail = [] ∧ decodeArgs position count bytes = .ok args ∨
        ∃ cause, Stray (position + (args.flatMap encodeArg).length) (count + args.length) tail cause ∧
          decodeArgs position count bytes = .error cause) := by
  -- In the first four cases the reading ends here; in the others an argument was read, and the rest decides.
  fun_induction decodeArgs position count bytes with
  | case1 position count => exact ⟨[], [], .nil hcount, .inl ⟨rfl, rfl⟩⟩
  | case2 position count bytes hnil hshort =>
    exact ⟨[], bytes, .nil hcount, .inr ⟨_, .fragment (List.length_pos_iff.2 hnil) hshort, rfl⟩⟩
  | case3 position count bytes hnil hlong length rest hover =>
    have hword : length < 2 ^ 32 := Bytes.toWord_lt_of_length_le (List.length_take_le 4 bytes)
    have hbytes : Bytes.ofWord32 length ++ rest = bytes := by
      rw [Bytes.ofWord32_toWord (List.length_take_of_le (Nat.not_lt.1 hlong)),
        List.take_append_drop]
    rw [← hbytes]
    exact ⟨[], _, .nil hcount, .inr ⟨_, .overrun hword hover, rfl⟩⟩
  | case4 position count bytes hnil hlong length rest hfits hfull =>
    rcases encodeArg_take_append_drop (Nat.not_lt.1 hlong) (Nat.not_lt.1 hfits) with
      ⟨-, hword, hbytes⟩
    have hlast : count = 1024 := by
      rw [argumentLimit] at hcount hfull
      omega
    rw [← hbytes]
    exact ⟨[], _, .nil hcount, .inr ⟨_, .surplus hword hlast, rfl⟩⟩
  | case5 position count bytes hnil hlong length rest hfits hroom read hread ih =>
    rcases encodeArg_take_append_drop (Nat.not_lt.1 hlong) (Nat.not_lt.1 hfits) with
      ⟨-, hword, hbytes⟩
    rcases ih (by omega) with ⟨args, tail, hsplits, ⟨rfl, hok⟩ | ⟨cause, -, herror⟩⟩
    · cases hread.symm.trans hok
      exact ⟨_, [], hsplits.cons hbytes hword, .inl ⟨rfl, rfl⟩⟩
    · cases hread.symm.trans herror
  | case6 position count bytes hnil hlong length rest hfits hroom cause hread ih =>
    rcases encodeArg_take_append_drop (Nat.not_lt.1 hlong) (Nat.not_lt.1 hfits) with
      ⟨hlength, hword, hbytes⟩
    rcases ih (by omega) with ⟨args, tail, hsplits, ⟨rfl, hok⟩ | ⟨cause', hstray, herror⟩⟩
    · cases hread.symm.trans hok
    · cases hread.symm.trans herror
      refine ⟨_, tail, hsplits.cons hbytes hword, .inr ⟨cause, ?_, rfl⟩⟩
      exact Stray.cons (hlength.symm ▸ hstray)

end Arguments

/-! ## Reading records -/

section Records

variable {bytes : Bytes} {job : Job} {cause : Cause}

/-- Bytes that are long enough begin with two words. -/
theorem header_append (hlong : headerLength ≤ bytes.length) :
    Bytes.ofWord32 (Bytes.toWord (bytes.take 4)) ++
      Bytes.ofWord32 (Bytes.toWord ((bytes.drop 4).take 4)) ++ bytes.drop headerLength = bytes := by
  have hdrop : (bytes.drop 4).length = bytes.length - 4 := List.length_drop
  rw [headerLength] at hlong ⊢
  have htime : (bytes.take 4).length = 4 := List.length_take_of_le (by omega)
  have htag : ((bytes.drop 4).take 4).length = 4 := List.length_take_of_le (by omega)
  calc Bytes.ofWord32 (Bytes.toWord (bytes.take 4)) ++
        Bytes.ofWord32 (Bytes.toWord ((bytes.drop 4).take 4)) ++ bytes.drop 8
      = bytes.take 4 ++ ((bytes.drop 4).take 4 ++ (bytes.drop 4).drop 4) := by
        rw [Bytes.ofWord32_toWord htime, Bytes.ofWord32_toWord htag, List.append_assoc,
          List.drop_drop]
    _ = bytes := by rw [List.take_append_drop, List.take_append_drop]

theorem IsRecord.encode_eq (h : IsRecord bytes job) : job.encode = bytes := h.layout.symm

theorem IsRecord.unpack_eq (h : IsRecord bytes job) : unpack bytes = .ok job := by
  have hread := unpack_encode (List.length_pos_iff.1 h.count.1) h.count.2 h.lengths
  rwa [h.encode_eq, Nat.mod_eq_of_lt h.timestamp_lt] at hread

/-- What stands behind a record is read as further arguments. -/
theorem IsRecord.unpack_append (h : IsRecord bytes job) (rest : Bytes) :
    unpack (bytes ++ rest) = (decodeArgs bytes.length job.args.length rest).map
      fun more => { job with args := job.args ++ more } := by
  have hbehind := decodeArgs_flatMap_append job.args headerLength 0 rest
    (by rw [Nat.zero_add]; exact h.count.2) h.lengths
  rw [Nat.zero_add, ← length_encode, h.encode_eq] at hbehind
  rw [← h.encode_eq, Job.encode, List.append_assoc,
    unpack_header_append _ (Command.tag_lt job.command), Command.ofTag?_tag, ← Job.encode,
    h.encode_eq]
  simp only [hbehind, Nat.mod_eq_of_lt h.timestamp_lt]
  have hsome := List.length_pos_iff.1 h.count.1
  cases decodeArgs bytes.length job.args.length rest with
  | error cause => rfl
  | ok more =>
    cases hargs : job.args with
    | nil => exact absurd hargs hsome
    | cons key values => rfl

theorem Defect.unpack_eq (h : Defect bytes cause) : unpack bytes = .error cause := by
  cases h with
  | short hshort => exact if_pos hshort
  | unknown hword hunknown =>
    rw [unpack_header_append _ hword, Command.ofTag?_eq_none hunknown]
  | @stray timestamp command args tail cause hlengths hcount hstray =>
    have hbehind := decodeArgs_flatMap_append args headerLength 0 tail
      (by rw [Nat.zero_add]; exact hcount) hlengths
    rw [Nat.zero_add, headerLength, hstray.decodeArgs_eq] at hbehind
    rw [unpack_header_append _ (Command.tag_lt command), Command.ofTag?_tag]
    simp only [headerLength, hbehind]
    rfl
  | @keyless timestamp command =>
    rw [unpack_header_append _ (Command.tag_lt command), Command.ofTag?_tag]
    simp only [decodeArgs_nil]

theorem Defect.kind_eq (h : Defect bytes cause) : cause.kind = .corrupt := by
  cases h with
  | short | unknown | keyless => rfl
  | stray _ _ hstray => cases hstray <;> rfl

/-- Reading ends with the job that the bytes are a record of, or at what keeps them from being one. -/
theorem unpack_cases (bytes : Bytes) :
    (∃ job, IsRecord bytes job ∧ unpack bytes = .ok job) ∨
      ∃ cause, Defect bytes cause ∧ unpack bytes = .error cause := by
  suffices h : (∃ job, IsRecord bytes job) ∨ ∃ cause, Defect bytes cause by
    rcases h with ⟨job, hrecord⟩ | ⟨cause, hdefect⟩
    · exact .inl ⟨job, hrecord, hrecord.unpack_eq⟩
    · exact .inr ⟨cause, hdefect, hdefect.unpack_eq⟩
  by_cases hshort : bytes.length < headerLength
  · exact .inr ⟨_, .short hshort⟩
  have hbytes := header_append (Nat.not_lt.1 hshort)
  have htime : Bytes.toWord (bytes.take 4) < 2 ^ 32 :=
    Bytes.toWord_lt_of_length_le (List.length_take_le 4 bytes)
  have htag : Bytes.toWord ((bytes.drop 4).take 4) < 2 ^ 32 :=
    Bytes.toWord_lt_of_length_le (List.length_take_le 4 _)
  rw [← hbytes]
  rcases hcommand : Command.ofTag? (Bytes.toWord ((bytes.drop 4).take 4)) with _ | command
  · refine .inr ⟨_, .unknown htag fun command heq => ?_⟩
    rw [← heq, Command.ofTag?_tag] at hcommand
    cases hcommand
  rw [← Command.tag_of_ofTag? hcommand]
  rcases decodeArgs_cases headerLength 0 (bytes.drop headerLength) (by decide) with
    ⟨args, tail, ⟨hlayout, hlengths, hcount⟩, ⟨rfl, -⟩ | ⟨cause, hstray, -⟩⟩
  · rw [Nat.zero_add] at hcount
    rw [List.append_nil] at hlayout
    rw [hlayout]
    cases args with
    | nil => exact .inr ⟨_, .keyless⟩
    | cons key values =>
      exact .inl ⟨⟨_, command, key :: values⟩, rfl, htime, hlengths, Nat.le_add_left 1 _, hcount⟩
  · rw [Nat.zero_add] at hcount hstray
    rw [hlayout]
    exact .inr ⟨cause, .stray hlengths hcount hstray⟩

/-- A record that is cut short is none, unless it is cut between two of its arguments: then it is the
record of the arguments in front of the cut. -/
theorem IsRecord.of_take (h : IsRecord bytes job) {n : Nat} (hcut : n < bytes.length) {front : Job}
    (hfront : IsRecord (bytes.take n) front) :
    ∃ k, 0 < k ∧ k < job.args.length ∧ front = { job with args := job.args.take k } := by
  have hread := hfront.unpack_append (bytes.drop n)
  rw [List.take_append_drop, h.unpack_eq] at hread
  rcases hmore : decodeArgs (bytes.take n).length front.args.length (bytes.drop n) with
    cause | more
  · rw [hmore] at hread
    cases hread
  rw [hmore] at hread
  cases hread
  refine ⟨front.args.length, hfront.count.1, ?_, ?_⟩
  · -- With no argument behind the cut the two jobs are one, and so are the bytes.
    rw [List.length_append]
    refine Nat.lt_add_of_pos_right (List.length_pos_iff.2 ?_)
    rintro rfl
    have hbytes : bytes = bytes.take n := by
      calc bytes = { front with args := front.args ++ [] }.encode := h.encode_eq.symm
        _ = front.encode := by rw [List.append_nil]
        _ = bytes.take n := hfront.encode_eq
    have hlength := congrArg List.length hbytes
    rw [List.length_take] at hlength
    omega
  · rw [List.take_left]

/-- Reading accepts just the records, each as the one job that it is the record of, and refuses all other
bytes as corrupt: those that are too short, whose tag is unknown, that have no argument, and those with a
fragment, an argument that runs past the end or a 1025th one behind the arguments that can be read.
Writing the job gives the bytes again, and no others are read as it.  Of a record that was cut short, a
part is read only where the cut is between two arguments, and then it is the record of those in front. -/
theorem unpack_exact (bytes : Bytes) :
    (∀ job, unpack bytes = .ok job ↔ IsRecord bytes job) ∧
      (∀ cause, unpack bytes = .error cause ↔ Defect bytes cause) ∧
      (∀ cause, unpack bytes = .error cause → cause.kind = .corrupt) ∧
      ∀ job, unpack bytes = .ok job →
        job.encode = bytes ∧ (∀ other, unpack other = .ok job → other = bytes) ∧
          ∀ n front, n < bytes.length → unpack (bytes.take n) = .ok front →
            ∃ k, 0 < k ∧ k < job.args.length ∧ front = { job with args := job.args.take k } := by
  have hok (bytes : Bytes) (job : Job) : unpack bytes = .ok job ↔ IsRecord bytes job := by
    refine ⟨fun hread => ?_, IsRecord.unpack_eq⟩
    rcases unpack_cases bytes with ⟨_, hrecord, hread'⟩ | ⟨_, -, hread'⟩
    · cases hread.symm.trans hread'
      exact hrecord
    · cases hread.symm.trans hread'
  have herror (cause : Cause) : unpack bytes = .error cause ↔ Defect bytes cause := by
    refine ⟨fun hread => ?_, Defect.unpack_eq⟩
    rcases unpack_cases bytes with ⟨_, -, hread'⟩ | ⟨_, hdefect, hread'⟩
    · cases hread.symm.trans hread'
    · cases hread.symm.trans hread'
      exact hdefect
  refine ⟨hok bytes, herror, fun cause hread => ((herror cause).1 hread).kind_eq, ?_⟩
  intro job hread
  have hrecord := (hok bytes job).1 hread
  refine ⟨hrecord.encode_eq, fun other hother => ?_, fun n front hcut hfront => ?_⟩
  · exact ((hok other job).1 hother).encode_eq.symm.trans hrecord.encode_eq
  · exact hrecord.of_take hcut ((hok _ front).1 hfront)

end Records

end Record
end WriteBehind
