import WriteBehind.Proofs.Packing

/-!
# Record — packed commands can be read back

* `decodeArgs_flatMap_append`: arguments that can be told apart are read, whatever stands behind them;
* `unpack_encode`: a job with such arguments is read back, up to its timestamp's width;
* `pack_eq_ok`: what is packed is the record of the command, and stays below the limit;
* `peekKey_of_unpack`: where a record can be read, its key can;
* `unpack_of_pack`: so what was packed is read back, and its key too.
-/

namespace WriteBehind
namespace Record

/-- The record can be read. -/
def Decodable (record : Bytes) : Prop := ∃ job, unpack record = .ok job

/-! ## Arguments -/

theorem decodeArgs_nil (position count : Nat) : decodeArgs position count [] = .ok [] := by
  rw [decodeArgs, dif_pos rfl]

/-- How a length and what stands behind it are read. -/
theorem decodeArgs_ofWord32_append {position count length : Nat} {rest : Bytes}
    (hword : length < 2 ^ 32) :
    decodeArgs position count (Bytes.ofWord32 length ++ rest) =
      if rest.length < length then .error (.argumentPastEnd position)
      else if count + 1 > argumentLimit then .error .argumentCount
      else (decodeArgs (position + 4 + length) (count + 1) (rest.drop length)).map
        (rest.take length :: ·) := by
  have hlength : (Bytes.ofWord32 length).length = 4 := Bytes.length_ofWord32 _
  have hlong : ¬ (Bytes.ofWord32 length ++ rest).length < 4 := by
    rw [List.length_append, hlength]
    omega
  have hnonempty : ¬ Bytes.ofWord32 length ++ rest = [] := by
    intro hnil
    rw [hnil] at hlong
    exact hlong (by decide)
  rw [decodeArgs, dif_neg hnonempty, if_neg hlong]
  simp only [List.take_left' hlength, List.drop_left' hlength, Bytes.toWord_ofWord32 _ hword]
  cases decodeArgs (position + 4 + length) (count + 1) (rest.drop length) <;> rfl

/-- The first argument's length and bytes are split off, and the rest is read one place further on. -/
theorem decodeArgs_encodeArg_append {position count : Nat} {arg rest : Bytes}
    (hcount : count < argumentLimit) (hword : arg.length < 2 ^ 32) :
    decodeArgs position count (encodeArg arg ++ rest) =
      (decodeArgs (position + 4 + arg.length) (count + 1) rest).map (arg :: ·) := by
  have hfits : ¬ (arg ++ rest).length < arg.length := by
    rw [List.length_append]
    omega
  have hroom : ¬ count + 1 > argumentLimit := by omega
  rw [encodeArg, List.append_assoc, decodeArgs_ofWord32_append hword, if_neg hfits, if_neg hroom,
    List.take_left, List.drop_left]

theorem length_flatMap_encodeArg_cons (arg : Bytes) (args : List Bytes) :
    ((arg :: args).flatMap encodeArg).length = 4 + arg.length + (args.flatMap encodeArg).length := by
  rw [List.flatMap_cons, List.length_append, length_encodeArg]

/-- Arguments that can be told apart are read, and then what stands behind them. -/
theorem decodeArgs_flatMap_append (args : List Bytes) (position count : Nat) (tail : Bytes)
    (hcount : count + args.length ≤ argumentLimit) (hword : ∀ arg ∈ args, arg.length < 2 ^ 32) :
    decodeArgs position count (args.flatMap encodeArg ++ tail) =
      (decodeArgs (position + (args.flatMap encodeArg).length) (count + args.length) tail).map
        (args ++ ·) := by
  induction args generalizing position count with
  | nil =>
    show decodeArgs position count tail = (decodeArgs position count tail).map id
    cases decodeArgs position count tail <;> rfl
  | cons arg args ih =>
    rw [List.length_cons] at hcount
    have hrest := ih (position + 4 + arg.length) (count + 1) (by omega)
      (fun other hmem => hword other (List.mem_cons_of_mem arg hmem))
    have hposition : position + ((arg :: args).flatMap encodeArg).length =
        position + 4 + arg.length + (args.flatMap encodeArg).length := by
      rw [length_flatMap_encodeArg_cons]
      omega
    have hbehind : count + (arg :: args).length = count + 1 + args.length := by
      rw [List.length_cons]
      omega
    rw [hposition, hbehind, List.flatMap_cons, List.append_assoc,
      decodeArgs_encodeArg_append (by omega) (hword arg List.mem_cons_self), hrest]
    cases decodeArgs (position + 4 + arg.length + (args.flatMap encodeArg).length)
      (count + 1 + args.length) tail <;> rfl

theorem decodeArgs_flatMap (args : List Bytes) (position count : Nat)
    (hcount : count + args.length ≤ argumentLimit) (hword : ∀ arg ∈ args, arg.length < 2 ^ 32) :
    decodeArgs position count (args.flatMap encodeArg) = .ok args := by
  have happend := decodeArgs_flatMap_append args position count [] hcount hword
  rw [List.append_nil, decodeArgs_nil] at happend
  rw [happend, Except.map, List.append_nil]

/-! ## Whole records -/

/-- How the header and what stands behind it are read. -/
theorem unpack_header_append {timestamp tag : Nat} (rest : Bytes) (hword : tag < 2 ^ 32) :
    unpack (Bytes.ofWord32 timestamp ++ Bytes.ofWord32 tag ++ rest) =
      match Command.ofTag? tag with
      | none => .error (.unknownTag tag)
      | some command =>
        match decodeArgs headerLength 0 rest with
        | .error cause => .error cause
        | .ok [] => .error .recordWithoutKey
        | .ok (key :: values) => .ok ⟨timestamp % 2 ^ 32, command, key :: values⟩ := by
  have htime : (Bytes.ofWord32 timestamp).length = 4 := Bytes.length_ofWord32 _
  have htag : (Bytes.ofWord32 tag).length = 4 := Bytes.length_ofWord32 _
  have hheader : (Bytes.ofWord32 timestamp ++ Bytes.ofWord32 tag).length = headerLength := by
    rw [List.length_append, htime, htag, headerLength]
  have hlong : ¬ (Bytes.ofWord32 timestamp ++ Bytes.ofWord32 tag ++ rest).length < headerLength := by
    rw [List.length_append, hheader]
    omega
  rw [unpack, if_neg hlong, List.drop_left' hheader, List.append_assoc]
  -- The timestamp is as wide as its word.
  have hstamp : Bytes.toWord ((Bytes.ofWord32 timestamp ++ (Bytes.ofWord32 tag ++ rest)).take 4) =
      timestamp % 2 ^ 32 := by
    rw [List.take_left' htime]
    exact Bytes.toWord_ofWord 4 timestamp
  have hread : Bytes.toWord
      (((Bytes.ofWord32 timestamp ++ (Bytes.ofWord32 tag ++ rest)).drop 4).take 4) = tag := by
    rw [List.drop_left' htime, List.take_left' htag, Bytes.toWord_ofWord32 _ hword]
  cases hcommand : Command.ofTag? tag with
  | none => simp only [hread, hcommand]
  | some command =>
    rcases decodeArgs headerLength 0 rest with cause | _ | ⟨key, values⟩
    · simp only [hread, hcommand]
    · simp only [hread, hcommand]
    · simp only [hread, hcommand, hstamp]

/-- A job with a key is read back from its record, with the timestamp in 32 bits. -/
theorem unpack_encode {j : Job} (hargs : j.args ≠ []) (hcount : j.args.length ≤ argumentLimit)
    (hword : ∀ arg ∈ j.args, arg.length < 2 ^ 32) :
    unpack j.encode = .ok { j with timestamp := j.timestamp % 2 ^ 32 } := by
  have hdecode := decodeArgs_flatMap j.args headerLength 0 (by omega) hword
  rw [Job.encode, unpack_header_append _ (Command.tag_lt j.command), Command.ofTag?_tag]
  simp only [hdecode]
  cases hcases : j.args with
  | nil => exact absurd hcases hargs
  | cons key values => rfl

/-- A command that is packed gives its record, which is below the limit and is read back. -/
theorem pack_eq_ok {command : Command} {timestamp : Nat} {args : List Bytes} {limit n : Nat}
    {buffer record : Bytes} (h : pack command timestamp args limit buffer = (.ok n, record))
    (hlimit : limit < 2 ^ 32) :
    record = Job.encode ⟨timestamp, command, args⟩ ∧ record.length < limit ∧
      unpack record = .ok ⟨timestamp % 2 ^ 32, command, args⟩ := by
  rcases pack_cases command timestamp args limit buffer with
    ⟨⟨⟨hsome, hcount⟩, -, -, hsize⟩, hpack⟩ | ⟨_, _, _, -, -, -, hpack⟩
  · cases hpack.symm.trans h
    refine ⟨rfl, ?_, ?_⟩
    · rw [length_encode_eq_recordLength]
      exact hsize
    · refine unpack_encode (List.length_pos_iff.1 hsome) (Nat.le_trans hcount (by decide)) ?_
      exact fun arg hmem => Nat.lt_trans (length_lt_recordLength hmem) (Nat.lt_trans hsize hlimit)
  · cases hpack.symm.trans h

theorem decodeArgs_eq_cons {position count : Nat} {bytes key : Bytes} {values : List Bytes}
    (h : decodeArgs position count bytes = .ok (key :: values)) :
    4 ≤ bytes.length ∧ Bytes.toWord (bytes.take 4) ≤ (bytes.drop 4).length ∧
      key = (bytes.drop 4).take (Bytes.toWord (bytes.take 4)) := by
  rw [decodeArgs] at h
  by_cases hnil : bytes = []
  · rw [dif_pos hnil] at h
    cases h
  rw [dif_neg hnil] at h
  by_cases hshort : bytes.length < 4
  · rw [if_pos hshort] at h
    cases h
  rw [if_neg hshort] at h
  by_cases hpast : (bytes.drop 4).length < Bytes.toWord (bytes.take 4)
  · simp only [if_pos hpast] at h
    cases h
  simp only [if_neg hpast] at h
  by_cases hcount : count + 1 > argumentLimit
  · rw [if_pos hcount] at h
    cases h
  rw [if_neg hcount] at h
  refine ⟨Nat.not_lt.1 hshort, Nat.not_lt.1 hpast, ?_⟩
  split at h
  · cases h
    rfl
  · cases h

/-- Where a record can be read, its key can. -/
theorem peekKey_of_unpack {bytes : Bytes} {job : Job} (h : unpack bytes = .ok job) :
    peekKey bytes = .ok job.key := by
  simp only [unpack] at h
  split at h
  · cases h
  · split at h
    · cases h
    · split at h
      · cases h
      · cases h
      · rename_i hlength _ _ _ _ key values hdecode
        cases h
        -- The key is read where the first argument is.
        rcases decodeArgs_eq_cons hdecode with ⟨hprefixed, hwithin, rfl⟩
        rw [List.length_drop] at hprefixed
        rw [List.drop_drop] at hwithin
        have hlong : ¬ bytes.length < headerLength + 4 := by omega
        rw [peekKey, if_neg hlong]
        simp only [if_neg (Nat.not_lt.2 hwithin), Job.key, List.headD_cons, List.drop_drop]

/-- Reading undoes writing: whatever stood in the buffer before, a command that was packed is read from it
again with its timestamp and all of its arguments, and its key is the first of them. -/
theorem unpack_of_pack {command : Command} {timestamp : Nat} {args : List Bytes} {limit n : Nat}
    {buffer record : Bytes} (htime : timestamp < 2 ^ 32) (hlimit : limit < 2 ^ 32)
    (h : pack command timestamp args limit buffer = (.ok n, record)) :
    unpack record = .ok ⟨timestamp, command, args⟩ ∧
      ∃ key values, args = key :: values ∧ peekKey record = .ok key := by
  have hread := (pack_eq_ok h hlimit).2.2
  rw [Nat.mod_eq_of_lt htime] at hread
  refine ⟨hread, ?_⟩
  have hpeek := peekKey_of_unpack hread
  cases args with
  | nil => cases h
  | cons key values => exact ⟨key, values, rfl, hpeek⟩

/-- A member without bytes, at the latest of all seconds, and a buffer that is not empty. -/
theorem unpack_of_pack_zAdd :
    unpack [255, 255, 255, 255, 10, 0, 0, 0, 1, 0, 0, 0, 107, 1, 0, 0, 0, 49, 0, 0, 0, 0] =
        .ok ⟨4294967295, .zAdd, [[107], [49], []]⟩ ∧
      ∃ key values, [[107], [49], []] = key :: values ∧
        peekKey [255, 255, 255, 255, 10, 0, 0, 0, 1, 0, 0, 0, 107, 1, 0, 0, 0, 49, 0, 0, 0, 0] =
          .ok key :=
  unpack_of_pack (show 4294967295 < 2 ^ 32 by decide) (show 4294967295 < 2 ^ 32 by decide)
    (show pack .zAdd 4294967295 [[107], [49], []] 4294967295 [104, 101, 108, 108, 111] = (.ok 22, _)
      from rfl)

end Record
end WriteBehind
