import WriteBehind.Bytes
import WriteBehind.Fault

/-!
# Record — commands as flat byte records

A record is a 32-bit timestamp, the 32-bit tag of the command, and for each argument its 32-bit
length and its bytes.  The first argument is the key.

* `Job.encode` writes the record of a job, with no checks;
* `pack` writes a record for a command that may be persisted, and says why another may not;
* `unpack` reads a record back and refuses everything that is not one;
* `peekKey` reads the key alone.
-/

namespace WriteBehind

/-- A command to replay, stamped with the second at which it was queued. -/
structure Job where
  timestamp : Nat
  command : Command
  args : List Bytes
  deriving DecidableEq, Repr

namespace Record

/-! ## Limits -/

/-- Keys are strictly shorter than this. -/
def keyLimit : Nat := 32

/-- Argument counts of a persisted command, its name included, are strictly below this. -/
def argumentLimit : Nat := 1024

/-- The record limit where none is given. -/
def defaultLimit : Nat := 10240

/-- The bytes of a record in front of its arguments. -/
def headerLength : Nat := 8

/-! ## Writing -/

/-- An argument behind its length. -/
def encodeArg (arg : Bytes) : Bytes := Bytes.ofWord32 arg.length ++ arg

end Record

namespace Job

/-- The key, empty for a job without arguments. -/
def key (j : Job) : Bytes := j.args.headD []

/-- The arguments after the key. -/
def values (j : Job) : List Bytes := j.args.tail

/-- The record of a job. -/
def encode (j : Job) : Bytes :=
  Bytes.ofWord32 j.timestamp ++ Bytes.ofWord32 j.command.tag ++ j.args.flatMap Record.encodeArg

end Job

namespace Record

/-- Whether a record that holds `used` bytes stays below `limit` while these arguments are added. -/
def argumentsFit (limit : Nat) : Nat → List Bytes → Bool
  | _, [] => true
  | used, arg :: args =>
    let next := used + 4 + arg.length
    decide (next < limit) && argumentsFit limit next args

/-- Writes the record of a command into a buffer, and gives the record's length and the buffer.
A command that may not be persisted leaves the buffer alone, one that is too long clears it. -/
def pack (command : Command) (timestamp : Nat) (args : List Bytes) (limit : Nat)
    (buffer : Bytes) : Except Cause Nat × Bytes :=
  if args.length + 1 ≥ argumentLimit then (.error (.tooManyArguments args.length), buffer)
  else match args with
    | [] => (.error (.keyMissing command), buffer)
    | key :: _ =>
      if ¬ command.arity.accepts args.length then
        (.error (.arityMismatch command args.length), buffer)
      else if key.length ≥ keyLimit then (.error (.keyTooLong key.length), buffer)
      else if argumentsFit limit headerLength args then
        let record := Job.encode ⟨timestamp, command, args⟩
        (.ok record.length, record)
      else (.error (.recordTooLong command limit), [])

/-! ## Reading -/

/-- Reads arguments up to the end of a record.  The arguments start at offset `position`, behind
`count` others. -/
def decodeArgs (position count : Nat) (bytes : Bytes) : Except Cause (List Bytes) :=
  if _h : bytes = [] then .ok []
  else if bytes.length < 4 then .error (.argumentLengthTruncated position)
  else
    let length := Bytes.toWord (bytes.take 4)
    let rest := bytes.drop 4
    if rest.length < length then .error (.argumentPastEnd position)
    else if count + 1 > argumentLimit then .error .argumentCount
    else
      match decodeArgs (position + 4 + length) (count + 1) (rest.drop length) with
      | .ok args => .ok (rest.take length :: args)
      | .error cause => .error cause
termination_by bytes.length
decreasing_by
  have : 0 < bytes.length := List.length_pos_iff.2 _h
  simp only [List.length_drop]
  omega

/-- Reads a record. -/
def unpack (bytes : Bytes) : Except Cause Job :=
  if bytes.length < headerLength then .error .recordTooShort
  else
    let tag := Bytes.toWord ((bytes.drop 4).take 4)
    match Command.ofTag? tag with
    | none => .error (.unknownTag tag)
    | some command =>
      match decodeArgs headerLength 0 (bytes.drop headerLength) with
      | .error cause => .error cause
      | .ok [] => .error .recordWithoutKey
      | .ok (key :: values) => .ok ⟨Bytes.toWord (bytes.take 4), command, key :: values⟩

/-- Reads only the key of a record. -/
def peekKey (bytes : Bytes) : Except Cause Bytes :=
  if bytes.length < headerLength + 4 then .error .recordWithoutKey
  else
    let length := Bytes.toWord ((bytes.drop headerLength).take 4)
    let rest := bytes.drop (headerLength + 4)
    if rest.length < length then .error .keyPastEnd
    else .ok (rest.take length)

end Record

end WriteBehind
