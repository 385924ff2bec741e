import WriteBehind.Command
import WriteBehind.Json.Defect

/-!
# Fault — why an operation was not carried out

A `Cause` is one reason for not carrying out an operation, and a `Fault` is a cause together with the file
it concerns, if any.  How a cause is worded, what kind of failure it is, and which hint, counter and
underlying failures it comes with is said once, in `Cause.report`.

Not every cause is a refusal.  A thread that computes a number which its word does not hold ends there and
then, and what it had stored until then stays: that is `Cause.overflow`.

* `FaultKind` groups the causes; `FaultKind.exitCode` is the exit code of the command line;
* `Report` is a rendered fault, and `Report.display` its one-line text.
-/

namespace WriteBehind

/-! ## Kinds -/

/-- The groups that callers tell apart. -/
inductive FaultKind
  | internal | usage | busy | permission | corrupt | io
  | sizeOverflow | keySizeExceeded | argcOverflow | unsupportedCommand | store
  /-- No refusal: the thread has ended. -/
  | panic
  deriving DecidableEq, Repr

namespace FaultKind

/-- Every kind of refusal. -/
def all : List FaultKind :=
  [internal, usage, busy, permission, corrupt, io,
    sizeOverflow, keySizeExceeded, argcOverflow, unsupportedCommand, store]

/-- The kind's name in reports. -/
def name : FaultKind → String
  | internal => "Internal"
  | usage => "Usage"
  | busy => "Busy"
  | permission => "Permission"
  | corrupt => "Corrupt"
  | io => "Io"
  | sizeOverflow => "SizeOverflow"
  | keySizeExceeded => "KeySizeExceeded"
  | argcOverflow => "ArgcOverflow"
  | unsupportedCommand => "UnsupportedCommand"
  | store => "Store"
  | panic => "panic"

/-- The kind of refusal with this name. -/
def ofName? (s : String) : Option FaultKind := all.find? fun k => k.name == s

/-- Capacity faults reject a command before it reaches the ring.  The caller decides whether to go on
without persisting it. -/
def isCapacity : FaultKind → Bool
  | sizeOverflow | keySizeExceeded | argcOverflow | unsupportedCommand => true
  | _ => false

/-- The exit code of the command line for a fault of this kind. -/
def exitCode : FaultKind → Nat
  | internal => 1
  | usage => 2
  | busy => 5
  | permission => 6
  | corrupt => 7
  | io => 8
  | sizeOverflow | keySizeExceeded | argcOverflow | unsupportedCommand => 9
  | store => 10
  | panic => 101

/-- What the command line says of a fault that has no message of its own. -/
def summary : FaultKind → String
  | internal => "internal error"
  | usage => "usage error"
  | busy => "queue is busy"
  | permission => "permission denied"
  | corrupt => "corrupt queue"
  | io => "i/o error"
  | sizeOverflow => "record too large"
  | keySizeExceeded => "key too long"
  | argcOverflow => "too many arguments"
  | unsupportedCommand => "command not persisted"
  | store => "store unavailable"
  | panic => "attempt to add with overflow"

end FaultKind

/-! ## Failures reported by the system and by the store -/

/-- A failed system call on a file. -/
inductive OsError
  | notFound
  | lockTaken
  | notDirectory
  | isDirectory
  | nameTooLong
  /-- A path with a character that cannot be in one. -/
  | nameWithNul
  /-- A file length that does not fit the signed 64-bit offsets of the file system. -/
  | lengthTooLarge
  | other (code : Nat) (text : String)
  deriving DecidableEq, Repr

/-- The text of a failed system call. -/
def OsError.text : OsError → String
  | .notFound => "No such file or directory (os error 2)"
  | .lockTaken => "Resource temporarily unavailable (os error 11)"
  | .notDirectory => "Not a directory (os error 20)"
  | .isDirectory => "Is a directory (os error 21)"
  | .nameTooLong => "File name too long (os error 36)"
  | .nameWithNul => "file name contained an unexpected NUL byte"
  | .lengthTooLarge => "number too large to fit in target type"
  | .other code text => s!"{text} (os error {code})"

/-- A failure reported by the backing store, with the store's own code. -/
structure StoreError where
  code : Int
  message : String
  deriving DecidableEq, Repr

/-- The text of a store failure. -/
def StoreError.text (e : StoreError) : String := s!"store error {e.code}: {e.message}"

/-! ## Causes -/

/-- One reason why an operation is not carried out. -/
inductive Cause
  -- sizes and counters
  | recordLimitRange (limit : Nat)
  | payloadLength (length limit : Nat)
  | readAhead (read : Nat)
  | headerTooSmall
  | capacityNotPowerOfTwo
  | unreadExceedsCapacity (write : Nat)
  | dirtySizeRange
  -- frames
  | paddingMismatch (padding dirty position : Nat)
  | paddingPastEnd (position : Nat)
  | frameLength (length position : Nat)
  | framePastEnd (position : Nat)
  | consecutivePadding (position : Nat)
  | backupTooLarge (length write : Nat)
  -- the ring and its file
  | consumerClosed
  | queueBusy
  | queueTooShort
  | queueCapacity
  | resizeInterrupted
  | system (error : OsError)
  | queueNotOpened (error : OsError)
  | queueNotRead (error : OsError)
  | queueNotMapped (error : OsError)
  -- records
  | tooManyArguments (count : Nat)
  | keyMissing (command : Command)
  | arityMismatch (command : Command) (count : Nat)
  | keyTooLong (length : Nat)
  | recordTooLong (command : Command) (limit : Nat)
  | recordTooShort
  | unknownTag (tag : Nat)
  | argumentLengthTruncated (position : Nat)
  | argumentPastEnd (position : Nat)
  | argumentCount
  | recordWithoutKey
  | keyPastEnd
  -- settings
  | settingsText (defect : Json.Located)
  | noWorkers
  | settingsRecordLimit (limit : Nat)
  | noBackoff
  -- the pipeline
  | mailboxRefused (worker length : Nat)
  | notConnected (worker : Nat) (error : StoreError)
  -- no refusal
  /-- A counter or a size that its word does not hold. -/
  | overflow
  deriving DecidableEq, Repr

/-- A cause and the file that it concerns. -/
structure Fault where
  cause : Cause
  path : Option String := none
  deriving DecidableEq, Repr

/-! ## Reports -/

/-- A rendered fault. -/
structure Report where
  kind : FaultKind
  message : Option String := none
  hint : Option String := none
  path : Option String := none
  offset : Option Nat := none
  causes : List String := []
  deriving DecidableEq, Repr

namespace Report

/-- The report on one line: kind, message, path and counter. -/
def display (r : Report) : String :=
  r.kind.name
    ++ (match r.message with | some m => ": " ++ m | none => "")
    ++ (match r.path with | some p => " (path: " ++ p ++ ")" | none => "")
    ++ (match r.offset with | some n => s!" (offset: {n})" | none => "")

end Report

/-- The range of record limits, as every message quotes it. -/
def recordLimitRangeText (limit : Nat) : String :=
  s!"max_record_size {limit} out of range (2..=4294967295)"

/-- The message for a settings text that could not be read. -/
def settingsMessage (detail : String) : String := "invalid persistence config: " ++ detail

namespace Cause

/-- How a cause is reported: its kind, wording, hint, counter and underlying failures. -/
def report : Cause → Report
  | recordLimitRange limit =>
    { kind := .usage, message := some (recordLimitRangeText limit) }
  | payloadLength length limit =>
    { kind := .sizeOverflow, message := some s!"record of {length} bytes (max {limit - 1})" }
  | readAhead read =>
    { kind := .corrupt, message := some "read counter is ahead of write counter"
      offset := some read }
  | headerTooSmall => { kind := .corrupt, message := some "header too small" }
  | capacityNotPowerOfTwo =>
    { kind := .corrupt, message := some "capacity is not a power of two" }
  | unreadExceedsCapacity write =>
    { kind := .corrupt, message := some "unread bytes exceed capacity", offset := some write }
  | dirtySizeRange => { kind := .corrupt, message := some "dirty size out of range" }
  | paddingMismatch padding dirty position =>
    { kind := .corrupt
      message := some s!"wrap padding {padding} does not match dirty size {dirty}"
      offset := some position }
  | paddingPastEnd position =>
    { kind := .corrupt, message := some "wrap padding runs past write counter"
      offset := some position }
  | frameLength length position =>
    { kind := .corrupt, message := some s!"frame length {length} out of range"
      offset := some position }
  | framePastEnd position =>
    { kind := .corrupt, message := some "frame runs past write counter", offset := some position }
  | consecutivePadding position =>
    { kind := .corrupt, message := some "consecutive wrap padding", offset := some position }
  | backupTooLarge length write =>
    { kind := .corrupt, message := some s!"resize backup of {length} bytes exceeds ring bounds"
      offset := some write }
  | consumerClosed =>
    { kind := .internal, message := some "ring consumer closed while a resize was pending" }
  | queueBusy =>
    { kind := .busy, message := some "queue file is already open"
      causes := [OsError.lockTaken.text] }
  | queueTooShort => { kind := .corrupt, message := some "queue file shorter than its header" }
  | queueCapacity => { kind := .corrupt, message := some "queue capacity is not a power of two" }
  | resizeInterrupted =>
    { kind := .corrupt, message := some "queue file was left in the middle of a resize"
      hint := some "Move the file aside to start with an empty queue." }
  | system error => { kind := .io, causes := [error.text] }
  | queueNotOpened error =>
    { kind := if error = .notFound then .usage else .io
      message := some "failed to open queue file", causes := [error.text] }
  | queueNotRead error =>
    { kind := .io, message := some "failed to read queue file", causes := [error.text] }
  | queueNotMapped error =>
    { kind := .io, message := some "failed to remap grown queue file", causes := [error.text] }
  | tooManyArguments count =>
    { kind := .argcOverflow, message := some s!"{count} arguments (max 1022)" }
  | keyMissing command =>
    { kind := .usage, message := some (command.name ++ " without a key") }
  | arityMismatch command count =>
    { kind := .unsupportedCommand
      message := some (command.name ++ s!" with {count} arguments is not persisted") }
  | keyTooLong length =>
    { kind := .keySizeExceeded, message := some s!"key of {length} bytes (max 31)" }
  | recordTooLong command limit =>
    { kind := .sizeOverflow, message := some (command.name ++ s!" record exceeds {limit} bytes") }
  | recordTooShort => { kind := .corrupt, message := some "job record too short" }
  | unknownTag tag => { kind := .corrupt, message := some s!"unknown command tag {tag}" }
  | argumentLengthTruncated position =>
    { kind := .corrupt, message := some "truncated argument length", offset := some position }
  | argumentPastEnd position =>
    { kind := .corrupt, message := some "argument runs past record end", offset := some position }
  | argumentCount => { kind := .corrupt, message := some "argument count exceeds bound" }
  | recordWithoutKey => { kind := .corrupt, message := some "job record without a key" }
  | keyPastEnd =>
    { kind := .corrupt, message := some "key runs past record end", offset := some 8 }
  | settingsText defect =>
    { kind := .usage, message := some (settingsMessage defect.text), causes := [defect.text] }
  | noWorkers => { kind := .usage, message := some "workers must be at least 1" }
  | settingsRecordLimit limit =>
    { kind := .usage, message := some (recordLimitRangeText limit)
      hint := some "Keep max_record_size unchanged for an existing queue file." }
  | noBackoff => { kind := .usage, message := some "idle_backoff_ms must be at least 1" }
  | mailboxRefused worker length =>
    { kind := .internal, message := some s!"mailbox {worker} refused a {length} byte record" }
  | notConnected worker error =>
    { kind := .store, message := some s!"worker {worker} could not connect to the store"
      hint := some "Check the store host, port and credentials in the persistence config."
      causes := [error.text] }
  | overflow => { kind := .panic }

/-- The kind of failure that a cause is. -/
def kind (c : Cause) : FaultKind := c.report.kind

/-- A fault of this cause that concerns no file. -/
def fault (c : Cause) : Fault := ⟨c, none⟩

end Cause

namespace Fault

/-- The kind of failure. -/
def kind (f : Fault) : FaultKind := f.cause.kind

/-- The rendered fault. -/
def report (f : Fault) : Report := { f.cause.report with path := f.path }

end Fault

end WriteBehind
