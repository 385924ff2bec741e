import WriteBehind.Disk
import WriteBehind.Record

/-!
# Inspection — what a queue file holds, without opening it

An inspection reads the bytes of a queue file once.  Whatever is wrong with them becomes an `Issue`
of the inspection; only a file that cannot be read at all is a fault, and so is a walk over counters that
no word holds.

* `Inspection.Tally` counts the unread records and keeps the oldest ones, up to a limit;
* `Inspection.ofContent` inspects the bytes of a file;
* `Inspection.ofAccess` inspects what is met at a path, `Disk.inspect` a file of a disk.
-/

namespace WriteBehind

/-- What is wrong with a queue file. -/
inductive Issue
  /-- The file is no longer than a header. -/
  | tooShort
  | resizeInterrupted
  /-- The header cannot be right. -/
  | header (cause : Cause)
  /-- The walk over the unread frames stopped early. -/
  | frame (cause : Cause)
  /-- The record at this counter cannot be decoded. -/
  | record (cause : Cause) (counter : Nat)
  deriving DecidableEq, Repr

namespace Issue

/-- The code of an issue. -/
def code : Issue → String
  | record _ _ => "record"
  | _ => "corrupt"

/-- The wording of an issue. -/
def message : Issue → String
  | tooShort => "queue file shorter than its header"
  | resizeInterrupted => "queue file was left in the middle of a resize"
  | header cause => cause.report.display
  | frame cause => cause.report.message.getD "bad frame"
  | record cause _ => "undecodable record: " ++ cause.report.message.getD "corrupt"

/-- The counter of the record that an issue concerns. -/
def counter? : Issue → Option Nat
  | record _ counter => some counter
  | _ => none

end Issue

/-- An unread record, decoded, and the counter at which it starts. -/
structure Entry where
  counter : Nat
  job : Job
  deriving DecidableEq, Repr

/-- What was found in a queue file. -/
structure Inspection where
  path : String
  fileSize : Nat
  /-- Somebody else has the queue open, and the bytes may be about to change. -/
  inUse : Bool
  /-- All zero where no header could be read. -/
  header : Ring.Header := {}
  issue : Option Issue := none
  recordCount : Nat := 0
  /-- The oldest records, up to a limit. -/
  entries : List Entry := []
  deriving DecidableEq, Repr

namespace Inspection

/-- The ring bytes of the file. -/
def capacity (i : Inspection) : Nat := i.fileSize - Ring.Header.size

/-- What to do about the issue. -/
def hints (i : Inspection) : List String :=
  if i.issue.isNone then []
  else if i.inUse then
    ["Queue is open elsewhere; re-run once the owning process has stopped."]
  else ["Queue appears corrupt. Move the file aside to start with an empty queue."]

/-- The records that have been read so far. -/
structure Tally where
  count : Nat := 0
  /-- The oldest of them, up to a limit. -/
  kept : Array Entry := #[]
  deriving DecidableEq, Repr

namespace Tally

/-- One more record: it is counted in any case, and kept while there are fewer than `keep`. -/
def add (keep : Nat) (t : Tally) (e : Entry) : Tally where
  count := t.count + 1
  kept := if t.kept.size < keep then t.kept.push e else t.kept

/-- Reads records up to the first one that cannot be decoded.  Once enough of them are kept, the others
are read all the same. -/
def read (keep : Nat) (t : Tally) : List Ring.Frame → Tally × Option Issue
  | [] => (t, none)
  | f :: fs =>
    match Record.unpack f.payload with
    | .error cause => (t, some (.record cause f.counter))
    | .ok job => (t.add keep ⟨f.counter, job⟩).read keep fs

end Tally

/-- The unread part of a file, as a reader with this record limit sees it. -/
def view (content : Image) (limit : Nat) (h : Ring.Header) : Ring.View where
  byte i := content.byte (Ring.Header.size + i)
  capacity := content.size - Ring.Header.size
  limit
  dirty := h.dirty.toNat

/-- Reads the unread records up to the first thing that is wrong with one of them or with its frame.  A
counter that no word holds is nothing to report: the inspection ends there. -/
def tally (v : Ring.View) (h : Ring.Header) (keep : Nat) : Except Cause (Tally × Option Issue) :=
  let trail := v.walk h.read h.write
  match Tally.read keep {} trail.frames with
  | (t, some issue) => .ok (t, some issue)
  | (t, none) =>
    if trail.defect = some .overflow then .error .overflow else .ok (t, trail.defect.map .frame)

/-- Inspects the bytes of a file and keeps at most `keep` records. -/
def ofContent (path : String) (inUse : Bool) (content : Image) (limit keep : Nat) :
    Except Cause Inspection :=
  let bare : Inspection := { path, fileSize := content.size, inUse }
  if content.size ≤ Ring.Header.size then .ok { bare with issue := some .tooShort }
  else
    let bytes := content.slice 0 Ring.Header.size
    if Ring.Header.resizeInterrupted bytes then .ok { bare with issue := some .resizeInterrupted }
    else
      match Ring.Header.decode bytes with
      | .error cause => .ok { bare with issue := some (.header cause) }
      | .ok header =>
        match header.validate (content.size - Ring.Header.size) with
        | .error cause => .ok { bare with header, issue := some (.header cause) }
        | .ok () =>
          (tally (view content limit header) header keep).map fun (t, issue) =>
            { bare with header, issue, recordCount := t.count, entries := t.kept.toList }

end Inspection

/-- Inspects a file as a queue with this record limit. -/
def Inspection.ofAccess (path : String) (a : Disk.Access) (limit keep : Nat) :
    Except Fault Inspection :=
  match Ring.checkRecordLimit limit with
  | .error cause => .error cause.fault
  | .ok () =>
    match a.opened with
    | .error e => .error ⟨.queueNotOpened e, some path⟩
    | .ok () =>
      match a.content with
      | .error e => .error ⟨.queueNotRead e, some path⟩
      | .ok content => (ofContent path a.inUse content limit keep).mapError Cause.fault

/-- Inspects a file of a disk. -/
def Disk.inspect (d : Disk) (path : String) (limit keep : Nat) : Except Fault Inspection :=
  Inspection.ofAccess path (d.access path) limit keep

end WriteBehind
