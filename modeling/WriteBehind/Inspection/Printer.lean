import WriteBehind.Inspection.Basic
import WriteBehind.Json.Value
import WriteBehind.Text.Calendar
import WriteBehind.Text.Utf8

/-!
# Printer — inspections as JSON

Objects have their fields in alphabetical order.  Arguments that are UTF-8 are shown as strings, all
others as `{"hex": …}`, so that no two arguments look alike.

* `Inspection.toJson` gives header, size and health;
* `Entry.toJson` gives one record.
-/

namespace WriteBehind

/-- An argument. -/
def argumentJson (arg : Bytes) : Json :=
  match Utf8.decode? arg with
  | some cs => .string (String.ofList cs)
  | none => .object [("hex", .string (Hex.encode arg))]

/-- A record. -/
def Entry.toJson (e : Entry) : Json :=
  .object [("args", .array (e.job.args.map argumentJson)), ("command", .string e.job.command.name),
    ("counter", .nat e.counter), ("time", .string (Calendar.text e.job.timestamp)),
    ("timestamp", .nat e.job.timestamp)]

/-- An issue. -/
def Issue.toJson (i : Issue) : Json :=
  .object ([("code", .string i.code), ("message", .string i.message)]
    ++ (match i.counter? with | some n => [("offset", .nat n)] | none => []))

/-- The fields of a header. -/
def Ring.Header.toJson (h : Ring.Header) : Json :=
  .object [("dirty_size", .number h.dirty), ("read_count", .nat h.read),
    ("write_count", .nat h.write)]

namespace Inspection

/-- Whether the file is sound. -/
def status (i : Inspection) : String := if i.issue.isNone then "ok" else "corrupt"

/-- Everything but the records. -/
def toJson (i : Inspection) : Json :=
  .object ([("capacity", .nat i.capacity), ("file_size", .nat i.fileSize),
      ("header", i.header.toJson), ("in_use", .bool i.inUse)]
    ++ (match i.issue with | some issue => [("issues", .array [issue.toJson])] | none => [])
    ++ [("outstanding", .nat i.header.outstanding), ("path", .string i.path),
      ("record_count", .nat i.recordCount)]
    ++ (if i.hints.isEmpty then [] else [("remediation_hints", .strings i.hints)])
    ++ [("status", .string i.status)])

end Inspection

end WriteBehind
