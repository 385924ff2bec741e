import WriteBehind.CommandLine.Help
import WriteBehind.Inspection.Printer
import WriteBehind.Settings.Printer

/-!
# Run — what the command line prints

Results go to standard output and faults to standard error, each as one line of JSON with its fields
in alphabetical order.

* `Request.file?` is the file that a request needs to see;
* `respond` answers a request, `run` the arguments of the program.
-/

namespace WriteBehind

/-- A report of a fault, under the key `error`. -/
def Report.toJson (r : Report) : Json :=
  .object [("error", .object (
    (if r.causes.isEmpty then [] else [("causes", .strings r.causes)])
      ++ (match r.hint with | some h => [("hint", .string h)] | none => [])
      ++ [("kind", .string r.kind.name), ("message", .string (r.message.getD r.kind.summary))]
      ++ (match r.offset with | some n => [("offset", .nat n)] | none => [])
      ++ (match r.path with | some p => [("path", .string p)] | none => [])))]

namespace CommandLine

/-- What the program prints, and its exit code. -/
structure Outcome where
  exit : Nat := 0
  stdout : String := ""
  stderr : String := ""
  deriving DecidableEq, Repr

/-- The outcome of a fault, behind what was printed before. -/
def Outcome.ofReport (printed : String) (r : Report) : Outcome where
  exit := r.kind.exitCode
  stdout := printed
  stderr := r.toJson.line

/-- The outcome of a fault.  A thread that ends says so, and prints nothing else. -/
def Outcome.ofFault (f : Fault) : Outcome :=
  match f.cause with
  | .overflow => { exit := f.kind.exitCode, stderr := f.kind.summary ++ "\n" }
  | _ => .ofReport "" f.report

/-- The report of a complaint about the arguments. -/
def Complaint.report (c : Complaint) : Report where
  kind := .usage
  message := some c.text
  hint := some "Try `backstore --help`."

/-- The report of the issue of an inspection. -/
def issueReport (i : Inspection) (issue : Issue) : Report where
  kind := .corrupt
  message := some issue.message
  hint := i.hints.head?
  path := some i.path
  offset := issue.counter?

/-- Shows the health of a queue. -/
def info : Except Fault Inspection → Outcome
  | .error fault => .ofFault fault
  | .ok i =>
    { exit := if i.issue.isNone then 0 else FaultKind.corrupt.exitCode, stdout := i.toJson.line }

/-- Lists the records of a queue. -/
def dump : Except Fault Inspection → Outcome
  | .error fault => .ofFault fault
  | .ok i =>
    let lines := String.join (i.entries.map fun e => e.toJson.line)
    match i.issue with
    | none => { stdout := lines }
    | some issue => .ofReport lines (issueReport i issue)

/-- Shows settings without the password. -/
def config : Except Fault Settings → Outcome
  | .error fault => .ofReport "" fault.report
  | .ok s => { stdout := s.redacted.toJson.sorted.line }

/-- The number of records that are listed where no limit is given. -/
def unlimited : Nat := 2 ^ 64 - 1

/-- The file that a request needs to see. -/
def Request.file? : Request → Option String
  | .info file _ | .dump file _ _ | .config file => some file
  | _ => none

/-- Answers a request; `look` tells what is met at a path. -/
def respond (look : String → Disk.Access) : Request → Outcome
  | .nothing => { exit := 2, stderr := programHelp }
  | .version => { stdout := versionText }
  | .help topic => { stdout := helpText topic }
  | .info file limit => info (Inspection.ofAccess file (look file) limit 0)
  | .dump file limit keep =>
    dump (Inspection.ofAccess file (look file) limit (keep.getD unlimited))
  | .config file => config (Settings.ofAccess file (look file))

/-- Runs the program on a disk. -/
def run (d : Disk) (args : List String) : Outcome :=
  match parse args with
  | .error complaint => .ofReport "" complaint.report
  | .ok request => respond d.access request

end CommandLine
end WriteBehind
