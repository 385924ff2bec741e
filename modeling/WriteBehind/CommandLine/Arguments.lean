import WriteBehind.Record
import WriteBehind.Text.Blank
import WriteBehind.Text.Terminal

/-!
# Arguments — what a command line asks for

Arguments are read from left to right and the first complaint ends the reading, as does a request
for help.  The value of an option, and the operand, are looked at only when the next argument that
is not their value has come.

* `Request` is what is asked for, `Complaint` what is wrong with the arguments;
* `parse` reads the arguments behind the program's name.
-/

namespace WriteBehind
namespace CommandLine

/-! ## Requests -/

/-- The commands that work on a file. -/
inductive Verb
  | info | dump | config
  deriving DecidableEq, Repr

/-- What help is about. -/
inductive Topic
  | program
  | verb (v : Verb)
  | help
  deriving DecidableEq, Repr

/-- What is asked for. -/
inductive Request
  /-- No arguments at all. -/
  | nothing
  | version
  | help (topic : Topic)
  | info (file : String) (recordLimit : Nat)
  | dump (file : String) (recordLimit : Nat) (keep : Option Nat)
  | config (file : String)
  deriving DecidableEq, Repr

/-- The options that take a value. -/
inductive Switch
  | recordLimit | keep
  deriving DecidableEq, Repr

/-- The name of an option. -/
def Switch.flag : Switch → String
  | recordLimit => "--max-record-size"
  | keep => "--limit"

/-- An option and its value, as messages quote it. -/
def Switch.usage : Switch → String
  | recordLimit => "--max-record-size <MAX_RECORD_SIZE>"
  | keep => "--limit <LIMIT>"

namespace Verb

/-- Every command. -/
def all : List Verb := [info, dump, config]

/-- The name of a command. -/
def name : Verb → String
  | info => "info"
  | dump => "dump"
  | config => "config"

/-- The command with this name. -/
def ofName? (s : String) : Option Verb := all.find? fun v => v.name == s

/-- The operand of a command, as messages quote it. -/
def operand : Verb → String
  | info | dump => "<QUEUE>"
  | config => "<FILE>"

/-- The options of a command. -/
def switches : Verb → List Switch
  | info => [.recordLimit]
  | dump => [.recordLimit, .keep]
  | config => []

end Verb

/-! ## Complaints -/

/-- Why a text is no number. -/
inductive NumberFault
  | empty | digit | tooLarge
  deriving DecidableEq, Repr

/-- The wording of a number fault. -/
def NumberFault.text : NumberFault → String
  | empty => "cannot parse integer from empty string"
  | digit => "invalid digit found in string"
  | tooLarge => "number too large to fit in target type"

/-- What is wrong with the arguments. -/
inductive Complaint
  | unknownCommand (name : String)
  | unexpected (argument : String)
  | surplusValue (value flag : String)
  | operandMissing
  | valueMissing (usage : String)
  | repeated (usage : String)
  | badNumber (value usage : String) (fault : NumberFault)
  deriving DecidableEq, Repr

/-- The wording of a complaint, in which arguments are quoted as a terminal would show them. -/
def Complaint.wording : Complaint → String
  | unknownCommand name => "unrecognized subcommand '" ++ Terminal.strip name ++ "'"
  | unexpected argument => "unexpected argument '" ++ Terminal.strip argument ++ "' found"
  | surplusValue value flag =>
    "unexpected value '" ++ Terminal.strip value ++ "' for '" ++ flag
      ++ "' found; no more were expected"
  | operandMissing => "the following required arguments were not provided:"
  | valueMissing usage => "a value is required for '" ++ usage ++ "' but none was supplied"
  | repeated usage => "the argument '" ++ usage ++ "' cannot be used multiple times"
  | badNumber value usage fault =>
    "invalid value '" ++ Terminal.strip value ++ "' for '" ++ usage ++ "': " ++ fault.text

/-- What is reported of a complaint: the first line of its wording. -/
def Complaint.text (c : Complaint) : String := Blank.firstLine c.wording

/-! ## Numbers -/

/-- Reads digits behind those of `n`, up to 64 bits. -/
def digits (n : Nat) : List Char → Except NumberFault Nat
  | [] => .ok n
  | c :: cs =>
    if ¬ (48 ≤ c.toNat ∧ c.toNat ≤ 57) then .error .digit
    else if 10 * n + (c.toNat - 48) ≥ 2 ^ 64 then .error .tooLarge
    else digits (10 * n + (c.toNat - 48)) cs

/-- Reads a number, which may have a plus sign. -/
def number (s : String) : Except NumberFault Nat :=
  match s.toList with
  | [] => .error .empty
  | ['+'] => .error .digit
  | '+' :: cs => digits 0 cs
  | cs => digits 0 cs

/-! ## Options and operands of a command -/

/-- What has been read and looked at. -/
structure Line where
  recordLimit : Option Nat := none
  keep : Option Nat := none
  operand : Option String := none
  deriving DecidableEq, Repr

/-- What has been read and is still to be looked at. -/
inductive Pending
  | nothing
  | operand (s : String)
  | switch (s : Switch) (value : Option String)
  deriving DecidableEq, Repr

/-- The value given for an option so far. -/
def Line.value (l : Line) : Switch → Option Nat
  | .recordLimit => l.recordLimit
  | .keep => l.keep

/-- Notes the value of an option. -/
def Line.setSwitch (l : Line) (s : Switch) (value : String) : Except Complaint Line :=
  if (l.value s).isSome then .error (.repeated s.usage)
  else
    match number value with
    | .error fault => .error (.badNumber value s.usage fault)
    | .ok n =>
      match s with
      | .recordLimit => .ok { l with recordLimit := some n }
      | .keep => .ok { l with keep := some n }

/-- Looks at what is pending. -/
def Line.settle (v : Verb) (l : Line) : Pending → Except Complaint Line
  | .nothing => .ok l
  | .operand s =>
    if s = "" then .error (.valueMissing v.operand) else .ok { l with operand := some s }
  | .switch s none => .error (.valueMissing s.usage)
  | .switch s (some value) => l.setSwitch s value

/-- The request of a command whose arguments have all been read. -/
def Line.request (v : Verb) (l : Line) : Except Complaint Request :=
  match l.operand with
  | none => .error .operandMissing
  | some file =>
    let limit := l.recordLimit.getD Record.defaultLimit
    match v with
    | .info => .ok (.info file limit)
    | .dump => .ok (.dump file limit l.keep)
    | .config => .ok (.config file)

/-- An option in front of the sign of equality, and the value behind it if there is one. -/
def splitFlag (a : String) : String × Option String :=
  let cs := a.toList
  match cs.dropWhile (· != '=') with
  | [] => (a, none)
  | _ :: value => (String.ofList (cs.takeWhile (· != '=')), some (String.ofList value))

/-- Kinds of arguments, by their first characters. -/
inductive Shape
  /-- Two hyphens: only operands follow. -/
  | stop
  /-- An option with a long name. -/
  | long (flag : String) (value : Option String)
  /-- Options of one letter. -/
  | short (first : Char)
  | plain
  deriving DecidableEq, Repr

/-- The kind of an argument. -/
def shape (a : String) : Shape :=
  match a.toList with
  | ['-', '-'] => .stop
  | '-' :: '-' :: _ => .long (splitFlag a).1 (splitFlag a).2
  | '-' :: c :: _ => .short c
  | _ => .plain

/-- Reads the arguments of a command. -/
def scan (v : Verb) (operandsOnly : Bool) (pending : Pending) (l : Line) :
    List String → Except Complaint Request
  | [] => do (← l.settle v pending).request v
  | a :: rest =>
    match if operandsOnly then Shape.plain else shape a with
    | .stop => scan v true pending l rest
    | .long "--help" none => do
      let _ ← l.settle v pending
      return .help (.verb v)
    | .long "--help" (some value) => .error (.surplusValue value "--help")
    | .long flag value =>
      match v.switches.find? fun s => s.flag == flag with
      | none => .error (.unexpected flag)
      | some s => do
        let l ← l.settle v pending
        match value with
        | none => scan v operandsOnly (.switch s none) l rest
        | some value => scan v operandsOnly .nothing (← l.setSwitch s value) rest
    | .short 'h' => do
      let _ ← l.settle v pending
      return .help (.verb v)
    | .short c => .error (.unexpected (String.ofList ['-', c]))
    | .plain =>
      match pending, operandsOnly with
      | .switch s none, false => scan v operandsOnly (.switch s (some a)) l rest
      | .operand _, _ => .error (.unexpected a)
      | pending, _ =>
        if l.operand.isSome then .error (.unexpected a)
        else do scan v operandsOnly (.operand a) (← l.settle v pending) rest

/-! ## The program -/

/-- Reads the names behind `help`. -/
def helpTopic : List String → Except Complaint Request
  | [] => .ok (.help .program)
  | name :: rest =>
    match (if name = "help" then some Topic.help else (Verb.ofName? name).map .verb), rest with
    | none, _ => .error (.unknownCommand name)
    | some topic, [] => .ok (.help topic)
    | some _, extra :: _ => .error (.unknownCommand extra)

/-- Reads the arguments behind the program's name. -/
def parse : List String → Except Complaint Request
  | [] => .ok .nothing
  | a :: rest =>
    match shape a with
    | .stop =>
      match rest with
      | [] => .ok .nothing
      | name :: _ =>
        if name = "help" ∨ (Verb.ofName? name).isSome then .error (.unexpected name)
        else .error (.unknownCommand name)
    | .long flag value =>
      if flag = "--help" ∨ flag = "--version" then
        match value with
        | some value => .error (.surplusValue value flag)
        | none => .ok (if flag = "--help" then .help .program else .version)
      else .error (.unexpected flag)
    | .short 'h' => .ok (.help .program)
    | .short 'V' => .ok .version
    | .short c => .error (.unexpected (String.ofList ['-', c]))
    | .plain =>
      if a = "help" then helpTopic rest
      else
        match Verb.ofName? a with
        | none => .error (.unknownCommand a)
        | some v => scan v false .nothing {} rest

end CommandLine
end WriteBehind
