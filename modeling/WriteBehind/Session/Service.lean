import WriteBehind.Disk
import WriteBehind.Pipeline.Schedule

/-!
# Service — a pipeline that is started, fed and stopped

A service keeps one pipeline running, on a disk that outlives it, and a log of all jobs that were
handed to the store since the first start.

* `Service.start` starts a pipeline, and stops the one that ran before;
* `Service.enqueue` queues commands, `Service.stop` stops the pipeline.
-/

namespace WriteBehind

/-- A store for trials: it refuses the jobs whose key starts in one of some ways, and one of the
connections. -/
structure TrialStore where
  /-- How the keys start that are refused. -/
  rejected : List Bytes := []
  /-- The connection that is refused, counted from the start. -/
  refused : Option Nat := none
  /-- The store does not answer. -/
  blocked : Bool := false

/-- How the store behaves towards the pipeline. -/
def TrialStore.outlook (s : TrialStore) : Pipeline.Outlook where
  accepts j := !s.rejected.any fun start => start.isPrefixOf j.key
  blocked := s.blocked

/-- The jobs handed to the store, over all starts. -/
structure JobLog where
  /-- The most workers of any start, and at least one. -/
  workers : Nat := 1
  /-- Whether the order of the jobs of each worker is settled, at every start. -/
  ordered : Bool := true
  writes : List Write := []

/-- The log once a start with these settings was tried. -/
def JobLog.noteStart (l : JobLog) (s : Settings) : JobLog :=
  { l with
    workers := max l.workers s.workers
    ordered := l.ordered && (s.workers == 1 || s.routing == .keyAffinity) }

/-- The jobs of each worker, in order. -/
def JobLog.byWorker (l : JobLog) : List (List Job) :=
  (List.range l.workers).map fun i => (l.writes.filter fun w => w.worker == i).map Write.job

/-- A disk, a store, and the pipeline between them. -/
structure Service where
  disk : Disk := {}
  store : TrialStore := {}
  pipeline : Option Pipeline := none
  log : JobLog := {}
  /-- Corruption made an actor give up the whole process. -/
  aborted : Bool := false

namespace Service

/-- Carries out an operation of a pipeline, whose ring may share its bytes with a file, and lets it
run until nothing is left to do. -/
def runOn {α : Type} (s : Service) (p : Pipeline) (f : Pipeline → α × Pipeline) :
    α × Pipeline × Service :=
  let p := p.setChannel { p.channel with ring := s.disk.load p.ring }
  let known := p.ledger.writes.length
  let (a, p) := f p
  let p := p.settle s.store.outlook
  (a, p, { s with
    disk := s.disk.save p.ring
    log := { s.log with writes := s.log.writes ++ p.ledger.writes.drop known }
    aborted := s.aborted || p.aborted.isSome })

/-- Carries out an operation of the running pipeline. -/
def on {α : Type} (s : Service) (f : Pipeline → α × Pipeline) : Option (α × Service) :=
  s.pipeline.map fun p =>
    let (a, p, s) := s.runOn p f
    (a, { s with pipeline := some p })

/-- Stops a pipeline and gives up its file. -/
def retire (s : Service) (p : Pipeline) : Service :=
  let ((), p, s) := s.runOn p fun p => ((), p.shutDown s.store.outlook)
  { s with disk := s.disk.unlock p.ring }

/-- Stops the running pipeline. -/
def stop (s : Service) : Service :=
  match s.pipeline with
  | none => s
  | some p => { s with pipeline := none }.retire p

/-- The refusal of a connection, if there is one among so many. -/
def refusal? (s : Service) (settings : Settings) : Option Cause :=
  match s.store.refused with
  | none => none
  | some n =>
    if n < settings.workers then
      let target := settings.store.host ++ ":" ++ Decimal.text settings.store.tcpPort
      some (.notConnected n ⟨2003, "can't connect to " ++ target⟩)
    else none

/-- Opens the ring and connects the workers. -/
def openPipeline (s : Service) (settings : Settings) : Except Fault Pipeline × Service :=
  match settings.validate with
  | .error cause => (.error cause.fault, s)
  | .ok () =>
    match s.disk.openRing settings.ringOptions with
    | (.error fault, disk) => (.error fault, { s with disk })
    | (.ok r, disk) =>
      match s.refusal? settings with
      | some cause => (.error cause.fault, { s with disk := disk.unlock r })
      | none =>
        (.ok (.ofRing r settings.routing settings.workers settings.recordLimit), { s with disk })

/-- Starts a pipeline, and then stops the one that ran before. -/
def start (s : Service) (settings : Settings) : Except Fault Unit × Service :=
  match { s with log := s.log.noteStart settings }.openPipeline settings with
  | (.error fault, s) => (.error fault, s)
  | (.ok p, s) =>
    let ((), p, s) := s.runOn p fun p => ((), p)
    (.ok (), { s.stop with pipeline := some p })

/-- Queues a command so many times, up to the first fault. -/
def enqueue (s : Service) (command : Command) (timestamp : Nat) (args : List Bytes) :
    Nat → Except Fault Unit × Service
  | 0 => (.ok (), s)
  | n + 1 =>
    match s.on fun p => p.enqueue command timestamp args with
    | none => (.ok (), s)
    | some (.error fault, s) => (.error fault, s)
    | some (.ok _, s) => s.enqueue command timestamp args n

/-- Whether the running pipeline has nothing left to do. -/
def isIdle (s : Service) : Bool := (s.pipeline.map Pipeline.isIdle).getD true

/-- Lets the store answer, or not. -/
def setBlocked (s : Service) (blocked : Bool) : Service :=
  let s := { s with store := { s.store with blocked } }
  match s.on fun p => ((), p) with
  | none => s
  | some ((), s) => s

end Service

end WriteBehind
