import WriteBehind.Record
import WriteBehind.Ring.Open

/-!
# Settings — sizes, place and store of a queue

* `Settings` has a default for every field;
* `Settings.validate` refuses settings that nothing could run with;
* `Settings.ringOptions` says how to open the ring.
-/

namespace WriteBehind

/-- How the dispatcher picks a worker for a record. -/
inductive Routing
  /-- The next free mailbox after the last one used. -/
  | roundRobin
  /-- The same worker for the same key, so that records of one key are written in order. -/
  | keyAffinity
  deriving DecidableEq, Repr

namespace Routing

/-- Every routing. -/
def all : List Routing := [roundRobin, keyAffinity]

/-- The name of a routing in settings. -/
def name : Routing → String
  | roundRobin => "round_robin"
  | keyAffinity => "key_affinity"

/-- The routing with this name. -/
def ofName? (s : String) : Option Routing := all.find? fun r => r.name == s

end Routing

/-- How to reach the store. -/
structure StoreSettings where
  host : String := "127.0.0.1"
  tcpPort : Nat := 3306
  user : String := "root"
  password : String := ""
  database : String := "backstore"
  deriving DecidableEq, Repr

/-- The settings of a queue and of the pipeline behind it. -/
structure Settings where
  /-- The capacity that the ring starts with. -/
  capacity : Nat := 1048576
  /-- Records are strictly shorter.  A queue file keeps the limit it was written with. -/
  recordLimit : Nat := Record.defaultLimit
  /-- The queue file; without one the queue is kept in memory. -/
  path : Option String := none
  workers : Nat := 4
  routing : Routing := .roundRobin
  /-- The longest idle wait, in milliseconds. -/
  backoff : Nat := 1
  store : StoreSettings := {}
  deriving DecidableEq, Repr

namespace Settings

/-- Refuses settings that nothing could run with. -/
def validate (s : Settings) : Except Cause Unit :=
  if s.workers = 0 then .error .noWorkers
  else
    match Ring.checkRecordLimit s.recordLimit with
    | .error _ => .error (.settingsRecordLimit s.recordLimit)
    | .ok () => if s.backoff = 0 then .error .noBackoff else .ok ()

/-- How to open the ring. -/
def ringOptions (s : Settings) : Ring.Options where
  capacity := s.capacity
  limit := s.recordLimit
  path := s.path

end Settings

end WriteBehind
