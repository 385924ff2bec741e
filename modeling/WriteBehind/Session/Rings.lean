import WriteBehind.Disk
import WriteBehind.Inspection.Basic
import WriteBehind.Ring.Channel

/-!
# Rings — several rings over one disk

A ring on a file and the file share their bytes.  Before an operation the ring takes over what the
file has, and afterwards the file has what the ring has.

* `Disk.on` carries out an operation of a channel over a disk;
* `Rings` holds open channels by name.
-/

namespace WriteBehind

namespace Disk

/-- Carries out an operation of a channel whose ring may share its bytes with a file. -/
def on {α : Type} (d : Disk) (c : Ring.Channel) (f : Ring.Channel → α × Ring.Channel) :
    α × Ring.Channel × Disk :=
  let (a, c) := f { c with ring := d.load c.ring }
  (a, c, d.save c.ring)

end Disk

/-- Open channels by name, over one disk. -/
structure Rings where
  disk : Disk := {}
  channels : List (String × Ring.Channel) := []

namespace Rings

/-- The channel of this name. -/
def channel? (s : Rings) (name : String) : Option Ring.Channel := s.channels.lookup name

/-- Replaces the channel of this name, or adds it. -/
def setChannel (s : Rings) (name : String) (c : Ring.Channel) : Rings :=
  { s with channels := (name, c) :: s.channels.filter fun e => e.1 != name }

/-- Carries out an operation of the channel of this name, if there is one. -/
def on {α : Type} (s : Rings) (name : String) (f : Ring.Channel → α × Ring.Channel) :
    Option (α × Rings) :=
  (s.channel? name).map fun c =>
    let (a, c, disk) := s.disk.on c f
    (a, { s with disk }.setChannel name c)

/-- Closes the channel of this name, and says whether there was one. -/
def close (s : Rings) (name : String) : Bool × Rings :=
  match s.channel? name with
  | none => (false, s)
  | some c =>
    (true, { disk := s.disk.unlock c.ring, channels := s.channels.filter fun e => e.1 != name })

/-- Opens a ring under this name, in place of one that had it. -/
def openRing (s : Rings) (name : String) (o : Ring.Options) : Except Fault Unit × Rings :=
  let s := (s.close name).2
  match s.disk.openRing o with
  | (.error fault, disk) => (.error fault, { s with disk })
  | (.ok r, disk) => (.ok (), { s with disk }.setChannel name { ring := r })

/-- Starts a call of the producer. -/
def submit (s : Rings) (name : String) (call : Ring.Call) :
    Option (Except Fault Ring.Progress × Rings) :=
  s.on name fun c => c.submit call

/-- Takes the oldest record; `keep` leaves it in the ring. -/
def consume (s : Rings) (name : String) (keep : Bool) : Option (Ring.Channel.Taken × Rings) :=
  s.on name fun c => c.consume keep

/-- Takes records until none is left, at most `limit` of them. -/
def drain (s : Rings) (name : String) (limit : Nat) : Option (Ring.Channel.Drained × Rings) :=
  s.on name fun c => c.drain (min limit c.recordBound)

/-- Ends the loan of a record, and gives the bytes that it had last. -/
def endLoan (s : Rings) (name : String) (lease : Ring.Lease) (keep : Bool) :
    Option (Bytes × Rings) :=
  s.on name fun c =>
    (c.ring.leased lease, { c with ring := if keep then c.ring else c.ring.release lease })

/-- Closes the consumer's end of a channel; a call that waits is turned away. -/
def closeConsumer (s : Rings) (name : String) :
    Option (Option (Except Fault Ring.Progress) × Rings) :=
  s.on name fun c => { c with ring := c.ring.closeConsumer }.resume

/-- Waits for news on the consumer's side. -/
def waitForData (s : Rings) (name : String) : Option (Bool × Rings) :=
  s.on name fun c =>
    let (told, r) := c.ring.takeNotice
    (told, { c with ring := r })

/-- The channel of this name, with the bytes that its file has now. -/
def look (s : Rings) (name : String) : Option Ring.Channel :=
  (s.channel? name).map fun c => { c with ring := s.disk.load c.ring }

end Rings

end WriteBehind
