import WriteBehind.Image
import WriteBehind.Signal

/-!
# Mailbox — a place for one record between the dispatcher and a worker

A mailbox has a buffer that is used again and again, and a length that says how much of it is the
record.  It is free while the length is zero.

* `Mailbox.contents?` is the view;
* `Mailbox.deliver?` fills a free mailbox, `Mailbox.clear` frees it;
* `Mailbox.contents?_deliver?` says that what was delivered is what is there.
-/

namespace WriteBehind

/-- A buffer for one record. -/
structure Mailbox where
  buffer : Image
  /-- The length of the record, zero for none. -/
  length : Nat := 0
  /-- Tells the worker to look. -/
  ready : Signal := {}
  /-- Tells the dispatcher that the mailbox was freed. -/
  freed : Signal := {}

namespace Mailbox

/-- A free mailbox for records of at most `size` bytes. -/
def ofSize (size : Nat) : Mailbox where
  buffer := .zeros size

/-- Whether there is no record. -/
def isFree (m : Mailbox) : Bool := m.length == 0

/-- The bytes of the record. -/
def payload (m : Mailbox) : Bytes := m.buffer.slice 0 m.length

/-- The record, if there is one. -/
def contents? (m : Mailbox) : Option Bytes := if m.isFree then none else some m.payload

/-- Puts a record into a free mailbox.  A record that is empty or too long is refused. -/
def deliver? (m : Mailbox) (payload : Bytes) : Option Mailbox :=
  if ¬ m.isFree ∨ payload = [] ∨ payload.length > m.buffer.size then none
  else some { m with
    buffer := m.buffer.write 0 payload
    length := payload.length
    ready := m.ready.post }

/-- Frees the mailbox. -/
def clear (m : Mailbox) : Mailbox := { m with length := 0, freed := m.freed.post }

/-- Takes the record out, if there is one. -/
def take? (m : Mailbox) : Option (Bytes × Mailbox) := m.contents?.map fun p => (p, m.clear)

/-- Wakes the worker without handing it anything. -/
def nudge (m : Mailbox) : Mailbox := { m with ready := m.ready.post }

/-- The worker waits to be told to look. -/
def wait (m : Mailbox) : Bool × Mailbox := (m.ready.wait.1, { m with ready := m.ready.wait.2 })

/-- The dispatcher waits for the mailbox to be freed. -/
def waitFreed (m : Mailbox) : Bool × Mailbox :=
  (m.freed.wait.1, { m with freed := m.freed.wait.2 })

/-! ## The view -/

theorem slice_write (img : Image) (bs : Bytes) (h : bs.length ≤ img.size) :
    (img.write 0 bs).slice 0 bs.length = bs := by
  apply List.ext_getElem (by simp)
  intro i hi hi'
  have hs : i < img.size := by omega
  simp [Image.slice, Image.byte_write, hi', hs]

theorem contents?_deliver? {m m' : Mailbox} {p : Bytes} (h : m.deliver? p = some m') :
    m'.contents? = some p := by
  simp only [deliver?] at h
  split at h
  · contradiction
  · rename_i hc
    have hp : p ≠ [] := fun he => hc (.inr (.inl he))
    have hs : p.length ≤ m.buffer.size := Nat.not_lt.1 fun he => hc (.inr (.inr he))
    cases h
    simp [contents?, isFree, payload, hp, slice_write _ _ hs]

@[simp] theorem contents?_clear (m : Mailbox) : m.clear.contents? = none := rfl

end Mailbox

end WriteBehind
