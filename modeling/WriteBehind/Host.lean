import WriteBehind.Disk
import WriteBehind.Ring.Storage

/-!
# Host — opening a queue file where the system may refuse

Opening a queue file takes several calls of the system, and each of them may be refused: the file is
opened, locked, measured, mapped and, if it is too short, lengthened.

* `Host` holds the answers of the system;
* `Ring.attachOn` and `Disk.openRingOn` open a ring on a host with these answers;
* `Disk.openRingOn_willing`: where nothing is refused this is `Disk.openRing`.
-/

namespace WriteBehind

/-- How the system answers when a queue file is opened. -/
structure Host where
  /-- Opening the file. -/
  opens : Except OsError Unit := .ok ()
  /-- Locking it where nobody else holds the lock.  The error number decides what kind of fault it is. -/
  locks : Except Fault Unit := .ok ()
  /-- Asking for its length. -/
  measures : Except OsError Unit := .ok ()
  /-- Mapping it. -/
  maps : Except OsError Unit := .ok ()
  /-- Giving it a length, and growing it once the ring is there. -/
  storage : Ring.Storage := {}

namespace Ring

/-- Checks the length of a queue file that holds something. -/
def checkLength (size : Nat) : Except Cause Unit :=
  if size ≤ Header.size then .error .queueTooShort
  else if ¬ IsPowerOfTwo (size - Header.size) then .error .queueCapacity
  else .ok ()

/-- Opens a queue file with these bytes.  An empty file becomes an empty ring; one that is smaller
than `requested` is resized.  Its header is read once it is mapped. -/
def attachOn (host : Host) (path : String) (content : Image) (requested limit : Nat) :
    Except Fault Ring × Image :=
  match host.measures with
  | .error e => (.error ⟨.system e, some path⟩, content)
  | .ok () =>
    if content.size = 0 then
      if Header.size + requested > maxFileLength then
        (.error ⟨.system .lengthTooLarge, some path⟩, content)
      else
        match host.storage.setLength (Header.size + requested) with
        | .error e => (.error ⟨.system e, some path⟩, content)
        | .ok () =>
          let image := content.resize (Header.size + requested)
          match host.maps with
          | .error e => (.error ⟨.system e, some path⟩, image)
          | .ok () => (.ok (ofHeader path image requested limit {}), image)
    else
      match checkLength content.size, host.maps, readHeader content with
      | .error cause, _, _ => (.error ⟨cause, some path⟩, content)
      | .ok (), .error e, _ => (.error ⟨.system e, some path⟩, content)
      | .ok (), .ok (), .error cause => (.error ⟨cause, some path⟩, content)
      | .ok (), .ok (), .ok (h, capacity) =>
        let r := ofHeader path content capacity limit h
        if requested > capacity then
          match r.resizeOn host.storage requested with
          | (.error fault, r) => (.error fault, r.image)
          | (.ok (), r) => (.ok r, r.image)
        else (.ok r, content)

end Ring

namespace Disk

/-- Opens a ring.  A queue file is created if need be, and stays locked while the ring is open. -/
def openRingOn (d : Disk) (host : Host) (o : Ring.Options) : Except Fault Ring × Disk :=
  match o.check with
  | .error cause => (.error cause.fault, d)
  | .ok () =>
    match o.path with
    | none =>
      match Ring.Backing.heap.checkCapacity o.requested with
      | .error cause => (.error cause.fault, d)
      | .ok () => (.ok (Ring.create o.requested o.limit), d)
    | some path =>
      match d.locate .creating path with
      | .error e => (.error ⟨.system e, some path⟩, d)
      | .ok .directory => (.error ⟨.system .isDirectory, some path⟩, d)
      | .ok (.file name) | .ok (.vacant name) =>
        let content := (d.content? name).getD {}
        match host.opens with
        | .error e => (.error ⟨.system e, some path⟩, d)
        | .ok () =>
          if d.locked.contains name then (.error ⟨.queueBusy, some path⟩, d)
          else
            match host.locks with
            | .error fault => (.error fault, d.setContent name content)
            | .ok () =>
              match Ring.attachOn host path content o.requested o.limit with
              | (.error fault, image) => (.error fault, d.setContent name image)
              | (.ok r, image) =>
                (.ok r, { d.setContent name image with locked := name :: d.locked })

end Disk

/-! ## Where nothing is refused -/

namespace Ring

theorem readHeader_of_checkLength {content : Image} {cause : Cause}
    (h : checkLength content.size = .error cause) : readHeader content = .error cause := by
  simp only [checkLength] at h
  simp only [readHeader]
  split at h
  · rename_i hshort
    cases h
    rw [if_pos hshort]
  · rename_i hlong
    split at h
    · rename_i hcapacity
      cases h
      rw [if_neg hlong, if_pos hcapacity]
    · cases h

theorem attachOn_willing (path : String) (content : Image) (requested limit : Nat) :
    attachOn {} path content requested limit = attach path content requested limit := by
  simp only [attachOn, attach, resizeOn_willing]
  split
  · rfl
  · cases hlength : checkLength content.size with
    | error cause => rw [readHeader_of_checkLength hlength]
    | ok _ => rcases readHeader content with cause | ⟨h, capacity⟩ <;> rfl

end Ring

theorem Disk.openRingOn_willing (d : Disk) (o : Ring.Options) :
    d.openRingOn {} o = d.openRing o := by
  simp only [openRingOn, Ring.attachOn_willing]
  rfl

end WriteBehind
