import WriteBehind.Ring.Open

/-!
# Disk — named files, directories and locks

A `Disk` holds files by name, the directories above them, and the names of the files that somebody
has locked.  Names are relative to one directory; `a/./b`, `a//b` and, if `a/c` is a directory,
`a/c/../b` name the same file as `a/b`.

* `Disk.locate` finds what a path names;
* `Disk.openRing` opens a ring, on a file under lock or in memory;
* `Disk.writeFile`, `Disk.patch` and `Disk.setLength` change a file from outside.
-/

namespace WriteBehind

/-- Files, directories and locks. -/
structure Disk where
  files : List (String × Image) := []
  directories : List String := []
  locked : List String := []

/-- What a path names. -/
inductive Location
  | file (name : String)
  | directory
  /-- Nothing yet, in a directory that exists. -/
  | vacant (name : String)
  deriving DecidableEq, Repr

namespace Disk

/-! ## Paths -/

/-- What a path is looked up for: to find what is there, or to create what is missing. -/
inductive Purpose
  | finding | creating
  deriving DecidableEq, Repr

/-- The parts of a path between its slashes. -/
def components (path : String) : List String :=
  (path.splitToList (· == '/')).filter fun c => c ≠ ""

/-- The path with these components. -/
def joined (parts : List String) : String := "/".intercalate parts

/-- The directory above the one that these components name.  Above the first directory lie others,
about which nothing else is known. -/
def parent (above : List String) : List String :=
  match above.getLast? with
  | none | some ".." => above ++ [".."]
  | some _ => above.dropLast

/-- The components without those that stay in a directory or leave it again. -/
def plain (parts : List String) : List String :=
  parts.foldl
    (fun above part =>
      if part = "." then above else if part = ".." then parent above else above ++ [part])
    []

/-- The bytes of a file. -/
def content? (d : Disk) (name : String) : Option Image := d.files.lookup name

/-- Whether a name is a directory: a listed one, or one above a listed one or a file. -/
def isDirectory (d : Disk) (name : String) : Bool :=
  name == "" || d.directories.any (fun n => n == name || n.startsWith (name ++ "/"))
    || d.files.any fun f => f.1.startsWith (name ++ "/")

/-- The greatest length of a component, in bytes. -/
def maxComponentLength : Nat := 255

/-- The greatest length of a path, in bytes. -/
def maxPathLength : Nat := 4095

/-- Why there is nothing under the name of a component. -/
def absence (part : String) : OsError :=
  if part.utf8ByteSize > maxComponentLength then .nameTooLong else .notFound

/-- What the last component of a path names if it is no directory.  With a slash behind it, it cannot
be a file. -/
def last (d : Disk) (purpose : Purpose) (slash : Bool) (name part : String) :
    Except OsError Location :=
  if slash ∧ purpose = .creating then .error .isDirectory
  else if (d.content? name).isSome then
    if slash then .error .notDirectory else .ok (.file name)
  else if purpose = .creating ∧ absence part = .notFound then .ok (.vacant name)
  else .error (absence part)

/-- Goes from a directory along the components of a path, each of which but the last has to be a
directory, even where the path leaves it at once. -/
def descend (d : Disk) (purpose : Purpose) (slash : Bool) : List String → List String →
    Except OsError Location
  | _, [] => .ok .directory
  | above, part :: rest =>
    if part = "." then d.descend purpose slash above rest
    else if part = ".." then d.descend purpose slash (parent above) rest
    else
      let here := above ++ [part]
      let name := joined here
      if d.isDirectory name then d.descend purpose slash here rest
      else if rest.isEmpty then d.last purpose slash name part
      else if (d.content? name).isSome then .error .notDirectory
      else .error (absence part)

/-- What a path names, or why it names nothing.  Of the root directory nothing else is known. -/
def locate (d : Disk) (purpose : Purpose) (path : String) : Except OsError Location :=
  let parts := components path
  if path.toList.contains '\x00' then .error .nameWithNul
  else if path = "" then .error .notFound
  else if path.utf8ByteSize > maxPathLength then .error .nameTooLong
  else if path.startsWith "/" then
    if parts.all fun part => part = "." || part = ".." then .ok .directory else .error .notFound
  else d.descend purpose (path.endsWith "/") [] parts

/-! ## Files -/

/-- Replaces the bytes of a file, or adds the file. -/
def setContent (d : Disk) (name : String) (image : Image) : Disk :=
  if (d.content? name).isSome then
    { d with files := d.files.map fun f => if f.1 == name then (f.1, image) else f }
  else { d with files := d.files ++ [(name, image)] }

/-- Adds a directory. -/
def addDirectory (d : Disk) (path : String) : Disk :=
  { d with directories := d.directories ++ [joined (plain (components path))] }

/-- The name of an existing file. -/
def fileName? (d : Disk) (path : String) : Option String :=
  match d.locate .finding path with
  | .ok (.file name) => some name
  | _ => none

/-- Checks that a path can be opened for reading.  Directories can. -/
def checkReadable (d : Disk) (path : String) : Except OsError Unit :=
  (d.locate .finding path).map fun _ => ()

/-- The bytes of a file. -/
def read (d : Disk) (path : String) : Except OsError Image :=
  match d.locate .finding path with
  | .ok (.file name) => .ok ((d.content? name).getD {})
  | .ok .directory => .error .isDirectory
  | .ok (.vacant _) => .error .notFound
  | .error e => .error e

/-- Whether somebody holds the file's lock. -/
def isLocked (d : Disk) (path : String) : Bool :=
  match d.fileName? path with
  | some name => d.locked.contains name
  | none => false

/-- What a reader meets at a path. -/
structure Access where
  /-- Whether the path can be opened. -/
  opened : Except OsError Unit
  /-- Whether somebody holds a lock on what was opened. -/
  inUse : Bool
  /-- The bytes. -/
  content : Except OsError Image

/-- What a reader meets at a path. -/
def access (d : Disk) (path : String) : Access where
  opened := d.checkReadable path
  inUse := d.isLocked path
  content := d.read path

/-- Writes a whole file, if the path can name one. -/
def writeFile (d : Disk) (path : String) (image : Image) : Bool × Disk :=
  match d.locate .creating path with
  | .ok (.file name) | .ok (.vacant name) => (true, d.setContent name image)
  | _ => (false, d)

/-- Changes the bytes of an existing file, if the path names one. -/
def modify (d : Disk) (path : String) (f : Image → Image) : Bool × Disk :=
  match d.fileName? path with
  | some name => (true, d.setContent name (f ((d.content? name).getD {})))
  | none => (false, d)

/-- Overwrites bytes in place; a file that is too short is lengthened. -/
def patch (d : Disk) (path : String) (offset : Nat) (bytes : Bytes) : Bool × Disk :=
  let size := offset + bytes.length
  if size > Ring.maxFileLength then (false, d)
  else
    d.modify path fun img =>
      (if bytes ≠ [] ∧ img.size < size then img.resize size else img).write offset bytes

/-- Cuts a file or extends it with zeros. -/
def setLength (d : Disk) (path : String) (n : Nat) : Bool × Disk :=
  if n > Ring.maxFileLength then (false, d) else d.modify path fun img => img.resize n

/-! ## Rings -/

/-- Opens a ring.  A queue file is created if need be, and stays locked while the ring is open. -/
def openRing (d : Disk) (o : Ring.Options) : Except Fault Ring × Disk :=
  match o.check with
  | .error cause => (.error cause.fault, d)
  | .ok () =>
    match o.path with
    | none =>
      match Ring.Backing.heap.checkCapacity o.requested with
      | .error cause => (.error cause.fault, d)
      | .ok () => (.ok (Ring.create o.requested o.limit), d)
    | some path =>
      match d.locate .creating path with
      | .error e => (.error ⟨.system e, some path⟩, d)
      | .ok .directory => (.error ⟨.system .isDirectory, some path⟩, d)
      | .ok (.file name) | .ok (.vacant name) =>
        let content := (d.content? name).getD {}
        if d.locked.contains name then
          (.error ⟨.queueBusy, some path⟩, d)
        else
          match Ring.attach path content o.requested o.limit with
          | (.error fault, image) => (.error fault, d.setContent name image)
          | (.ok r, image) =>
            (.ok r, { d.setContent name image with locked := name :: d.locked })

/-- The ring with the bytes that its file has now. -/
def load (d : Disk) (r : Ring) : Ring :=
  match r.backing with
  | .heap => r
  | .file path =>
    match d.fileName? path with
    | some name => { r with image := (d.content? name).getD r.image }
    | none => r

/-- The disk with the bytes that a ring has given its file. -/
def save (d : Disk) (r : Ring) : Disk :=
  match r.backing with
  | .heap => d
  | .file path => (d.writeFile path r.image).2

/-- Gives up the lock on a ring's file. -/
def unlock (d : Disk) (r : Ring) : Disk :=
  match r.backing with
  | .heap => d
  | .file path =>
    match d.fileName? path with
    | some name => { d with locked := d.locked.erase name }
    | none => d

end Disk

end WriteBehind
