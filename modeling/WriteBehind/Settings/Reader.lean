import WriteBehind.Disk
import WriteBehind.Json.Schema
import WriteBehind.Settings.Basic

/-!
# Reader — settings from a JSON text

* `Settings.schema` and `StoreSettings.schema` name the fields and what they hold;
* `Settings.ofBytes` reads and validates a text, `Settings.ofAccess` a file.
-/

namespace WriteBehind

/-- The routings by name. -/
def Routing.names : List (String × Routing) := all.map fun r => (r.name, r)

namespace Json.Field

variable {α : Type}

/-- A field that holds a number of 64 bits. -/
def size (name expected : String) (put : α → Nat → α) : Field α where
  name
  read a c := (c.natural (2 ^ 64 - 1) expected).map fun (n, c) => (put a n, c)

/-- A field that holds a number of 16 bits. -/
def small (name : String) (put : α → Nat → α) : Field α where
  name
  read a c := (c.natural (2 ^ 16 - 1) "u16").map fun (n, c) => (put a n, c)

/-- A field that holds a string. -/
def string (name : String) (put : α → String → α) : Field α where
  name
  read a c := (c.text "a string").map fun (s, c) => (put a s, c)

end Json.Field

open Json (Field Schema)

/-- The fields of the store settings. -/
def StoreSettings.schema : Schema StoreSettings where
  expected := "struct StoreParams"
  fields := [
    .string "host" fun s v => { s with host := v },
    .small "port" fun s v => { s with tcpPort := v },
    .string "user" fun s v => { s with user := v },
    .string "password" fun s v => { s with password := v },
    .string "database" fun s v => { s with database := v }]

namespace Settings

/-- The fields of the settings. -/
def schema : Schema Settings where
  expected := "struct PersistenceConfig"
  fields := [
    .size "capacity" "usize" fun s v => { s with capacity := v },
    .size "max_record_size" "usize" fun s v => { s with recordLimit := v },
    { name := "queue_path"
      read := fun s c =>
        (c.optionalText "path string").map fun (v, c) => ({ s with path := v }, c) },
    .size "workers" "usize" fun s v => { s with workers := v },
    { name := "routing"
      read := fun s c =>
        (c.variant Routing.names).map fun (v, c) => ({ s with routing := v }, c) },
    .size "idle_backoff_ms" "u64" fun s v => { s with backoff := v },
    { name := "store"
      read := fun s c =>
        (StoreSettings.schema.read {} c).map fun (v, c) => ({ s with store := v }, c) }]

/-- Reads settings from a text, without a look at their values. -/
def parse (bytes : Bytes) : Except Json.Located Settings := Json.document schema {} bytes

/-- Reads and validates settings. -/
def ofBytes (bytes : Bytes) : Except Cause Settings :=
  match parse bytes with
  | .error defect => .error (.settingsText defect)
  | .ok s =>
    match s.validate with
    | .error cause => .error cause
    | .ok () => .ok s

/-- Reads and validates the settings that were met at a path. -/
def ofAccess (path : String) (a : Disk.Access) : Except Fault Settings :=
  match a.content with
  | .error e => .error ⟨.system e, some path⟩
  | .ok image =>
    match ofBytes image.toBytes with
    | .error cause => .error ⟨cause, some path⟩
    | .ok s => .ok s

end Settings

end WriteBehind
