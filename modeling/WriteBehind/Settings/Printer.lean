import WriteBehind.Json.Value
import WriteBehind.Settings.Reader

/-!
# Printer — settings as text

* `Settings.toJson` gives all fields in the order of their declaration;
* `Settings.redacted` hides the password;
* `Settings.describe` is the form for diagnostics, which never shows the password.
-/

namespace WriteBehind

/-- The word for a routing in diagnostics. -/
def Routing.describe : Routing → String
  | roundRobin => "RoundRobin"
  | keyAffinity => "KeyAffinity"

/-- What is shown in place of a password. -/
def redaction : String := "<redacted>"

namespace StoreSettings

/-- The store settings as JSON. -/
def toJson (s : StoreSettings) : Json :=
  .object [("host", .string s.host), ("port", .nat s.tcpPort), ("user", .string s.user),
    ("password", .string s.password), ("database", .string s.database)]

/-- The store settings for diagnostics. -/
def describe (s : StoreSettings) : String :=
  "StoreParams \x7b host: " ++ Quoted.encode s.host ++ ", port: " ++ Decimal.text s.tcpPort
    ++ ", user: " ++ Quoted.encode s.user ++ ", password: " ++ Quoted.encode redaction
    ++ ", database: " ++ Quoted.encode s.database ++ " \x7d"

end StoreSettings

namespace Settings

/-- The settings as JSON. -/
def toJson (s : Settings) : Json :=
  .object [("capacity", .nat s.capacity), ("max_record_size", .nat s.recordLimit),
    ("queue_path", match s.path with | some p => .string p | none => .null),
    ("workers", .nat s.workers), ("routing", .string s.routing.name),
    ("idle_backoff_ms", .nat s.backoff), ("store", s.store.toJson)]

/-- The settings without the password. -/
def redacted (s : Settings) : Settings :=
  { s with store := { s.store with password := redaction } }

/-- The settings for diagnostics. -/
def describe (s : Settings) : String :=
  "PersistenceConfig \x7b capacity: " ++ Decimal.text s.capacity
    ++ ", max_record_size: " ++ Decimal.text s.recordLimit
    ++ ", queue_path: "
    ++ (match s.path with | some p => "Some(" ++ Quoted.encode p ++ ")" | none => "None")
    ++ ", workers: " ++ Decimal.text s.workers
    ++ ", routing: " ++ s.routing.describe
    ++ ", idle_backoff_ms: " ++ Decimal.text s.backoff
    ++ ", store: " ++ s.store.describe ++ " \x7d"

end Settings

end WriteBehind
