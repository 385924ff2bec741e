import Mathlib.Control.Monad.Basic
import WriteBehind.Proofs.Image
import WriteBehind.Proofs.Readback
import WriteBehind.Settings.Printer
import WriteBehind.Settings.Reader

/-!
# Reload — settings are read again from what is printed for them

Settings may be written in many ways: with fields in any order or left out, as objects or as arrays,
with blanks and with escapes.  What is printed for the settings that were read names every field, and
is read as the same settings.

* `Settings.InRange` says that all numbers fit their fields, and `Settings.inRange_of_parse` that no
  others are ever read;
* `Settings.slots` pairs the fields that are read with the values that are printed;
* `Settings.parse_text`: settings in range are read from their text;
* `Settings.reloaded_of_ofAccess`: settings that were read from a file are read from their own text as
  well, wherever it is found.
-/

namespace WriteBehind

namespace Json

variable {α : Type}

/-! ## Kinds of fields -/

namespace Slot

/-- A field that holds a number of 64 bits. -/
def size (name expected : String) (put : α → Nat → α) (n : Nat) : Slot α :=
  ⟨.size name expected put, .nat n, fun a => put a n⟩

/-- A field that holds a number of 16 bits. -/
def small (name : String) (put : α → Nat → α) (n : Nat) : Slot α :=
  ⟨.small name put, .nat n, fun a => put a n⟩

/-- A field that holds a string. -/
def string (name : String) (put : α → String → α) (s : String) : Slot α :=
  ⟨.string name put, .string s, fun a => put a s⟩

theorem sound_size (name expected : String) (put : α → Nat → α) {n : Nat} (h : n < 2 ^ 64) :
    (size name expected put n).Sound :=
  fun a => (takes_natural expected (Nat.le_sub_one_of_lt h) (by decide)).map (put a)

theorem sound_small (name : String) (put : α → Nat → α) {n : Nat} (h : n < 2 ^ 16) :
    (small name put n).Sound :=
  fun a => (takes_natural "u16" (Nat.le_sub_one_of_lt h) (by decide)).map (put a)

theorem sound_string (name : String) (put : α → String → α) (s : String) :
    (string name put s).Sound :=
  fun a => (takes_text "a string" s).map (put a)

end Slot

namespace Field

variable {P : α → Prop}

theorem keeps_size {name expected : String} {put : α → Nat → α}
    (h : ∀ a n, P a → n < 2 ^ 64 → P (put a n)) : (size name expected put).Keeps P :=
  keeps_put put fun {a n _ _} ha hread => h a n ha (Nat.lt_of_le_sub_one (by decide) (natural_le hread))

theorem keeps_small {name : String} {put : α → Nat → α}
    (h : ∀ a n, P a → n < 2 ^ 16 → P (put a n)) : (small name put).Keeps P :=
  keeps_put put fun {a n _ _} ha hread => h a n ha (Nat.lt_of_le_sub_one (by decide) (natural_le hread))

theorem keeps_string {name : String} {put : α → String → α} (h : ∀ a s, P a → P (put a s)) :
    (string name put).Keeps P :=
  keeps_put put fun {a s _ _} ha _ => h a s ha

end Field

/-- A value has the fields of a schema, under the names that the schema knows. -/
def Schema.Spells (s : Schema α) (v : Json) : Prop :=
  ∃ fields, v = .object fields ∧ fields.map Prod.fst = s.fields.map Field.name

end Json

open Json (Slot Field Takes)

/-! ## The store settings -/

namespace StoreSettings

/-- The number fits its field. -/
def InRange (s : StoreSettings) : Prop := s.tcpPort < 2 ^ 16

/-- The fields and what is printed for them. -/
def slots (s : StoreSettings) : List (Slot StoreSettings) := [
  .string "host" (fun s v => { s with host := v }) s.host,
  .small "port" (fun s v => { s with tcpPort := v }) s.tcpPort,
  .string "user" (fun s v => { s with user := v }) s.user,
  .string "password" (fun s v => { s with password := v }) s.password,
  .string "database" (fun s v => { s with database := v }) s.database]

theorem inRange_default : ({} : StoreSettings).InRange := by
  rw [InRange]
  decide

theorem slots_sound {s : StoreSettings} (h : s.InRange) : ∀ t ∈ s.slots, t.Sound := by
  simp only [slots, List.forall_mem_cons]
  exact ⟨Slot.sound_string _ _ _, Slot.sound_small _ _ h, Slot.sound_string _ _ _,
    Slot.sound_string _ _ _, Slot.sound_string _ _ _, List.forall_mem_nil _⟩

theorem takes_toJson {s : StoreSettings} (h : s.InRange) (default : StoreSettings) :
    Takes (schema.read default) s.toJson s :=
  schema.takes_record s.slots rfl (slots_sound h) default

theorem keeps_inRange : ∀ f ∈ schema.fields, f.Keeps InRange := by
  simp only [schema, List.forall_mem_cons]
  -- Only the port has a range, and a string in another field leaves it alone.
  refine ⟨Field.keeps_string ?_, Field.keeps_small ?_, Field.keeps_string ?_,
    Field.keeps_string ?_, Field.keeps_string ?_, List.forall_mem_nil _⟩
  case refine_2 => exact fun s n _ hn => hn
  all_goals exact fun s v hs => hs

end StoreSettings

/-! ## The settings -/

theorem Routing.lookup_name (r : Routing) : Routing.names.lookup r.name = some r := by
  cases r <;> decide

namespace Settings

/-- All numbers fit their fields. -/
structure InRange (s : Settings) : Prop where
  capacity : s.capacity < 2 ^ 64
  recordLimit : s.recordLimit < 2 ^ 64
  workers : s.workers < 2 ^ 64
  backoff : s.backoff < 2 ^ 64
  store : s.store.InRange

/-- The fields and what is printed for them. -/
def slots (s : Settings) : List (Slot Settings) := [
  .size "capacity" "usize" (fun s v => { s with capacity := v }) s.capacity,
  .size "max_record_size" "usize" (fun s v => { s with recordLimit := v }) s.recordLimit,
  { field :=
      { name := "queue_path"
        read := fun s c =>
          (c.optionalText "path string").map fun (v, c) => ({ s with path := v }, c) }
    value := match s.path with | some p => .string p | none => .null
    put := fun a => { a with path := s.path } },
  .size "workers" "usize" (fun s v => { s with workers := v }) s.workers,
  { field :=
      { name := "routing"
        read := fun s c =>
          (c.variant Routing.names).map fun (v, c) => ({ s with routing := v }, c) }
    value := .string s.routing.name
    put := fun a => { a with routing := s.routing } },
  .size "idle_backoff_ms" "u64" (fun s v => { s with backoff := v }) s.backoff,
  { field :=
      { name := "store"
        read := fun s c =>
          (StoreSettings.schema.read {} c).map fun (v, c) => ({ s with store := v }, c) }
    value := s.store.toJson
    put := fun a => { a with store := s.store } }]

theorem slots_sound {s : Settings} (h : s.InRange) : ∀ t ∈ s.slots, t.Sound := by
  simp only [slots, List.forall_mem_cons]
  refine ⟨Slot.sound_size _ _ _ h.capacity, Slot.sound_size _ _ _ h.recordLimit, ?_,
    Slot.sound_size _ _ _ h.workers, ?_, Slot.sound_size _ _ _ h.backoff, ?_,
    List.forall_mem_nil _⟩
  · exact fun a => (Json.takes_optionalText "path string" s.path).map fun v => { a with path := v }
  · exact fun a => (Json.takes_variant s.routing.lookup_name).map fun v => { a with routing := v }
  · exact fun a => (StoreSettings.takes_toJson h.store {}).map fun v => { a with store := v }

theorem takes_toJson {s : Settings} (h : s.InRange) (default : Settings) :
    Takes (schema.read default) s.toJson s :=
  schema.takes_record s.slots rfl (slots_sound h) default

/-- What is printed for settings in range is read as these settings. -/
theorem parse_text {s : Settings} (h : s.InRange) :
    parse (Utf8.encode s.toJson.compact.toList) = .ok s := by
  rw [Json.compact, String.toList_ofList]
  exact Json.Schema.document_eq_ok (takes_toJson h {})

theorem inRange_default : ({} : Settings).InRange :=
  ⟨by decide, by decide, by decide, by decide, StoreSettings.inRange_default⟩

theorem keeps_inRange : ∀ f ∈ schema.fields, f.Keeps InRange := by
  simp only [schema, List.forall_mem_cons]
  refine ⟨Field.keeps_size fun a n h hn => { h with capacity := hn },
    Field.keeps_size fun a n h hn => { h with recordLimit := hn }, ?_,
    Field.keeps_size fun a n h hn => { h with workers := hn }, ?_,
    Field.keeps_size fun a n h hn => { h with backoff := hn }, ?_, List.forall_mem_nil _⟩
  · refine Field.keeps_put (fun (s : Settings) v => { s with path := v }) ?_
    exact fun hs _ => { hs with }
  · refine Field.keeps_put (fun (s : Settings) v => { s with routing := v }) ?_
    exact fun hs _ => { hs with }
  · refine Field.keeps_put (fun (s : Settings) v => { s with store := v }) ?_
    intro s store c c' hs hread
    -- The store settings start from their own defaults.
    have hstore : store.InRange := StoreSettings.schema.read_keeps StoreSettings.keeps_inRange
      StoreSettings.inRange_default hread
    exact { hs with store := hstore }

/-- No number is read that does not fit its field. -/
theorem inRange_of_parse {bytes : Bytes} {s : Settings} (h : parse bytes = .ok s) : s.InRange :=
  schema.document_keeps keeps_inRange inRange_default h

/-! ## Files -/

theorem ofBytes_eq_ok {bytes : Bytes} {s : Settings} :
    ofBytes bytes = .ok s ↔ parse bytes = .ok s ∧ s.validate = .ok () := by
  simp only [ofBytes]
  cases parse bytes with
  | error e => simp
  | ok s' =>
    cases hvalid : s'.validate with
    | error e =>
      simp only [hvalid, Except.ok.injEq]
      refine iff_of_false (by simp) ?_
      rintro ⟨rfl, hvalid'⟩
      cases hvalid.symm.trans hvalid'
    | ok u =>
      simp only [hvalid, Except.ok.injEq]
      refine ⟨?_, fun h => h.1⟩
      rintro rfl
      exact ⟨rfl, hvalid⟩

theorem ofAccess_eq_ok {path : String} {a : Disk.Access} {s : Settings} :
    ofAccess path a = .ok s ↔
      ∃ image, a.content = .ok image ∧ ofBytes image.toBytes = .ok s := by
  simp only [ofAccess]
  cases a.content with
  | error e => simp
  | ok image => cases hbytes : ofBytes image.toBytes <;> simp [hbytes]

/-- Settings that were read from a file, in whatever way they were written there, are printed with all
the fields that are known to the reader, under their names.  They can be run with, and any file that
holds what was printed is read as the same settings, which open the same ring with the same wait. -/
theorem reloaded_of_ofAccess {path : String} {a : Disk.Access} {s : Settings}
    (h : ofAccess path a = .ok s) :
    s.validate = .ok () ∧
      schema.Spells s.toJson ∧ StoreSettings.schema.Spells s.store.toJson ∧
      ∀ path' a' image, a'.content = .ok image →
        image.toBytes = Utf8.encode s.toJson.compact.toList →
          ofAccess path' a' = .ok s ∧
            (ofAccess path' a').map (fun s' => (s'.ringOptions, s'.backoff)) =
              .ok (s.ringOptions, s.backoff) := by
  rcases ofAccess_eq_ok.1 h with ⟨image, -, hread⟩
  rcases ofBytes_eq_ok.1 hread with ⟨hparse, hvalid⟩
  refine ⟨hvalid, ⟨_, rfl, rfl⟩, ⟨_, rfl, rfl⟩, ?_⟩
  intro path' a' image' hcontent hbytes
  have hagain : ofAccess path' a' = .ok s := by
    refine ofAccess_eq_ok.2 ⟨image', hcontent, ofBytes_eq_ok.2 ⟨?_, hvalid⟩⟩
    rw [hbytes]
    exact parse_text (inRange_of_parse hparse)
  exact ⟨hagain, by rw [hagain]; rfl⟩

/-- Few of the fields, out of order: the store is an array, the routing an object, and the path has
escapes. -/
def sparseText : Bytes := Utf8.encode
  ("\x7b\"store\":[\"db\",3307],\"routing\":\x7b\"key_affinity\":null\x7d, "
    ++ "\"queue_path\" : \"q\\u0000\\\"\\ud83d\\ude00/\",\"workers\":2\x7d").toList

/-- What `sparseText` says, and the defaults. -/
def sparse : Settings where
  path := some "q\x00\"😀/"
  workers := 2
  routing := .keyAffinity
  store := { host := "db", tcpPort := 3307 }

theorem reloaded_of_ofAccess_sparse :
    ofAccess "given.json" ⟨.ok (), false, .ok (.ofBytes sparseText)⟩ = .ok sparse ∧
      ofAccess "printed.json"
        ⟨.ok (), false, .ok (.ofBytes (Utf8.encode sparse.toJson.compact.toList))⟩ = .ok sparse := by
  have hread : ofBytes sparseText = .ok sparse := by decide +kernel
  have hgiven : ofAccess "given.json" ⟨.ok (), false, .ok (.ofBytes sparseText)⟩ = .ok sparse :=
    ofAccess_eq_ok.2 ⟨_, rfl, by rw [Image.toBytes_ofBytes]; exact hread⟩
  exact ⟨hgiven, ((reloaded_of_ofAccess hgiven).2.2.2 _ _ _ rfl (Image.toBytes_ofBytes _)).1⟩

end Settings
end WriteBehind
