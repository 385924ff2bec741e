import WriteBehind.Proofs.Ring.Opening
import WriteBehind.Ring.Channel

/-!
# Traffic — every use of a ring, from the first opening on

A `Bench` is an open ring with the producer's call that may wait on it and the record that may be on
loan.  `Bench.use?` carries out one use, `Bench.Uses` says what that comes to, and `History` notes what was
promised: the payloads of the pushes that were done, and how many of them were given up since.

* `Run limit b h` says that `b` is reached with the history `h`, through any uses in any order and
  through any number of reopenings;
* `Coherent` ties the ring to the history, `Coherent.use` keeps it through one use, and
  `Run.coherent` through all of them;
* `fifo_of_run`: the backlog is always what was accepted and not given up, in order;
* `durable_of_run`: the bytes of the ring always describe it, and open again to the same backlog.
-/

namespace WriteBehind
namespace Ring

/-- An open ring in use. -/
structure Bench where
  channel : Channel
  /-- The record on loan. -/
  held : Option Lease := none

namespace Bench

def ofRing (r : Ring) : Bench := ⟨⟨r, none⟩, none⟩

def ring (b : Bench) : Ring := b.channel.ring

def setRing (b : Bench) (r : Ring) (held : Option Lease) : Bench :=
  ⟨{ b.channel with ring := r }, held⟩

/-- What can be done with an open ring. -/
inductive Use
  -- the producer
  | call (call : Call)
  | resume
  -- the consumer
  | pop
  /-- The record on loan is dropped, and so given up. -/
  | drop
  /-- The record on loan goes back. -/
  | unread
  | serve
  deriving DecidableEq, Repr

/-- Carries out a use.  The producer makes one call at a time, and the consumer has one record on
loan at a time. -/
def use? (b : Bench) : Use → Option Bench
  | .call call =>
    if b.channel.waiting = none then some { b with channel := (b.channel.submit call).2 } else none
  | .resume => some { b with channel := b.channel.resume.2 }
  | .pop =>
    if b.held = none then
      match b.ring.pop with
      | (.error _, r) => some (b.setRing r none)
      | (.ok record, r) => some (b.setRing r record)
    else none
  | .drop => b.held.map fun l => b.setRing (b.ring.release l) none
  | .unread => b.held.map fun _ => b.setRing b.ring none
  | .serve =>
    if b.held = none then b.ring.request.map fun q => b.setRing (b.ring.serve q).2 none else none

/-- What one use does to a bench. -/
inductive Uses (b : Bench) : Use → Bench → Prop
  | call {call : Call} (hidle : b.channel.waiting = none) :
      Uses b (.call call) { b with channel := (b.channel.submit call).2 }
  | resume : Uses b .resume { b with channel := b.channel.resume.2 }
  | pop {record : Option Lease} (hheld : b.held = none) (hpop : b.ring.pop.1 = .ok record) :
      Uses b .pop (b.setRing b.ring.pop.2 record)
  | popFails {fault : Fault} (hheld : b.held = none) (hpop : b.ring.pop.1 = .error fault) :
      Uses b .pop (b.setRing b.ring.pop.2 none)
  | drop {l : Lease} (hheld : b.held = some l) : Uses b .drop (b.setRing (b.ring.release l) none)
  | unread {l : Lease} (hheld : b.held = some l) : Uses b .unread (b.setRing b.ring none)
  | serve {q : Request} (hheld : b.held = none) (hq : b.ring.request = some q) :
      Uses b .serve (b.setRing (b.ring.serve q).2 none)

theorem uses_of_use? {b b' : Bench} {u : Use} (huse : b.use? u = some b') : b.Uses u b' := by
  cases u with
  | call call =>
    simp only [use?] at huse
    split at huse
    · rename_i hidle
      cases huse
      exact .call hidle
    · cases huse
  | resume =>
    cases huse
    exact .resume
  | pop =>
    simp only [use?] at huse
    split at huse
    · rename_i hheld
      rcases hpop : b.ring.pop with ⟨fault | record, r⟩
      · obtain rfl : b.ring.pop.2 = r := by rw [hpop]
        rw [hpop] at huse
        cases huse
        exact .popFails hheld (by rw [hpop])
      · obtain rfl : b.ring.pop.2 = r := by rw [hpop]
        rw [hpop] at huse
        cases huse
        exact .pop hheld (by rw [hpop])
    · cases huse
  | drop =>
    rw [use?, Option.map_eq_some_iff] at huse
    rcases huse with ⟨l, hheld, rfl⟩
    exact .drop hheld
  | unread =>
    rw [use?, Option.map_eq_some_iff] at huse
    rcases huse with ⟨l, hheld, rfl⟩
    exact .unread hheld
  | serve =>
    simp only [use?] at huse
    split at huse
    · rename_i hheld
      rw [Option.map_eq_some_iff] at huse
      rcases huse with ⟨q, hq, rfl⟩
      exact .serve hheld hq
    · cases huse

end Bench

/-- What the two sides were told. -/
structure History where
  /-- The payloads of all pushes that were done, in order. -/
  accepted : List Bytes := []
  /-- How many of them were given up by the consumer. -/
  released : Nat := 0

namespace History

/-- The payloads that were accepted and not given up. -/
def unread (h : History) : List Bytes := h.accepted.drop h.released

def accept (h : History) (payloads : List Bytes) : History :=
  { h with accepted := h.accepted ++ payloads }

/-- The history once a use was made, as the two sides were told of it. -/
def after (h : History) (b : Bench) : Bench.Use → History
  | .call (.push payload) => h.accept (added payload (b.channel.submit (.push payload)).1)
  | .resume => h.accept b.channel.resumed
  | .drop => { h with released := h.released + 1 }
  | .call (.grow _) | .pop | .unread | .serve => h

end History

/-- A bench is reached, with a history, through uses and reopenings. -/
inductive Run (limit : Nat) : Bench → History → Prop
  /-- A ring in memory. -/
  | memory {d : Disk} {hint : Nat} {r : Ring}
      (hopen : (d.openRing ⟨hint, limit, none⟩).1 = .ok r) : Run limit (.ofRing r) {}
  /-- A ring on a new or empty file. -/
  | blank {d : Disk} {path : String} {content : Image} {hint : Nat} {r : Ring}
      (hoffers : d.Offers path content) (hblank : content.size = 0)
      (hopen : (d.openRing ⟨hint, limit, some path⟩).1 = .ok r) : Run limit (.ofRing r) {}
  | use {b b' : Bench} {h : History} {u : Bench.Use} (run : Run limit b h)
      (huse : b.use? u = some b') : Run limit b' (h.after b u)
  /-- The ring is closed, and the bytes that it has left in a file are opened again. -/
  | reopen {b : Bench} {h : History} {d : Disk} {path : String} {hint : Nat} {r : Ring}
      (run : Run limit b h) (hheld : b.held = none) (hoffers : d.Offers path b.ring.image)
      (hopen : (d.openRing ⟨hint, limit, some path⟩).1 = .ok r) : Run limit (.ofRing r) h

/-! ## The invariant -/

/-- A padding is shorter than a reserve, which is a 32-bit word where the limit leaves room for it. -/
theorem Sound.notesPad {r : Ring} {records : List Bytes} (h : Sound r records)
    (hlimit : r.limit + 3 ≤ 2 ^ 31 - 1) (payload : Bytes) : r.NotesPad payload := by
  intro p hplan _
  rcases plan_eq_ok hplan with ⟨-, -, -, hpad, -, -, -⟩
  have hlt : wrapPad r.write r.capacity r.limit < frameReserve r.limit := wrapPad_lt h.powerOfTwo
  rw [← hpad, frameReserve, prefixLength] at hlt
  omega

/-- The ring holds what its history says, and so does the record on loan. -/
structure Coherent (limit : Nat) (b : Bench) (h : History) : Prop where
  sound : Sound b.ring h.unread
  asked : b.ring.WellAsked
  checked : checkRecordLimit limit = .ok ()
  limit_eq : b.ring.limit = limit
  released_le : h.released ≤ h.accepted.length
  held : ∀ l, b.held = some l → Holds b.ring l ∧ h.unread.head? = some l.payload

theorem coherent_ofRing {limit : Nat} {r : Ring} {h : History} (hsound : Sound r h.unread)
    (hchecked : checkRecordLimit limit = .ok ()) (hlimit : r.limit = limit)
    (hnone : r.request = none) (hle : h.released ≤ h.accepted.length) :
    Coherent limit (.ofRing r) h := by
  refine ⟨hsound, .of_none hnone, hchecked, hlimit, hle, ?_⟩
  intro l hl
  cases hl

namespace Coherent

variable {limit : Nat} {b b' : Bench} {h : History}

theorem notesPad (hc : Coherent limit b h) (hlimit : limit + 3 ≤ 2 ^ 31 - 1) (payload : Bytes) :
    b.ring.NotesPad payload :=
  hc.sound.notesPad (by rw [hc.limit_eq]; exact hlimit) payload

/-- A producer's call keeps the record on loan, and adds to the history what it has added. -/
theorem extend (hc : Coherent limit b h) {c : Channel} {more : List Bytes}
    (hextends : Extends b.ring c.ring h.unread more) :
    Coherent limit { b with channel := c } (h.accept more) := by
  have hunread : (h.accept more).unread = h.unread ++ more :=
    List.drop_append_of_le_length hc.released_le
  refine ⟨?_, hextends.asked, hc.checked, hextends.limit.trans hc.limit_eq, ?_, ?_⟩
  · rw [hunread]
    exact hextends.sound
  · have hle := hc.released_le
    simp only [History.accept, List.length_append]
    omega
  · intro l hl
    rcases hc.held l hl with ⟨hholds, hhead⟩
    refine ⟨hextends.holds hholds, ?_⟩
    -- What comes in is behind the head.
    rw [hunread, List.head?_append, hhead]
    rfl

theorem find (hc : Coherent limit b h) {r : Ring} {record : Option Lease}
    (hfinds : Finds r record h.unread) (hnone : r.request = none)
    (hlimit : r.limit = b.ring.limit) : Coherent limit (b.setRing r record) h := by
  refine ⟨hfinds.sound, .of_none hnone, hc.checked, hlimit.trans hc.limit_eq, hc.released_le, ?_⟩
  intro l hl
  have hhead := hfinds.head
  rw [show record = some l from hl] at hhead
  exact ⟨hfinds.holds l hl, hhead.symm⟩

/-- The record on loan is the head of the list. -/
theorem unread_eq (hc : Coherent limit b h) {l : Lease} (hheld : b.held = some l) :
    ∃ rest, h.unread = l.payload :: rest ∧ h.accepted.drop (h.released + 1) = rest ∧
      h.released < h.accepted.length := by
  rcases hc.held l hheld with ⟨-, hhead⟩
  rw [History.unread, List.head?_drop] at hhead
  rcases List.getElem?_eq_some_iff.1 hhead with ⟨hlt, hget⟩
  refine ⟨_, ?_, rfl, hlt⟩
  rw [History.unread, List.drop_eq_getElem_cons hlt, hget]

theorem giveUp (hc : Coherent limit b h) {l : Lease} (hheld : b.held = some l) :
    Coherent limit (b.setRing (b.ring.release l) none) { h with released := h.released + 1 } := by
  rcases hc.unread_eq hheld with ⟨rest, hcons, hrest, hlt⟩
  rcases hc.held l hheld with ⟨hholds, -⟩
  have hsound := hc.sound
  rw [hcons] at hsound
  refine ⟨?_, hc.asked.release l, hc.checked, ?_, hlt, ?_⟩
  · rw [History.unread, hrest]
    exact hsound.release hholds
  · exact (limit_moveRead b.ring l.next).trans hc.limit_eq
  · intro l' hl'
    cases hl'

/-- The ring once its request was dealt with, or the thread has ended over it. -/
theorem dealtWith (hc : Coherent limit b h) {r : Ring}
    (hring : r = b.ring ∨ Sound r h.unread ∧ r.request = none ∧ r.limit = b.ring.limit) :
    Coherent limit (b.setRing r none) h := by
  rcases hring with rfl | ⟨hsound, hnone, hlimit⟩
  · refine ⟨hc.sound, hc.asked, hc.checked, hc.limit_eq, hc.released_le, ?_⟩
    intro l hl
    cases hl
  · refine ⟨hsound, .of_none hnone, hc.checked, hlimit.trans hc.limit_eq, hc.released_le, ?_⟩
    intro l hl
    cases hl

/-- Every use keeps ring and history together. -/
theorem use (hc : Coherent limit b h) (hlimit : limit + 3 ≤ 2 ^ 31 - 1) {u : Bench.Use}
    (huse : b.use? u = some b') : Coherent limit b' (h.after b u) := by
  cases Bench.uses_of_use? huse with
  | @call call _ =>
    cases call with
    | push payload =>
      exact hc.extend (Channel.submit_push_extends hc.sound hc.asked (hc.notesPad hlimit payload))
    | grow capacity =>
      -- A grow extends the list by nothing, and the history does not note it.
      have hextended := hc.extend (Channel.submit_grow_extends hc.sound hc.asked capacity)
      have hsame : h.accept [] = h := by
        simp only [History.accept, List.append_nil]
      rwa [hsame] at hextended
  | resume =>
    exact hc.extend (Channel.resume_extends hc.sound hc.asked fun payload _ => hc.notesPad hlimit payload)
  | pop _ hfound =>
    rcases hc.sound.pop_outcome hc.asked with ⟨record, r, hpop, hfinds, hnone, hring⟩ |
      ⟨e, r, hpop, -⟩ | hpop <;> rw [hpop] at hfound ⊢ <;> cases hfound
    exact hc.find hfinds hnone hring
  | popFails _ hfault =>
    rcases hc.sound.pop_outcome hc.asked with ⟨record, r, hpop, -⟩ |
      ⟨e, r, hpop, hsound, hnone, hring⟩ | hpop <;> rw [hpop] at hfault ⊢ <;> cases hfault
    · exact hc.dealtWith (.inr ⟨hsound, hnone, hring⟩)
    · exact hc.dealtWith (.inl rfl)
  | drop hheld => exact hc.giveUp hheld
  | unread _ =>
    -- The record goes back by nothing being written at all.
    refine ⟨hc.sound, hc.asked, hc.checked, hc.limit_eq, hc.released_le, ?_⟩
    intro l' hl'
    cases hl'
  | serve _ hq =>
    rcases hc.sound.serve_outcome hc.asked hq with ⟨r, hserve, hsound, hnone, hring⟩ |
      ⟨e, r, hserve, hsound, hnone, hring⟩ | hserve <;> rw [hserve]
    · exact hc.dealtWith (.inr ⟨hsound, hnone, hring⟩)
    · exact hc.dealtWith (.inr ⟨hsound, hnone, hring⟩)
    · exact hc.dealtWith (.inl rfl)

theorem reopen (hc : Coherent limit b h) (hlimit : limit + 3 ≤ 2 ^ 31 - 1) {d : Disk}
    {path : String} {hint : Nat} (hoffers : d.Offers path b.ring.image)
    (hreach : Options.WithinReach ⟨hint, limit, some path⟩ b.ring.image) :
    ∃ r, (d.openRing ⟨hint, limit, some path⟩).1 = .ok r ∧ Coherent limit (.ofRing r) h ∧
      b.ring.capacity ≤ r.capacity ∧ hint ≤ r.capacity := by
  have hchecked := hc.checked
  rw [← hc.limit_eq] at hchecked hlimit hreach
  rcases hc.sound.reopen hchecked hlimit hoffers hreach with
    ⟨r, hopen, hsound, hsame, hnone, hcapacity, hlarge⟩
  rw [hc.limit_eq] at hopen hsame
  exact ⟨r, hopen, coherent_ofRing hsound hc.checked hsame hnone hc.released_le, hcapacity, hlarge⟩

end Coherent

theorem Run.coherent {limit : Nat} {b : Bench} {h : History} (run : Run limit b h)
    (hlimit : limit + 3 ≤ 2 ^ 31 - 1) : Coherent limit b h := by
  induction run with
  | memory hopen =>
    rcases open_memory hopen with ⟨hsound, hsame, hnone⟩
    exact coherent_ofRing hsound (limit_of_openRing hopen) hsame hnone (Nat.le_refl _)
  | blank hoffers hblank hopen =>
    rcases open_blank hoffers hblank hopen with ⟨hsound, hsame, hnone⟩
    exact coherent_ofRing hsound (limit_of_openRing hopen) hsame hnone (Nat.le_refl _)
  | use _ huse ih => exact ih.use hlimit huse
  | reopen _ _ hoffers hopen ih =>
    rcases ih.reopen hlimit hoffers (withinReach_of_openRing hoffers hopen) with
      ⟨r', hopen', hcoherent, -, -⟩
    cases hopen.symm.trans hopen'
    exact hcoherent

/-! ## A run whose backlog wraps -/

/-- Two records and, after the first was given up, a third one behind four bytes of padding. -/
theorem exists_wrapped_run :
    ∃ b h, Run 12 b h ∧ h.unread = [List.replicate 10 2, List.replicate 10 3] ∧
      b.held = none ∧ b.ring.request = none ∧ b.ring.write = 46 ∧ b.ring.capacity = 32 ∧
      b.ring.backing = .file "q" := by
  have hopen : (({} : Disk).openRing ⟨1, 12, some "q"⟩).1 =
      .ok (ofHeader "q" (({} : Image).resize 56) 32 12 {}) :=
    (openRing_of_offers Disk.offers_new_file rfl).trans rfl
  have opened := Run.blank Disk.offers_new_file rfl hopen
  have first := opened.use (u := .call (.push (List.replicate 10 1))) rfl
  have second := first.use (u := .call (.push (List.replicate 10 2))) rfl
  have popped := second.use (u := .pop) rfl
  have dropped := popped.use (u := .drop) rfl
  have wrapped := dropped.use (u := .call (.push (List.replicate 10 3))) rfl
  exact ⟨_, _, wrapped, by decide +kernel, rfl, rfl, by decide +kernel, by decide +kernel, rfl⟩

/-! ## The queue and its bytes -/

/-- At every point of every run the ring is the queue of what was accepted and not given up: the
backlog and the frames list it, the record on loan is its head, and a pop finds its head and changes
nothing. -/
theorem fifo_of_run {limit : Nat} {b : Bench} {h : History} (run : Run limit b h)
    (hlimit : limit + 3 ≤ 2 ^ 31 - 1) :
    b.ring.backlog.payloads = h.unread ∧ b.ring.backlog.defect = none ∧
      b.ring.linearize = .ok (h.unread.flatMap View.encodeFrame) ∧
      (∀ l, b.held = some l → h.unread.head? = some l.payload ∧ b.ring.leased l = l.payload) ∧
      (b.held = none → b.ring.WithinReach →
        ∃ record r, b.ring.pop = (.ok record, r) ∧ record.map Lease.payload = h.unread.head? ∧
          r.backlog.payloads = h.unread ∧ r.backlog.defect = none) := by
  have hc := run.coherent hlimit
  rcases hc.sound.backlog with ⟨hpayloads, hdefect⟩
  refine ⟨hpayloads, hdefect, hc.sound.linearize, ?_, ?_⟩
  · -- The record on loan is still in the ring, and its bytes are still there.
    intro l hl
    rcases hc.held l hl with ⟨hholds, hhead⟩
    rcases hc.unread_eq hl with ⟨rest, hcons, -, -⟩
    have hsound := hc.sound
    rw [hcons] at hsound
    exact ⟨hhead, hsound.leased hholds⟩
  · intro _ hreach
    rcases hc.sound.pop hc.asked hreach with ⟨record, r, hpop, hfinds, -, -⟩
    rcases hfinds.sound.backlog with ⟨hpayloads', hdefect'⟩
    exact ⟨record, r, hpop, hfinds.head, hpayloads', hdefect'⟩

theorem fifo_of_run_wrapped :
    ∃ b h, Run 12 b h ∧ b.ring.write = 46 ∧ b.ring.capacity = 32 ∧
      b.ring.backlog.payloads = [List.replicate 10 2, List.replicate 10 3] ∧
      ∃ record r, b.ring.pop = (.ok record, r) ∧
        record.map Lease.payload = some (List.replicate 10 2) := by
  rcases exists_wrapped_run with ⟨b, h, run, hunread, hheld, hnone, hwrite, hcapacity, -⟩
  rcases fifo_of_run run (by decide) with ⟨hpayloads, -, -, -, hpop⟩
  rcases hpop hheld (fun q hq => by cases hnone.symm.trans hq) with ⟨record, r, hpop, hhead, -, -⟩
  rw [hunread] at hpayloads hhead
  exact ⟨b, h, run, hwrite, hcapacity, hpayloads, record, r, hpop, hhead⟩

/-- At every point of every run the bytes of the ring are a header that describes it, without a mark,
and the ring bytes; and once the ring is closed its file opens again, with as much room as there was
and as is asked for, to the same backlog. -/
theorem durable_of_run {limit : Nat} {b : Bench} {h : History} (run : Run limit b h)
    (hlimit : limit + 3 ≤ 2 ^ 31 - 1) :
    b.ring.image.size = 24 + b.ring.capacity ∧
      b.ring.image.slice 0 24 = Header.encode ⟨b.ring.write, b.ring.read, b.ring.dirty⟩ ∧
      Header.resizeInterrupted (b.ring.image.slice 0 24) = false ∧
      Header.validate ⟨b.ring.write, b.ring.read, b.ring.dirty⟩ b.ring.capacity = .ok () ∧
      ∀ (d : Disk) (path name : String) (hint : Nat), b.ring.backing = .file path →
        d.fileName? path = some name → (d.locked.erase name).contains name = false →
        hint ≤ 2 ^ 62 →
        ∃ r, (((d.save b.ring).unlock b.ring).openRing ⟨hint, limit, some path⟩).1 = .ok r ∧
          IsPowerOfTwo r.capacity ∧ b.ring.capacity ≤ r.capacity ∧ hint ≤ r.capacity ∧
          r.backlog.payloads = b.ring.backlog.payloads ∧ r.backlog.defect = none := by
  have hc := run.coherent hlimit
  have hheader : b.ring.image.slice 0 24 = b.ring.header.encode := hc.sound.slice_header
  refine ⟨hc.sound.size, hheader, ?_, hc.sound.validate_header, ?_⟩
  · rw [hheader]
    exact resizeInterrupted_encode _
  · -- What is reopened is the same history, so both backlogs list the same records.
    intro d path name hint hbacking hfile halone hhint
    have hoffers := Disk.offers_close hbacking hfile halone
    have hreach := withinReach_of_le (o := ⟨hint, limit, some path⟩) hhint
      (checkRecordLimit_eq_ok.1 hc.checked).2 b.ring.image
    rcases hc.reopen hlimit hoffers hreach with ⟨r, hopen, hcoherent, hcapacity, hlarge⟩
    have hsound : Sound r h.unread := hcoherent.sound
    rcases hsound.backlog with ⟨hpayloads, hdefect⟩
    refine ⟨r, hopen, hsound.powerOfTwo, hcapacity, hlarge, ?_, hdefect⟩
    rw [hpayloads, hc.sound.backlog.1]

theorem durable_of_run_wrapped :
    ∃ b h, Run 12 b h ∧ b.ring.write = 46 ∧ b.ring.image.size = 56 ∧
      ∃ r, (((({ files := [("q", {})], locked := ["q"] } : Disk).save b.ring).unlock
          b.ring).openRing ⟨100, 12, some "q"⟩).1 = .ok r ∧ 100 ≤ r.capacity ∧
        r.backlog.payloads = [List.replicate 10 2, List.replicate 10 3] := by
  rcases exists_wrapped_run with ⟨b, h, run, hunread, -, -, hwrite, hcapacity, hbacking⟩
  rcases durable_of_run run (by decide) with ⟨hsize, -, -, -, hopen⟩
  have hfile : ({ files := [("q", {})], locked := ["q"] } : Disk).fileName? "q" = some "q" := by
    simp only [Disk.fileName?, Disk.locate_single]
  rcases hopen { files := [("q", {})], locked := ["q"] } "q" "q" 100 hbacking hfile rfl
    (by decide) with ⟨r, hr, -, -, hlarge, hpayloads, -⟩
  rw [hcapacity] at hsize
  rw [(run.coherent (by decide)).sound.backlog.1, hunread] at hpayloads
  exact ⟨b, h, run, hwrite, hsize, r, hr, hlarge, hpayloads⟩

end Ring
end WriteBehind
