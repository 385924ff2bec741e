import Mathlib.Control.Monad.Basic
import WriteBehind.Inspection.Printer
import WriteBehind.Proofs.Record
import WriteBehind.Proofs.Ring.Drain

/-!
# Inspection — a report tells what taking the records would come to

An inspection walks over the bytes of a file once and opens nothing.  What it reports is what opening
the file and taking its records would come to, whatever the bytes are.

* `Inspection.decodeFrames` and `Inspection.walk` are what an inspection comes to where all records are kept,
  and `Inspection.tally_cases` says that it comes to the same with fewer;
* `Inspection.walk_cases` says what an inspection makes of the frames that a walk has met;
* `inspect_agrees`: a file is reported to be sound just where it opens and gives all its records, and
  the report counts and lists the records that could be taken.
-/

namespace WriteBehind

open WriteBehind.Ring (Frame Header Drains)

namespace Inspection

theorem status_eq_ok {i : Inspection} : i.status = "ok" ↔ i.issue = none := by
  rw [status, ← Option.isNone_iff_eq_none]
  cases i.issue.isNone <;> decide

/-! ## Decoding -/

/-- Decodes records up to the first one that cannot be. -/
def decodeFrames : List Ring.Frame → List Entry × Option Issue
  | [] => ([], none)
  | f :: fs =>
    match Record.unpack f.payload with
    | .error cause => ([], some (.record cause f.counter))
    | .ok job =>
      let (entries, issue) := decodeFrames fs
      (⟨f.counter, job⟩ :: entries, issue)

/-- Whether the payload of a frame is a record that can be decoded. -/
def decodes (f : Frame) : Bool := (Record.unpack f.payload).isOk

/-- The unread records that can be decoded, and the issue behind them. -/
def walk (v : Ring.View) (h : Header) : List Entry × Option Issue :=
  let trail := v.walk h.read h.write
  match decodeFrames trail.frames with
  | (entries, some issue) => (entries, some issue)
  | (entries, none) => (entries, trail.defect.map .frame)

/-- The entries are the records of these frames. -/
def Lists (entries : List Entry) (frames : List Frame) : Prop :=
  entries.map (fun e => (e.counter, Except.ok e.job)) =
    frames.map fun f => (f.counter, Record.unpack f.payload)

/-- All frames are decoded, or the issue is with one of them. -/
theorem decodeFrames_cases (frames : List Frame) :
    (∃ entries, decodeFrames frames = (entries, none) ∧ Lists entries frames) ∨
    (∃ entries f cause, decodeFrames frames = (entries, some (.record cause f.counter)) ∧
      f ∈ frames ∧ Record.unpack f.payload = .error cause) := by
  induction frames with
  | nil => exact .inl ⟨[], rfl, rfl⟩
  | cons f frames ih =>
    cases hunpack : Record.unpack f.payload with
    | error cause =>
      refine .inr ⟨[], f, cause, ?_, List.mem_cons_self, hunpack⟩
      simp only [decodeFrames, hunpack]
    | ok job =>
      rcases ih with ⟨entries, hdecode, hlists⟩ | ⟨entries, f', cause, hdecode, hmem, herror⟩
      · refine .inl ⟨⟨f.counter, job⟩ :: entries, ?_, ?_⟩
        · simp only [decodeFrames, hunpack, hdecode]
        · rw [Lists, List.map_cons, List.map_cons, hunpack, show List.map _ entries = _ from hlists]
      · refine .inr ⟨⟨f.counter, job⟩ :: entries, f', cause, ?_, List.mem_cons_of_mem f hmem, herror⟩
        simp only [decodeFrames, hunpack, hdecode]

namespace Lists

variable {entries : List Entry} {frames : List Frame}

theorem length_eq (h : Lists entries frames) : entries.length = frames.length := by
  have hlength := congrArg List.length h
  rwa [List.length_map, List.length_map] at hlength

theorem jobs_eq (h : Lists entries frames) :
    entries.map (fun e => Except.ok e.job) = (frames.map Frame.payload).map Record.unpack := by
  have hjobs := congrArg (List.map Prod.snd) h
  rw [List.map_map, List.map_map] at hjobs
  rw [List.map_map]
  exact hjobs

theorem decodable (h : Lists entries frames) {payload : Bytes}
    (hmem : payload ∈ frames.map Frame.payload) : Record.Decodable payload := by
  have hunpack : Record.unpack payload ∈ entries.map fun e => Except.ok e.job := by
    rw [h.jobs_eq]
    exact List.mem_map_of_mem hmem
  rcases List.mem_map.1 hunpack with ⟨e, -, he⟩
  exact ⟨e.job, he.symm⟩

end Lists

/-- The records that are decoded are those in front of the first one that cannot be. -/
theorem lists_decodeFrames (frames : List Frame) :
    Lists (decodeFrames frames).1 (frames.takeWhile decodes) := by
  induction frames with
  | nil => rfl
  | cons f frames ih =>
    cases hunpack : Record.unpack f.payload with
    | error cause =>
      have hstop : decodes f = false := by rw [decodes, hunpack]; rfl
      rw [List.takeWhile_cons_of_neg (by rw [hstop]; decide)]
      simp only [decodeFrames, hunpack]
      rfl
    | ok job =>
      have hgo : decodes f = true := by rw [decodes, hunpack]; rfl
      rw [List.takeWhile_cons_of_pos hgo]
      simp only [decodeFrames, hunpack]
      rw [Lists, List.map_cons, List.map_cons, hunpack, show List.map _ _ = _ from ih]

/-! ## Tallies -/

/-- A tally of these records, of which it was to keep so many. -/
structure Tally.Covers (keep : Nat) (t : Tally) (entries : List Entry) : Prop where
  count_eq : t.count = entries.length
  kept_eq : t.kept.toList = entries.take keep

namespace Tally.Covers

variable {keep : Nat} {t : Tally} {entries : List Entry}

theorem empty (keep : Nat) : Covers keep {} [] := ⟨rfl, List.take_nil.symm⟩

/-- It counts a record that it has no room for. -/
theorem add (h : Covers keep t entries) (e : Entry) :
    Covers keep (t.add keep e) (entries ++ [e]) := by
  have hsize : t.kept.size = min keep entries.length := by
    rw [← Array.length_toList, h.kept_eq, List.length_take]
  refine ⟨?_, ?_⟩
  · rw [Tally.add, h.count_eq, List.length_append, List.length_singleton]
  · rw [Tally.add]
    by_cases hroom : entries.length < keep
    · rw [if_pos (by omega), Array.toList_push, h.kept_eq, List.take_of_length_le (by omega),
        List.take_of_length_le (by rw [List.length_append, List.length_singleton]; omega)]
    · rw [if_neg (by omega), h.kept_eq, List.take_append_of_le_length (by omega)]

/-- Reading goes as far as decoding does, however many records are kept. -/
theorem read (h : Covers keep t entries) (frames : List Frame) :
    Covers keep (t.read keep frames).1 (entries ++ (decodeFrames frames).1) ∧
      (t.read keep frames).2 = (decodeFrames frames).2 := by
  induction frames generalizing t entries with
  | nil =>
    rw [decodeFrames, List.append_nil]
    exact ⟨h, rfl⟩
  | cons f frames ih =>
    cases hunpack : Record.unpack f.payload with
    | error cause =>
      simp only [Tally.read, decodeFrames, hunpack, List.append_nil]
      exact ⟨h, trivial⟩
    | ok job =>
      simp only [Tally.read, decodeFrames, hunpack]
      have hrest := ih (h.add ⟨f.counter, job⟩)
      rwa [List.append_assoc, List.singleton_append] at hrest

end Tally.Covers

/-- Whatever is kept, the same frames are read. -/
theorem Tally.exists_read (keep : Nat) (frames : List Frame) :
    ∃ t, Tally.read keep {} frames = (t, (decodeFrames frames).2) ∧
      t.Covers keep (decodeFrames frames).1 := by
  rcases (Covers.empty keep).read frames with ⟨hcovers, hissue⟩
  rw [List.nil_append] at hcovers
  exact ⟨_, Prod.ext rfl hissue, hcovers⟩

/-- A walk over counters that no word holds ends a tally.  Any other tally covers what can be decoded, and
ends with the same issue. -/
theorem tally_cases (v : Ring.View) (h : Header) :
    ((walk v h).2 = some (.frame .overflow) ∧ ∀ keep, tally v h keep = .error .overflow) ∨
    ((walk v h).2 ≠ some (.frame .overflow) ∧
      ∀ keep, ∃ t, tally v h keep = .ok (t, (walk v h).2) ∧ t.Covers keep (walk v h).1) := by
  have hread := fun keep => Tally.exists_read keep (v.walk h.read h.write).frames
  simp only [tally, walk]
  rcases decodeFrames_cases (v.walk h.read h.write).frames with
    ⟨entries, hdecode, -⟩ | ⟨entries, f, cause, hdecode, -⟩ <;> simp only [hdecode] at hread ⊢
  · by_cases hover : (v.walk h.read h.write).defect = some .overflow
    · refine .inl ⟨by rw [hover]; rfl, ?_⟩
      intro keep
      rcases hread keep with ⟨t, ht, -⟩
      rw [ht]
      exact if_pos hover
    · refine .inr ⟨?_, ?_⟩
      · simpa using hover
      · intro keep
        rcases hread keep with ⟨t, ht, hcovers⟩
        rw [ht]
        exact ⟨t, if_neg hover, hcovers⟩
  · -- The records end before the walk does.
    refine .inr ⟨by simp, ?_⟩
    intro keep
    rcases hread keep with ⟨t, ht, hcovers⟩
    rw [ht]
    exact ⟨t, rfl, hcovers⟩

/-- The issue of a walk is a record that cannot be decoded, or else the walk's own defect. -/
theorem walk_cases (v : Ring.View) (h : Header) :
    (∃ entries, walk v h = (entries, (v.walk h.read h.write).defect.map .frame) ∧
      Lists entries (v.walk h.read h.write).frames) ∨
    (∃ entries f cause, walk v h = (entries, some (.record cause f.counter)) ∧
      f ∈ (v.walk h.read h.write).frames ∧ Record.unpack f.payload = .error cause) := by
  rcases decodeFrames_cases (v.walk h.read h.write).frames with
    ⟨entries, hdecode, hlists⟩ | ⟨entries, f, cause, hdecode, hmem, herror⟩
  · refine .inl ⟨entries, ?_, hlists⟩
    simp only [walk, hdecode]
  · refine .inr ⟨entries, f, cause, ?_, hmem, herror⟩
    simp only [walk, hdecode]

theorem walk_fst (v : Ring.View) (h : Header) :
    (walk v h).1 = (decodeFrames (v.walk h.read h.write).frames).1 := by
  simp only [walk]
  rcases decodeFrames (v.walk h.read h.write).frames with ⟨entries, _ | issue⟩ <;> rfl

/-- A frame is blamed for what is wrong with it. -/
theorem defect_of_walk {v : Ring.View} {h : Header} {cause : Cause}
    (hissue : (walk v h).2 = some (.frame cause)) : (v.walk h.read h.write).defect = some cause := by
  rcases walk_cases v h with ⟨entries, hwalk, -⟩ | ⟨entries, f, cause', hwalk, -, -⟩
  · rw [hwalk] at hissue
    rcases Option.map_eq_some_iff.1 hissue with ⟨_, hdefect, ⟨⟩⟩
    exact hdefect
  · rw [hwalk] at hissue
    cases hissue

/-! ## Headers -/

section Headers

variable {content : Image}

/-- The same is reported of a header that is not believed, however many records are to be kept. -/
theorem ofContent_of_error (limit : Nat) {cause : Cause}
    (hread : Ring.readHeader content = .error cause) (path : String) (inUse : Bool) :
    ∃ (issue : Issue) (header : Header), issue.code = "corrupt" ∧
      ∀ keep, ofContent path inUse content limit keep =
        .ok { path, fileSize := content.size, inUse, header, issue := some issue } := by
  simp only [ofContent]
  by_cases hlong : content.size ≤ Header.size
  · simp only [if_pos hlong]
    exact ⟨.tooShort, {}, rfl, fun _ => rfl⟩
  · simp only [if_neg hlong]
    by_cases hmark : Header.resizeInterrupted (content.slice 0 Header.size) = true
    · simp only [if_pos hmark]
      exact ⟨.resizeInterrupted, {}, rfl, fun _ => rfl⟩
    · simp only [if_neg hmark]
      cases hdecode : Header.decode (content.slice 0 Header.size) with
      | error cause => exact ⟨.header cause, {}, rfl, fun _ => rfl⟩
      | ok h =>
        dsimp only
        cases hvalidate : h.validate (content.size - Header.size) with
        | error cause => exact ⟨.header cause, h, rfl, fun _ => rfl⟩
        | ok _ =>
          -- The order of the checks differs, but all of them are made in both places.
          have hcap := (Ring.validate_eq_ok hvalidate).1
          simp only [Ring.readHeader, if_neg hlong, if_neg (not_not_intro hcap), if_neg hmark,
            hdecode, hvalidate] at hread
          cases hread

/-- Behind a header that is believed the report shows the first ones of the records that can be decoded,
and counts all of them, unless the walk came to a counter that no word holds. -/
theorem ofContent_of_ok (limit : Nat) {h : Header} {capacity : Nat}
    (hread : Ring.readHeader content = .ok (h, capacity)) (path : String) (inUse : Bool) :
    ((walk (view content limit h) h).2 = some (.frame .overflow) ∧
      ∀ keep, ofContent path inUse content limit keep = .error .overflow) ∨
    ((walk (view content limit h) h).2 ≠ some (.frame .overflow) ∧
      ∀ keep, ofContent path inUse content limit keep = .ok
        { path, fileSize := content.size, inUse, header := h, issue := (walk (view content limit h) h).2,
          recordCount := (walk (view content limit h) h).1.length,
          entries := (walk (view content limit h) h).1.take keep }) := by
  rcases Ring.readHeader_eq_ok hread with ⟨hsize, hcap, hmark, hdecode, hvalidate⟩
  have hpos := hcap.pos
  have hlong : ¬ content.size ≤ Header.size := by omega
  have hcapacity : content.size - Header.size = capacity := by omega
  simp only [ofContent, if_neg hlong, hmark, hdecode, hcapacity, hvalidate, Bool.false_eq_true,
    if_false]
  rcases tally_cases (view content limit h) h with ⟨hover, htally⟩ | ⟨hover, htally⟩
  · refine .inl ⟨hover, ?_⟩
    intro keep
    rw [htally keep]
    rfl
  · refine .inr ⟨hover, ?_⟩
    intro keep
    rcases htally keep with ⟨t, ht, hcovers⟩
    rw [ht, ← hcovers.count_eq, ← hcovers.kept_eq]
    rfl

/-- An inspection walks over what the opened ring would have as its backlog. -/
theorem walk_view (limit : Nat) (h : Header) {capacity : Nat}
    (hsize : content.size = Header.size + capacity) (path : String) :
    (view content limit h).walk h.read h.write =
      (Ring.ofHeader path content capacity limit h).backlog := by
  have hcapacity : content.size - Header.size = capacity := by omega
  rw [view, hcapacity]
  rfl

end Headers

end Inspection

/-! ## Reports and drains -/

/-- Under the path of a file that nobody holds, the bytes alone decide. -/
theorem Disk.HasFile.inspect_eq {d : Disk} {path : String} {content : Image} {limit : Nat}
    (h : d.HasFile path content) (hlimit : Ring.checkRecordLimit limit = .ok ()) (keep : Nat) :
    d.inspect path limit keep =
      (Inspection.ofContent path false content limit keep).mapError Cause.fault := by
  simp only [Disk.inspect, Inspection.ofAccess, hlimit, h.access_eq]

/-- A file that opens gives the frames that a walk meets.  It is reported to be sound, or for the
defect that ends the drain, or for a record that cannot be decoded. -/
inductive Verdict (keep : Nat) (i : Inspection) (r : Ring) (frames : List Frame) : Prop
  | sound {entries : List Entry} (hissue : i.issue = none)
      (hdrains : Drains r (frames.map Frame.payload) none) (hlists : Inspection.Lists entries frames)
      (hcount : i.recordCount = entries.length) (hentries : i.entries = entries.take keep)
  | defect {entries : List Entry} {cause : Cause} (hissue : i.issue = some (.frame cause))
      (hdrains : Drains r (frames.map Frame.payload) (some cause.fault))
      (hkind : cause.kind = .corrupt) (hlists : Inspection.Lists entries frames)
      (hcount : i.recordCount = entries.length)
  | record {f : Frame} {cause : Cause} {outcome : Option Fault}
      (hissue : i.issue = some (.record cause f.counter))
      (hdrains : Drains r (frames.map Frame.payload) outcome) (hmem : f ∈ frames)
      (hunpack : Record.unpack f.payload = .error cause)

section Agreement

variable {d : Disk} {path : String} {content : Image} {limit hint : Nat}

/-- What is reported of a file that nobody holds, and what opening it comes to. -/
theorem inspect_cases (hfile : d.HasFile path content) (hsome : content.size ≠ 0)
    (hlimit : Ring.checkRecordLimit limit = .ok ())
    (hword : ∀ h capacity, Ring.readHeader content = .ok (h, capacity) →
      h.write + capacity ≤ 2 ^ 64)
    (hreach : Ring.Options.WithinReach ⟨hint, limit, some path⟩ content) (keep : Nat) :
    ∃ i, d.inspect path limit keep = .ok i ∧
      ((i.issue ≠ none ∧ ∃ fault, (d.openRing ⟨hint, limit, some path⟩).1 = .error fault ∧
          fault.kind = .corrupt) ∨
        ∃ r frames, (d.openRing ⟨hint, limit, some path⟩).1 = .ok r ∧
          Verdict keep i r frames) := by
  rw [hfile.inspect_eq hlimit keep,
    Ring.openRing_of_offers hfile.offers (Ring.Options.check_eq_ok.2 ⟨hlimit, hreach.word⟩)]
  cases hread : Ring.readHeader content with
  | error cause =>
    rcases Inspection.ofContent_of_error limit hread path false with ⟨issue, header, -, hreport⟩
    rw [hreport keep]
    refine ⟨_, rfl, .inl ⟨Option.some_ne_none issue, ⟨cause, some path⟩, ?_,
      Ring.kind_of_readHeader hread⟩⟩
    rw [Ring.attach, if_neg hsome, hread]
  | ok found =>
    rcases found with ⟨h, capacity⟩
    rcases Ring.readHeader_eq_ok hread with ⟨hsize, hcap, -, -, -⟩
    have hwalk := Inspection.walk_view limit h hsize path
    have hcases := Inspection.walk_cases (Inspection.view content limit h) h
    have hattach := Ring.attach_cases path (o := ⟨hint, limit, some path⟩)
      (Ring.checkRecordLimit_eq_ok.1 hlimit).2 hread hreach
    -- Whatever is wrong with a frame, it is its bytes that are.
    have hkind : ∀ cause, (Ring.ofHeader path content capacity limit h).backlog.defect = some cause →
        cause.kind = .corrupt :=
      fun _ => Ring.View.kind_of_defect_of_le hcap (hword h capacity hread)
    rcases Inspection.ofContent_of_ok limit hread path false with ⟨hover, -⟩ | ⟨-, hreport⟩
    · have hdefect := Inspection.defect_of_walk hover
      rw [hwalk] at hdefect
      cases hkind _ hdefect
    rw [hreport keep]
    refine ⟨_, rfl, ?_⟩
    generalize Ring.ofHeader path content capacity limit h = opened at *
    rw [hwalk] at hcases
    rcases hattach with ⟨cause, hdefect, hattach⟩ | ⟨r, hattach, hdrains⟩
    · -- The walk that was to carry the frames over has found what the inspection finds.
      rw [hdefect] at hcases
      refine .inl ⟨?_, cause.fault, hattach, hkind cause hdefect⟩
      rcases hcases with ⟨entries, hverdict, -⟩ | ⟨entries, f, cause', hverdict, -, -⟩
      · rw [hverdict]
        exact Option.some_ne_none _
      · rw [hverdict]
        exact Option.some_ne_none _
    · refine .inr ⟨r, opened.backlog.frames, hattach, ?_⟩
      rcases hcases with ⟨entries, hverdict, hlists⟩ | ⟨entries, f, cause, hverdict, hmem, hunpack⟩
      · rw [hverdict]
        cases hdefect : opened.backlog.defect with
        | none =>
          rw [hdefect] at hdrains
          exact .sound rfl hdrains hlists rfl rfl
        | some cause =>
          rw [hdefect] at hdrains
          exact .defect rfl hdrains (hkind cause hdefect) hlists rfl
      · rw [hverdict]
        exact .record rfl hdrains hmem hunpack

/-- A file that nobody holds is reported to be sound just where it opens, gives record after record
until there is none, and all of them can be decoded.  The report then counts these records and lists
them in order.  Where it blames the header or a frame, the file does not open, or it fails after as
many records as the report has counted. -/
theorem inspect_agrees (hfile : d.HasFile path content) (hsome : content.size ≠ 0)
    (hlimit : Ring.checkRecordLimit limit = .ok ())
    (hword : ∀ h capacity, Ring.readHeader content = .ok (h, capacity) →
      h.write + capacity ≤ 2 ^ 64)
    (hreach : Ring.Options.WithinReach ⟨hint, limit, some path⟩ content) (keep : Nat) :
    ∃ i, d.inspect path limit keep = .ok i ∧
      (i.status = "ok" ↔ ∃ r payloads, (d.openRing ⟨hint, limit, some path⟩).1 = .ok r ∧
        Drains r payloads none ∧ ∀ payload ∈ payloads, Record.Decodable payload) ∧
      (i.status = "ok" → ∃ r payloads, (d.openRing ⟨hint, limit, some path⟩).1 = .ok r ∧
        Drains r payloads none ∧ i.recordCount = payloads.length ∧
        i.entries.map (fun e => Except.ok e.job) = (payloads.take keep).map Record.unpack) ∧
      (i.issue.map Issue.code = some "corrupt" →
        (∃ fault, (d.openRing ⟨hint, limit, some path⟩).1 = .error fault ∧
          fault.kind = .corrupt) ∨
        ∃ r payloads fault, (d.openRing ⟨hint, limit, some path⟩).1 = .ok r ∧
          Drains r payloads (some fault) ∧ fault.kind = .corrupt ∧
          payloads.length = i.recordCount) := by
  rcases inspect_cases hfile hsome hlimit hword hreach keep with
    ⟨i, hinspect, ⟨hissue, fault, hopen, hkind⟩ | ⟨r, frames, hopen, hverdict⟩⟩
  · -- Nothing is drained where nothing opens.
    refine ⟨i, hinspect, ?_, ?_, ?_⟩
    · rw [Inspection.status_eq_ok]
      refine ⟨fun hnone => absurd hnone hissue, ?_⟩
      rintro ⟨r, payloads, hopen', -⟩
      cases hopen.symm.trans hopen'
    · rw [Inspection.status_eq_ok]
      exact fun hnone => absurd hnone hissue
    · exact fun _ => .inl ⟨fault, hopen, hkind⟩
  · refine ⟨i, hinspect, ?_⟩
    rw [Inspection.status_eq_ok, hopen]
    cases hverdict with
    | sound hissue hdrains hlists hcount hentries =>
      refine ⟨⟨fun _ => ⟨r, _, rfl, hdrains, fun _ => hlists.decodable⟩, fun _ => hissue⟩, ?_, ?_⟩
      · refine fun _ => ⟨r, _, rfl, hdrains, ?_, ?_⟩
        · rw [hcount, hlists.length_eq, List.length_map]
        · rw [hentries, List.map_take, hlists.jobs_eq, List.map_take]
      · rw [hissue]
        intro hcode
        cases hcode
    | defect hissue hdrains hkind hlists hcount =>
      refine ⟨?_, ?_, fun _ => .inr ⟨r, _, _, rfl, hdrains, hkind, ?_⟩⟩
      · rw [hissue]
        refine ⟨fun hnone => (by cases hnone), ?_⟩
        rintro ⟨r', payloads, hsame, hdrains', -⟩
        cases hsame
        cases (hdrains.unique hdrains').2
      · rw [hissue]
        intro hnone
        cases hnone
      · rw [hcount, hlists.length_eq, List.length_map]
    | record hissue hdrains hmem hunpack =>
      refine ⟨?_, ?_, ?_⟩
      · rw [hissue]
        refine ⟨fun hnone => (by cases hnone), ?_⟩
        rintro ⟨r', payloads, hsame, hdrains', hdecodable⟩
        cases hsame
        rw [(hdrains.unique hdrains').1] at hdecodable
        rcases hdecodable _ (List.mem_map_of_mem hmem) with ⟨job, hjob⟩
        cases hunpack.symm.trans hjob
      · rw [hissue]
        intro hnone
        cases hnone
      · -- A record that cannot be decoded has a code of its own.
        rw [hissue]
        intro hcode
        simp [Issue.code] at hcode

end Agreement

/-- A record, and a length prefix of zero behind it. -/
def cutShort : Image :=
  ((Image.zeros 88).write 0 (Header.encode ⟨34, 0, 0⟩)).write 24
    (Ring.View.encodeFrame (Job.encode ⟨0, .incr, [[97]]⟩))

theorem inspect_agrees_cutShort :
    ∃ (r : Ring) (payloads : List Bytes) (fault : Fault),
      (({ files := [("q", cutShort)] } : Disk).openRing ⟨1, 16, some "q"⟩).1 = .ok r ∧
        Drains r payloads (some fault) ∧ fault.kind = .corrupt ∧ payloads.length = 1 := by
  have hread : Ring.readHeader cutShort = .ok (⟨34, 0, 0⟩, 64) := by decide +kernel
  have hword : ∀ h capacity, Ring.readHeader cutShort = .ok (h, capacity) →
      h.write + capacity ≤ 2 ^ 64 := by
    intro h capacity hread'
    cases hread.symm.trans hread'
    decide
  have hreach : Ring.Options.WithinReach ⟨1, 16, some "q"⟩ cutShort :=
    ⟨by decide, fun _ => by decide⟩
  have hfile := Disk.hasFile_single cutShort
  rcases inspect_agrees hfile (by decide) rfl hword hreach 10 with
    ⟨i, hinspect, -, -, hcorrupt⟩
  have hreport : ((Inspection.ofContent "q" false cutShort 16 10).mapError Cause.fault).map
      (fun i => (i.issue.map Issue.code, i.recordCount)) = .ok (some "corrupt", 1) := by decide +kernel
  rw [hfile.inspect_eq rfl 10] at hinspect
  rw [hinspect] at hreport
  rcases Prod.mk.inj (Except.ok.inj hreport) with ⟨hissue, hcount⟩
  rw [hcount] at hcorrupt
  rcases hcorrupt hissue with ⟨fault, hopen, -⟩ | hdrained
  · -- The header is believed, and the file is long enough as it is.
    have hopens : (Ring.attach "q" cutShort 64 16).1 = .ok (Ring.ofHeader "q" cutShort 64 16
        ⟨34, 0, 0⟩) := by
      simp only [Ring.attach, hread]
      rfl
    rw [Ring.openRing_of_offers hfile.offers rfl] at hopen
    cases hopens.symm.trans hopen
  · exact hdrained

end WriteBehind
