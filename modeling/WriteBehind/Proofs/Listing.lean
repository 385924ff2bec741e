import WriteBehind.CommandLine.Run
import WriteBehind.Proofs.Compact
import WriteBehind.Proofs.Inspection
import WriteBehind.Proofs.Ring.LastLap

/-!
# Listing — a limit on the listed records takes nothing else away

An inspection reads all unread records, however few of them it keeps, so that whatever is wrong behind
the kept ones is reported as well.

* `Inspection.Tally.read_of_le` compares two tallies of the same frames;
* `Inspection.listing_cases`: a file has one report and one list of records, of which any limit leaves
  the first ones, or the walk over it ends over a sum that no word holds, whatever the limit is;
* `CommandLine.truncated_of_limit` says what follows for the commands: `info`, which lists nothing, and
  `dump` with any limit fail on the same files, and what `dump` prints about them on standard error does
  not depend on the limit either.
-/

namespace WriteBehind

open WriteBehind.Ring (Frame Header)

namespace Inspection

/-! ## Two limits -/

/-- Of the same frames a tally reads as many and ends with the same issue if it is to keep fewer of them,
and those that it keeps are the first ones of the others. -/
theorem Tally.read_of_le {m n : Nat} (hle : m ≤ n) (frames : List Frame) :
    (Tally.read m {} frames).2 = (Tally.read n {} frames).2 ∧
      (Tally.read m {} frames).1.count = (Tally.read n {} frames).1.count ∧
      (Tally.read m {} frames).1.kept.toList =
        (Tally.read n {} frames).1.kept.toList.take m := by
  -- Both cover what the frames are decoded to.
  rcases (Tally.Covers.empty m).read frames with ⟨hfew, hissue⟩
  rcases (Tally.Covers.empty n).read frames with ⟨hmany, hissue'⟩
  refine ⟨hissue.trans hissue'.symm, hfew.count_eq.trans hmany.count_eq.symm, ?_⟩
  rw [hfew.kept_eq, hmany.kept_eq, List.take_take, Nat.min_eq_left hle]

/-! ## One list of records -/

/-- The unread frames of a file in the order of the queue.  There are none where the header is not
believed. -/
def unread (content : Image) (limit : Nat) : List Frame :=
  match Ring.readHeader content with
  | .error _ => []
  | .ok (h, _) => ((view content limit h).walk h.read h.write).frames

/-- A file has one report, and one list of all records in front of the first frame that cannot be decoded.
A limit leaves the first ones of them and changes nothing else.  Or else there is no report, since a sum
that no word holds has ended the walk, whatever the limit is. -/
theorem listing_cases (path : String) (inUse : Bool) (content : Image) (limit : Nat) :
    (∀ keep, ofContent path inUse content limit keep = .error .overflow) ∨
    ∃ (i : Inspection) (entries : List Entry), i.recordCount = entries.length ∧
      Lists entries ((unread content limit).takeWhile decodes) ∧
      ∀ keep, ofContent path inUse content limit keep = .ok { i with entries := entries.take keep } := by
  cases hread : Ring.readHeader content with
  | error cause =>
    rcases ofContent_of_error limit hread path inUse with ⟨issue, header, -, hreport⟩
    refine .inr ⟨{ path, fileSize := content.size, inUse, header, issue := some issue }, [], rfl, ?_, ?_⟩
    · rw [unread, hread]
      rfl
    · -- There is nothing to list, and a limit does not matter.
      intro keep
      rw [hreport keep, List.take_nil]
  | ok found =>
    rcases found with ⟨h, capacity⟩
    have hlists := lists_decodeFrames ((view content limit h).walk h.read h.write).frames
    rw [← walk_fst] at hlists
    rcases ofContent_of_ok limit hread path inUse with ⟨-, hover⟩ | ⟨-, hreport⟩
    · exact .inl hover
    · let listed := walk (view content limit h) h
      refine .inr ⟨{
        path
        fileSize := content.size
        inUse
        header := h
        issue := listed.2
        recordCount := listed.1.length }, listed.1, rfl, ?_, hreport⟩
      rw [unread, hread]
      exact hlists

/-! ## What is met at a path -/

/-- An inspection fails in the same way for all limits, or the file has one report and one list of records. -/
theorem ofAccess_cases (path : String) (a : Disk.Access) (limit : Nat) :
    (∃ fault, ∀ keep, ofAccess path a limit keep = .error fault) ∨
    ∃ (content : Image) (i : Inspection) (entries : List Entry), a.content = .ok content ∧
      i.recordCount = entries.length ∧ Lists entries ((unread content limit).takeWhile decodes) ∧
      ∀ keep, ofAccess path a limit keep = .ok { i with entries := entries.take keep } := by
  simp only [ofAccess]
  cases Ring.checkRecordLimit limit with
  | error cause => exact .inl ⟨_, fun _ => rfl⟩
  | ok _ =>
    cases a.opened with
    | error e => exact .inl ⟨_, fun _ => rfl⟩
    | ok _ =>
      cases hcontent : a.content with
      | error e => exact .inl ⟨_, fun _ => rfl⟩
      | ok content =>
        rcases listing_cases path a.inUse content limit with hover | ⟨i, entries, hcount, hlists, hreport⟩
        · refine .inl ⟨Cause.overflow.fault, ?_⟩
          intro keep
          dsimp only
          rw [hover keep]
          rfl
        · refine .inr ⟨content, i, entries, rfl, hcount, hlists, ?_⟩
          intro keep
          dsimp only
          rw [hreport keep]
          rfl

end Inspection

/-! ## Commands -/

namespace CommandLine

open Inspection (ofAccess unread decodes Tally)

/-- An issue is reported without a look at the records. -/
theorem issueReport_entries (i : Inspection) (entries : List Entry) (issue : Issue) :
    issueReport { i with entries } issue = issueReport i issue := rfl

/-- Nothing is listed where there is a fault. -/
theorem stdout_ofFault (f : Fault) : (Outcome.ofFault f).stdout = "" := by
  simp only [Outcome.ofFault]
  split <;> rfl

/-- The exit codes, and what `dump` prints on standard error, come from other parts of a report than the
records. -/
theorem dump_cases (i : Inspection) (entries : List Entry) :
    (dump (.ok { i with entries })).exit = (info (.ok i)).exit ∧
      (dump (.ok { i with entries })).stderr = (dump (.ok i)).stderr ∧
      AreLines (dump (.ok { i with entries })).stdout (entries.map fun e => e.toJson.compact) := by
  have hlines := areLines_join entries Entry.toJson
  simp only [dump, info, issueReport_entries]
  cases i.issue with
  | none => exact ⟨rfl, rfl, hlines⟩
  | some issue => exact ⟨rfl, rfl, hlines⟩

/-- The frames that an inspection comes across are read the same way under two limits, however many of
them there are.  Of a file with any bytes, read with any record limit, the two limits give the same fault,
that of a sum that no word holds included, or reports that are equal but for the records: the smaller limit
lists the first ones of the others, and each lists as many as there are up to the limit.  `info` and `dump`
with any limit or none have the same exit code; exit code and standard error of `dump` are the same for all
limits; and its standard output has one line for each record that is listed, in the order of the queue: all
those in front of the first frame that cannot be decoded, up to the limit. -/
theorem truncated_of_limit (look : String → Disk.Access) (file : String) (limit : Nat) :
    (∀ m n frames, m ≤ n →
      (Tally.read m {} frames).2 = (Tally.read n {} frames).2 ∧
      (Tally.read m {} frames).1.count = (Tally.read n {} frames).1.count ∧
      (Tally.read m {} frames).1.kept.toList =
        (Tally.read n {} frames).1.kept.toList.take m) ∧
    (∀ m n, m ≤ n →
      (∃ fault, ofAccess file (look file) limit m = .error fault ∧
        ofAccess file (look file) limit n = .error fault) ∨
      ∃ i, ofAccess file (look file) limit n = .ok i ∧
        ofAccess file (look file) limit m = .ok { i with entries := i.entries.take m } ∧
        i.entries.length = min n i.recordCount ∧
        (i.entries.take m).length = min m i.recordCount) ∧
    (∀ keep, (respond look (.info file limit)).exit = (respond look (.dump file limit keep)).exit) ∧
    (∀ keep keep', (respond look (.dump file limit keep)).exit =
        (respond look (.dump file limit keep')).exit ∧
      (respond look (.dump file limit keep)).stderr =
        (respond look (.dump file limit keep')).stderr) ∧
    ∀ keep : Option Nat,
      (∃ fault, ofAccess file (look file) limit (keep.getD unlimited) = .error fault ∧
        (respond look (.dump file limit keep)).stdout = "") ∨
      ∃ content i, (look file).content = .ok content ∧
        ofAccess file (look file) limit (keep.getD unlimited) = .ok i ∧
        i.recordCount = ((unread content limit).takeWhile decodes).length ∧
        Inspection.Lists i.entries (((unread content limit).takeWhile decodes).take (keep.getD unlimited)) ∧
        AreLines (respond look (.dump file limit keep)).stdout
          (i.entries.map fun e => e.toJson.compact) := by
  refine ⟨fun m n frames hle => Tally.read_of_le hle frames, ?_⟩
  simp only [respond]
  rcases Inspection.ofAccess_cases file (look file) limit with
    ⟨fault, hfault⟩ | ⟨content, i, entries, hcontent, hcount, hlists, hreport⟩
  · -- Both commands report the fault and print nothing else.
    refine ⟨?_, ?_, ?_, ?_⟩
    · exact fun m n _ => .inl ⟨fault, hfault m, hfault n⟩
    · intro keep
      rw [hfault, hfault]
      rfl
    · intro keep keep'
      rw [hfault, hfault]
      exact ⟨rfl, rfl⟩
    · intro keep
      refine .inl ⟨fault, hfault _, ?_⟩
      rw [hfault]
      exact stdout_ofFault fault
  · -- Every limit is put on the same list, so that one report is compared with itself.
    simp only [hreport]
    refine ⟨?_, ?_, ?_, ?_⟩
    · intro m n hle
      refine .inr ⟨_, rfl, ?_, ?_, ?_⟩
      · rw [List.take_take, Nat.min_eq_left hle]
      · rw [List.length_take, ← hcount]
      · rw [List.take_take, Nat.min_eq_left hle, List.length_take, ← hcount]
    · intro keep
      rw [(dump_cases i (entries.take (keep.getD unlimited))).1]
      rfl
    · intro keep keep'
      rcases dump_cases i (entries.take (keep.getD unlimited)) with ⟨hexit, hstderr, -⟩
      rcases dump_cases i (entries.take (keep'.getD unlimited)) with ⟨hexit', hstderr', -⟩
      exact ⟨hexit.trans hexit'.symm, hstderr.trans hstderr'.symm⟩
    · intro keep
      refine .inr ⟨content, _, hcontent, rfl, hcount.trans hlists.length_eq, ?_,
        (dump_cases i (entries.take (keep.getD unlimited))).2.2⟩
      rw [Inspection.Lists, List.map_take, List.map_take, show List.map _ entries = _ from hlists]

/-- Two records, and a length prefix of zero behind them. -/
def twoRecords : Disk :=
  { files := [("q", Ring.fileOf ⟨51, 0, 0⟩ (Ring.jobFrame ++ Ring.jobFrame))] }

theorem truncated_of_limit_twoRecords :
    1 ≤ 10 ∧ ∃ i, ofAccess "q" (twoRecords.access "q") 16 10 = .ok i ∧
      ofAccess "q" (twoRecords.access "q") 16 1 = .ok { i with entries := i.entries.take 1 } ∧
      i.recordCount = 2 ∧ i.entries.length = 2 ∧ i.issue = some (.frame (.frameLength 0 34)) := by
  have hle : 1 ≤ 10 := by decide
  refine ⟨hle, ?_⟩
  have hfile := Disk.hasFile_single (Ring.fileOf ⟨51, 0, 0⟩ (Ring.jobFrame ++ Ring.jobFrame))
  have hinspect : twoRecords.inspect "q" 16 10 = _ := hfile.inspect_eq rfl 10
  have hreport : (twoRecords.inspect "q" 16 10).map
      (fun i => (i.recordCount, i.entries.length, i.issue)) =
        .ok (2, 2, some (.frame (.frameLength 0 34))) := by
    rw [hinspect]
    decide +kernel
  rcases (truncated_of_limit twoRecords.access "q" 16).2.1 1 10 hle with
    ⟨fault, -, hfault⟩ | ⟨i, hmany, hfew, -, -⟩
  · rw [Disk.inspect, hfault] at hreport
    cases hreport
  · rw [Disk.inspect, hmany] at hreport
    rcases Prod.mk.inj (Except.ok.inj hreport) with ⟨hcount, hrest⟩
    rcases Prod.mk.inj hrest with ⟨hlength, hissue⟩
    exact ⟨i, hmany, hfew, hcount, hlength, hissue⟩

end CommandLine
end WriteBehind
