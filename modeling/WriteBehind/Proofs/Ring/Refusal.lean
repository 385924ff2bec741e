import WriteBehind.Host
import WriteBehind.Proofs.Disk
import WriteBehind.Proofs.Ring.Setback
import WriteBehind.Record

/-!
# Refusal — an open that fails leaves the file as it was

A queue file is refused for a record limit out of range, for its lock, for its length, its mark, its
counters or its frames, or because the system refuses a call.  Only where it has to grow anything is stored
before it can be refused, and that is undone.

* `Ring.attachOn_cases`: the four ways in which a file that holds something is attached or refused;
* `Disk.Holds d d' name image`: a file has these bytes, and everything else on the disk is as it was;
* `Disk.openRingOn_cases`: what the rest of an open does to the disk;
* `Disk.intact_of_open`: a file that is refused is intact, and so is one that is opened as it is.
-/

namespace WriteBehind

/-! ## One file -/

namespace Ring

section Attaching

variable (host : Host) (path : String) {content : Image} (requested limit : Nat)

/-- A file that holds something is refused before anything is stored, or while it grows; or it is attached,
grown or as it is. -/
theorem attachOn_cases (hsome : content.size ≠ 0) :
    (∃ fault, attachOn host path content requested limit = (.error fault, content)) ∨
    (∃ fault tried capacity, content.size = Header.size + capacity ∧ MarkClear content ∧
      Tried host.storage (Header.size + capacity) fault.cause tried ∧
      attachOn host path content requested limit =
        (.error fault, content.applyAll (setMark :: tried ++ [clearMark]))) ∨
    (∃ r, content.size - Header.size < requested ∧
      attachOn host path content requested limit = (.ok r, r.image)) ∨
    ∃ h capacity, readHeader content = .ok (h, capacity) ∧
      attachOn host path content requested limit =
        (.ok (ofHeader path content capacity limit h), content) := by
  simp only [attachOn, if_neg hsome]
  cases host.measures with
  | error e => exact .inl ⟨_, rfl⟩
  | ok _ =>
    cases checkLength content.size with
    | error cause => exact .inl ⟨_, rfl⟩
    | ok _ =>
      cases host.maps with
      | error e => exact .inl ⟨_, rfl⟩
      | ok _ =>
        rcases hread : readHeader content with cause | ⟨h, capacity⟩
        · exact .inl ⟨_, rfl⟩
        have hsize := (readHeader_eq_ok hread).1
        by_cases hmore : requested > capacity
        · simp only [if_pos hmore]
          rcases hresize : (ofHeader path content capacity limit h).resizeOn host.storage requested with
            ⟨fault | _, grown⟩
          · -- Either nothing was stored, or the mark was set and cleared again.
            rcases resizeOn_failed (congrArg Prod.fst hresize) with
              ⟨-, hfailed⟩ | ⟨tried, -, htried, hfailed⟩
            · cases hresize.symm.trans hfailed
              exact .inl ⟨fault, rfl⟩
            · cases hresize.symm.trans hfailed
              exact .inr (.inl ⟨fault, tried, capacity, hsize, markClear_of_readHeader hread, htried, rfl⟩)
          · exact .inr (.inr (.inl ⟨grown, by omega, rfl⟩))
        · simp only [if_neg hmore]
          exact .inr (.inr (.inr ⟨h, capacity, rfl, rfl⟩))

end Attaching

/-- The fault of an attempt that has failed. -/
def fault? {α : Type} : Except Fault α → Option Fault
  | .error fault => some fault
  | .ok _ => none

/-- What an attempt has failed for is known once it is known that it has failed. -/
theorem eq_error_of_fault? {α : Type} {attempt : Except Fault α} {fault : Fault}
    (h : fault? attempt = some fault) : attempt = .error fault := by
  cases attempt with
  | error other =>
    cases h
    rfl
  | ok a => cases h

end Ring

/-! ## The disk -/

namespace Disk

/-- On the second disk the file of this name has these bytes, and all other files and the directories are
those of the first. -/
structure Holds (d d' : Disk) (name : String) (image : Image) : Prop where
  file : d'.content? name = some image
  others : ∀ other, other ≠ name → d'.content? other = d.content? other
  directories : d'.directories = d.directories

section Opening

variable {d : Disk} {o : Ring.Options} {path name : String} {content : Image}

theorem Holds.refl (hcontent : d.content? name = some content) : d.Holds d name content :=
  ⟨hcontent, fun _ _ => rfl, rfl⟩

theorem holds_setContent (hcontent : d.content? name = some content) (image : Image)
    (locked : List String) : d.Holds { d.setContent name image with locked } name image := by
  have hexists : (d.content? name).isSome := Option.isSome_of_eq_some hcontent
  refine ⟨?_, ?_, ?_⟩
  · show (d.setContent name image).content? name = some image
    rw [content?_setContent hexists, if_pos (beq_self_eq_true name)]
  · intro other hother
    show (d.setContent name image).content? other = d.content? other
    rw [content?_setContent hexists, if_neg fun hname => hother (beq_iff_eq.1 hname)]
  · show (d.setContent name image).directories = d.directories
    rw [setContent, if_pos hexists]

theorem locked_setContent (hcontent : d.content? name = some content) (image : Image) :
    (d.setContent name image).locked = d.locked := by
  rw [setContent, if_pos (Option.isSome_of_eq_some hcontent)]

/-- An open is refused and leaves the disk as it is, or it comes to attaching the file. -/
theorem openRingOn_cases (host : Host) (hpath : o.path = some path)
    (hfile : d.locate .finding path = .ok (.file name)) (hcontent : d.content? name = some content) :
    (∃ fault, (d.openRingOn host o).1 = .error fault ∧
      d.Holds (d.openRingOn host o).2 name content ∧ (d.openRingOn host o).2.locked = d.locked) ∨
    ∃ result image, Ring.attachOn host path content o.requested o.limit = (result, image) ∧
      (d.openRingOn host o).1 = result ∧ d.Holds (d.openRingOn host o).2 name image ∧
      ∀ fault, result = .error fault → (d.openRingOn host o).2.locked = d.locked := by
  have hlocate := (locate_creating hfile).1
  simp only [openRingOn, hpath, hlocate, hcontent, Option.getD_some]
  -- One call of the system after the other: each is refused, or the next one is made.
  cases o.check with
  | error cause => exact .inl ⟨_, rfl, .refl hcontent, rfl⟩
  | ok _ =>
    cases host.opens with
    | error e => exact .inl ⟨_, rfl, .refl hcontent, rfl⟩
    | ok _ =>
      by_cases hbusy : d.locked.contains name = true
      · rw [if_pos hbusy]
        exact .inl ⟨_, rfl, .refl hcontent, rfl⟩
      rw [if_neg hbusy]
      cases host.locks with
      | error fault =>
        exact .inl ⟨fault, rfl, holds_setContent hcontent content _,
          locked_setContent hcontent content⟩
      | ok _ =>
        rcases Ring.attachOn host path content o.requested o.limit with ⟨fault | r, image⟩
        · refine .inr ⟨_, image, rfl, rfl, holds_setContent hcontent image _, ?_⟩
          exact fun _ _ => locked_setContent hcontent image
        · refine .inr ⟨_, image, rfl, rfl, holds_setContent hcontent image _, ?_⟩
          rintro _ ⟨⟩

/-- Whatever a queue file holds, whoever has locked it, whatever is asked for and whatever the system
refuses: an open that fails leaves every byte of the file as it was, and all other files and locks.  The
file also has its length back, unless it was lengthened, could not be mapped, and the system refuses to cut
it.  An open that succeeds and need not grow the ring leaves the file as it was, and the ring has the
counters of its header.  Where nothing is refused this is the open of a disk. -/
theorem intact_of_open (hpath : o.path = some path)
    (hfile : d.locate .finding path = .ok (.file name)) (hcontent : d.content? name = some content)
    (hsome : content.size ≠ 0) :
    d.openRingOn {} o = d.openRing o ∧
    ∀ host : Host, ∃ image, d.Holds (d.openRingOn host o).2 name image ∧
      (∀ fault, (d.openRingOn host o).1 = .error fault →
        (∀ i, image.byte i = content.byte i) ∧
        ((∀ e, fault.cause = .queueNotMapped e → host.storage.setLength content.size = .ok ()) →
          image.size = content.size ∧ image.toBytes = content.toBytes) ∧
        (d.openRingOn host o).2.locked = d.locked) ∧
      ∀ r, (d.openRingOn host o).1 = .ok r → o.requested ≤ content.size - Ring.Header.size →
        image = content ∧ r.image = content ∧
        ∃ h, Ring.Header.decode (content.slice 0 Ring.Header.size) = .ok h ∧
          r.write = h.write ∧ r.read = h.read ∧ (r.dirty : Int) = h.dirty := by
  refine ⟨d.openRingOn_willing o, fun host => ?_⟩
  rcases openRingOn_cases host hpath hfile hcontent with
    ⟨fault, hfault, hholds, hlocked⟩ | ⟨result, image, hattach, hresult, hholds, hlocked⟩
  · refine ⟨content, hholds, fun _ _ => ⟨fun _ => rfl, fun _ => ⟨rfl, rfl⟩, hlocked⟩, ?_⟩
    intro r hok
    cases hfault.symm.trans hok
  refine ⟨image, hholds, ?_, ?_⟩
  · intro fault hfault
    have hrefused := hresult.symm.trans hfault
    subst hrefused
    have hrest := hlocked fault rfl
    rcases Ring.attachOn_cases host path o.requested o.limit hsome with
      ⟨other, hcase⟩ | ⟨other, tried, capacity, hlength, hclear, htried, hcase⟩ | ⟨r, -, hcase⟩ |
      ⟨h, capacity, -, hcase⟩
    · cases hattach.symm.trans hcase
      exact ⟨fun _ => rfl, fun _ => ⟨rfl, rfl⟩, hrest⟩
    · cases hattach.symm.trans hcase
      have hbyte := htried.byte_undone hclear (.of_size hlength)
      refine ⟨hbyte, ?_, hrest⟩
      intro hcut
      rw [← hlength] at htried
      have hsize := htried.size_undone hcut
      refine ⟨hsize, ?_⟩
      rw [Image.toBytes, Image.toBytes, hsize]
      exact Image.slice_congr fun i _ _ => hbyte i
    · cases hattach.symm.trans hcase
    · cases hattach.symm.trans hcase
  · intro r hok hroom
    have hopened := hresult.symm.trans hok
    subst hopened
    rcases Ring.attachOn_cases host path o.requested o.limit hsome with
      ⟨fault, hcase⟩ | ⟨fault, tried, -, -, -, -, hcase⟩ | ⟨grown, hshort, -⟩ | ⟨h, capacity, hread, hcase⟩
    · cases hattach.symm.trans hcase
    · cases hattach.symm.trans hcase
    · -- A ring that had to grow was shorter than what is asked for.
      omega
    · cases hattach.symm.trans hcase
      rcases Ring.readHeader_eq_ok hread with ⟨-, -, -, hdecode, hvalidate⟩
      have hdirty := (Ring.validate_eq_ok hvalidate).2.2.2.1
      exact ⟨rfl, rfl, h, hdecode, rfl, rfl, Int.toNat_of_nonneg hdirty⟩

end Opening

/-- A queue file of 88 bytes, with one record. -/
def oneRecordFile : Image :=
  ((Image.zeros 88).write 0 (Ring.Header.encode ⟨17, 0, 0⟩)).write 24
    (Ring.View.encodeFrame (Job.encode ⟨0, .incr, [[97]]⟩))

/-- A host whose files grow and cannot be mapped then. -/
def noMemory : Host where
  storage := Ring.outOfMemory

/-- The file is to be twice as long, is lengthened, and is as it was in the end. -/
theorem intact_of_open_unmapped :
    ∃ image, ({ files := [("q", oneRecordFile)] } : Disk).Holds
        (({ files := [("q", oneRecordFile)] } : Disk).openRingOn noMemory ⟨128, 16, some "q"⟩).2 "q" image ∧
      (({ files := [("q", oneRecordFile)] } : Disk).openRingOn noMemory ⟨128, 16, some "q"⟩).1 =
        .error ⟨.queueNotMapped (.other 12 "Cannot allocate memory"), some "q"⟩ ∧
      image.size = 88 ∧ image.toBytes = oneRecordFile.toBytes := by
  have hsize : oneRecordFile.size = 88 := by
    rw [oneRecordFile, Image.size_write, Image.size_write, Image.size_zeros]
  have hfails : (({ files := [("q", oneRecordFile)] } : Disk).openRingOn noMemory
      ⟨128, 16, some "q"⟩).1 =
      .error ⟨.queueNotMapped (.other 12 "Cannot allocate memory"), some "q"⟩ :=
    Ring.eq_error_of_fault? (by decide +kernel)
  rcases (intact_of_open (o := ⟨128, 16, some "q"⟩) rfl (locate_single oneRecordFile []) rfl
    (hsize ▸ by decide)).2 noMemory with ⟨image, hholds, hintact, -⟩
  rcases hintact _ hfails with ⟨-, hsame, -⟩
  rcases hsame fun _ _ => rfl with ⟨hlength, hbytes⟩
  exact ⟨image, hholds, hfails, hlength.trans hsize, hbytes⟩

/-- A host whose files grow, cannot be mapped then, and are not cut back. -/
def noMemoryAndStuck : Host where
  storage := Ring.outOfMemoryAndStuck

/-- The open fails, and the file stays as long as it was to be. -/
theorem file_left_longer :
    oneRecordFile.size = 88 ∧
      (({ files := [("q", oneRecordFile)] } : Disk).openRingOn noMemoryAndStuck ⟨128, 16, some "q"⟩).1 =
        .error ⟨.queueNotMapped (.other 12 "Cannot allocate memory"), some "q"⟩ ∧
      ((({ files := [("q", oneRecordFile)] } : Disk).openRingOn noMemoryAndStuck ⟨128, 16, some "q"⟩).2.content?
        "q").map Image.size = some 152 :=
  ⟨by decide +kernel, Ring.eq_error_of_fault? (by decide +kernel), by decide +kernel⟩

end Disk
end WriteBehind
