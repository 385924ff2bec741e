import WriteBehind.Disk

/-!
# Disk — what is found under a path, and what a closed ring leaves there

Looking for a path depends on which names are files and which are directories, and on nothing else.

* `Disk.Offers d path content` says what is found under a path, and that nobody holds it;
  `Disk.HasFile d path content` says so of a file that is there already;
* `Disk.offers_close` says that a ring, when it is closed, leaves its own bytes there.
-/

namespace WriteBehind
namespace Disk

/-- The path can be opened for a queue file of these bytes; a file that does not exist yet has none.
-/
def Offers (d : Disk) (path : String) (content : Image) : Prop :=
  ∃ name, (d.locate .creating path = .ok (.file name) ∨
      d.locate .creating path = .ok (.vacant name)) ∧
    (d.content? name).getD {} = content ∧ d.locked.contains name = false

/-- The path names a file of these bytes, and nobody holds it. -/
def HasFile (d : Disk) (path : String) (content : Image) : Prop :=
  ∃ name, d.locate .finding path = .ok (.file name) ∧ d.content? name = some content ∧
    d.locked.contains name = false

/-! ## Looking for a path -/

section Locate

variable {d d' : Disk} {purpose : Purpose} {slash : Bool}

theorem last_congr (hcontent : ∀ name, (d'.content? name).isSome = (d.content? name).isSome)
    (name part : String) : d'.last purpose slash name part = d.last purpose slash name part := by
  simp only [last, hcontent]

theorem descend_congr (hcontent : ∀ name, (d'.content? name).isSome = (d.content? name).isSome)
    (hdirectory : ∀ name, d'.isDirectory name = d.isDirectory name) (above parts : List String) :
    d'.descend purpose slash above parts = d.descend purpose slash above parts := by
  induction parts generalizing above with
  | nil => rfl
  | cons part rest ih => simp only [descend, hdirectory, hcontent, last_congr hcontent, ih]

theorem locate_congr (hcontent : ∀ name, (d'.content? name).isSome = (d.content? name).isSome)
    (hdirectory : ∀ name, d'.isDirectory name = d.isDirectory name) (path : String) :
    d'.locate purpose path = d.locate purpose path := by
  simp only [locate, descend_congr hcontent hdirectory]

theorem last_creating {name part file : String}
    (h : d.last .finding slash name part = .ok (.file file)) :
    d.last .creating slash name part = .ok (.file file) ∧ (d.content? file).isSome := by
  -- Nobody who only looks is given a place where nothing is.
  simp only [last, reduceCtorEq, and_false, if_false] at h
  split at h
  · rename_i hfile
    split at h
    · cases h
    · rename_i hslash
      cases h
      refine ⟨?_, hfile⟩
      simp only [last, hslash, hfile, Bool.false_eq_true, false_and, if_false, if_true]
  · cases h

theorem descend_creating {above parts : List String} {file : String}
    (h : d.descend .finding slash above parts = .ok (.file file)) :
    d.descend .creating slash above parts = .ok (.file file) ∧ (d.content? file).isSome := by
  induction parts generalizing above with
  | nil => cases h
  | cons part rest ih =>
    -- Both go the same way down to the last component.
    simp only [descend] at h ⊢
    split at h
    · rename_i hdot
      rw [if_pos hdot]
      exact ih h
    · rename_i hdot
      rw [if_neg hdot]
      split at h
      · rename_i hup
        rw [if_pos hup]
        exact ih h
      · rename_i hup
        rw [if_neg hup]
        split at h
        · rename_i hdirectory
          rw [if_pos hdirectory]
          exact ih h
        · rename_i hdirectory
          rw [if_neg hdirectory]
          split at h
          · rename_i hlast
            rw [if_pos hlast]
            exact last_creating h
          · split at h <;> cases h

/-- A file that is found is also found by somebody who would create it. -/
theorem locate_creating {path file : String} (h : d.locate .finding path = .ok (.file file)) :
    d.locate .creating path = .ok (.file file) ∧ (d.content? file).isSome := by
  simp only [locate] at h ⊢
  split at h
  · cases h
  · rename_i hnul
    rw [if_neg hnul]
    split at h
    · cases h
    · rename_i hempty
      rw [if_neg hempty]
      split at h
      · cases h
      · rename_i hlong
        rw [if_neg hlong]
        split at h
        · split at h <;> cases h
        · rename_i hroot
          rw [if_neg hroot]
          exact descend_creating h

end Locate

/-! ## Files that nobody holds -/

section HasFile

variable {d : Disk} {path : String} {content : Image}

theorem HasFile.offers (h : d.HasFile path content) : d.Offers path content := by
  rcases h with ⟨name, hlocate, hcontent, hfree⟩
  refine ⟨name, .inl (locate_creating hlocate).1, ?_, hfree⟩
  rw [hcontent, Option.getD_some]

/-- A reader meets the bytes, and sees that nobody else is there. -/
theorem HasFile.access_eq (h : d.HasFile path content) :
    d.access path = ⟨.ok (), false, .ok content⟩ := by
  rcases h with ⟨name, hlocate, hcontent, hfree⟩
  simp only [access, checkReadable, isLocked, fileName?, read, hlocate, hcontent, hfree,
    Option.getD_some]
  rfl

end HasFile

/-! ## Small disks -/

section Small

variable (content : Image)

theorem locate_single (locked : List String) :
    ({ files := [("q", content)], locked } : Disk).locate .finding "q" = .ok (.file "q") := by
  with_unfolding_all rfl

theorem hasFile_single : ({ files := [("q", content)] } : Disk).HasFile "q" content :=
  ⟨"q", locate_single content [], rfl, rfl⟩

theorem offers_new_file : ({} : Disk).Offers "q" {} := by
  refine ⟨"q", .inr ?_, rfl, rfl⟩
  with_unfolding_all rfl

end Small

/-! ## Replacing the bytes of a file -/

section SetContent

variable {d : Disk} {name : String} {image : Image}

/-- What is found in a list of files after one of them was given other bytes. -/
theorem lookup_map_replace (files : List (String × Image)) (other : String) :
    (files.map fun f => if f.1 == name then (f.1, image) else f).lookup other =
      if other == name then (files.lookup other).map fun _ => image else files.lookup other := by
  induction files with
  | nil => split <;> rfl
  | cons f files ih =>
    rcases f with ⟨key, old⟩
    simp only [List.map_cons, List.lookup_cons]
    -- Only entries of that name were replaced, and their names stay.
    by_cases hkey : key = name
    · subst hkey
      simp only [beq_self_eq_true, if_true, List.lookup_cons]
      by_cases hother : other = key
      · subst hother
        simp only [beq_self_eq_true, if_true, Option.map_some]
      · have hne : (other == key) = false := beq_eq_false_iff_ne.2 hother
        simp only [hne, ih, Bool.false_eq_true, if_false]
    · have hne : (key == name) = false := beq_eq_false_iff_ne.2 hkey
      simp only [hne, Bool.false_eq_true, if_false, List.lookup_cons]
      by_cases hother : other = key
      · subst hother
        simp only [beq_self_eq_true, hne, Bool.false_eq_true, if_false]
      · have hne' : (other == key) = false := beq_eq_false_iff_ne.2 hother
        simp only [hne', ih]

theorem content?_setContent (h : (d.content? name).isSome) (other : String) :
    (d.setContent name image).content? other =
      if other == name then some image else d.content? other := by
  rw [setContent, if_pos h]
  refine (lookup_map_replace d.files other).trans ?_
  split
  · rename_i hname
    rw [beq_iff_eq] at hname
    subst hname
    rcases Option.isSome_iff_exists.1 h with ⟨old, hold⟩
    rw [content?] at hold
    rw [hold, Option.map_some]
  · rfl

theorem locate_setContent (h : (d.content? name).isSome) (image : Image) (purpose : Purpose)
    (path : String) :
    (d.setContent name image).locate purpose path = d.locate purpose path := by
  refine locate_congr ?_ ?_ path
  · intro other
    rw [content?_setContent h]
    split
    · rename_i hname
      rw [beq_iff_eq] at hname
      subst hname
      exact h.symm
    · rfl
  · intro other
    have hkey : ∀ f : String × Image, (if f.1 == name then (f.1, image) else f).1 = f.1 := by
      intro f
      split <;> rfl
    simp only [isDirectory, setContent, if_pos h, List.any_map, Function.comp_def, hkey]

end SetContent

/-- The file of a ring that is closed has the ring's bytes, and nobody holds it if nobody else did. -/
theorem offers_close {d : Disk} {r : Ring} {path name : String} (hbacking : r.backing = .file path)
    (hfile : d.fileName? path = some name) (halone : (d.locked.erase name).contains name = false) :
    ((d.save r).unlock r).Offers path r.image := by
  have hlocate : d.locate .finding path = .ok (.file name) := by
    simp only [fileName?] at hfile
    split at hfile
    · rename_i hlocate
      cases hfile
      exact hlocate
    · cases hfile
  rcases locate_creating hlocate with ⟨hcreating, hexists⟩
  -- The file exists, so saving replaces its bytes and adds no file.
  have hsave : d.save r = d.setContent name r.image := by
    simp only [save, hbacking, writeFile, hcreating]
  have hname : (d.setContent name r.image).fileName? path = some name := by
    simp only [fileName?, locate_setContent hexists, hlocate]
  have hlocked : (d.setContent name r.image).locked = d.locked := by
    simp only [setContent, if_pos hexists]
  have hunlock : (d.save r).unlock r =
      { d.setContent name r.image with locked := d.locked.erase name } := by
    simp only [hsave, unlock, hbacking, hname, hlocked]
  refine ⟨name, .inl ?_, ?_, ?_⟩
  · -- Locks play no part in looking for a path.
    rw [hunlock, ← hcreating, ← locate_setContent hexists r.image]
    refine locate_congr ?_ ?_ path
    · intro other
      rfl
    · intro other
      rfl
  · rw [hunlock]
    show ((d.setContent name r.image).content? name).getD {} = r.image
    rw [content?_setContent hexists, if_pos (beq_self_eq_true name), Option.getD_some]
  · rw [hunlock]
    exact halone

end Disk
end WriteBehind
