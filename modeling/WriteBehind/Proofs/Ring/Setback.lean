import Mathlib.Control.Monad.Basic
import WriteBehind.Proofs.Ring.Carry
import WriteBehind.Proofs.Ring.Mark
import WriteBehind.Ring.Storage

/-!
# Setback — a resize that fails leaves everything as it was

A resize fails where the walk over the unread frames meets a defect, and then nothing has been stored.  It
also fails where the system refuses to flush, lengthen or map the file, and then the mark was set already and
the file may be longer: it is cut back, unless the system refuses that too.

* `Alike r r'`: rings that differ in nothing a reader could see, and `Alike.front`: they go on alike;
* `Tried s n cause tried`: what was done to a file of `n` bytes before it was refused room for this cause, and
  `Tried.byte_undone`: with the mark cleared behind it, it has changed no byte;
* `serveOn_failed`: the ways in which a request fails, and `happens_popOn`: a pop that meets with any answers
  of the system is a pop or a growth that is refused;
* `undone_of_failed`: what holds after a pop that was refused for one of them, and `file_stays_longer` where
  that is not all that was there before.
-/

namespace WriteBehind
namespace Ring

/-! ## Rings alike -/

/-- Both rings have the same bytes, counters, sizes and requests.  The length of the image is left open. -/
structure Alike (r r' : Ring) : Prop where
  rest : r' = { r with image := r'.image }
  byte : ∀ i, r'.image.byte i = r.image.byte i
  room : Header.size ≤ r.image.size
  room' : Header.size ≤ r'.image.size

section Alike

variable {r r' : Ring}

theorem Alike.view_eq (h : Alike r r') : r'.view = r.view := by
  have hrest := h.rest
  refine view_eq_of_byte ?_ ?_ ?_ fun i _ => h.byte i
  · rw [hrest]
  · rw [hrest]
  · rw [hrest]

/-- The read counter's place in the header is in both images, so the same bytes go there. -/
theorem Alike.moveRead (h : Alike r r') (n : Nat) : Alike (r.moveRead n) (r'.moveRead n) := by
  have hrest := h.rest
  have hroom := h.room
  have hroom' := h.room'
  rw [Header.size] at hroom hroom'
  refine ⟨?_, ?_, ?_, ?_⟩
  · rw [moveRead_eq, moveRead_eq, hrest]
  · intro i
    have hplace : Header.readOffset + (Bytes.ofWord64 n).length = 16 := by
      rw [Bytes.length_ofWord64, Header.readOffset]
    rw [moveRead_eq, moveRead_eq, Image.byte_write, Image.byte_write, hplace, h.byte]
    by_cases hi : Header.readOffset ≤ i ∧ i < 16
    · rw [if_pos ⟨hi.1, hi.2, by omega⟩, if_pos ⟨hi.1, hi.2, by omega⟩]
    · rw [if_neg fun hin => hi ⟨hin.1, hin.2.1⟩, if_neg fun hin => hi ⟨hin.1, hin.2.1⟩]
  · rw [moveRead_eq, Image.size_write]
    exact h.room
  · rw [moveRead_eq, Image.size_write]
    exact h.room'

/-- A look at the front goes by the counters and the ring bytes, and moves the read counter at most. -/
theorem Alike.front (h : Alike r r') : r'.front.1 = r.front.1 ∧ Alike r.front.2 r'.front.2 := by
  have hview := h.view_eq
  have hread : r'.read = r.read := by rw [h.rest]
  have hwrite : r'.write = r.write := by rw [h.rest]
  simp only [Ring.front, hread, hwrite, hview, lease]
  by_cases hahead : r.read > r.write
  · rw [if_pos hahead, if_pos hahead]
    exact ⟨rfl, h⟩
  by_cases heq : r.read = r.write
  · rw [if_neg hahead, if_neg hahead, if_pos heq, if_pos heq]
    exact ⟨rfl, h⟩
  simp only [if_neg hahead, if_neg heq]
  rcases r.view.classify r.read r.write with cause | n | n
  · exact ⟨rfl, h⟩
  · -- Behind padding the same piece stands in both rings.
    have hmoved := h.moveRead (r.read + n)
    simp only [view_moveRead, read_moveRead, write_moveRead, hview, hwrite]
    by_cases hend : r.read + n = r.write
    · rw [if_pos hend, if_pos hend]
      exact ⟨rfl, hmoved⟩
    simp only [if_neg hend]
    rcases r.view.classify (r.read + n) r.write with cause | m | m
    · exact ⟨rfl, hmoved⟩
    · exact ⟨rfl, hmoved⟩
    · exact ⟨rfl, hmoved⟩
  · exact ⟨rfl, h⟩

end Alike

/-! ## Bytes -/

/-- What was done to a file of `length` bytes between setting the mark and clearing it, where room was
refused for this cause. -/
inductive Tried (s : Storage) (length : Nat) : Cause → List Store → Prop
  | nothing {e : OsError} : Tried s length (.system e) []
  /-- The file was lengthened and could not be mapped. -/
  | lengthened {e : OsError} {n : Nat} (hlonger : length ≤ n) :
      Tried s length (.queueNotMapped e) (.length n :: s.cutBack length)

section Bytes

variable {img : Image} {s : Storage} {cause : Cause} {tried : List Store}

theorem Tried.longer {length : Nat} (h : Tried s length cause tried) :
    ∀ store ∈ tried, ∃ n, length ≤ n ∧ store = .length n := by
  cases h with
  | nothing => rintro _ ⟨⟩
  | @lengthened e n hlonger =>
    refine List.forall_mem_cons.2 ⟨⟨n, hlonger, rfl⟩, ?_⟩
    rw [Storage.cutBack]
    split
    · exact List.forall_mem_singleton.2 ⟨length, Nat.le_refl _, rfl⟩
    · rintro _ ⟨⟩

/-- Lengths that all bytes but zeros are below change no byte. -/
theorem byte_lengths {length : Nat} (htried : ∀ store ∈ tried, ∃ n, length ≤ n ∧ store = .length n)
    (hzeros : ∀ i, length ≤ i → img.byte i = 0) (i : Nat) :
    (img.applyAll tried).byte i = img.byte i := by
  induction tried generalizing img with
  | nil => rfl
  | cons store tried ih =>
    rw [List.forall_mem_cons] at htried
    rcases htried with ⟨⟨n, hle, rfl⟩, htried⟩
    have hsame : ∀ j, (img.resize n).byte j = img.byte j :=
      Image.byte_resize_of_zeros fun j hj => hzeros j (Nat.le_trans hle hj)
    calc ((img.resize n).applyAll tried).byte i = (img.resize n).byte i :=
          ih htried fun j hj => (hsame j).trans (hzeros j hj)
      _ = img.byte i := hsame i

theorem Tried.keepsRoom {capacity : Nat} (h : Tried s (Header.size + capacity) cause tried) :
    ∀ store ∈ setMark :: tried, store.KeepsRoom := by
  refine List.forall_mem_cons.2 ⟨trivial, fun store hmem => ?_⟩
  rcases h.longer store hmem with ⟨n, hle, rfl⟩
  exact Nat.le_trans (Nat.le_add_right _ _) hle

/-- Setting the mark, giving the file greater lengths and clearing the mark change no byte. -/
theorem Tried.byte_undone {capacity : Nat} (h : Tried s (Header.size + capacity) cause tried)
    (hclear : MarkClear img) (hhouses : Houses img capacity) (i : Nat) :
    (img.applyAll (setMark :: tried ++ [clearMark])).byte i = img.byte i := by
  have hset : Houses (img.apply setMark) capacity := hhouses.apply (within_mark 1 capacity)
  by_cases hmark : Header.markOffset ≤ i ∧ i < Header.markOffset + 4
  · -- The mark was clear before, and it is clear again.
    have hafter := (leavesClear_clearMark h.keepsRoom img hclear).mark
    exact Image.byte_eq_of_slice_eq (hafter.trans hclear.mark.symm) hmark.1 hmark.2
  · have haway : ∀ n, i < Header.markOffset ∨
        Header.markOffset + (Bytes.ofWord32 n).length ≤ i := by
      intro n
      rw [Bytes.length_ofWord32]
      omega
    rw [Image.applyAll_append]
    calc ((img.applyAll (setMark :: tried)).apply clearMark).byte i
        = ((img.apply setMark).applyAll tried).byte i := Image.byte_write_of_disjoint _ (haway 0)
      _ = (img.apply setMark).byte i := byte_lengths h.longer hset.blank i
      _ = img.byte i := Image.byte_write_of_disjoint _ (haway 1)

/-- The file keeps its length if it was not lengthened.  If it was, it is cut back unless the system refuses
that. -/
theorem Tried.size_cases {length : Nat} (h : Tried s length cause tried) :
    ((∀ e, cause ≠ .queueNotMapped e) →
      (img.applyAll (setMark :: tried ++ [clearMark])).size = img.size) ∧
    ∀ e, cause = .queueNotMapped e → s.setLength length = .ok () →
      (img.applyAll (setMark :: tried ++ [clearMark])).size = length := by
  cases h with
  | nothing => exact ⟨fun _ => size_callOff img, by rintro e ⟨⟩⟩
  | @lengthened e n hlonger =>
    refine ⟨fun hmapped => absurd rfl (hmapped e), fun _ _ hcut => ?_⟩
    rw [Storage.cutBack, hcut]
    rfl

/-- A file that was as long as it is cut back to has its length again. -/
theorem Tried.size_undone (h : Tried s img.size cause tried)
    (hcut : ∀ e, cause = .queueNotMapped e → s.setLength img.size = .ok ()) :
    (img.applyAll (setMark :: tried ++ [clearMark])).size = img.size := by
  by_cases hmapped : ∃ e, cause = .queueNotMapped e
  · rcases hmapped with ⟨e, he⟩
    exact h.size_cases.2 e he (hcut e he)
  · exact h.size_cases.1 fun e he => hmapped ⟨e, he⟩

theorem Tried.refused {capacity : Nat} (h : Tried s (Header.size + capacity) cause tried) :
    Refused capacity tried := by
  cases h with
  | nothing => exact .untouched
  | @lengthened e n hlonger =>
    have hgoal : n = Header.size + (n - Header.size) := by omega
    rw [Storage.cutBack, hgoal]
    split
    · exact .cutBack
    · exact .left (by omega)

end Bytes

/-! ## Failing -/

section Failing

variable {r : Ring} {s : Storage} {fault : Fault}

/-- Only a file is refused room. -/
theorem makeRoom_failed {goal : Nat} {setback : Setback}
    (h : r.makeRoom (s.behind r.backing) goal = .error setback) :
    setback.cause.kind = .io ∧ Tried s (Header.size + r.capacity) setback.cause setback.tried := by
  cases hbacking : r.backing with
  | heap =>
    rw [hbacking, Storage.behind, makeRoom_willing, hbacking] at h
    split at h
    · cases h
    · cases h
  | file path =>
    rw [hbacking, Storage.behind, makeRoom] at h
    split at h
    · cases h
      exact ⟨rfl, .nothing⟩
    split at h
    · rename_i hmore
      split at h
      · cases h
        exact ⟨rfl, .nothing⟩
      · cases h
        exact ⟨rfl, .nothing⟩
      · rename_i growth _ hgrowth _ _
        cases h
        rw [hbacking] at hgrowth
        rw [(growth_file hgrowth).1]
        exact ⟨rfl, .lengthened (Nat.add_le_add_left (Nat.le_of_lt hmore) _)⟩
      · cases h
    · cases h

/-- What stops a resize before anything is stored is a defect of the bytes, or a number that no word
holds. -/
theorem kind_of_stage {goal : Nat} {cause : Cause} (h : r.stage goal = .error cause) :
    cause.kind = .corrupt ∨ cause = .overflow := by
  rw [stage] at h
  rcases r.linearize_cases with ⟨-, hstaged⟩ | ⟨cause', hdefect, hstaged⟩
  · rw [hstaged] at h
    dsimp only at h
    split at h
    · cases h
      exact .inl rfl
    · rcases checkCapacity_cases r.backing goal with hcheck | hcheck <;> rw [hcheck] at h <;> cases h
      exact .inr rfl
  · rw [hstaged] at h
    cases h
    exact View.kind_of_defect hdefect

/-- Room that is made is the room that storage grows to where nothing is refused. -/
theorem growth_of_makeRoom {goal : Nat} {growth : List Store} (h : r.makeRoom s goal = .ok growth) :
    (if goal > r.capacity then r.backing.growth goal else .ok []) = .ok growth := by
  rw [makeRoom] at h
  split at h
  · cases h
  split at h
  · rename_i hmore
    rw [if_pos hmore]
    split at h
    · cases h
    · cases h
    · cases h
    · rename_i hgrowth _ _
      cases h
      exact hgrowth
  · rename_i hmore
    cases h
    exact if_neg hmore

/-- A resize is one that nothing is refused to, or it ends once the mark is set and room was asked for. -/
theorem resizeOn_cases (r : Ring) (s : Storage) (target : Nat) :
    r.resizeOn s target = r.resize target ∨
    ∃ fault tried, fault.kind = .io ∧ Tried s (Header.size + r.capacity) fault.cause tried ∧
      r.resizeOn s target = (.error fault, r.store (setMark :: tried ++ [clearMark])) := by
  simp only [resizeOn, resize]
  cases r.stage (nextPowerOfTwo (max target r.capacity)) with
  | error cause => exact .inl rfl
  | ok staged =>
    cases hroom : r.makeRoom (s.behind r.backing) (nextPowerOfTwo (max target r.capacity)) with
    | error setback =>
      rcases makeRoom_failed hroom with ⟨hkind, htried⟩
      exact .inr ⟨⟨setback.cause, r.backing.path?⟩, setback.tried, hkind, htried, rfl⟩
    | ok growth =>
      refine .inl ?_
      simp only [growth_of_makeRoom hroom]

/-- A resize fails before anything is stored, or once the mark is set and room was asked for. -/
theorem resizeOn_failed {target : Nat} (h : (r.resizeOn s target).1 = .error fault) :
    (fault.kind = .corrupt ∨ fault = Cause.overflow.fault) ∧ r.resizeOn s target = (.error fault, r) ∨
    ∃ tried, fault.kind = .io ∧ Tried s (Header.size + r.capacity) fault.cause tried ∧
      r.resizeOn s target = (.error fault, r.store (setMark :: tried ++ [clearMark])) := by
  rcases r.resizeOn_cases s target with hsame | ⟨fault', tried, hkind, htried, hresize⟩
  · rw [hsame] at h ⊢
    rcases r.resize_cases target with ⟨cause, hstage, hresize⟩ | ⟨staged, e, -, -, -, hresize⟩ |
      ⟨staged, growth, -, -, -, hresize⟩ | ⟨staged, -, -, hresize⟩ <;> rw [hresize] at h ⊢ <;> cases h
    · refine .inl ⟨?_, rfl⟩
      rcases kind_of_stage hstage with hkind | rfl
      · exact .inl hkind
      · exact .inr rfl
    · exact .inr ⟨[], rfl, .nothing, rfl⟩
  · rw [hresize] at h ⊢
    cases h
    exact .inr ⟨tried, hkind, htried, rfl⟩

theorem ne_overflow_of_kind {kind : FaultKind} (h : fault.kind = kind) (hne : kind ≠ .panic) :
    fault.cause ≠ .overflow := by
  intro hcause
  refine hne (h.symm.trans ?_)
  rw [Fault.kind, hcause]
  rfl

/-- A request fails as its resize does, and is gone, unless the thread ends over it. -/
theorem serveOn_failed {q : Request} (h : (r.serveOn s q).1 = .error fault) :
    fault = Cause.overflow.fault ∧ r.serveOn s q = (.error fault, r) ∨
    fault.kind = .corrupt ∧ r.serveOn s q = (.error fault, { r with request := none }) ∨
    ∃ tried, fault.kind = .io ∧ Tried s (Header.size + r.capacity) fault.cause tried ∧
      r.serveOn s q = (.error fault, r.refuseGrowth tried) := by
  rw [serveOn] at h ⊢
  split at h
  · cases h
  · rename_i hfits
    rw [if_neg hfits]
    rw [answered_fst] at h
    rcases resizeOn_failed h with ⟨hkind | rfl, hresize⟩ | ⟨tried, hkind, htried, hresize⟩ <;>
      rw [hresize]
    · exact .inr (.inl ⟨hkind, answered_of_ne (ne_overflow_of_kind hkind (by decide))⟩)
    · exact .inl ⟨rfl, rfl⟩
    · exact .inr (.inr ⟨tried, hkind, htried, answered_of_ne (ne_overflow_of_kind hkind (by decide))⟩)

/-- Whatever the system answers, a pop is one that nothing is refused to, or a growth that is refused. -/
theorem happens_popOn {limit : Nat} {b : Bench} (s : Storage) (hheld : b.held = none) :
    b.ring.popOn s = b.ring.pop ∨
    (∃ fault, (b.ring.popOn s).1 = .error fault) ∧
      Happens limit b .refuse (b.setRing (b.ring.popOn s).2 none) := by
  cases hq : b.ring.request with
  | none => exact .inl (by simp only [popOn, pop, hq])
  | some q =>
    cases hfits : b.ring.pendingFits q with
    | true => exact .inl (by simp only [popOn, pop, serveOn, serve, hq, hfits, if_true])
    | false =>
      rcases b.ring.resizeOn_cases s (max q.target (growTarget b.ring.capacity 0)) with
        hsame | ⟨fault, tried, hkind, htried, hresize⟩
      · have hserve : b.ring.serveOn s q = b.ring.serve q := by rw [serveOn, serve, hsame]
        rcases houtcome : b.ring.serve q with ⟨_ | _, served⟩ <;> rw [houtcome] at hserve <;>
          exact .inl (by simp only [popOn, pop, hq, hserve, houtcome])
      · have hserve : b.ring.serveOn s q = (.error fault, b.ring.refuseGrowth tried) := by
          rw [serveOn, if_neg (by rw [hfits]; decide), hresize]
          exact answered_of_ne (ne_overflow_of_kind hkind (by decide))
        have hpop : b.ring.popOn s = (.error fault, b.ring.refuseGrowth tried) := by
          simp only [popOn, hq, hserve]
        rw [hpop]
        exact .inr ⟨⟨fault, rfl⟩, .refuse hheld hq hfits htried.refused⟩

end Failing

/-! ## All as it was -/

/-- The image has room for the ring and zeros behind it, and the resize mark is clear. -/
structure Unmarked (r : Ring) : Prop where
  houses : Houses r.image r.capacity
  mark : r.image.slice Header.markOffset 4 = Bytes.ofWord32 0

/-- Nothing is left of a request that has failed: the counters, the dirty size, the capacity and whatever
else the ring keeps are the same, every byte of the ring and of the header is the same, and the mark is
clear.  Only the request is gone, and the next pop gives what it would have given without it. -/
structure Undone (r r' : Ring) : Prop where
  rest : r' = { r with image := r'.image, request := none }
  byte : ∀ i, r'.image.byte i = r.image.byte i
  header : r'.image.slice 0 Header.size = r.image.slice 0 Header.size
  mark : Header.resizeInterrupted (r'.image.slice 0 Header.size) = false
  next : r'.pop.1 = ({ r with request := none } : Ring).pop.1
  after : Alike ({ r with request := none } : Ring).pop.2 r'.pop.2

section Undoing

variable {r : Ring}

theorem Unmarked.markClear (h : Unmarked r) : MarkClear r.image :=
  ⟨Nat.le_trans (Nat.le_add_right _ _) h.houses.room, h.mark⟩

/-- The ring of a bench is unmarked, whatever bytes it was opened on and whatever has happened to it. -/
theorem unmarked_of_handled {d : Disk} {o : Options} {b : Bench} (hopen : (d.openRing o).1 = .ok r)
    (handled : Handled o.limit (.ofRing r) b) : Unmarked b.ring :=
  ⟨((Steady.ofRing hopen).handled handled).1.level.houses, (markClear_of_handled hopen handled).mark⟩

theorem undone_of_alike {r' : Ring} (h : Unmarked r)
    (halike : Alike ({ r with request := none } : Ring) r') : Undone r r' := by
  have hheader : r'.image.slice 0 Header.size = r.image.slice 0 Header.size :=
    Image.slice_congr fun i _ _ => halike.byte i
  have hnone : r'.request = none := congrArg request halike.rest
  refine ⟨halike.rest, halike.byte, hheader, ?_, ?_, ?_⟩
  · rw [hheader]
    exact (resizeInterrupted_slice r.image).2 h.mark
  · rw [pop_eq_front hnone, pop_eq_front rfl]
    exact halike.front.1
  · rw [pop_eq_front hnone, pop_eq_front rfl]
    exact halike.front.2

theorem alike_refuseGrowth {s : Storage} {cause : Cause} {tried : List Store} (h : Unmarked r)
    (htried : Tried s (Header.size + r.capacity) cause tried) :
    Alike ({ r with request := none } : Ring) (r.refuseGrowth tried) :=
  ⟨rfl, htried.byte_undone h.markClear h.houses, h.markClear.room,
    (leavesClear_clearMark htried.keepsRoom r.image h.markClear).room⟩

end Undoing

/-- Of every ring whose mark is clear, such as any that was opened, whatever bytes it was opened on and
whatever has happened to it since: where a request fails, because of what the walk over the unread frames
meets or because the system refuses the file more room, the pop that serves it gives the fault, and all
is as if there had been no request.  The file keeps its length, unless it was lengthened and cannot be mapped;
then it is cut back to the length of the ring, unless the system refuses that.  Where the thread ends over a
number that no word holds, the ring is as it was, its request included.  Where the system refuses nothing
this is the pop of the ring. -/
theorem undone_of_failed :
    (∀ r : Ring, r.popOn {} = r.pop) ∧
    (∀ {d : Disk} {o : Options} {r : Ring} {b : Bench}, (d.openRing o).1 = .ok r →
      Handled o.limit (.ofRing r) b → Unmarked b.ring) ∧
    ∀ {r : Ring} {q : Request} {s : Storage} {fault : Fault}, Unmarked r → r.request = some q →
      (r.serveOn s q).1 = .error fault →
      (r.popOn s).1 = .error fault ∧
        (fault.kind = .panic → (r.popOn s).2 = r) ∧
        (fault.kind ≠ .panic → (fault.kind = .corrupt ∨ fault.kind = .io) ∧ Undone r (r.popOn s).2 ∧
          ((∀ e, fault.cause ≠ .queueNotMapped e) → (r.popOn s).2.image.size = r.image.size) ∧
          ∀ e, fault.cause = .queueNotMapped e → s.setLength (Header.size + r.capacity) = .ok () →
            (r.popOn s).2.image.size = Header.size + r.capacity) := by
  refine ⟨popOn_willing, unmarked_of_handled, ?_⟩
  intro r q s fault h hq hfails
  rcases serveOn_failed hfails with ⟨rfl, hserve⟩ | ⟨hkind, hserve⟩ | ⟨tried, hkind, htried, hserve⟩
  · have hpop : r.popOn s = (.error Cause.overflow.fault, r) := by simp only [popOn, hq, hserve]
    rw [hpop]
    exact ⟨rfl, fun _ => rfl, fun hnot => absurd rfl hnot⟩
  · have hpop : r.popOn s = (.error fault, { r with request := none }) := by
      simp only [popOn, hq, hserve]
    -- What is wrong with the bytes is found before the file is touched.
    have hmapped : ∀ e, fault.cause ≠ .queueNotMapped e := by
      intro e he
      rw [Fault.kind, he] at hkind
      cases hkind
    rw [hpop]
    refine ⟨rfl, ?_, fun _ => ⟨.inl hkind, undone_of_alike h ⟨rfl, fun _ => rfl, ?_, ?_⟩, fun _ => rfl,
      fun e he => absurd he (hmapped e)⟩⟩
    · rw [hkind]
      rintro ⟨⟩
    · exact h.markClear.room
    · exact h.markClear.room
  · have hpop : r.popOn s = (.error fault, r.refuseGrowth tried) := by
      simp only [popOn, hq, hserve]
    rw [hpop]
    refine ⟨rfl, ?_, fun _ => ⟨.inr hkind, undone_of_alike h (alike_refuseGrowth h htried),
      htried.size_cases⟩⟩
    rw [hkind]
    rintro ⟨⟩

/-- A system that lengthens files but has no memory left to map them. -/
def outOfMemory : Storage where
  map := .error (.other 12 "Cannot allocate memory")

/-- A ring on a new file, with a growth pending. -/
def growthPending : Ring :=
  { ofHeader "q" (({} : Image).resize 88) 64 16 {} with
    request := some ⟨128, 0⟩
    dataReady := ({} : Signal).post }

theorem handled_growthPending :
    (({} : Disk).openRing ⟨1, 16, some "q"⟩).1 = .ok (ofHeader "q" (({} : Image).resize 88) 64 16 {}) ∧
      ∃ b, Handled 16 (.ofRing (ofHeader "q" (({} : Image).resize 88) 64 16 {})) b ∧
        b.ring = growthPending :=
  ⟨openRing_of_offers Disk.offers_new_file rfl, _,
    Handled.refl.step (.use (u := .call (.grow 100)) rfl), rfl⟩

/-- The file is lengthened, not mapped, and cut back. -/
theorem undone_of_failed_unmapped :
    ∃ r b, (({} : Disk).openRing ⟨1, 16, some "q"⟩).1 = .ok r ∧ Handled 16 (.ofRing r) b ∧
      b.ring = growthPending ∧
      (growthPending.popOn outOfMemory).1 =
        .error ⟨.queueNotMapped (.other 12 "Cannot allocate memory"), some "q"⟩ ∧
      Undone growthPending (growthPending.popOn outOfMemory).2 ∧
      (growthPending.popOn outOfMemory).2.image.size = 88 := by
  rcases handled_growthPending with ⟨hopen, b, asked, hring⟩
  have hunmarked := undone_of_failed.2.1 hopen asked
  rw [hring] at hunmarked
  have hfails : (growthPending.serveOn outOfMemory ⟨128, 0⟩).1 =
      .error ⟨.queueNotMapped (.other 12 "Cannot allocate memory"), some "q"⟩ := by decide +kernel
  rcases undone_of_failed.2.2 hunmarked rfl hfails with ⟨hfault, -, hrest⟩
  rcases hrest (by decide) with ⟨-, hundone, -, hback⟩
  exact ⟨_, b, hopen, asked, hring, hfault, hundone, hback _ rfl rfl⟩

/-- A system that has no memory left to map a file that was lengthened, and does not cut it back. -/
def outOfMemoryAndStuck : Storage where
  setLength n := if n = 88 then .error (.other 5 "Input/output error") else .ok ()
  map := .error (.other 12 "Cannot allocate memory")

/-- The growth fails, and the file stays as long as it was to be.  It is read as a ring of that length when it
is opened again. -/
theorem file_stays_longer :
    ∃ r b, (({} : Disk).openRing ⟨1, 16, some "q"⟩).1 = .ok r ∧ Handled 16 (.ofRing r) b ∧
      b.ring = growthPending ∧ growthPending.image.size = 88 ∧
      (growthPending.popOn outOfMemoryAndStuck).1 =
        .error ⟨.queueNotMapped (.other 12 "Cannot allocate memory"), some "q"⟩ ∧
      (growthPending.popOn outOfMemoryAndStuck).2.capacity = 64 ∧
      (growthPending.popOn outOfMemoryAndStuck).2.image.size = 152 ∧
      readHeader (growthPending.popOn outOfMemoryAndStuck).2.image = .ok (⟨0, 0, 0⟩, 128) := by
  rcases handled_growthPending with ⟨hopen, b, asked, hring⟩
  exact ⟨_, b, hopen, asked, hring, rfl, by decide +kernel, by decide +kernel, by decide +kernel,
    by decide +kernel⟩

end Ring
end WriteBehind
