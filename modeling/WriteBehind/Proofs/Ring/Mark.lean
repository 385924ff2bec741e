import WriteBehind.Proofs.Ring.Counters
import WriteBehind.Proofs.Ring.Trace

/-!
# Mark — the resize mark is clear whenever no resize is under way

Only a resize sets the mark, and each of its ways out clears it again.  This needs nothing of what stands in
the ring: whatever bytes a ring was opened on, its mark is clear between two operations.

* `MarkClear img`: the image has a header, and the mark in it is clear;
* `LeavesClear stores`: from such an image the stores lead to such an image;
* `leavesClear_stores`: those of every use do, and `markClear_of_openRing`: a ring is opened with the mark
  clear;
* `markClear_of_handled`: so it is clear whatever has happened.
-/

namespace WriteBehind
namespace Ring

/-- The image has a header, and the resize mark in it is clear. -/
structure MarkClear (img : Image) : Prop where
  room : Header.size ≤ img.size
  mark : img.slice Header.markOffset 4 = Bytes.ofWord32 0

/-- The stores lead from any image whose mark is clear to one whose mark is clear. -/
def LeavesClear (stores : List Store) : Prop :=
  ∀ img, MarkClear img → MarkClear (img.applyAll stores)

namespace Store

/-- The store does not touch the resize mark. -/
def SparesMark : Store → Prop
  | bytes offset data => offset + data.length ≤ Header.markOffset ∨ Header.size ≤ offset
  | length n => Header.size ≤ n
  | fresh _ => False

/-- The store leaves room for a header. -/
def KeepsRoom : Store → Prop
  | bytes _ _ => True
  | length n | fresh n => Header.size ≤ n

end Store

/-! ## Stores -/

section Stores

variable {img : Image} {store : Store} {stores more : List Store}

/-- The mark is clear if a header that is read there says so. -/
theorem resizeInterrupted_slice (img : Image) :
    Header.resizeInterrupted (img.slice 0 Header.size) = false ↔
      img.slice Header.markOffset 4 = Bytes.ofWord32 0 := by
  have hlength : (img.slice 0 Header.size).length ≥ Header.size :=
    Nat.le_of_eq (Image.length_slice _ _ _).symm
  rw [Header.resizeInterrupted, mark_of_header, decide_eq_true hlength, Bool.true_and,
    bne_eq_false_iff_eq]
  constructor
  · intro hzero
    rw [← Bytes.ofWord32_toWord (Image.length_slice img Header.markOffset 4), hzero]
  · intro hmark
    rw [hmark]
    exact Bytes.toWord_ofWord32 0 (Nat.two_pow_pos 32)

theorem room_apply (h : store.KeepsRoom) (hroom : Header.size ≤ img.size) :
    Header.size ≤ (img.apply store).size := by
  cases store with
  | bytes offset data => rwa [Image.apply, Image.size_write]
  | length n => exact h
  | fresh n => exact h

theorem room_applyAll (h : ∀ store ∈ stores, store.KeepsRoom) (hroom : Header.size ≤ img.size) :
    Header.size ≤ (img.applyAll stores).size := by
  induction stores generalizing img with
  | nil => exact hroom
  | cons store stores ih =>
    rw [List.forall_mem_cons] at h
    exact ih h.2 (room_apply h.1 hroom)

/-- A store elsewhere leaves a mark that is clear as it is. -/
theorem MarkClear.apply (h : MarkClear img) (hspares : store.SparesMark) :
    MarkClear (img.apply store) := by
  cases store with
  | bytes offset data =>
    refine ⟨?_, ?_⟩
    · rw [Image.apply, Image.size_write]
      exact h.room
    · rw [Image.apply, Image.slice_write_of_disjoint, h.mark]
      exact hspares.symm
  | length n =>
    refine ⟨hspares, ?_⟩
    rw [← h.mark]
    refine Image.slice_congr fun i _ hi => ?_
    have hlt : i < n := Nat.lt_of_lt_of_le hi hspares
    rw [Image.apply, Image.byte_resize, if_pos hlt]
  | fresh n => exact hspares.elim

/-- Clearing the mark makes it clear, whatever it was. -/
theorem markClear_clearMark (hroom : Header.size ≤ img.size) : MarkClear (img.apply clearMark) := by
  refine ⟨?_, ?_⟩
  · rw [clearMark, Image.apply, Image.size_write]
    exact hroom
  · have hself := Image.slice_write_self img Header.markOffset (Bytes.ofWord32 0) hroom
    rwa [Bytes.length_ofWord32] at hself

theorem LeavesClear.nil : LeavesClear [] := fun _ h => h

theorem LeavesClear.append (h : LeavesClear stores) (hmore : LeavesClear more) :
    LeavesClear (stores ++ more) := by
  intro img hclear
  rw [Image.applyAll_append]
  exact hmore _ (h img hclear)

theorem leavesClear_of_spares (h : ∀ store ∈ stores, store.SparesMark) : LeavesClear stores := by
  induction stores with
  | nil => exact .nil
  | cons store stores ih =>
    rw [List.forall_mem_cons] at h
    exact fun img hclear => ih h.2 _ (hclear.apply h.1)

/-- Whatever is done to the mark does not matter where it is cleared in the end. -/
theorem leavesClear_clearMark (h : ∀ store ∈ stores, store.KeepsRoom) :
    LeavesClear (stores ++ [clearMark]) := by
  intro img hclear
  rw [Image.applyAll_append]
  exact markClear_clearMark (room_applyAll h hclear.room)

end Stores

/-! ## Operations -/

section Operations

variable (r : Ring)

theorem leavesClear_placeStores (p : Plan) (payload : Bytes) :
    LeavesClear (placeStores p payload) := by
  -- The frame stands behind the header, and the dirty size in front of the mark.
  have hframe : LeavesClear [.bytes (Header.size + p.offset) (Bytes.ofWord32 payload.length),
      .bytes (Header.size + p.offset + prefixLength) payload] := by
    refine leavesClear_of_spares (List.forall_mem_cons.2 ⟨.inr (Nat.le_add_right _ _),
      List.forall_mem_singleton.2 (.inr ?_)⟩)
    exact Nat.le_trans (Nat.le_add_right _ _) (Nat.le_add_right _ _)
  have hdirty : LeavesClear (if p.pad > 0 then
      [.bytes Header.dirtyOffset (Bytes.ofWord32 p.pad)] else []) := by
    split
    · refine leavesClear_of_spares (List.forall_mem_singleton.2 (.inl ?_))
      rw [Bytes.length_ofWord32]
      decide
    · exact .nil
  exact hframe.append hdirty

theorem leavesClear_publishStores (p : Plan) (write : Nat) (payload : Bytes) :
    LeavesClear (publishStores p write payload) := by
  refine (leavesClear_placeStores p payload).append
    (leavesClear_of_spares (List.forall_mem_singleton.2 (.inl ?_)))
  rw [Bytes.length_ofWord64]
  decide

theorem leavesClear_readStores (read : Nat) : LeavesClear (readStores read) := by
  refine leavesClear_of_spares (List.forall_mem_singleton.2 (.inl ?_))
  rw [Bytes.length_ofWord64]
  decide

theorem leavesClear_pushStores (payload : Bytes) : LeavesClear (r.pushStores payload) := by
  rw [pushStores]
  cases plan r.write r.read r.capacity r.limit payload.length with
  | error cause => exact .nil
  | ok p =>
    dsimp only
    repeat' split
    · exact leavesClear_placeStores p payload
    · exact leavesClear_publishStores p r.write payload
    · exact .nil

theorem keepsRoom_growth {b : Backing} {capacity : Nat} {growth : List Store}
    (h : b.growth capacity = .ok growth) : ∀ store ∈ growth, store.KeepsRoom := by
  have hroom : Header.size ≤ Header.size + capacity := Nat.le_add_right _ _
  cases b with
  | heap =>
    cases h
    exact List.forall_mem_singleton.2 hroom
  | file path =>
    rw [(growth_file h).1]
    exact List.forall_mem_singleton.2 hroom

theorem leavesClear_resizeStores (target : Nat) : LeavesClear (r.resizeStores target) := by
  rw [resizeStores]
  cases r.stage (nextPowerOfTwo (max target r.capacity)) with
  | error cause => exact .nil
  | ok staged =>
    dsimp only
    cases hgrowth : (if nextPowerOfTwo (max target r.capacity) > r.capacity then
        r.backing.growth (nextPowerOfTwo (max target r.capacity)) else .ok []) with
    | error e =>
      have hset : ∀ store ∈ [setMark], store.KeepsRoom := List.forall_mem_singleton.2 trivial
      exact leavesClear_clearMark hset
    | ok growth =>
      have hroom : ∀ store ∈ growth, store.KeepsRoom := by
        split at hgrowth
        · exact keepsRoom_growth hgrowth
        · cases hgrowth
          rintro _ ⟨⟩
      -- The last of the stores is the one that clears the mark.
      have hlast : setMark :: growth ++ relayStores staged =
          (setMark :: growth ++ [.bytes Header.size staged,
            .bytes Header.writeOffset (Header.fields { write := staged.length })]) ++ [clearMark] := by
        rw [List.append_assoc]
        rfl
      dsimp only
      rw [hlast]
      refine leavesClear_clearMark (List.forall_mem_append.2 ⟨List.forall_mem_cons.2 ⟨trivial, hroom⟩,
        List.forall_mem_cons.2 ⟨trivial, List.forall_mem_singleton.2 trivial⟩⟩)

theorem leavesClear_serveStores (q : Request) : LeavesClear (r.serveStores q) := by
  rw [serveStores]
  split
  · exact .nil
  · exact r.leavesClear_resizeStores _

theorem leavesClear_frontStores : LeavesClear r.frontStores := by
  rw [frontStores]
  repeat' split
  · exact leavesClear_readStores _
  · exact .nil
  · exact .nil

theorem leavesClear_popStores : LeavesClear r.popStores := by
  rw [popStores]
  repeat' split
  · exact r.leavesClear_frontStores
  · exact r.leavesClear_serveStores _
  · exact (r.leavesClear_serveStores _).append (leavesClear_frontStores _)

theorem leavesClear_stores (b : Bench) (u : Bench.Use) : LeavesClear (b.stores u) := by
  cases u with
  | call call =>
    cases call with
    | push payload => exact b.ring.leavesClear_pushStores payload
    | grow capacity => exact .nil
  | resume =>
    rw [Bench.stores]
    split
    · exact b.ring.leavesClear_pushStores _
    · exact .nil
  | pop => exact b.ring.leavesClear_popStores
  | drop =>
    rw [Bench.stores]
    split
    · exact leavesClear_readStores _
    · exact .nil
  | unread => exact .nil
  | serve =>
    rw [Bench.stores]
    split
    · exact b.ring.leavesClear_serveStores _
    · exact .nil

end Operations

/-! ## Rings in use -/

section Use

variable {limit : Nat} {r : Ring} {b b' : Bench}

theorem markClear_of_zeros {img : Image} (hroom : Header.size ≤ img.size)
    (h : ∀ i, img.byte i = 0) : MarkClear img :=
  ⟨hroom, (Describes.of_zeros hroom h).mark⟩

/-- A header that is accepted has no mark. -/
theorem markClear_of_readHeader {content : Image} {h : Header} {capacity : Nat}
    (hread : readHeader content = .ok (h, capacity)) : MarkClear content := by
  rcases readHeader_eq_ok hread with ⟨hsize, -, hmark, -, -⟩
  exact ⟨hsize ▸ Nat.le_add_right _ _, (resizeInterrupted_slice content).1 hmark⟩

theorem markClear_of_attach {path : String} {content : Image} {requested : Nat}
    (hattach : (attach path content requested limit).1 = .ok r) : MarkClear r.image := by
  rcases attach_eq_ok hattach with ⟨hblank, -, rfl⟩ |
    ⟨header, capacity, hread, ⟨-, rfl⟩ | ⟨-, hresize⟩⟩
  · refine markClear_of_zeros (Nat.le_add_right _ _) fun i => ?_
    show (content.resize (Header.size + requested)).byte i = 0
    rw [Image.byte_resize, Image.byte_eq_zero content (by omega), ite_self]
  · exact markClear_of_readHeader hread
  · have hresized := image_resize (ofHeader path content capacity limit header) requested
    rw [hresize] at hresized
    rw [hresized]
    exact leavesClear_resizeStores _ requested content (markClear_of_readHeader hread)

/-- A ring is opened with the mark clear. -/
theorem markClear_of_openRing {d : Disk} {o : Options} (hopen : (d.openRing o).1 = .ok r) :
    MarkClear r.image := by
  cases hpath : o.path with
  | none =>
    rw [create_of_openRing hpath hopen]
    exact markClear_of_zeros (Nat.le_add_right _ _) fun i => Image.byte_zeros _ i
  | some path =>
    rcases attach_of_openRing hpath hopen with ⟨content, hattach⟩
    exact markClear_of_attach hattach

theorem MarkClear.happens {e : Bench.Event} (h : MarkClear b.ring.image)
    (happens : Happens limit b e b') : MarkClear b'.ring.image := by
  cases happens with
  | use huse =>
    rw [Bench.image_use huse]
    exact leavesClear_stores b _ _ h
  | close => exact h
  | @refuse q tried _ _ _ htried =>
    have hroom : ∀ store ∈ setMark :: tried, store.KeepsRoom := by
      have hlong : ∀ n, Header.size ≤ Header.size + n := fun n => Nat.le_add_right _ n
      refine List.forall_mem_cons.2 ⟨trivial, ?_⟩
      cases htried with
      | untouched => rintro _ ⟨⟩
      | cutBack => exact List.forall_mem_cons.2 ⟨hlong _, List.forall_mem_singleton.2 (hlong _)⟩
      | left _ => exact List.forall_mem_singleton.2 (hlong _)
    exact leavesClear_clearMark hroom _ h
  | reopen _ _ hopen => exact markClear_of_openRing hopen

/-- The mark of a ring that was opened is clear, whatever has happened to it since. -/
theorem markClear_of_handled {d : Disk} {o : Options} (hopen : (d.openRing o).1 = .ok r)
    (handled : Handled o.limit (.ofRing r) b) : MarkClear b.ring.image := by
  induction handled with
  | refl => exact markClear_of_openRing hopen
  | step _ happens ih => exact ih.happens happens

end Use

end Ring
end WriteBehind
