import WriteBehind.Proofs.Ring.Resize

/-!
# Houses — storage that may be longer than the ring in it

A file that was lengthened and could not be mapped is cut back, and the system may refuse that too.  The ring
is what it was then, and the file stays longer, with nothing but zeros behind the ring.

* `Houses img capacity`: the image has room for a ring of this capacity and zeros behind it;
* `Store.Within capacity`: a store that keeps to the ring, and `Houses.applyAll` follows stores that do;
* `Refused capacity tried`: what was done to a file before it was refused more room.
-/

namespace WriteBehind
namespace Ring

/-- The image has room for a header and `capacity` ring bytes, and holds only zeros behind them. -/
structure Houses (img : Image) (capacity : Nat) : Prop where
  room : Header.size + capacity ≤ img.size
  blank : ∀ i, Header.size + capacity ≤ i → img.byte i = 0

/-- The store keeps to the header and `capacity` ring bytes, or leaves room for them. -/
def Store.Within (capacity : Nat) : Store → Prop
  | bytes offset data => offset + data.length ≤ Header.size + capacity
  | length n | fresh n => Header.size + capacity ≤ n

/-- What was done to a file between setting the mark and clearing it, where it was refused more room. -/
inductive Refused (capacity : Nat) : List Store → Prop
  | untouched : Refused capacity []
  /-- The file was lengthened and cut back. -/
  | cutBack {goal : Nat} :
      Refused capacity [.length (Header.size + goal), .length (Header.size + capacity)]
  /-- The file was lengthened, and cutting it back was refused as well. -/
  | left {goal : Nat} (hlarger : capacity ≤ goal) : Refused capacity [.length (Header.size + goal)]

/-! ## Stores -/

namespace Houses

variable {img : Image} {capacity : Nat} {store : Store} {stores : List Store}

theorem of_size (h : img.size = Header.size + capacity) : Houses img capacity :=
  ⟨Nat.le_of_eq h.symm, fun _ hi => img.byte_eq_zero (h ▸ hi)⟩

theorem apply (h : Houses img capacity) (hstore : store.Within capacity) :
    Houses (img.apply store) capacity := by
  cases store with
  | bytes offset data =>
    have hend : offset + data.length ≤ Header.size + capacity := hstore
    refine ⟨?_, fun i hi => ?_⟩
    · rw [Image.apply, Image.size_write]
      exact h.room
    · rw [Image.apply, Image.byte_write_of_disjoint img (.inr (Nat.le_trans hend hi))]
      exact h.blank i hi
  | length n =>
    refine ⟨hstore, fun i hi => ?_⟩
    rw [Image.apply, Image.byte_resize, h.blank i hi, ite_self]
  | fresh n => exact ⟨hstore, fun i _ => Image.byte_zeros n i⟩

theorem applyAll (h : Houses img capacity) (hstores : ∀ store ∈ stores, store.Within capacity) :
    Houses (img.applyAll stores) capacity := by
  induction stores generalizing img with
  | nil => exact h
  | cons store stores ih =>
    rw [List.forall_mem_cons] at hstores
    exact ih (h.apply hstores.1) hstores.2

end Houses

/-- A store to the header keeps to a ring of any capacity. -/
theorem Store.within_header {offset : Nat} {data : Bytes} (capacity : Nat)
    (h : offset + data.length ≤ Header.size) : (Store.bytes offset data).Within capacity :=
  Nat.le_trans h (Nat.le_add_right _ _)

/-! ## Operations -/

section Operations

variable {r : Ring} {capacity : Nat}

theorem within_placeStores {p : Plan} {payload : Bytes}
    (h : p.offset + (payload.length + prefixLength) ≤ capacity) :
    ∀ store ∈ placeStores p payload, store.Within capacity := by
  have hdirty : ∀ store ∈ (if p.pad > 0 then [Store.bytes Header.dirtyOffset (Bytes.ofWord32 p.pad)]
      else []), store.Within capacity := by
    split
    · refine List.forall_mem_singleton.2 (Store.within_header capacity ?_)
      rw [Bytes.length_ofWord32]
      decide
    · rintro _ ⟨⟩
  refine List.forall_mem_append.2 ⟨List.forall_mem_cons.2 ⟨?_, List.forall_mem_singleton.2 ?_⟩, hdirty⟩
  · simp only [Store.Within, Bytes.length_ofWord32]
    rw [prefixLength] at h
    omega
  · simp only [Store.Within]
    omega

theorem within_readStores (read capacity : Nat) :
    ∀ store ∈ readStores read, store.Within capacity := by
  refine List.forall_mem_singleton.2 (Store.within_header capacity ?_)
  rw [Bytes.length_ofWord64]
  decide

theorem within_relayStores {staged : Bytes} (h : staged.length ≤ capacity) :
    ∀ store ∈ relayStores staged, store.Within capacity := by
  refine List.forall_mem_cons.2 ⟨Nat.add_le_add_left h _, List.forall_mem_cons.2
    ⟨Store.within_header capacity ?_, List.forall_mem_singleton.2 (Store.within_header capacity ?_)⟩⟩
  · rw [Header.length_fields]
    decide
  · rw [Bytes.length_ofWord32]
    decide

theorem within_mark (n capacity : Nat) :
    (Store.bytes Header.markOffset (Bytes.ofWord32 n)).Within capacity := by
  refine Store.within_header capacity ?_
  rw [Bytes.length_ofWord32]
  decide

theorem Houses.place (h : Houses r.image r.capacity) {p : Plan} {payload : Bytes}
    (hend : p.offset + (payload.length + prefixLength) ≤ r.capacity) :
    Houses (r.place p payload).image r.capacity :=
  h.applyAll (within_placeStores hend)

theorem Houses.publish (h : Houses r.image r.capacity) {p : Plan} {payload : Bytes}
    (hend : p.offset + (payload.length + prefixLength) ≤ r.capacity) :
    Houses (r.publish p payload).image r.capacity := by
  refine h.applyAll (List.forall_mem_append.2 ⟨within_placeStores hend,
    List.forall_mem_singleton.2 (Store.within_header r.capacity ?_)⟩)
  rw [Bytes.length_ofWord64]
  decide

theorem Houses.moveRead (h : Houses r.image r.capacity) (n : Nat) :
    Houses (r.moveRead n).image r.capacity :=
  h.applyAll (within_readStores n r.capacity)

theorem Houses.calledOff (h : Houses r.image r.capacity) :
    Houses (r.store [setMark, clearMark]).image r.capacity :=
  h.applyAll (List.forall_mem_cons.2 ⟨within_mark 1 _, List.forall_mem_singleton.2 (within_mark 0 _)⟩)

/-- Storage that grows is as long as the new ring; other storage keeps its length. -/
theorem Houses.relaid (h : Houses r.image r.capacity) {growth : List Store} {staged : Bytes}
    (hgrows : r.Grows growth capacity) (hroom : staged.length ≤ r.capacity) :
    Houses (r.relaid growth capacity staged).image capacity := by
  rw [image_relaid]
  refine Houses.applyAll ?_ (within_relayStores (Nat.le_trans hroom hgrows.capacity_le))
  cases hgrows with
  | larger _ _ _ hgrowth => exact .of_size (size_growth r.image hgrowth)
  | same => exact h.applyAll (List.forall_mem_singleton.2 (within_mark 1 _))

/-- A file that was refused more room still has what it had. -/
theorem Houses.refused (h : Houses r.image r.capacity) {tried : List Store}
    (htried : Refused r.capacity tried) :
    Houses (r.image.applyAll (setMark :: tried ++ [clearMark])) r.capacity := by
  rw [Image.applyAll_append]
  refine Houses.apply ?_ (within_mark 0 _)
  have hset : Houses (r.image.apply setMark) r.capacity := h.apply (within_mark 1 _)
  cases htried with
  | untouched => exact hset
  | cutBack => exact .of_size rfl
  | @left goal hlarger =>
    have hlong : (Store.length (Header.size + goal)).Within r.capacity :=
      Nat.add_le_add_left hlarger _
    exact hset.apply hlong

end Operations

end Ring
end WriteBehind
