import WriteBehind.Proofs.Ring.Trace

/-!
# Cut — what is read after some of the stores of an operation

An operation may be cut short between any two of its stores.  Its bytes then show the records from
before it or those from after it, or carry the mark of a resize that was not finished.

* `Image.Throughout good img stores` says that every image on the way through the stores is good;
* `Shows img limit records` and `Torn img` are what a reader may find;
* `Sound.push_throughout`, `Sound.release_throughout`, `Sound.front_throughout`,
  `Sound.serve_throughout` and `Sound.pop_throughout` follow the single operations.
-/

namespace WriteBehind

/-! ## On the way through stores -/

/-- Every image on the way, from none of the stores carried out to all of them, is good. -/
def Image.Throughout (good : Image → Prop) (img : Image) (stores : List Ring.Store) : Prop :=
  ∀ n, good (img.applyAll (stores.take n))

namespace Image.Throughout

variable {good : Image → Prop} {img : Image} {s t : List Ring.Store}

theorem nil (h : good img) : Throughout good img [] := by
  intro n
  rw [List.take_nil]
  exact h

theorem cons {store : Ring.Store} (h : good img) (rest : Throughout good (img.apply store) t) :
    Throughout good img (store :: t) := by
  intro n
  cases n with
  | zero => exact h
  | succ n => exact rest n

theorem append (h : Throughout good img s) (h' : Throughout good (img.applyAll s) t) :
    Throughout good img (s ++ t) := by
  induction s generalizing img with
  | nil => exact h'
  | cons store s ih => exact cons (h 0) (ih (fun n => h (n + 1)) h')

/-- A single store has nothing between before and after. -/
theorem of_length_le_one (hlength : s.length ≤ 1) (h : good img) (h' : good (img.applyAll s)) :
    Throughout good img s := by
  match s, hlength with
  | [], _ => exact nil h
  | [_], _ => exact cons h (nil h')

end Image.Throughout

namespace Ring

/-! ## What a reader may find -/

/-- The bytes are those of a ring with this limit that holds these records. -/
def Shows (img : Image) (limit : Nat) (records : List Bytes) : Prop :=
  ∃ r : Ring, Sound r records ∧ r.image = img ∧ r.limit = limit

/-- The bytes are as long as those of a ring, and the resize mark is set. -/
structure Torn (img : Image) : Prop where
  room : Header.size < img.size
  powerOfTwo : IsPowerOfTwo (img.size - Header.size)
  mark : img.slice 20 4 = Bytes.ofWord32 1

/-- What a reader may find while an operation is on its way from some records to others. -/
def Passing (limit : Nat) (before after : List Bytes) (img : Image) : Prop :=
  Shows img limit before ∨ Shows img limit after ∨ Torn img

theorem Sound.shows {r : Ring} {records : List Bytes} (h : Sound r records) :
    Shows r.image r.limit records :=
  ⟨r, h, rfl, rfl⟩

theorem Sound.passing {r : Ring} {records : List Bytes} (h : Sound r records)
    (after : List Bytes) : Passing r.limit records after r.image :=
  .inl h.shows

namespace Torn

variable {img : Image}

theorem of_setMark (hroom : Header.size < img.size)
    (hcap : IsPowerOfTwo (img.size - Header.size)) : Torn (img.apply setMark) := by
  have hroom' : 24 < img.size := hroom
  have hlength : (Bytes.ofWord32 1).length = 4 := Bytes.length_ofWord32 1
  refine ⟨hroom, hcap, ?_⟩
  have hself := Image.slice_write_self img 20 (Bytes.ofWord32 1) (by omega)
  rwa [hlength] at hself

/-- Other stores leave the mark alone. -/
theorem apply_bytes (h : Torn img) (offset : Nat) (data : Bytes)
    (hplace : offset + data.length ≤ 20 ∨ 24 ≤ offset) : Torn (img.apply (.bytes offset data)) := by
  have hsize : (img.apply (.bytes offset data)).size = img.size := Image.size_write img offset data
  refine ⟨?_, ?_, ?_⟩
  · rw [hsize]
    exact h.room
  · rw [hsize]
    exact h.powerOfTwo
  · rw [← h.mark]
    exact Image.slice_write_of_disjoint img (by omega)

theorem apply_length (h : Torn img) {capacity : Nat} (hcap : IsPowerOfTwo capacity) :
    Torn (img.apply (.length (Header.size + capacity))) := by
  have hpos := hcap.pos
  refine ⟨?_, ?_, ?_⟩
  · show Header.size < Header.size + capacity
    omega
  · show IsPowerOfTwo (Header.size + capacity - Header.size)
    rwa [Nat.add_sub_cancel_left]
  · rw [← h.mark]
    refine Image.slice_congr ?_
    intro i _ hi
    rw [Header.size]
    exact (Image.byte_resize img _ i).trans (if_pos (by omega))

end Torn

/-- The bytes differ from those of the ring at the place of a planned frame and in the dirty size
alone. -/
structure Beside (r : Ring) (p : Plan) (image : Image) (dirty : Nat) : Prop where
  size : image.size = r.image.size
  describes : Describes image r.write r.read dirty
  byte : ∀ i, Header.size ≤ i →
    (i < Header.size + p.offset ∨ Header.size + p.offset + p.frameLength ≤ i) →
      image.byte i = r.image.byte i

namespace Beside

variable {r : Ring} {p : Plan} {image : Image} {dirty : Nat}

theorem refl {records : List Bytes} (h : Sound r records) (p : Plan) :
    Beside r p r.image r.dirty :=
  ⟨rfl, h.describes, fun _ _ _ => rfl⟩

/-- A store within the frame. -/
theorem writeFrame (h : Beside r p image dirty) (offset : Nat) (data : Bytes)
    (hlo : Header.size + p.offset ≤ offset)
    (hhi : offset + data.length ≤ Header.size + p.offset + p.frameLength) :
    Beside r p (image.write offset data) dirty := by
  refine ⟨(Image.size_write _ _ _).trans h.size, h.describes.storeBehind (by omega) data, ?_⟩
  intro i hbehind hi
  rw [← h.byte i hbehind hi]
  exact Image.byte_write_of_disjoint _ (by omega)

/-- The store of the padding in front of the frame. -/
theorem writeDirty (h : Beside r p image dirty) (pad : Nat) :
    Beside r p (image.write Header.dirtyOffset (Bytes.ofWord32 pad)) pad := by
  refine ⟨(Image.size_write _ _ _).trans h.size, h.describes.storeDirty pad, ?_⟩
  intro i hbehind hi
  rw [← h.byte i hbehind hi]
  refine Image.byte_write_of_disjoint _ (.inr ?_)
  rw [Bytes.length_ofWord32, Header.dirtyOffset]
  rw [Header.size] at hbehind
  omega

end Beside

namespace Sound

variable {r : Ring} {records : List Bytes}

/-! ## Publishing -/

section Publishing

variable {payload : Bytes} {p : Plan}

/-- A frame that is not published yet leaves the records alone, whatever was written of it. -/
theorem unpublished (h : Sound r records)
    (hplan : plan r.write r.read r.capacity r.limit payload.length = .ok p)
    (hfits : p.fits = true) (hword : p.pad < 2 ^ 32) {image : Image} {dirty : Nat}
    (hdirty : dirty = r.dirty ∨ 0 < p.pad ∧ dirty = p.pad) (hbeside : Beside r p image dirty) :
    Sound { r with image, dirty } records := by
  rcases plan_eq_ok hplan with ⟨-, -, -, hpad, -, -, -⟩
  have hpadLt : p.pad < frameReserve r.limit := by
    rw [hpad]
    exact wrapPad_lt h.powerOfTwo
  have hold := h.dirty_lt
  have holdWord := h.dirty_word
  refine ⟨h.powerOfTwo, h.limit_lt, h.roomy, h.capacity_le, hbeside.size.trans h.size, h.write_le,
    h.write_lt, ?_, ?_, hbeside.describes, ?_⟩
  · show dirty < frameReserve r.limit
    omega
  · show dirty < 2 ^ 32
    omega
  · refine h.sized.layout_overwrite h.layout (Nat.le_refl _) hplan hfits ?_ ?_
    · intro hzero
      show dirty = r.dirty
      omega
    · intro i hi
      exact hbeside.byte _ (Nat.le_add_right _ _) (by omega)

/-- The length, the payload and the padding are written beside the records. -/
theorem place_throughout (h : Sound r records)
    (hplan : plan r.write r.read r.capacity r.limit payload.length = .ok p)
    (hfits : p.fits = true) (hword : p.pad < 2 ^ 32) (after : List Bytes) :
    Image.Throughout (Passing r.limit records after) r.image (placeStores p payload) := by
  rcases plan_eq_ok hplan with ⟨-, -, -, -, -, hframe, -⟩
  have hlength : (Bytes.ofWord32 payload.length).length = 4 := Bytes.length_ofWord32 _
  rw [prefixLength] at hframe
  have hprefix := (Beside.refl h p).writeFrame (Header.size + p.offset)
    (Bytes.ofWord32 payload.length) (by omega) (by omega)
  have hpayload := hprefix.writeFrame (Header.size + p.offset + prefixLength) payload
    (by rw [prefixLength]; omega) (by rw [prefixLength]; omega)
  have hshows : ∀ image, Beside r p image r.dirty → Passing r.limit records after image :=
    fun image hbeside => (h.unpublished hplan hfits hword (.inl rfl) hbeside).passing _
  by_cases hpos : 0 < p.pad
  · have hpadding := (h.unpublished hplan hfits hword (.inr ⟨hpos, rfl⟩)
      (hpayload.writeDirty p.pad)).passing after
    rw [placeStores, if_pos hpos]
    exact .cons (h.passing _) (.cons (hshows _ hprefix) (.cons (hshows _ hpayload) (.nil hpadding)))
  · rw [placeStores, if_neg hpos]
    exact .cons (h.passing _) (.cons (hshows _ hprefix) (.nil (hshows _ hpayload)))

/-- Once the payload is in its place, the write counter takes in the whole frame at once. -/
theorem publish_throughout (h : Sound r records)
    (hplan : plan r.write r.read r.capacity r.limit payload.length = .ok p)
    (hfits : p.fits = true) (hword : p.pad < 2 ^ 32) (hcounter : p.nextWrite r.write < 2 ^ 64) :
    Image.Throughout (Passing r.limit records (records ++ [payload])) r.image
      (publishStores p r.write payload) := by
  have hplaced := (h.place hplan hfits hword).passing (records ++ [payload])
  have hlast := (h.publish hplan hfits hword hcounter).shows
  rw [show (r.publish p payload).image = _ from Image.applyAll_append _ _ _] at hlast
  exact (h.place_throughout hplan hfits hword _).append (.cons hplaced (.nil (.inr (.inl hlast))))

end Publishing

theorem push_throughout (h : Sound r records) {payload : Bytes} (hnotes : r.NotesPad payload) :
    Image.Throughout
      (Passing r.limit records (records ++ added payload (r.push payload).1)) r.image
      (r.pushStores payload) := by
  simp only [push, pushStores]
  cases hplan : plan r.write r.read r.capacity r.limit payload.length with
  | error cause => exact .nil (h.passing _)
  | ok p =>
    dsimp only
    by_cases hfits : p.fits = true
    · have hword := hnotes p hplan hfits
      rw [if_pos hfits, if_pos hfits]
      by_cases hcounter : p.nextWrite r.write < 2 ^ 64
      · rw [checkWord_of_lt hcounter]
        exact h.publish_throughout hplan hfits hword hcounter
      · rw [checkWord_of_le (Nat.not_lt.1 hcounter)]
        exact h.place_throughout hplan hfits hword _
    · rw [if_neg hfits, if_neg hfits]
      exact .nil (h.passing _)

/-! ## The consumer -/

theorem release_throughout {l : Lease} {rest : List Bytes} (h : Sound r (l.payload :: rest))
    (hl : Holds r l) :
    Image.Throughout (Passing r.limit (l.payload :: rest) rest) r.image (readStores l.next) := by
  have hreleased := (h.release hl).shows
  rw [Ring.release, image_moveRead, limit_moveRead] at hreleased
  exact .of_length_le_one (Nat.le_refl 1) (h.passing _) (.inr (.inl hreleased))

theorem length_frontStores_le (r : Ring) : r.frontStores.length ≤ 1 := by
  rw [frontStores]
  split
  · split
    · exact Nat.le_refl 1
    · exact Nat.zero_le 1
  · exact Nat.zero_le 1

/-- Passing padding for good is a single store, and no record is lost by it. -/
theorem front_throughout (h : Sound r records) :
    Image.Throughout (Passing r.limit records records) r.image r.frontStores := by
  rcases h.front with ⟨record, r', hfront, hfinds, hsame⟩
  have himage := image_front r
  rw [hfront] at himage
  have hshows := hfinds.sound.shows
  have hlimit : r'.limit = r.limit := by
    rcases hsame with rfl | ⟨n, rfl⟩
    · rfl
    · exact limit_moveRead r n
  rw [hlimit, show r'.image = _ from himage] at hshows
  exact .of_length_le_one (length_frontStores_le r) (h.passing _) (.inl hshows)

/-! ## Resizing -/

theorem torn_setMark (h : Sound r records) : Torn (r.image.apply setMark) := by
  have hsize := h.size
  have hpos := h.powerOfTwo.pos
  refine .of_setMark (by omega) ?_
  rw [hsize, Nat.add_sub_cancel_left]
  exact h.powerOfTwo

/-- A file that cannot be lengthened is left as it was, after the mark was set for a while. -/
theorem callOff_throughout (h : Sound r records) :
    Image.Throughout (Passing r.limit records records) r.image [setMark, clearMark] := by
  have hafter := h.calledOff.shows
  simp only [store] at hafter
  exact .cons (h.passing _) (.cons (.inr (.inr h.torn_setMark)) (.nil (.inl hafter)))

/-- From the mark to its clearing nothing but the mark is to be trusted. -/
theorem relay_throughout (h : Sound r records) {target : Nat} (hcap : IsPowerOfTwo target)
    (hdouble : 2 * r.capacity ≤ target) (hle : target ≤ 2 ^ 62)
    (hgrowth : r.backing.growth target = .ok [.length (Header.size + target)]) :
    Image.Throughout (Passing r.limit records records) r.image
      (setMark :: [.length (Header.size + target)] ++
        relayStores (records.flatMap View.encodeFrame)) := by
  have hrelaid := (h.relaid hgrowth hcap hdouble hle).shows
  have hmarked := h.torn_setMark
  have hgrown := hmarked.apply_length hcap
  generalize records.flatMap View.encodeFrame = staged at hrelaid ⊢
  have hstaged := hgrown.apply_bytes Header.size staged (.inr (Nat.le_refl 24))
  have hfields : Header.writeOffset + (Header.fields { write := staged.length }).length ≤ 20 :=
    Nat.le_of_eq (congrArg (0 + ·) (Header.length_fields _))
  have hheader := hstaged.apply_bytes Header.writeOffset _ (.inl hfields)
  exact .cons (h.passing _) (.cons (.inr (.inr hmarked)) (.cons (.inr (.inr hgrown))
    (.cons (.inr (.inr hstaged)) (.cons (.inr (.inr hheader)) (.nil (.inl hrelaid))))))

/-- A resize of a file to twice the room at least, also where the file cannot be lengthened. -/
theorem resize_throughout (h : Sound r records) {path : String} (hfile : r.backing = .file path)
    {target : Nat} (hcap : IsPowerOfTwo target) (hdouble : 2 * r.capacity ≤ target) :
    Image.Throughout (Passing r.limit records records) r.image (r.resizeStores target) := by
  rcases h.length_staged_le with ⟨hunread, hcapacity⟩
  rcases goal_of_double h.powerOfTwo.pos hdouble with ⟨hmax, hlarger⟩
  have hgoal : nextPowerOfTwo target = target := nextPowerOfTwo_of_isPowerOfTwo hcap
  rw [hgoal] at hlarger
  simp only [resizeStores, hmax, hgoal, if_pos hlarger]
  rcases hstage : r.stage target with cause | staged
  · exact .nil (h.passing _)
  · rcases stage_eq_ok.1 hstage with ⟨hstaged, -, -, -⟩
    cases h.linearize.symm.trans hstaged
    dsimp only
    rcases hgrowth : r.backing.growth target with e | growth
    · exact h.callOff_throughout
    · have hgrown := hgrowth
      rw [hfile] at hgrown
      rcases growth_file hgrown with ⟨rfl, hlength⟩
      exact h.relay_throughout hcap hdouble (hcap.le_of_fileLength hlength) hgrowth

theorem serve_throughout (h : Sound r records) {path : String} (hfile : r.backing = .file path)
    {q : Request} (hasked : r.WellAsked) (hq : r.request = some q) :
    Image.Throughout (Passing r.limit records records) r.image (r.serveStores q) := by
  rcases hasked q hq with ⟨hcap, hdouble, -⟩
  have hgrow : growTarget r.capacity 0 ≤ q.target := growTarget_le hcap hdouble (by omega)
  rw [serveStores, Nat.max_eq_left hgrow]
  split
  · exact .nil (h.passing _)
  · exact h.resize_throughout hfile hcap hdouble

theorem pop_throughout (h : Sound r records) {path : String} (hfile : r.backing = .file path)
    (hasked : r.WellAsked) :
    Image.Throughout (Passing r.limit records records) r.image r.popStores := by
  rw [popStores]
  cases hrequest : r.request with
  | none => exact h.front_throughout
  | some q =>
    have hthroughout := h.serve_throughout hfile hasked hrequest
    have himage := image_serve r q
    dsimp only
    rcases h.serve_outcome hasked hrequest with ⟨served, hserve, hsound, -, hlimit⟩ |
      ⟨e, served, hserve, -⟩ | hserve <;> rw [hserve] at himage ⊢
    · -- The padding is passed in the ring that the request has left.
      have hfront := hsound.front_throughout
      rw [hlimit, show served.image = _ from himage] at hfront
      exact hthroughout.append hfront
    · exact hthroughout
    · exact hthroughout

end Sound

end Ring
end WriteBehind
