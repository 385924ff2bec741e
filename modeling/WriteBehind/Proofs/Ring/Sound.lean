import WriteBehind.Proofs.Ring.Description
import WriteBehind.Proofs.Ring.Layout
import WriteBehind.Ring.Open

/-!
# Sound — a ring as a list of unread records

`Sound r records` ties the counters, the paddings, the dirty size and the bytes of a ring to the
list of its unread records.  Each operation is followed on that list:

* `Sound.backlog` and `Sound.linearize` read it, `Sound.publish` appends to it;
* `Sound.front` finds its head and `Sound.release` drops it;
* `Holds r lease` says that the record on loan is the one at the read counter.
-/

namespace WriteBehind
namespace Ring

/-- The sizes of a ring fit each other, and its write counter is a 64-bit word. -/
structure Sized (r : Ring) : Prop where
  powerOfTwo : IsPowerOfTwo r.capacity
  limit_lt : r.limit < 2 ^ 32
  /-- There is room for two frames. -/
  roomy : 2 * frameReserve r.limit ≤ r.capacity
  size : r.image.size = Header.size + r.capacity
  write_lt : r.write < 2 ^ 64

/-- The ring holds just these records, oldest first. -/
structure Sound (r : Ring) (records : List Bytes) : Prop where
  powerOfTwo : IsPowerOfTwo r.capacity
  limit_lt : r.limit < 2 ^ 32
  /-- There is room for two frames. -/
  roomy : 2 * frameReserve r.limit ≤ r.capacity
  capacity_le : r.capacity ≤ 2 ^ 62
  size : r.image.size = Header.size + r.capacity
  write_le : r.write ≤ r.read + r.capacity
  write_lt : r.write < 2 ^ 64
  dirty_lt : r.dirty < frameReserve r.limit
  dirty_word : r.dirty < 2 ^ 32
  describes : Describes r.image r.write r.read r.dirty
  layout : r.view.Layout r.read r.write records

/-- The padding in front of the payload, if it were published now, fits the dirty size. -/
def NotesPad (r : Ring) (payload : Bytes) : Prop :=
  ∀ p, plan r.write r.read r.capacity r.limit payload.length = .ok p → p.fits = true → p.pad < 2 ^ 32

/-- The record on loan starts at the read counter. -/
structure Holds (r : Ring) (l : Lease) : Prop where
  start : l.start = r.read
  next : l.next = r.read + (l.payload.length + prefixLength)
  pad : wrapPad r.read r.capacity r.limit = 0

/-- The oldest of the records was looked for: it is on loan, if there is one. -/
structure Finds (r : Ring) (record : Option Lease) (records : List Bytes) : Prop where
  sound : Sound r records
  head : record.map Lease.payload = records.head?
  holds : ∀ l, record = some l → Holds r l

/-! ## Views -/

theorem slice_view (r : Ring) (offset length : Nat) :
    r.view.slice offset length = r.image.slice (Header.size + offset) length := by
  refine List.map_congr_left ?_
  intro i _
  rw [Nat.add_assoc]
  rfl

/-- A view depends on the bytes behind the header alone. -/
theorem view_eq_of_byte {r r' : Ring} (hcapacity : r'.capacity = r.capacity)
    (hlimit : r'.limit = r.limit) (hdirty : r'.dirty = r.dirty)
    (hbyte : ∀ i, Header.size ≤ i → r'.image.byte i = r.image.byte i) : r'.view = r.view := by
  have hbytes : (fun i => r'.image.byte (Header.size + i)) =
      fun i => r.image.byte (Header.size + i) := by
    funext i
    exact hbyte _ (Nat.le_add_right _ _)
  simp only [view, hcapacity, hlimit, hdirty, hbytes]

/-- What is published is seen as what is in its place. -/
theorem view_publish (r : Ring) (p : Plan) (payload : Bytes) :
    (r.publish p payload).view = (r.place p payload).view :=
  view_eq_of_byte rfl rfl rfl fun _ hi => byte_publish r.image p r.write payload hi

/-! ## Moving the read counter -/

/-- All that moving the read counter changes. -/
theorem moveRead_eq (r : Ring) (n : Nat) :
    r.moveRead n =
      { r with image := r.image.write Header.readOffset (Bytes.ofWord64 n), read := n } := by
  simp only [moveRead, store, readStores, Image.applyAll, List.foldl_cons, List.foldl_nil,
    Image.apply]

-- The fields are read off by rewriting: comparing `r` with the ring afterwards would compare images.
@[simp] theorem read_moveRead (r : Ring) (n : Nat) : (r.moveRead n).read = n := by
  rw [moveRead_eq]

@[simp] theorem write_moveRead (r : Ring) (n : Nat) : (r.moveRead n).write = r.write := by
  rw [moveRead_eq]

@[simp] theorem capacity_moveRead (r : Ring) (n : Nat) :
    (r.moveRead n).capacity = r.capacity := by
  rw [moveRead_eq]

@[simp] theorem limit_moveRead (r : Ring) (n : Nat) : (r.moveRead n).limit = r.limit := by
  rw [moveRead_eq]

@[simp] theorem request_moveRead (r : Ring) (n : Nat) : (r.moveRead n).request = r.request := by
  rw [moveRead_eq]

@[simp] theorem consumerOpen_moveRead (r : Ring) (n : Nat) :
    (r.moveRead n).consumerOpen = r.consumerOpen := by
  rw [moveRead_eq]

theorem byte_storeRead (img : Image) (n : Nat) {i : Nat} (h : Header.size ≤ i) :
    (img.write Header.readOffset (Bytes.ofWord64 n)).byte i = img.byte i := by
  -- Ring bytes are behind the read counter's place in the header.
  have hfield : Header.readOffset + (Bytes.ofWord64 n).length ≤ i := by
    rw [Bytes.length_ofWord64, Header.readOffset]
    rw [Header.size] at h
    omega
  exact Image.byte_write_of_disjoint img (.inr hfield)

theorem holds_lease (r : Ring) (n : Nat) (hpad : wrapPad r.read r.capacity r.limit = 0) :
    Holds r (r.lease n) := by
  refine ⟨rfl, ?_, hpad⟩
  have hlength : (r.lease n).payload.length = n := View.length_slice r.view _ n
  rw [hlength]
  rfl

theorem Holds.congr {r r' : Ring} {l : Lease} (h : Holds r l) (hread : r'.read = r.read)
    (hcapacity : r'.capacity = r.capacity) (hlimit : r'.limit = r.limit) : Holds r' l := by
  rcases h with ⟨hstart, hnext, hpad⟩
  refine ⟨?_, ?_, ?_⟩
  · rw [hread, hstart]
  · rw [hread, hnext]
  · rw [hread, hcapacity, hlimit, hpad]

/-! ## Publishing behind a layout -/

namespace Sized

variable {r : Ring} {stop : Nat} {records : List Bytes} {payload : Bytes} {p : Plan}

theorem reserve_le (h : Sized r) : frameReserve r.limit ≤ r.capacity := by
  have hroomy := h.roomy
  omega

/-- At the place of a frame that is yet to be published the bytes may be written over, and if it needs
padding the dirty size as well: the records stay. -/
theorem layout_overwrite (h : Sized r) (hlayout : r.view.Layout r.read stop records)
    (hstop : stop ≤ r.write)
    (hplan : plan r.write r.read r.capacity r.limit payload.length = .ok p)
    (hfits : p.fits = true) {byte : Nat → UInt8} {dirty : Nat}
    (hdirty : p.pad = 0 → dirty = r.dirty)
    (hbyte : ∀ i, i < p.offset ∨ p.offset + p.frameLength ≤ i → byte i = r.view.byte i) :
    ({ r.view with byte, dirty } : View).Layout r.read stop records := by
  rcases plan_eq_ok hplan with ⟨-, -, hle, hpad, -, -, hfit⟩
  have hroom := hfits
  rw [hfit, decide_eq_true_eq] at hroom
  -- With padding in front of the new frame no other padding is unread.
  have hredirty : ({ r.view with dirty } : View).Layout r.read stop records := by
    by_cases hpos : 0 < p.pad
    · rw [hpad] at hpos hroom
      refine hlayout.redirty h.powerOfTwo hstop hpos ?_ _
      show r.write + wrapPad r.write r.capacity r.limit ≤ r.read + r.capacity
      omega
    · rw [hdirty (by omega)]
      exact hlayout
  refine hredirty.congr h.powerOfTwo rfl rfl rfl ?_
  -- The new frame stands at the place of no unread counter.
  intro c hlo hhi
  have hplace : c % r.capacity < p.offset ∨ p.offset + p.frameLength ≤ c % r.capacity :=
    plan_disjoint h.powerOfTwo hplan hfits hlo (Nat.lt_of_lt_of_le hhi hstop)
  exact hbyte _ hplace

/-- The records that were there are still there, whatever becomes of the dirty size. -/
theorem layout_place (h : Sized r) (hlayout : r.view.Layout r.read stop records)
    (hstop : stop ≤ r.write)
    (hplan : plan r.write r.read r.capacity r.limit payload.length = .ok p)
    (hfits : p.fits = true) : (r.place p payload).view.Layout r.read stop records := by
  rcases plan_eq_ok hplan with ⟨-, -, -, -, -, hframe, -⟩
  have hlength := View.length_encodeFrame payload
  refine h.layout_overwrite hlayout hstop hplan hfits ?_ ?_
  · intro hzero
    exact if_neg (by omega)
  · intro i hi
    refine byte_place_of_disjoint r.image p payload (Nat.le_add_right _ _) ?_
    omega

theorem layout_publish_old (h : Sized r) (hlayout : r.view.Layout r.read stop records)
    (hstop : stop ≤ r.write)
    (hplan : plan r.write r.read r.capacity r.limit payload.length = .ok p)
    (hfits : p.fits = true) : (r.publish p payload).view.Layout r.read stop records := by
  rw [view_publish]
  exact h.layout_place hlayout hstop hplan hfits

/-- Its frame stands at the place that was planned for it. -/
theorem slice_publish (h : Sized r)
    (hplan : plan r.write r.read r.capacity r.limit payload.length = .ok p) :
    (r.publish p payload).view.slice (physicalOffset (r.write + p.pad) r.capacity)
      (View.encodeFrame payload).length = View.encodeFrame payload := by
  rcases plan_eq_ok hplan with ⟨-, -, -, -, -, hframe, -⟩
  have hlength := View.length_encodeFrame payload
  have hend := plan_offset_add_le h.powerOfTwo h.reserve_le hplan
  have hsize := h.size
  rw [physicalOffset_eq_mod h.powerOfTwo, ← plan_offset h.powerOfTwo hplan, slice_view]
  exact slice_publish_frame r.image p r.write payload (by omega)

/-- Behind them stands the new frame, after padding if there is any. -/
theorem layout_publish_new (h : Sized r)
    (hplan : plan r.write r.read r.capacity r.limit payload.length = .ok p)
    (hword : p.pad < 2 ^ 32) :
    (r.publish p payload).view.Layout r.write (r.write + (p.pad + p.frameLength)) [payload] := by
  rcases plan_eq_ok hplan with ⟨hpos, hlimit, -, hpad, -, hframe, -⟩
  have hbytes := h.slice_publish hplan
  have hframeLayout : (r.publish p payload).view.Layout (r.write + p.pad)
      (r.write + p.pad + (payload.length + prefixLength)) [payload] :=
    .frame (plan_wrapPad h.powerOfTwo h.reserve_le hplan) hpos hlimit hbytes (.done _)
  rw [hframe, ← Nat.add_assoc]
  -- With padding the layout starts with it, and the ring has just noted how long it is.
  by_cases hpadding : 0 < p.pad
  · have hdirty : (r.publish p payload).dirty = p.pad := by
      refine (if_pos hpadding).trans ?_
      exact Nat.mod_eq_of_lt hword
    refine .padding ?_ ?_ ?_
    · show 0 < wrapPad r.write r.capacity r.limit
      rwa [← hpad]
    · show wrapPad r.write r.capacity r.limit = (r.publish p payload).dirty
      rw [hdirty, hpad]
    · show (r.publish p payload).view.Layout (r.write + wrapPad r.write r.capacity r.limit) _ _
      rw [← hpad]
      exact hframeLayout
  · have hzero : p.pad = 0 := by omega
    rw [hzero, Nat.add_zero] at hframeLayout ⊢
    exact hframeLayout

end Sized

namespace Sound

variable {r : Ring} {records : List Bytes}

theorem sized (h : Sound r records) : Sized r :=
  ⟨h.powerOfTwo, h.limit_lt, h.roomy, h.size, h.write_lt⟩

theorem read_le (h : Sound r records) : r.read ≤ r.write := h.layout.le

theorem reserve_le (h : Sound r records) : frameReserve r.limit ≤ r.capacity := h.sized.reserve_le

/-- Changes that keep the bytes, the counters and the sizes keep the records. -/
theorem of_eq {r' : Ring} (h : Sound r records) (himage : r'.image = r.image)
    (hcapacity : r'.capacity = r.capacity) (hlimit : r'.limit = r.limit)
    (hwrite : r'.write = r.write) (hread : r'.read = r.read) (hdirty : r'.dirty = r.dirty) :
    Sound r' records := by
  have hview : r'.view = r.view := view_eq_of_byte hcapacity hlimit hdirty (fun i _ => by rw [himage])
  refine ⟨?_, ?_, ?_, ?_, ?_, ?_, ?_, ?_, ?_, ?_, ?_⟩
  · rw [hcapacity]
    exact h.powerOfTwo
  · rw [hlimit]
    exact h.limit_lt
  · rw [hcapacity, hlimit]
    exact h.roomy
  · rw [hcapacity]
    exact h.capacity_le
  · rw [himage, hcapacity]
    exact h.size
  · rw [hwrite, hread, hcapacity]
    exact h.write_le
  · rw [hwrite]
    exact h.write_lt
  · rw [hdirty, hlimit]
    exact h.dirty_lt
  · rw [hdirty]
    exact h.dirty_word
  · rw [himage, hwrite, hread, hdirty]
    exact h.describes
  · rw [hview, hread, hwrite]
    exact h.layout

theorem withdraw (h : Sound r records) : Sound { r with request := none } records :=
  h.of_eq rfl rfl rfl rfl rfl rfl

/-- Stores to the header that keep to the counters keep the records from the read counter on. -/
theorem restore (h : Sound r records) {image : Image} {read : Nat} {rest : List Bytes}
    (hlo : r.read ≤ read) (hsize : image.size = r.image.size)
    (hdescribes : Describes image r.write read r.dirty)
    (hbyte : ∀ i, Header.size ≤ i → image.byte i = r.image.byte i)
    (hlayout : r.view.Layout read r.write rest) : Sound { r with image, read } rest := by
  have hle := h.write_le
  have hview : ({ r with image, read } : Ring).view = r.view := view_eq_of_byte rfl rfl rfl hbyte
  refine ⟨h.powerOfTwo, h.limit_lt, h.roomy, h.capacity_le, hsize.trans h.size, ?_, h.write_lt,
    h.dirty_lt, h.dirty_word, hdescribes, ?_⟩
  · show r.write ≤ read + r.capacity
    omega
  · rw [hview]
    exact hlayout

/-! ## Reading -/

theorem backlog (h : Sound r records) :
    r.backlog.payloads = records ∧ r.backlog.defect = none :=
  h.layout.walk_eq (Nat.le_of_lt h.limit_lt) h.write_lt

theorem linearize (h : Sound r records) :
    r.linearize = .ok (records.flatMap View.encodeFrame) :=
  h.layout.linearize_eq (Nat.le_of_lt h.limit_lt) h.write_lt

/-- An empty ring in memory is sound. -/
theorem of_zeros {r : Ring} (hcap : IsPowerOfTwo r.capacity) (hlimit : r.limit < 2 ^ 32)
    (hroomy : 2 * frameReserve r.limit ≤ r.capacity) (hle : r.capacity ≤ 2 ^ 62)
    (hsize : r.image.size = Header.size + r.capacity) (hwrite : r.write = 0) (hread : r.read = 0)
    (hdirty : r.dirty = 0) (hzero : ∀ i, r.image.byte i = 0) : Sound r [] := by
  have hreserve : 0 < frameReserve r.limit := by
    simp only [frameReserve, prefixLength]
    omega
  refine ⟨hcap, hlimit, hroomy, hle, hsize, ?_, ?_, ?_, ?_, ?_, ?_⟩
  · omega
  · omega
  · omega
  · omega
  · rw [hwrite, hread, hdirty]
    exact Describes.of_zeros (by omega) hzero
  · rw [hwrite, hread]
    exact .done 0

/-! ## Publishing -/

section Publishing

variable {payload : Bytes} {p : Plan}

/-- A payload in its place is none of the records yet, and leaves them alone. -/
theorem place (h : Sound r records)
    (hplan : plan r.write r.read r.capacity r.limit payload.length = .ok p)
    (hfits : p.fits = true) (hword : p.pad < 2 ^ 32) : Sound (r.place p payload) records := by
  rcases plan_eq_ok hplan with ⟨-, -, -, hpad, -, -, -⟩
  have hpadLt : p.pad < frameReserve r.limit := by
    rw [hpad]
    exact wrapPad_lt h.powerOfTwo
  have hdirty : (r.place p payload).dirty = if 0 < p.pad then p.pad else r.dirty := by
    show (if p.pad > 0 then p.pad % 2 ^ 32 else r.dirty) = _
    rw [Nat.mod_eq_of_lt hword]
  refine ⟨h.powerOfTwo, h.limit_lt, h.roomy, h.capacity_le, ?_, h.write_le, h.write_lt, ?_, ?_, ?_, ?_⟩
  · exact (size_place r.image p payload).trans h.size
  · have hold := h.dirty_lt
    rw [hdirty]
    show _ < frameReserve r.limit
    split <;> omega
  · have hold := h.dirty_word
    rw [hdirty]
    split <;> omega
  · rw [hdirty]
    exact h.describes.place p payload
  · exact h.sized.layout_place h.layout (Nat.le_refl _) hplan hfits

theorem publish (h : Sound r records)
    (hplan : plan r.write r.read r.capacity r.limit payload.length = .ok p)
    (hfits : p.fits = true) (hword : p.pad < 2 ^ 32) (hcounter : p.nextWrite r.write < 2 ^ 64) :
    Sound (r.publish p payload) (records ++ [payload]) := by
  rcases plan_eq_ok hplan with ⟨-, -, -, -, -, -, hfit⟩
  have hplaced := h.place hplan hfits hword
  have hle := h.read_le
  rw [hfit, decide_eq_true_eq] at hfits
  refine ⟨h.powerOfTwo, h.limit_lt, h.roomy, h.capacity_le, ?_, ?_, hcounter, hplaced.dirty_lt,
    hplaced.dirty_word, ?_, ?_⟩
  · exact (size_publish r.image p r.write payload).trans h.size
  · show p.nextWrite r.write ≤ r.read + r.capacity
    rw [Plan.nextWrite]
    omega
  · have hdirty : (r.publish p payload).dirty = if 0 < p.pad then p.pad else r.dirty := by
      show (if p.pad > 0 then p.pad % 2 ^ 32 else r.dirty) = _
      rw [Nat.mod_eq_of_lt hword]
    rw [hdirty]
    exact h.describes.publish p payload
  · -- What was there, and the new frame behind it.
    rw [view_publish]
    exact hplaced.layout.append (view_publish r p payload ▸ h.sized.layout_publish_new hplan hword)

end Publishing

/-! ## The consumer -/

theorem moveRead (h : Sound r records) {read : Nat} {rest : List Bytes} (hlo : r.read ≤ read)
    (hlayout : r.view.Layout read r.write rest) : Sound (r.moveRead read) rest := by
  rw [moveRead_eq]
  refine h.restore hlo (Image.size_write _ _ _) (h.describes.storeRead read) ?_ hlayout
  intro i hi
  exact byte_storeRead r.image read hi

/-- Padding at the read counter is told from a frame. -/
theorem front_padding (h : Sound r records) (hpad : 0 < wrapPad r.read r.capacity r.limit)
    (hlt : r.read < r.write) :
    r.view.classify r.read r.write = .ok (.padding (wrapPad r.read r.capacity r.limit)) ∧
      r.view.Layout (r.read + wrapPad r.read r.capacity r.limit) r.write records := by
  rcases h.layout.of_padding hpad (Nat.ne_of_lt hlt) with ⟨hdirty, hrest⟩
  exact ⟨View.Layout.classify_padding hpad hdirty hrest.le h.write_lt, hrest⟩

/-- Where no padding is due, the oldest record stands at the read counter. -/
theorem front_frame (h : Sound r records) (hpad : wrapPad r.read r.capacity r.limit = 0)
    (hlt : r.read < r.write) :
    ∃ payload rest, records = payload :: rest ∧
      r.view.classify r.read r.write = .ok (.frame payload.length) ∧
      r.view.payload r.read payload.length = payload ∧
      r.view.Layout (r.read + (payload.length + prefixLength)) r.write rest := by
  rcases h.layout.of_frame hpad (Nat.ne_of_lt hlt) with
    ⟨payload, rest, hcons, hpos, hlimit, hbytes, hrest⟩
  refine ⟨payload, rest, hcons, ?_, (View.slice_eq_encodeFrame_iff.1 hbytes).2, hrest⟩
  exact View.Layout.classify_frame hpad hpos hlimit (Nat.le_of_lt h.limit_lt) hbytes hrest.le
    h.write_lt

theorem finds_none (h : Sound r records) (heq : r.read = r.write) : Finds r none records := by
  refine ⟨h, ?_, ?_⟩
  · have hlayout := h.layout
    rw [heq] at hlayout
    rw [hlayout.eq_nil]
    rfl
  · intro l hl
    cases hl

/-- Where no padding is due, the frame at the read counter is the head of the list. -/
theorem finds_lease (h : Sound r records) (hpad : wrapPad r.read r.capacity r.limit = 0)
    (hlt : r.read < r.write) :
    ∃ n, r.view.classify r.read r.write = .ok (.frame n) ∧ Finds r (some (r.lease n)) records := by
  rcases h.front_frame hpad hlt with ⟨payload, rest, hcons, hclassify, hpayload, -⟩
  refine ⟨payload.length, hclassify, h, ?_, ?_⟩
  · rw [hcons]
    exact congrArg some hpayload
  · rintro l ⟨⟩
    exact holds_lease r _ hpad

/-- The oldest record is found, and passing padding for good costs no record. -/
theorem front (h : Sound r records) :
    ∃ record r', r.front = (.ok record, r') ∧ Finds r' record records ∧
      (r' = r ∨ ∃ n, r' = r.moveRead n) := by
  have hle := h.read_le
  have hahead : ¬ r.read > r.write := by omega
  by_cases heq : r.read = r.write
  · refine ⟨none, r, ?_, h.finds_none heq, .inl rfl⟩
    rw [Ring.front, if_neg hahead, if_pos heq]
  · have hlt : r.read < r.write := by omega
    by_cases hpad : 0 < wrapPad r.read r.capacity r.limit
    · -- One step over the padding, and then either the end or a frame.
      rcases h.front_padding hpad hlt with ⟨hclassify, hlayout⟩
      have hstop := hlayout.le
      have hmoved := h.moveRead (Nat.le_add_right _ _) hlayout
      have hzero := wrapPad_add_wrapPad h.powerOfTwo h.reserve_le hpad
      generalize hnext : r.read + wrapPad r.read r.capacity r.limit = next at *
      by_cases hend : next = r.write
      · refine ⟨none, r.moveRead next, ?_, hmoved.finds_none ?_, .inr ⟨next, rfl⟩⟩
        · simp only [Ring.front, hahead, heq, hclassify, hnext, read_moveRead, write_moveRead,
            hend, if_true, if_false]
        · rw [read_moveRead, write_moveRead]
          exact hend
      · have hzero' : wrapPad (r.moveRead next).read (r.moveRead next).capacity
            (r.moveRead next).limit = 0 := by
          rw [read_moveRead, capacity_moveRead, limit_moveRead]
          exact hzero
        have hlt' : (r.moveRead next).read < (r.moveRead next).write := by
          rw [read_moveRead, write_moveRead]
          omega
        rcases hmoved.finds_lease hzero' hlt' with ⟨n, hframe, hfinds⟩
        refine ⟨some ((r.moveRead next).lease n), r.moveRead next, ?_, hfinds, .inr ⟨next, rfl⟩⟩
        simp only [Ring.front, hahead, heq, hclassify, hnext, read_moveRead, write_moveRead,
          hend, if_false] at hframe ⊢
        rw [hframe]
    · -- The frame stands at the read counter itself.
      have hzero : wrapPad r.read r.capacity r.limit = 0 := by omega
      rcases h.finds_lease hzero hlt with ⟨n, hframe, hfinds⟩
      refine ⟨some (r.lease n), r, ?_, hfinds, .inl rfl⟩
      simp only [Ring.front, hahead, heq, hframe, if_false]

/-! ## The record on loan -/

section Loan

variable {l : Lease} {rest : List Bytes}

theorem read_lt_write {payload : Bytes} (h : Sound r (payload :: rest)) : r.read < r.write := by
  refine Nat.lt_of_le_of_ne h.read_le ?_
  intro heq
  have hlayout := h.layout
  rw [heq] at hlayout
  cases hlayout.eq_nil

/-- The bytes on loan are those that were taken, as long as the record is not given up. -/
theorem leased (h : Sound r (l.payload :: rest)) (hl : Holds r l) : r.leased l = l.payload := by
  rcases h.front_frame hl.pad h.read_lt_write with ⟨payload, rest', hcons, -, hpayload, -⟩
  cases hcons
  rw [Ring.leased, hl.start]
  exact hpayload

/-- Giving up the record on loan drops the head of the list. -/
theorem release (h : Sound r (l.payload :: rest)) (hl : Holds r l) :
    Sound (r.release l) rest := by
  rcases h.front_frame hl.pad h.read_lt_write with ⟨payload, rest', hcons, -, -, hlayout⟩
  cases hcons
  rw [Ring.release, hl.next]
  exact h.moveRead (Nat.le_add_right _ _) hlayout

end Loan

end Sound

end Ring
end WriteBehind
