import WriteBehind.Proofs.Ring.Drain

/-!
# Limits — the order of records where the dirty size does not hold a padding

A padding may be too long for the dirty size, and no reader gets past it: the list of records behind it is
lost.  Its order is not: what such a ring still gives is the front of the list.

* `View.Leads v position stop records`: the frames of the records stand there, up to `stop` or up to a
  padding at which every walk stops;
* `Gives r records`: the ring gives these records in order, as far as it gives any;
* `Lent r l`: the record on loan is the frame at the read counter;
* `Gives.push`, `Gives.pop` and `Gives.release` follow the list through every use, and `Gives.reopen`
  through a new start on the same file.
-/

namespace WriteBehind
namespace Ring

namespace View

/-- Nobody gets past padding that is not as long as the dirty size says. -/
theorem classify_mismatch {v : View} {position : Nat} (stop : Nat)
    (hpad : 0 < wrapPad position v.capacity v.limit)
    (hdirty : wrapPad position v.capacity v.limit ≠ v.dirty) :
    v.classify position stop =
      .error (.paddingMismatch (wrapPad position v.capacity v.limit) v.dirty position) := by
  rw [classify]
  dsimp only
  rw [if_pos hpad, if_pos hdirty]

/-- The frames of `records` stand from `position` on: all of them up to `stop`, or some up to a padding
that is not as long as the dirty size says. -/
inductive Leads (v : View) (position stop : Nat) (records : List Bytes) : Prop
  | whole (layout : v.Layout position stop records)
  | stuck {middle : Nat} {first : List Bytes} (layout : v.Layout position middle first)
      (hfirst : first <+: records) (hlt : middle < stop)
      (hpad : 0 < wrapPad middle v.capacity v.limit)
      (hdirty : wrapPad middle v.capacity v.limit ≠ v.dirty)

namespace Leads

variable {v : View} {position stop : Nat} {records : List Bytes}

theorem le (h : v.Leads position stop records) : position ≤ stop := by
  cases h with
  | whole layout => exact layout.le
  | stuck layout _ hlt _ _ => exact Nat.le_trans layout.le (Nat.le_of_lt hlt)

/-- Between equal counters there is nothing, and nothing that is stuck. -/
theorem eq_nil (h : v.Leads position position records) : records = [] := by
  cases h with
  | whole layout => exact layout.eq_nil
  | stuck layout _ hlt _ _ => exact absurd layout.le (Nat.not_le.2 hlt)

/-! ## The first piece -/

theorem of_padding (h : v.Leads position stop records)
    (hpad : 0 < wrapPad position v.capacity v.limit) (hne : position ≠ stop) :
    wrapPad position v.capacity v.limit ≠ v.dirty ∨
      wrapPad position v.capacity v.limit = v.dirty ∧
        v.Leads (position + wrapPad position v.capacity v.limit) stop records := by
  cases h with
  | whole layout =>
    rcases layout.of_padding hpad hne with ⟨hdirty, rest⟩
    exact .inr ⟨hdirty, .whole rest⟩
  | @stuck middle first layout hfirst hlt hpad' hdirty =>
    by_cases hhere : position = middle
    · rw [hhere]
      exact .inl hdirty
    · rcases layout.of_padding hpad hhere with ⟨hdirty', rest⟩
      exact .inr ⟨hdirty', .stuck rest hfirst hlt hpad' hdirty⟩

theorem of_frame (h : v.Leads position stop records)
    (hpad : wrapPad position v.capacity v.limit = 0) (hne : position ≠ stop) :
    ∃ payload rest, records = payload :: rest ∧ 0 < payload.length ∧ payload.length < v.limit ∧
      v.slice (physicalOffset position v.capacity) (encodeFrame payload).length =
        encodeFrame payload ∧
      v.Leads (position + (payload.length + prefixLength)) stop rest := by
  cases h with
  | whole layout =>
    rcases layout.of_frame hpad hne with ⟨payload, rest, hcons, hpos, hlimit, hbytes, hrest⟩
    exact ⟨payload, rest, hcons, hpos, hlimit, hbytes, .whole hrest⟩
  | @stuck middle first layout hfirst hlt hpad' hdirty =>
    -- No padding is due here, so this is not where it is stuck.
    have hne' : position ≠ middle := by
      rintro rfl
      omega
    rcases layout.of_frame hpad hne' with ⟨payload, rest, rfl, hpos, hlimit, hbytes, hrest⟩
    rcases List.cons_prefix_iff.1 hfirst with ⟨more, rfl, hmore⟩
    exact ⟨payload, more, rfl, hpos, hlimit, hbytes, .stuck hrest hmore hlt hpad' hdirty⟩

/-! ## Walking -/

/-- Either all frames can be staged, or the walk gets stuck. -/
theorem linearize_cases (h : v.Leads position stop records) (hword : v.limit ≤ 2 ^ 32)
    (hstop : stop < 2 ^ 64) :
    (v.Layout position stop records ∧
      v.linearize position stop = .ok (records.flatMap encodeFrame)) ∨
    ∃ cause, v.linearize position stop = .error cause := by
  cases h with
  | whole layout => exact .inl ⟨layout, layout.linearize_eq hword hstop⟩
  | @stuck middle first layout hfirst hlt hpad hdirty =>
    have hwalk := walk_of_error hlt (classify_mismatch stop hpad hdirty)
    have hdefect := (layout.walk_append hword (Nat.le_of_lt hlt) hstop).2
    rw [hwalk] at hdefect
    exact .inr ⟨_, linearize_of_some hdefect⟩

/-- Frames without gaps lead up to their end, or to the first place where padding is due. -/
theorem of_contiguous (hcap : IsPowerOfTwo v.capacity) (hdirty : v.dirty = 0)
    (payloads : List Bytes) {start : Nat}
    (hmem : ∀ payload ∈ payloads, 0 < payload.length ∧ payload.length < v.limit)
    (hroom : start + (payloads.flatMap encodeFrame).length ≤ v.capacity)
    (hbytes : v.slice start (payloads.flatMap encodeFrame).length = payloads.flatMap encodeFrame) :
    v.Leads start (start + (payloads.flatMap encodeFrame).length) payloads := by
  rcases Layout.contiguous_cases hcap payloads hmem hroom hbytes with hlayout |
    ⟨middle, first, hlayout, hfirst, hlt, hpad⟩
  · exact .whole hlayout
  · exact .stuck hlayout hfirst hlt hpad (by omega)

end Leads
end View

/-! ## Rings -/

/-- The first bytes of the image are the counters and the dirty size, and each fits into its word. -/
structure Stored (r : Ring) : Prop where
  describes : Describes r.image r.write r.read r.dirty
  read_lt : r.read < 2 ^ 64
  dirty_lt : r.dirty < 2 ^ 32

/-- The ring gives these records, oldest first, as far as it gives any. -/
structure Gives (r : Ring) (records : List Bytes) : Prop where
  sized : Sized r
  stored : Stored r
  leads : r.view.Leads r.read r.write records

/-- The record on loan is the frame at the read counter. -/
structure Lent (r : Ring) (l : Lease) : Prop where
  start : l.start = r.read
  next : l.next = r.read + (l.payload.length + prefixLength)
  pad : wrapPad r.read r.capacity r.limit = 0
  layout : r.view.Layout r.read l.next [l.payload]
  unread : l.next ≤ r.write

theorem Sound.gives {r : Ring} {records : List Bytes} (h : Sound r records) : Gives r records :=
  ⟨h.sized, ⟨h.describes, Nat.lt_of_le_of_lt h.read_le h.write_lt, h.dirty_word⟩, .whole h.layout⟩

theorem Sized.of_eq {r r' : Ring} (h : Sized r) (hsize : r'.image.size = r.image.size)
    (hcapacity : r'.capacity = r.capacity) (hlimit : r'.limit = r.limit) (hwrite : r'.write = r.write) :
    Sized r' := by
  refine ⟨?_, ?_, ?_, ?_, ?_⟩
  · rw [hcapacity]
    exact h.powerOfTwo
  · rw [hlimit]
    exact h.limit_lt
  · rw [hcapacity, hlimit]
    exact h.roomy
  · rw [hsize, hcapacity]
    exact h.size
  · rw [hwrite]
    exact h.write_lt

/-- Changes that keep the bytes, the counters and the sizes keep the order. -/
theorem Gives.of_eq {r r' : Ring} {records : List Bytes} (h : Gives r records)
    (himage : r'.image = r.image) (hcapacity : r'.capacity = r.capacity) (hlimit : r'.limit = r.limit)
    (hwrite : r'.write = r.write) (hread : r'.read = r.read) (hdirty : r'.dirty = r.dirty) :
    Gives r' records := by
  have hview : r'.view = r.view := view_eq_of_byte hcapacity hlimit hdirty fun i _ => by rw [himage]
  refine ⟨h.sized.of_eq (congrArg Image.size himage) hcapacity hlimit hwrite, ⟨?_, ?_, ?_⟩, ?_⟩
  · rw [himage, hwrite, hread, hdirty]
    exact h.stored.describes
  · rw [hread]
    exact h.stored.read_lt
  · rw [hdirty]
    exact h.stored.dirty_lt
  · rw [hview, hread, hwrite]
    exact h.leads

/-! ## Publishing -/

section Publishing

variable {r : Ring} {payload : Bytes} {p : Plan} {records : List Bytes}

theorem Sized.place (h : Sized r) (p : Plan) (payload : Bytes) : Sized (r.place p payload) :=
  ⟨h.powerOfTwo, h.limit_lt, h.roomy, (size_place r.image p payload).trans h.size, h.write_lt⟩

theorem Sized.publish (h : Sized r) (p : Plan) (payload : Bytes)
    (hword : p.nextWrite r.write < 2 ^ 64) : Sized (r.publish p payload) :=
  ⟨h.powerOfTwo, h.limit_lt, h.roomy, (size_publish r.image p r.write payload).trans h.size, hword⟩

theorem Sized.push (h : Sized r) (payload : Bytes) : Sized (r.push payload).2 := by
  rcases r.push_cases payload with ⟨cause, hpush⟩ | ⟨p, -, -, hword, hpush⟩ | ⟨p, -, -, -, hpush⟩ |
    ⟨p, -, -, -, hpush⟩ <;> rw [hpush]
  · exact h
  · exact h.publish p payload hword
  · exact h.place p payload
  · rcases r.askForRoom_cases ⟨growTarget r.capacity 0, p.frameLength⟩ with
      ⟨notice, hask⟩ | ⟨notice, fault, hask⟩ <;> rw [hask] <;> exact h.of_eq rfl rfl rfl rfl

/-- Of the length of the padding the header has what fits its field. -/
theorem describes_noted {image : Image} {write read pad dirty : Nat}
    (h : Describes image write read (if pad > 0 then pad else dirty)) :
    Describes image write read (if pad > 0 then pad % 2 ^ 32 else dirty) := by
  by_cases hpad : pad > 0
  · rw [if_pos hpad] at h ⊢
    exact h.dirty_mod
  · rwa [if_neg hpad] at h ⊢

theorem Stored.place (h : Stored r) (p : Plan) (payload : Bytes) : Stored (r.place p payload) := by
  have hdirty := h.dirty_lt
  refine ⟨describes_noted (h.describes.place p payload), h.read_lt, ?_⟩
  show (if p.pad > 0 then p.pad % 2 ^ 32 else r.dirty) < 2 ^ 32
  split <;> omega

theorem Stored.publish (h : Stored r) (p : Plan) (payload : Bytes) :
    Stored (r.publish p payload) :=
  ⟨describes_noted (h.describes.publish p payload), h.read_lt, (h.place p payload).dirty_lt⟩

/-- Where a walk got stuck before, it gets stuck once a payload is in its place. -/
theorem Sized.stuck_place (h : Sized r) {middle : Nat} {first : List Bytes}
    (hlayout : r.view.Layout r.read middle first) (hlt : middle < r.write)
    (hpad : 0 < wrapPad middle r.capacity r.limit)
    (hdirty : wrapPad middle r.capacity r.limit ≠ r.dirty)
    (hplan : plan r.write r.read r.capacity r.limit payload.length = .ok p)
    (hfits : p.fits = true) :
    (r.place p payload).view.Layout r.read middle first ∧
      wrapPad middle r.capacity r.limit ≠ (r.place p payload).dirty := by
  rcases plan_eq_ok hplan with ⟨-, -, hle, hpadding, -, hframe, hfit⟩
  have hroom := hfits
  rw [hfit, decide_eq_true_eq] at hroom
  refine ⟨h.layout_place hlayout (Nat.le_of_lt hlt) hplan hfits, ?_⟩
  show wrapPad middle r.capacity r.limit ≠ (if p.pad > 0 then p.pad % 2 ^ 32 else r.dirty)
  split
  · -- The new padding ends where the other one does, and is shorter.
    have hfirst := hlayout.le
    have hlater : 0 < wrapPad r.write r.capacity r.limit := by omega
    have hsame : middle + wrapPad middle r.capacity r.limit =
        r.write + wrapPad r.write r.capacity r.limit :=
      add_wrapPad_eq h.powerOfTwo hpad hlater (Nat.le_of_lt hlt) (by omega)
    have hmod := Nat.mod_le p.pad (2 ^ 32)
    omega
  · exact hdirty

/-- A payload in its place is none of the records yet. -/
theorem Gives.place (h : Gives r records)
    (hplan : plan r.write r.read r.capacity r.limit payload.length = .ok p)
    (hfits : p.fits = true) : Gives (r.place p payload) records := by
  refine ⟨h.sized.place p payload, h.stored.place p payload, ?_⟩
  cases h.leads with
  | whole layout => exact .whole (h.sized.layout_place layout (Nat.le_refl _) hplan hfits)
  | stuck layout hfirst hlt hpad hdirty =>
    rcases h.sized.stuck_place layout hlt hpad hdirty hplan hfits with ⟨hlayout, hdirty'⟩
    exact .stuck hlayout hfirst hlt hpad hdirty'

theorem Gives.publish (h : Gives r records)
    (hplan : plan r.write r.read r.capacity r.limit payload.length = .ok p)
    (hfits : p.fits = true) (hword : p.nextWrite r.write < 2 ^ 64) :
    Gives (r.publish p payload) (records ++ [payload]) := by
  rcases plan_eq_ok hplan with ⟨-, -, -, hpad, -, hframe, -⟩
  have hnext : (r.publish p payload).write = r.write + (p.pad + p.frameLength) := rfl
  refine ⟨h.sized.publish p payload hword, h.stored.publish p payload, ?_⟩
  rw [hnext]
  cases h.leads with
  | whole layout =>
    have hold := h.sized.layout_publish_old layout (Nat.le_refl _) hplan hfits
    by_cases hnotes : p.pad < 2 ^ 32
    · exact .whole (hold.append (h.sized.layout_publish_new hplan hnotes))
    · -- The dirty size has lost the upper bits of the padding.
      refine .stuck hold (List.prefix_append _ _) (by omega) ?_ ?_
      · show 0 < wrapPad r.write r.capacity r.limit
        omega
      · show wrapPad r.write r.capacity r.limit ≠ (if p.pad > 0 then p.pad % 2 ^ 32 else r.dirty)
        rw [if_pos (by omega), ← hpad]
        omega
  | stuck layout hfirst hlt hpad' hdirty =>
    rcases h.sized.stuck_place layout hlt hpad' hdirty hplan hfits with ⟨hlayout, hdirty'⟩
    rw [← view_publish] at hlayout
    exact .stuck hlayout (hfirst.trans (List.prefix_append _ _)) (by omega) hpad' hdirty'

theorem Lent.place {l : Lease} (h : Lent r l) (hsized : Sized r)
    (hplan : plan r.write r.read r.capacity r.limit payload.length = .ok p)
    (hfits : p.fits = true) : Lent (r.place p payload) l :=
  ⟨h.start, h.next, h.pad, hsized.layout_place h.layout h.unread hplan hfits, h.unread⟩

theorem Lent.publish {l : Lease} (h : Lent r l) (hsized : Sized r)
    (hplan : plan r.write r.read r.capacity r.limit payload.length = .ok p)
    (hfits : p.fits = true) : Lent (r.publish p payload) l :=
  ⟨h.start, h.next, h.pad, hsized.layout_publish_old h.layout h.unread hplan hfits,
    Nat.le_trans h.unread (Nat.le_add_right _ _)⟩

/-- Asking for room changes no record. -/
theorem Gives.askForRoom (h : Gives r records) (request : Request) :
    Gives (r.askForRoom request).2 records := by
  rcases r.askForRoom_cases request with ⟨notice, hask⟩ | ⟨notice, fault, hask⟩ <;> rw [hask] <;>
    exact h.of_eq rfl rfl rfl rfl rfl rfl

theorem Lent.askForRoom {l : Lease} (h : Lent r l) (request : Request) :
    Lent (r.askForRoom request).2 l := by
  rcases r.askForRoom_cases request with ⟨notice, hask⟩ | ⟨notice, fault, hask⟩ <;> rw [hask] <;>
    exact ⟨h.start, h.next, h.pad, h.layout, h.unread⟩

/-- Every push keeps the order: it adds its payload at the end of the list if it is done. -/
theorem Gives.push (h : Gives r records) (payload : Bytes) :
    Gives (r.push payload).2 (records ++ added payload (r.push payload).1) := by
  rcases r.push_cases payload with ⟨cause, hpush⟩ | ⟨p, hplan, hfits, hword, hpush⟩ |
    ⟨p, hplan, hfits, -, hpush⟩ | ⟨p, -, -, -, hpush⟩
  · rw [hpush]
    show Gives r (records ++ [])
    rwa [List.append_nil]
  · rw [hpush]
    exact h.publish hplan hfits hword
  · rw [hpush]
    show Gives _ (records ++ [])
    rw [List.append_nil]
    exact h.place hplan hfits
  · rw [hpush, added_askForRoom, List.append_nil]
    exact h.askForRoom _

end Publishing

/-! ## Stores that keep the frames -/

section Restoring

variable {r : Ring} {records rest : List Bytes}

/-- Stores to the header leave all frames where they are. -/
theorem Gives.restore (h : Gives r records) {image : Image} {read : Nat}
    (hsize : image.size = r.image.size) (hdescribes : Describes image r.write read r.dirty)
    (hword : read < 2 ^ 64)
    (hbyte : ∀ i, Header.size ≤ i → image.byte i = r.image.byte i)
    (hleads : r.view.Leads read r.write rest) : Gives { r with image, read } rest := by
  have hview : ({ r with image, read } : Ring).view = r.view := view_eq_of_byte rfl rfl rfl hbyte
  refine ⟨h.sized.of_eq hsize rfl rfl rfl, ⟨hdescribes, hword, h.stored.dirty_lt⟩, ?_⟩
  rw [hview]
  exact hleads

theorem Sized.store (h : Sized r) {stores : List Store}
    (hsize : (r.image.applyAll stores).size = r.image.size) : Sized (r.store stores) :=
  h.of_eq hsize rfl rfl rfl

theorem Sized.moveRead (h : Sized r) (n : Nat) : Sized (r.moveRead n) := by
  rw [moveRead_eq]
  exact h.of_eq (Image.size_write _ _ _) rfl rfl rfl

theorem Gives.moveRead (h : Gives r records) {read : Nat} (hleads : r.view.Leads read r.write rest) :
    Gives (r.moveRead read) rest := by
  rw [moveRead_eq]
  exact h.restore (Image.size_write _ _ _) (h.stored.describes.storeRead read)
    (Nat.lt_of_le_of_lt hleads.le h.sized.write_lt) (fun _ hi => byte_storeRead r.image read hi) hleads

theorem Gives.calledOff (h : Gives r records) : Gives (r.store [setMark, clearMark]) records :=
  h.restore (size_callOff r.image) h.stored.describes.callOff h.stored.read_lt
    (fun _ hi => byte_callOff r.image hi) h.leads

end Restoring

/-! ## Resizing -/

section Resizing

variable {r : Ring} {records : List Bytes}

theorem Sized.relaid (h : Sized r) {growth : List Store} {capacity : Nat} {staged : Bytes}
    (hgrows : r.Grows growth capacity) (hunread : staged.length ≤ r.write - r.read) :
    Sized (r.relaid growth capacity staged) := by
  have hword := h.write_lt
  have hsize : (r.image.applyAll (setMark :: growth)).size = Header.size + capacity := by
    rcases hgrows.size_cases with hsize | ⟨rfl, hsize⟩
    · exact hsize
    · exact hsize.trans h.size
  refine ⟨hgrows.powerOfTwo h.powerOfTwo, h.limit_lt, Nat.le_trans h.roomy hgrows.capacity_le, ?_, ?_⟩
  · rw [image_relaid, size_relay]
    exact hsize
  · show staged.length < 2 ^ 64
    omega

/-- Frames that were laid out anew, in any storage that has room for them. -/
theorem gives_relaid {growth : List Store} {capacity : Nat} (hsized : Sized r)
    (hlayout : r.view.Layout r.read r.write records) (hgrows : r.Grows growth capacity)
    (hroom : (records.flatMap View.encodeFrame).length ≤ r.capacity)
    (hunread : (records.flatMap View.encodeFrame).length ≤ r.write - r.read) :
    Gives (r.relaid growth capacity (records.flatMap View.encodeFrame)) records := by
  have hrelaid := hsized.relaid hgrows hunread
  have hlarge := hgrows.capacity_le
  have hsize := hrelaid.size
  rw [image_relaid, size_relay] at hsize
  refine ⟨hrelaid, ⟨?_, Nat.two_pow_pos 64, Nat.two_pow_pos 32⟩, ?_⟩
  · rw [image_relaid]
    refine describes_relay _ _ ?_
    have hcapacity : (r.relaid growth capacity (records.flatMap View.encodeFrame)).capacity = capacity :=
      rfl
    omega
  · have hleads : (r.relaid growth capacity (records.flatMap View.encodeFrame)).view.Leads 0
        (0 + (records.flatMap View.encodeFrame).length) records := by
      refine .of_contiguous hrelaid.powerOfTwo rfl records
        (fun _ hmem => hlayout.length_lt_of_mem hmem) ?_ ?_
      · show 0 + (records.flatMap View.encodeFrame).length ≤ capacity
        omega
      · rw [slice_view, image_relaid]
        refine slice_relay _ _ ?_
        rw [hsize]
        exact Nat.add_le_add_left (Nat.le_trans hroom hlarge) _
    rwa [Nat.zero_add] at hleads

theorem Sized.resize (h : Sized r) (target : Nat) : Sized (r.resize target).2 := by
  rcases r.resize_relays target with ⟨fault, hresize⟩ | ⟨fault, hresize⟩ |
    ⟨growth, capacity, staged, hresize, hgrows, -, -, hunread⟩ <;> rw [hresize]
  · exact h
  · exact h.store (size_callOff r.image)
  · exact h.relaid hgrows hunread

/-- A resize keeps the order, whether it is carried out or not. -/
theorem Gives.resize (h : Gives r records) (target : Nat) : Gives (r.resize target).2 records := by
  rcases r.resize_relays target with ⟨fault, hresize⟩ | ⟨fault, hresize⟩ |
    ⟨growth, capacity, staged, hresize, hgrows, hstaged, hroom, hunread⟩
  · rw [hresize]
    exact h
  · rw [hresize]
    exact h.calledOff
  · rw [hresize]
    -- What can be staged are all the frames.
    rcases h.leads.linearize_cases (Nat.le_of_lt h.sized.limit_lt) h.sized.write_lt with
      ⟨hlayout, hall⟩ | ⟨cause, herror⟩
    · cases hstaged.symm.trans hall
      exact gives_relaid h.sized hlayout hgrows hroom hunread
    · cases hstaged.symm.trans herror

/-- A request is withdrawn, or there was none; the consumer may have been told of something. -/
theorem Gives.withdraw (h : Gives r records) (notice : Signal) :
    Gives { r with dataReady := notice, request := none } records :=
  h.of_eq rfl rfl rfl rfl rfl rfl

theorem Sized.serve (h : Sized r) (q : Request) : Sized (r.serve q).2 := by
  rcases r.serve_cases q with ⟨-, hserve⟩ | ⟨-, -, hserve⟩ | ⟨-, hserve⟩ <;> rw [hserve]
  · exact h.of_eq rfl rfl rfl rfl
  · exact h
  · have hresized := h.resize (max q.target (growTarget r.capacity 0))
    exact hresized.of_eq rfl rfl rfl rfl

theorem Gives.serve (h : Gives r records) (q : Request) : Gives (r.serve q).2 records := by
  rcases r.serve_cases q with ⟨-, hserve⟩ | ⟨-, -, hserve⟩ | ⟨-, hserve⟩ <;> rw [hserve]
  · exact h.withdraw _
  · exact h
  · exact (h.resize _).withdraw _

end Resizing

/-! ## Popping -/

section Popping

variable {r : Ring} {records : List Bytes}

theorem Sized.front (h : Sized r) : Sized r.front.2 := by
  rcases r.front_moves with hfront | ⟨n, hfront⟩ <;> rw [hfront]
  · exact h
  · exact h.moveRead n

theorem Sized.pop (h : Sized r) : Sized r.pop.2 := by
  rcases r.pop_cases with ⟨-, hpop⟩ | ⟨q, fault, served, -, hserve, hpop⟩ | ⟨q, served, -, hserve, hpop⟩ <;>
    rw [hpop]
  · exact h.front
  · have hserved := h.serve q
    rwa [hserve] at hserved
  · have hserved := h.serve q
    rw [hserve] at hserved
    exact hserved.front

/-- Looking at the front keeps the order, and the record that is found is the first one. -/
def FrontOf (records : List Bytes) (outcome : Except Fault (Option Lease) × Ring) : Prop :=
  Gives outcome.2 records ∧ ∀ l, outcome.1 = .ok (some l) →
    Lent outcome.2 l ∧ records.head? = some l.payload

theorem FrontOf.of_error (h : Gives r records) (fault : Fault) :
    FrontOf records (.error fault, r) :=
  ⟨h, fun _ hl => nomatch hl⟩

theorem FrontOf.of_none (h : Gives r records) : FrontOf records (.ok none, r) :=
  ⟨h, fun _ hl => nomatch hl⟩

/-- Where no padding is due, the frame that stands at the read counter is found. -/
theorem Gives.front_unpadded (h : Gives r records) (hpad : wrapPad r.read r.capacity r.limit = 0) :
    FrontOf records r.front := by
  by_cases heq : r.read = r.write
  · rw [front_of_eq heq]
    exact .of_none h
  · have hlt : r.read < r.write := Nat.lt_of_le_of_ne h.leads.le heq
    rcases h.leads.of_frame hpad heq with ⟨payload, rest, rfl, hpos, hlimit, hbytes, hrest⟩
    have hclassify := View.Layout.classify_frame hpad hpos hlimit (Nat.le_of_lt h.sized.limit_lt)
      hbytes hrest.le h.sized.write_lt
    have hpayload : (r.lease payload.length).payload = payload :=
      (View.slice_eq_encodeFrame_iff.1 hbytes).2
    rw [front_of_frame hlt hclassify]
    refine ⟨h, ?_⟩
    rintro l ⟨⟩
    refine ⟨⟨rfl, ?_, hpad, ?_, hrest.le⟩, congrArg some hpayload.symm⟩
    · rw [hpayload]
      rfl
    · rw [hpayload]
      exact .frame hpad hpos hlimit hbytes (.done _)

theorem Gives.front (h : Gives r records) : FrontOf records r.front := by
  by_cases hpad : 0 < wrapPad r.read r.capacity r.limit
  · by_cases heq : r.read = r.write
    · rw [front_of_eq heq]
      exact .of_none h
    · have hlt : r.read < r.write := Nat.lt_of_le_of_ne h.leads.le heq
      rcases h.leads.of_padding hpad heq with hdirty | ⟨hdirty, hrest⟩
      · -- It is stuck right here.
        rw [front_of_error hlt (View.classify_mismatch r.write hpad hdirty)]
        exact .of_error h _
      · -- The padding is passed, and no other one is due behind it.
        have hclassify := View.Layout.classify_padding hpad hdirty hrest.le h.sized.write_lt
        have hzero := wrapPad_add_wrapPad h.sized.powerOfTwo h.sized.reserve_le hpad
        have hmoved := h.moveRead hrest
        rw [front_of_padding h.sized.powerOfTwo h.sized.reserve_le hlt hclassify]
        refine hmoved.front_unpadded ?_
        rw [read_moveRead, capacity_moveRead, limit_moveRead]
        exact hzero
  · exact h.front_unpadded (by omega)

/-- Popping serves a request first. -/
theorem Gives.pop (h : Gives r records) : FrontOf records r.pop := by
  rcases r.pop_cases with ⟨-, hpop⟩ | ⟨q, fault, served, -, hserve, hpop⟩ | ⟨q, served, -, hserve, hpop⟩ <;>
    rw [hpop]
  · exact h.front
  · have hgives := h.serve q
    rw [hserve] at hgives
    exact .of_error hgives fault
  · have hgives := h.serve q
    rw [hserve] at hgives
    exact hgives.front

end Popping

/-! ## The record on loan -/

section Loan

variable {r : Ring} {l : Lease}

theorem Lent.read_lt (h : Lent r l) : r.read < l.next := by
  rw [h.next, prefixLength]
  omega

/-- The bytes on loan are those that were taken, and there are as many as a record may have. -/
theorem Lent.leased (h : Lent r l) :
    r.leased l = l.payload ∧ 0 < l.payload.length ∧ l.payload.length < r.limit := by
  rcases h.layout.of_frame h.pad (Nat.ne_of_lt h.read_lt) with
    ⟨payload, rest, hcons, hpos, hlimit, hbytes, -⟩
  cases hcons
  refine ⟨?_, hpos, hlimit⟩
  rw [Ring.leased, h.start]
  exact (View.slice_eq_encodeFrame_iff.1 hbytes).2

/-- Giving up the record on loan drops the head of the list. -/
theorem Gives.release {rest : List Bytes} (h : Gives r (l.payload :: rest)) (hl : Lent r l) :
    Gives (r.release l) rest := by
  have hlt := hl.read_lt
  have hunread := hl.unread
  rcases h.leads.of_frame hl.pad (by omega) with ⟨payload, rest', hcons, -, -, -, hrest⟩
  cases hcons
  rw [← hl.next] at hrest
  exact h.moveRead hrest

theorem Lent.push (h : Lent r l) (hsized : Sized r) (payload : Bytes) :
    Lent (r.push payload).2 l := by
  rcases r.push_cases payload with ⟨cause, hpush⟩ | ⟨p, hplan, hfits, -, hpush⟩ |
    ⟨p, hplan, hfits, -, hpush⟩ | ⟨p, -, -, -, hpush⟩ <;> rw [hpush]
  · exact h
  · exact h.publish hsized hplan hfits
  · exact h.place hsized hplan hfits
  · exact h.askForRoom _

end Loan

/-! ## Opening again -/

section Opening

variable {r r' : Ring} {records : List Bytes} {path : String}

/-- A header that is accepted says what the counters and the dirty size are. -/
theorem Gives.readHeader (h : Gives r records) {header : Header} {capacity : Nat}
    (hread : readHeader r.image = .ok (header, capacity)) :
    capacity = r.capacity ∧ header = r.header := by
  rcases readHeader_eq_ok hread with ⟨hsize, -, -, hdecode, hvalidate⟩
  rcases validate_eq_ok hvalidate with ⟨-, -, -, hpos, -⟩
  have hsize' := h.sized.size
  have hdirty := h.stored.dirty_lt
  rw [h.stored.describes.slice_eq_encode hdirty,
    Header.decode_encode_word _ h.sized.write_lt h.stored.read_lt] at hdecode
  cases hdecode
  -- A dirty size that reads back negative is refused.
  have hword : Bytes.word32OfInt (r.dirty : Int) = r.dirty := by
    simp only [Bytes.word32OfInt]
    omega
  simp only [hword] at hpos ⊢
  refine ⟨by omega, ?_⟩
  rw [Ring.header, Header.intOfWord32_of_nonneg hdirty hpos]

/-- Where a ring has left its bytes and they are accepted, the order goes on. -/
theorem Gives.attach (h : Gives r records) {requested : Nat}
    (hattach : (attach path r.image requested r.limit).1 = .ok r') :
    Gives r' records ∧ r'.limit = r.limit ∧ r'.request = none := by
  have hsize := h.sized.size
  rcases attach_eq_ok hattach with ⟨hblank, -, -⟩ | ⟨header, capacity, hread, hrest⟩
  · rw [Header.size] at hsize
    omega
  rcases h.readHeader hread with ⟨rfl, rfl⟩
  have hopened : Gives (ofHeader path r.image r.capacity r.limit r.header) records :=
    h.of_eq rfl rfl rfl rfl rfl (Int.toNat_natCast r.dirty)
  rcases hrest with ⟨-, rfl⟩ | ⟨-, hresize⟩
  · exact ⟨hopened, rfl, rfl⟩
  · -- More room is asked for; a resize that goes through keeps the order.
    have hresized := hopened.resize requested
    have hkeeps := resize_keeps (ofHeader path r.image r.capacity r.limit r.header) requested
    rw [hresize] at hresized hkeeps
    exact ⟨hresized, hkeeps.1, hkeeps.2.2⟩

theorem Gives.reopen (h : Gives r records) {d : Disk} {hint : Nat}
    (hoffers : d.Offers path r.image)
    (hopen : (d.openRing ⟨hint, r.limit, some path⟩).1 = .ok r') :
    Gives r' records ∧ r'.limit = r.limit ∧ r'.request = none := by
  rw [openRing_of_offers hoffers (check_of_openRing hopen)] at hopen
  exact h.attach hopen

end Opening

end Ring
end WriteBehind
