import WriteBehind.Proofs.Image
import WriteBehind.Ring.Basic

/-!
# Description — what the stores of a ring do to header and frames

The counters and the dirty size are written through to the first 24 bytes, each field by a store of
its own.

* `Describes img write read dirty` says that these bytes hold just that, with the resize mark clear;
* publishing, releasing and resizing keep a description that follows the ring's own counters;
* stores to the header leave the ring bytes alone, and stores to frames leave the header alone.
-/

namespace WriteBehind
namespace Ring

/-- The resize mark's place in a header that was read. -/
theorem mark_of_header (img : Image) :
    ((img.slice 0 Header.size).drop Header.markOffset).take 4 = img.slice Header.markOffset 4 := by
  have hpart := Image.slice_drop_take img 0 Header.markOffset 4 Header.size (by decide)
  rwa [Nat.zero_add] at hpart

/-- The header bytes of an image, field by field. -/
structure Describes (img : Image) (write read dirty : Nat) : Prop where
  room : Header.size ≤ img.size
  write : img.slice 0 8 = Bytes.ofWord64 write
  read : img.slice 8 8 = Bytes.ofWord64 read
  dirty : img.slice 16 4 = Bytes.ofWord32 dirty
  mark : img.slice 20 4 = Bytes.ofWord32 0

namespace Describes

variable {img : Image} {write read dirty : Nat}

theorem slice_eq_encode (h : Describes img write read dirty) (hd : dirty < 2 ^ 32) :
    img.slice 0 Header.size = Header.encode ⟨write, read, dirty⟩ := by
  have hword : Bytes.word32OfInt (dirty : Int) = dirty := by
    simp only [Bytes.word32OfInt]
    omega
  -- The header is its four fields, one behind the other.
  have hsplit : img.slice 0 Header.size =
      img.slice 0 8 ++ img.slice 8 8 ++ img.slice 16 4 ++ img.slice 20 4 := by
    rw [show Header.size = 8 + 8 + 4 + 4 from rfl]
    simp only [Image.slice_append, Nat.zero_add]
  rw [hsplit, h.write, h.read, h.dirty, h.mark, Header.encode, Header.fields, hword]

/-- An image of zeros describes an empty ring. -/
theorem of_zeros {img : Image} (hroom : Header.size ≤ img.size) (h : ∀ i, img.byte i = 0) :
    Describes img 0 0 0 := by
  refine ⟨hroom, ?_, ?_, ?_, ?_⟩ <;> exact Image.slice_eq_ofWord_zero (fun i _ _ => h i)

/-- The dirty size is a 32-bit word, whatever it was meant to be. -/
theorem dirty_mod (h : Describes img write read dirty) :
    Describes img write read (dirty % 2 ^ 32) := by
  refine ⟨h.room, h.write, h.read, h.dirty.trans ?_, h.mark⟩
  exact (Bytes.ofWord_mod 4 dirty).symm

/-! ## Single fields -/

-- Each store replaces one field; the other three are read at places that it does not touch.

theorem storeWrite (h : Describes img write read dirty) (next : Nat) :
    Describes (img.write 0 (Bytes.ofWord64 next)) next read dirty := by
  have hroom : 24 ≤ img.size := h.room
  have hlen : (Bytes.ofWord64 next).length = 8 := Bytes.length_ofWord64 next
  refine ⟨by simpa using h.room, ?_, ?_, ?_, ?_⟩
  · have hself := Image.slice_write_self img 0 (Bytes.ofWord64 next) (by omega)
    rwa [hlen] at hself
  · rw [Image.slice_write_of_disjoint img (by omega), h.read]
  · rw [Image.slice_write_of_disjoint img (by omega), h.dirty]
  · rw [Image.slice_write_of_disjoint img (by omega), h.mark]

theorem storeRead (h : Describes img write read dirty) (next : Nat) :
    Describes (img.write 8 (Bytes.ofWord64 next)) write next dirty := by
  have hroom : 24 ≤ img.size := h.room
  have hlen : (Bytes.ofWord64 next).length = 8 := Bytes.length_ofWord64 next
  refine ⟨by simpa using h.room, ?_, ?_, ?_, ?_⟩
  · rw [Image.slice_write_of_disjoint img (by omega), h.write]
  · have hself := Image.slice_write_self img 8 (Bytes.ofWord64 next) (by omega)
    rwa [hlen] at hself
  · rw [Image.slice_write_of_disjoint img (by omega), h.dirty]
  · rw [Image.slice_write_of_disjoint img (by omega), h.mark]

theorem storeDirty (h : Describes img write read dirty) (pad : Nat) :
    Describes (img.write 16 (Bytes.ofWord32 pad)) write read pad := by
  have hroom : 24 ≤ img.size := h.room
  have hlen : (Bytes.ofWord32 pad).length = 4 := Bytes.length_ofWord32 pad
  refine ⟨by simpa using h.room, ?_, ?_, ?_, ?_⟩
  · rw [Image.slice_write_of_disjoint img (by omega), h.write]
  · rw [Image.slice_write_of_disjoint img (by omega), h.read]
  · have hself := Image.slice_write_self img 16 (Bytes.ofWord32 pad) (by omega)
    rwa [hlen] at hself
  · rw [Image.slice_write_of_disjoint img (by omega), h.mark]

/-- Stores behind the header leave it alone. -/
theorem storeBehind (h : Describes img write read dirty) {offset : Nat}
    (ho : Header.size ≤ offset) (bs : Bytes) :
    Describes (img.write offset bs) write read dirty := by
  have ho' : 24 ≤ offset := ho
  refine ⟨by simpa using h.room, ?_, ?_, ?_, ?_⟩
  · rw [Image.slice_write_of_disjoint img (by omega), h.write]
  · rw [Image.slice_write_of_disjoint img (by omega), h.read]
  · rw [Image.slice_write_of_disjoint img (by omega), h.dirty]
  · rw [Image.slice_write_of_disjoint img (by omega), h.mark]

/-- The counters and the dirty size written at once, and the mark cleared behind them. -/
theorem of_relay (hroom : Header.size ≤ img.size) (hd : dirty < 2 ^ 32) :
    Describes ((img.write 0 (Header.fields ⟨write, read, dirty⟩)).write 20 (Bytes.ofWord32 0))
      write read dirty := by
  have hroom' : 24 ≤ img.size := hroom
  have hlen : (Header.fields ⟨write, read, dirty⟩).length = 20 := Header.length_fields _
  have hzero : (Bytes.ofWord32 0).length = 4 := Bytes.length_ofWord32 0
  have hword : Bytes.word32OfInt (dirty : Int) = dirty := by
    simp only [Bytes.word32OfInt]
    omega
  -- The mark behind the fields is the last of the stores, so it does not touch them.
  have hfields : (img.write 0 (Header.fields ⟨write, read, dirty⟩)).slice 0 20 =
      Bytes.ofWord64 write ++ (Bytes.ofWord64 read ++ Bytes.ofWord32 dirty) := by
    have hself := Image.slice_write_self img 0 (Header.fields ⟨write, read, dirty⟩) (by omega)
    rw [hlen] at hself
    rw [hself, Header.fields, hword, List.append_assoc]
  -- The three fields are read off the one range that was written.
  have hpart : ∀ m n, m + n ≤ 20 →
      ((img.write 0 (Header.fields ⟨write, read, dirty⟩)).write 20 (Bytes.ofWord32 0)).slice m n =
        ((Bytes.ofWord64 write ++ (Bytes.ofWord64 read ++ Bytes.ofWord32 dirty)).drop m).take n := by
    intro m n hmn
    rw [Image.slice_write_of_disjoint _ (by omega), ← hfields,
      Image.slice_drop_take _ 0 m n 20 hmn, Nat.zero_add]
  refine ⟨by simpa using hroom, ?_, ?_, ?_, ?_⟩
  · rw [hpart 0 8 (by omega), List.drop_zero, List.take_left' (Bytes.length_ofWord64 write)]
  · rw [hpart 8 8 (by omega), List.drop_left' (Bytes.length_ofWord64 write),
      List.take_left' (Bytes.length_ofWord64 read)]
  · have h16 : (Bytes.ofWord64 write ++ Bytes.ofWord64 read).length = 16 := by simp
    rw [hpart 16 4 (by omega), ← List.append_assoc, List.drop_left' h16,
      List.take_of_length_le (by simp)]
  · have hself := Image.slice_write_self (img.write 0 (Header.fields ⟨write, read, dirty⟩)) 20
      (Bytes.ofWord32 0) (by rw [Image.size_write]; omega)
    rwa [hzero] at hself

end Describes

/-! ## Publishing -/

/-- What is written before a payload is published: the frame, and the padding if there is any. -/
theorem applyAll_placeStores (img : Image) (p : Plan) (payload : Bytes) :
    img.applyAll (placeStores p payload) =
      if 0 < p.pad then
        (img.write (Header.size + p.offset) (View.encodeFrame payload)).write Header.dirtyOffset
          (Bytes.ofWord32 p.pad)
      else img.write (Header.size + p.offset) (View.encodeFrame payload) := by
  -- The length and the payload are two stores that make up one frame.
  have hframe : (img.write (Header.size + p.offset) (Bytes.ofWord32 payload.length)).write
      (Header.size + p.offset + prefixLength) payload =
        img.write (Header.size + p.offset) (View.encodeFrame payload) := by
    rw [View.encodeFrame, Image.write_append, Bytes.length_ofWord32]
    rfl
  simp only [placeStores, Image.applyAll]
  split <;>
    simp only [List.cons_append, List.nil_append, List.append_nil, List.foldl_cons, List.foldl_nil,
      Image.apply, hframe]

/-- Publishing writes the write counter as well. -/
theorem applyAll_publishStores (img : Image) (p : Plan) (write : Nat) (payload : Bytes) :
    img.applyAll (publishStores p write payload) =
      (img.applyAll (placeStores p payload)).write Header.writeOffset
        (Bytes.ofWord64 (p.nextWrite write)) := by
  simp only [publishStores, Image.applyAll, List.foldl_append, List.foldl_cons, List.foldl_nil,
    Image.apply]

theorem Describes.place {img : Image} {write read dirty : Nat}
    (h : Describes img write read dirty) (p : Plan) (payload : Bytes) :
    Describes (img.applyAll (placeStores p payload)) write read
      (if 0 < p.pad then p.pad else dirty) := by
  rw [applyAll_placeStores]
  have hframe := h.storeBehind (Nat.le_add_right Header.size p.offset) (View.encodeFrame payload)
  split
  · exact hframe.storeDirty p.pad
  · exact hframe

theorem Describes.publish {img : Image} {write read dirty : Nat}
    (h : Describes img write read dirty) (p : Plan) (payload : Bytes) :
    Describes (img.applyAll (publishStores p write payload)) (p.nextWrite write) read
      (if 0 < p.pad then p.pad else dirty) := by
  rw [applyAll_publishStores]
  exact (h.place p payload).storeWrite (p.nextWrite write)

/-- Ring bytes outside the new frame stay as they were. -/
theorem byte_place_of_disjoint (img : Image) (p : Plan) (payload : Bytes) {i : Nat}
    (hbehind : Header.size ≤ i)
    (h : i < Header.size + p.offset ∨
      Header.size + p.offset + (View.encodeFrame payload).length ≤ i) :
    (img.applyAll (placeStores p payload)).byte i = img.byte i := by
  -- The dirty size ends in front of the ring bytes.
  have hd : Header.dirtyOffset + (Bytes.ofWord32 p.pad).length ≤ i := by
    rw [Header.size] at hbehind
    rw [Bytes.length_ofWord32, Header.dirtyOffset]
    omega
  rw [applyAll_placeStores]
  split
  · rw [Image.byte_write_of_disjoint _ (.inr hd), Image.byte_write_of_disjoint _ h]
  · rw [Image.byte_write_of_disjoint _ h]

/-- What is published differs from what is in its place by the write counter alone. -/
theorem byte_publish (img : Image) (p : Plan) (write : Nat) (payload : Bytes) {i : Nat}
    (hbehind : Header.size ≤ i) :
    (img.applyAll (publishStores p write payload)).byte i =
      (img.applyAll (placeStores p payload)).byte i := by
  have hw : Header.writeOffset + (Bytes.ofWord64 (p.nextWrite write)).length ≤ i := by
    rw [Header.size] at hbehind
    rw [Bytes.length_ofWord64, Header.writeOffset]
    omega
  rw [applyAll_publishStores, Image.byte_write_of_disjoint _ (.inr hw)]

theorem slice_publish_frame (img : Image) (p : Plan) (write : Nat) (payload : Bytes)
    (h : Header.size + p.offset + (View.encodeFrame payload).length ≤ img.size) :
    (img.applyAll (publishStores p write payload)).slice (Header.size + p.offset)
      (View.encodeFrame payload).length = View.encodeFrame payload := by
  -- What is written after the frame goes to the header.
  have hw : Header.writeOffset + (Bytes.ofWord64 (p.nextWrite write)).length ≤
      Header.size + p.offset := by
    rw [Bytes.length_ofWord64, Header.writeOffset, Header.size]
    omega
  have hd : Header.dirtyOffset + (Bytes.ofWord32 p.pad).length ≤ Header.size + p.offset := by
    rw [Bytes.length_ofWord32, Header.dirtyOffset, Header.size]
    omega
  rw [applyAll_publishStores, Image.slice_write_of_disjoint _ (.inr hw), applyAll_placeStores]
  split
  · rw [Image.slice_write_of_disjoint _ (.inr hd), Image.slice_write_self _ _ _ h]
  · rw [Image.slice_write_self _ _ _ h]

@[simp] theorem size_place (img : Image) (p : Plan) (payload : Bytes) :
    (img.applyAll (placeStores p payload)).size = img.size := by
  rw [applyAll_placeStores]
  split <;> simp only [Image.size_write]

@[simp] theorem size_publish (img : Image) (p : Plan) (write : Nat) (payload : Bytes) :
    (img.applyAll (publishStores p write payload)).size = img.size := by
  rw [applyAll_publishStores, Image.size_write, size_place]

/-! ## Resizing -/

theorem applyAll_relayStores (img : Image) (staged : Bytes) :
    img.applyAll (relayStores staged) =
      ((img.write Header.size staged).write 0 (Header.fields { write := staged.length })).write 20
        (Bytes.ofWord32 0) := rfl

theorem describes_relay (img : Image) (staged : Bytes) (h : Header.size ≤ img.size) :
    Describes (img.applyAll (relayStores staged)) staged.length 0 0 := by
  have hroom : Header.size ≤ (img.write Header.size staged).size := by
    rwa [Image.size_write]
  have hempty : ({ write := staged.length } : Header) = ⟨staged.length, 0, ((0 : Nat) : Int)⟩ := rfl
  rw [applyAll_relayStores, hempty]
  exact Describes.of_relay hroom (by decide)

theorem slice_relay (img : Image) (staged : Bytes) (h : Header.size + staged.length ≤ img.size) :
    (img.applyAll (relayStores staged)).slice Header.size staged.length = staged := by
  have hfields : 0 + (Header.fields { write := staged.length }).length ≤ Header.size := by
    rw [Header.length_fields, Header.size]
    omega
  have hmark : 20 + (Bytes.ofWord32 0).length ≤ Header.size :=
    Nat.le_of_eq (congrArg (20 + ·) (Bytes.length_ofWord32 0))
  rw [applyAll_relayStores, Image.slice_write_of_disjoint _ (.inr hmark),
    Image.slice_write_of_disjoint _ (.inr hfields), Image.slice_write_self _ _ _ h]

@[simp] theorem size_relay (img : Image) (staged : Bytes) :
    (img.applyAll (relayStores staged)).size = img.size := by
  simp only [applyAll_relayStores, Image.size_write]

/-- A resize that is called off leaves no mark behind. -/
theorem Describes.callOff {img : Image} {write read dirty : Nat}
    (h : Describes img write read dirty) :
    Describes (img.applyAll [setMark, clearMark]) write read dirty := by
  have hroom : 24 ≤ img.size := h.room
  have hset : (Bytes.ofWord32 1).length = 4 := Bytes.length_ofWord32 1
  have hclear : (Bytes.ofWord32 0).length = 4 := Bytes.length_ofWord32 0
  have happly : img.applyAll [setMark, clearMark] =
      (img.write 20 (Bytes.ofWord32 1)).write 20 (Bytes.ofWord32 0) := rfl
  rw [happly]
  -- Both stores go to the mark, behind the other fields.
  have hfront : ∀ m n, m + n ≤ 20 →
      ((img.write 20 (Bytes.ofWord32 1)).write 20 (Bytes.ofWord32 0)).slice m n = img.slice m n := by
    intro m n hmn
    rw [Image.slice_write_of_disjoint _ (by omega), Image.slice_write_of_disjoint _ (by omega)]
  refine ⟨by simpa using h.room, ?_, ?_, ?_, ?_⟩
  · rw [hfront 0 8 (by omega), h.write]
  · rw [hfront 8 8 (by omega), h.read]
  · rw [hfront 16 4 (by omega), h.dirty]
  · have hself := Image.slice_write_self (img.write 20 (Bytes.ofWord32 1)) 20 (Bytes.ofWord32 0)
      (by rw [Image.size_write]; omega)
    rwa [hclear] at hself

/-- Nor does it touch a ring byte. -/
theorem byte_callOff (img : Image) {i : Nat} (h : Header.size ≤ i) :
    (img.applyAll [setMark, clearMark]).byte i = img.byte i := by
  have hmark : ∀ n, 20 + (Bytes.ofWord32 n).length ≤ i := by
    intro n
    rw [Bytes.length_ofWord32]
    exact h
  have happly : img.applyAll [setMark, clearMark] =
      (img.write 20 (Bytes.ofWord32 1)).write 20 (Bytes.ofWord32 0) := rfl
  rw [happly, Image.byte_write_of_disjoint _ (.inr (hmark 0)),
    Image.byte_write_of_disjoint _ (.inr (hmark 1))]

@[simp] theorem size_callOff (img : Image) :
    (img.applyAll [setMark, clearMark]).size = img.size := by
  rfl

end Ring
end WriteBehind
