import WriteBehind.Proofs.Disk
import WriteBehind.Proofs.Ring.Resize

/-!
# Opening — rings from blank files and from their own bytes

A ring is opened in memory, on a blank file, or on the bytes that another ring has left in a file.

* `attach_eq_ok` says what a ring is that was opened on a file, whatever bytes the file had;
* `sound_create` and `attach_blank` open empty rings;
* `Sound.attach` opens a ring's own bytes again: the records are the same, and the capacity is as
  large as it was and as large as asked for.
-/

namespace WriteBehind

namespace Ring

/-- The counters and the dirty size, as they are stored in a file. -/
def header (r : Ring) : Header := ⟨r.write, r.read, r.dirty⟩

/-! ## Paths and options -/

/-- Options that pass their check have a record limit in range, and what they ask for is a word. -/
theorem Options.check_eq_ok {o : Options} :
    o.check = .ok () ↔ checkRecordLimit o.limit = .ok () ∧ o.requested < 2 ^ 64 := by
  rw [Options.check]
  cases checkRecordLimit o.limit with
  | error cause => simp
  | ok _ => simp [checkWord_eq_ok]

/-- Under a path that can be opened, the bytes alone decide. -/
theorem openRing_of_offers {d : Disk} {path : String} {content : Image} {hint limit : Nat}
    (h : d.Offers path content) (hcheck : Options.check ⟨hint, limit, some path⟩ = .ok ()) :
    (d.openRing ⟨hint, limit, some path⟩).1 =
      (attach path content (Options.requested ⟨hint, limit, some path⟩) limit).1 := by
  rcases h with ⟨name, hlocate, hcontent, hfree⟩
  -- A file that is there and one that is created are attached alike.
  rcases hlocate with hlocate | hlocate
  all_goals
    simp only [Disk.openRing, hcheck, hlocate, hcontent, hfree]
    rcases attach path content (Options.requested ⟨hint, limit, some path⟩) limit with ⟨_ | _, _⟩
  all_goals rfl

theorem check_of_openRing {d : Disk} {o : Options} {r : Ring} (h : (d.openRing o).1 = .ok r) :
    o.check = .ok () := by
  cases hcheck : o.check with
  | ok _ => rfl
  | error cause =>
    simp only [Disk.openRing, hcheck] at h
    cases h

theorem limit_of_openRing {d : Disk} {o : Options} {r : Ring} (h : (d.openRing o).1 = .ok r) :
    checkRecordLimit o.limit = .ok () :=
  (Options.check_eq_ok.1 (check_of_openRing h)).1

/-- Whatever the hint is, a power of two is asked for, which is as much as the hint and has room for two
frames. -/
theorem requested_spec (o : Options) :
    IsPowerOfTwo o.requested ∧ o.capacity ≤ o.requested ∧
      2 * frameReserve o.limit ≤ o.requested := by
  have hcapacity := le_nextPowerOfTwo o.capacity
  have hroomy := two_mul_frameReserve_le_minCapacity o.limit
  refine ⟨?_, ?_, ?_⟩
  · exact (isPowerOfTwo_nextPowerOfTwo o.capacity).max (isPowerOfTwo_minCapacity o.limit)
  · rw [Options.requested]
    omega
  · rw [Options.requested]
    omega

/-- A hint up to a great power of two asks for no more than that. -/
theorem requested_le {o : Options} {k : Nat} (hk : 34 ≤ k) (hhint : o.capacity ≤ 2 ^ k)
    (hlimit : o.limit < 2 ^ 32) : o.requested ≤ 2 ^ k := by
  have hround := nextPowerOfTwo_le (isPowerOfTwo_two_pow k) hhint
  have hleast := minCapacity_le hlimit
  have hgreat : 2 ^ 34 ≤ 2 ^ k := Nat.pow_le_pow_right (Nat.le_succ 1) hk
  rw [Options.requested]
  omega

/-- Hints up to `2 ^ 63` pass the check. -/
theorem check_of_le {o : Options} (hhint : o.capacity ≤ 2 ^ 63)
    (hlimit : checkRecordLimit o.limit = .ok ()) : o.check = .ok () := by
  have hle := requested_le (by decide) hhint (checkRecordLimit_eq_ok.1 hlimit).2
  exact Options.check_eq_ok.2 ⟨hlimit, by omega⟩

/-- What is asked for is a word, and the file is long enough for it or the system can lengthen it. -/
structure Options.WithinReach (o : Options) (content : Image) : Prop where
  word : o.requested < 2 ^ 64
  length : content.size < Header.size + o.requested → Header.size + o.requested ≤ maxFileLength

/-- Hints up to `2 ^ 62` are within reach. -/
theorem withinReach_of_le {o : Options} (hhint : o.capacity ≤ 2 ^ 62) (hlimit : o.limit < 2 ^ 32)
    (content : Image) : o.WithinReach content := by
  have hle := Ring.requested_le (by decide) hhint hlimit
  refine ⟨by omega, ?_⟩
  intro _
  rw [Header.size, maxFileLength]
  omega

theorem Options.WithinReach.requested_le {o : Options} {content : Image} (h : o.WithinReach content)
    (hsize : content.size ≤ Header.size + 2 ^ 62) : o.requested ≤ 2 ^ 62 := by
  by_cases hshort : content.size < Header.size + o.requested
  · exact (requested_spec o).1.le_of_fileLength (h.length hshort)
  · omega

theorem validate_eq_ok {h : Header} {capacity : Nat} (hvalidate : h.validate capacity = .ok ()) :
    IsPowerOfTwo capacity ∧ h.read ≤ h.write ∧ h.write - h.read ≤ capacity ∧ 0 ≤ h.dirty ∧
      h.dirty < capacity := by
  rw [Header.validate] at hvalidate
  split at hvalidate
  · cases hvalidate
  · rename_i hcap
    repeat' split at hvalidate
    all_goals cases hvalidate
    refine ⟨Decidable.of_not_not hcap, ?_, ?_, ?_, ?_⟩ <;> omega

theorem validate_of_le {h : Header} {capacity : Nat} (hcap : IsPowerOfTwo capacity)
    (hle : h.read ≤ h.write) (hunread : h.write - h.read ≤ capacity) (hpos : 0 ≤ h.dirty)
    (hdirty : h.dirty < capacity) : h.validate capacity = .ok () := by
  rw [Header.validate, if_neg (not_not_intro hcap), if_neg (Nat.not_lt.2 hle),
    if_neg (Nat.not_lt.2 hunread), if_neg (by omega)]

/-- What a header has gone through before it is believed. -/
theorem readHeader_eq_ok {content : Image} {h : Header} {capacity : Nat}
    (hread : readHeader content = .ok (h, capacity)) :
    content.size = Header.size + capacity ∧ IsPowerOfTwo capacity ∧
      Header.resizeInterrupted (content.slice 0 Header.size) = false ∧
      Header.decode (content.slice 0 Header.size) = .ok h ∧ h.validate capacity = .ok () := by
  simp only [readHeader] at hread
  split at hread
  · cases hread
  · split at hread
    · cases hread
    · rename_i hcap
      split at hread
      · cases hread
      · rename_i hmark
        cases hdecode : Header.decode (content.slice 0 Header.size) with
        | error cause =>
          rw [hdecode] at hread
          cases hread
        | ok header =>
          simp only [hdecode] at hread
          split at hread
          · cases hread
          · rename_i hvalidate
            cases hread
            refine ⟨by omega, Decidable.of_not_not hcap, ?_, rfl, hvalidate⟩
            rwa [Bool.not_eq_true] at hmark

/-- Whatever is wrong with a header, it is the bytes that are. -/
theorem kind_of_validate {h : Header} {capacity : Nat} {cause : Cause}
    (hvalidate : h.validate capacity = .error cause) : cause.kind = .corrupt := by
  rw [Header.validate] at hvalidate
  repeat' split at hvalidate
  all_goals cases hvalidate <;> rfl

theorem kind_of_readHeader {content : Image} {cause : Cause}
    (hread : readHeader content = .error cause) : cause.kind = .corrupt := by
  simp only [readHeader] at hread
  split at hread
  · cases hread
    rfl
  · split at hread
    · cases hread
      rfl
    · split at hread
      · cases hread
        rfl
      · rcases hdecode : Header.decode (content.slice 0 Header.size) with cause' | header
        · -- The bytes of a header are never too few.
          simp only [Header.decode, Image.length_slice, Nat.lt_irrefl, if_false] at hdecode
          cases hdecode
        · simp only [hdecode] at hread
          split at hread
          · rename_i hvalidate
            cases hread
            exact kind_of_validate hvalidate
          · cases hread

/-! ## Attaching -/

/-- A ring that was attached is a new one where the file had no bytes, and the one that the header tells of
elsewhere, as it is or made larger. -/
theorem attach_eq_ok {path : String} {content : Image} {requested limit : Nat} {r : Ring}
    (hattach : (attach path content requested limit).1 = .ok r) :
    (content.size = 0 ∧ Header.size + requested ≤ maxFileLength ∧
      r = ofHeader path (content.resize (Header.size + requested)) requested limit {}) ∨
    ∃ h capacity, readHeader content = .ok (h, capacity) ∧
      (requested ≤ capacity ∧ r = ofHeader path content capacity limit h ∨
        capacity < requested ∧
          (ofHeader path content capacity limit h).resize requested = (.ok (), r)) := by
  simp only [attach] at hattach
  split at hattach
  · rename_i hblank
    split at hattach
    · cases hattach
    · rename_i hlength
      cases hattach
      exact .inl ⟨hblank, Nat.not_lt.1 hlength, rfl⟩
  · split at hattach
    · cases hattach
    · rename_i h capacity hread
      refine .inr ⟨h, capacity, hread, ?_⟩
      split at hattach
      · rename_i hlarger
        rcases hresize : (ofHeader path content capacity limit h).resize requested with ⟨_ | _, r'⟩
        · rw [hresize] at hattach
          cases hattach
        · rw [hresize] at hattach
          cases hattach
          exact .inr ⟨hlarger, rfl⟩
      · rename_i hsmaller
        cases hattach
        exact .inl ⟨Nat.not_lt.1 hsmaller, rfl⟩

/-- A ring that was opened on a file keeps to it. -/
theorem backing_of_attach {path : String} {content : Image} {requested limit : Nat} {r : Ring}
    (hattach : (attach path content requested limit).1 = .ok r) : r.backing = .file path := by
  rcases attach_eq_ok hattach with ⟨-, -, rfl⟩ | ⟨h, capacity, -, ⟨-, rfl⟩ | ⟨-, hresize⟩⟩
  · rfl
  · rfl
  · have hkeeps := (resize_keeps (ofHeader path content capacity limit h) requested).2.1
    rwa [hresize] at hkeeps

/-- Only what is within reach can be opened. -/
theorem withinReach_of_attach {path : String} {content : Image} {o : Options} {r : Ring}
    (hcheck : o.check = .ok ()) (hattach : (attach path content o.requested o.limit).1 = .ok r) :
    o.WithinReach content := by
  refine ⟨(Options.check_eq_ok.1 hcheck).2, ?_⟩
  intro hshort
  rcases attach_eq_ok hattach with ⟨-, hlength, -⟩ |
    ⟨h, capacity, hread, ⟨hsmaller, -⟩ | ⟨hlarger, hresize⟩⟩
  · exact hlength
  · have hsize := (readHeader_eq_ok hread).1
    omega
  · -- The file is lengthened before the ring is handed out.
    rcases resize_of_larger (requested_spec o).1 hlarger hresize with ⟨growth, staged, hgrowth, -⟩
    exact (growth_file hgrowth).2

/-! ## Empty rings -/

theorem sound_create {capacity limit : Nat} (hcap : IsPowerOfTwo capacity)
    (hle : capacity ≤ 2 ^ 62) (hlimit : limit < 2 ^ 32)
    (hroomy : 2 * frameReserve limit ≤ capacity) : Sound (create capacity limit) [] :=
  .of_zeros hcap hlimit hroomy hle rfl rfl rfl rfl (fun i => Image.byte_zeros _ i)

/-- A file without bytes becomes an empty ring. -/
theorem attach_blank (path : String) {content : Image} {requested limit : Nat}
    (hblank : content.size = 0) (hcap : IsPowerOfTwo requested) (hle : requested ≤ 2 ^ 62)
    (hlimit : limit < 2 ^ 32) (hroomy : 2 * frameReserve limit ≤ requested) :
    ∃ r, (attach path content requested limit).1 = .ok r ∧ Sound r [] ∧ r.limit = limit ∧
      r.request = none := by
  have hlength : ¬ Header.size + requested > maxFileLength := by
    rw [Header.size, maxFileLength]
    omega
  refine ⟨ofHeader path (content.resize (Header.size + requested)) requested limit {}, ?_, ?_, rfl,
    rfl⟩
  · simp only [attach, hblank, if_true, if_neg hlength]
  · refine .of_zeros hcap hlimit hroomy hle rfl rfl rfl rfl ?_
    intro i
    -- There are no bytes to read, and what is added reads zero.
    have hzero : content.byte i = 0 := Image.byte_eq_zero content (by omega)
    show (content.resize (Header.size + requested)).byte i = 0
    rw [Image.byte_resize, hzero, ite_self]

/-! ## A ring's own bytes -/

/-- An encoded header carries no mark. -/
theorem resizeInterrupted_encode (h : Header) : Header.resizeInterrupted h.encode = false := by
  -- The mark's place comes right behind the three fields.
  have hmark : (h.encode.drop Header.markOffset).take 4 = Bytes.ofWord32 0 := by
    have hlength : h.fields.length = Header.markOffset := Header.length_fields h
    rw [Header.encode, List.drop_left' hlength]
    rfl
  rw [Header.resizeInterrupted, hmark]
  exact Bool.and_false _

namespace Sound

variable {r : Ring} {records : List Bytes}

theorem slice_header (h : Sound r records) :
    r.image.slice 0 Header.size = r.header.encode :=
  h.describes.slice_eq_encode h.dirty_word

theorem validate_header (h : Sound r records) :
    r.header.validate r.capacity = .ok () := by
  have hunread := h.write_le
  have hdirty := h.dirty_lt
  have hreserve := h.reserve_le
  refine validate_of_le h.powerOfTwo h.read_le ?_ (Int.natCast_nonneg r.dirty) ?_
  · show r.write - r.read ≤ r.capacity
    omega
  · show (r.dirty : Int) < r.capacity
    omega

theorem readHeader (h : Sound r records) (hlimit : r.limit + 3 ≤ 2 ^ 31 - 1) :
    readHeader r.image = .ok (r.header, r.capacity) := by
  have hsize := h.size
  have hpos := h.powerOfTwo.pos
  have hword := h.write_lt
  have hle := h.read_le
  have hdirty := h.dirty_lt
  rw [frameReserve, prefixLength] at hdirty
  have hcapacity : r.image.size - Header.size = r.capacity := by omega
  have hlength : ¬ r.image.size ≤ Header.size := by omega
  have hpow : ¬ ¬ IsPowerOfTwo r.capacity := not_not_intro h.powerOfTwo
  -- Paddings are shorter than a reserve, so the dirty size is read back with its sign.
  have hdecode : Header.decode r.header.encode = .ok r.header := by
    refine Header.decode_encode r.header hword (by show r.read < 2 ^ 64; omega) ?_ ?_
    · show -2147483648 ≤ (r.dirty : Int)
      omega
    · show (r.dirty : Int) < 2147483648
      omega
  simp only [Ring.readHeader, hcapacity, if_neg hlength, if_neg hpow, h.slice_header,
    resizeInterrupted_encode, hdecode, h.validate_header]
  rfl

theorem ofHeader (h : Sound r records) (path : String) :
    Sound (ofHeader path r.image r.capacity r.limit r.header) records :=
  h.of_eq rfl rfl rfl rfl rfl (Int.toNat_natCast r.dirty)

/-- A ring's own bytes open again, with the same records and with room for what is asked for. -/
theorem attach (h : Sound r records) (path : String) (hlimit : r.limit + 3 ≤ 2 ^ 31 - 1)
    {requested : Nat} (hcap : IsPowerOfTwo requested) (hle : requested ≤ 2 ^ 62) :
    ∃ r', (attach path r.image requested r.limit).1 = .ok r' ∧ Sound r' records ∧
      r'.limit = r.limit ∧ r'.request = none ∧ r'.capacity = max r.capacity requested := by
  have hsize := h.size
  have hlength : ¬ r.image.size = 0 := by
    rw [Header.size] at hsize
    omega
  have hopened := h.ofHeader path
  by_cases hlarger : requested > r.capacity
  · -- The file has to grow, at least to twice its capacity.
    have hdouble : 2 * r.capacity ≤ requested := h.powerOfTwo.two_mul_le hcap hlarger
    rcases hopened.resize_of_le hcap hdouble hle with ⟨growth, hresize, hsound⟩
    refine ⟨_, ?_, hsound, rfl, rfl, ?_⟩
    · simp only [Ring.attach, if_neg hlength, h.readHeader hlimit, if_pos hlarger, hresize]
    · show requested = max r.capacity requested
      omega
  · refine ⟨_, ?_, hopened, rfl, rfl, ?_⟩
    · simp only [Ring.attach, if_neg hlength, h.readHeader hlimit, if_neg hlarger]
    · show r.capacity = max r.capacity requested
      omega

/-- Where a ring has left its bytes, it can be opened again. -/
theorem reopen (h : Sound r records) (hchecked : checkRecordLimit r.limit = .ok ())
    (hlimit : r.limit + 3 ≤ 2 ^ 31 - 1) {d : Disk} {path : String} {hint : Nat}
    (hoffers : d.Offers path r.image) (hreach : Options.WithinReach ⟨hint, r.limit, some path⟩ r.image) :
    ∃ r', (d.openRing ⟨hint, r.limit, some path⟩).1 = .ok r' ∧ Sound r' records ∧
      r'.limit = r.limit ∧ r'.request = none ∧ r.capacity ≤ r'.capacity ∧ hint ≤ r'.capacity := by
  rcases requested_spec ⟨hint, r.limit, some path⟩ with ⟨hcap, hlarge, -⟩
  have hsize := h.size
  have hcapacity := h.capacity_le
  have hle := hreach.requested_le (by omega)
  have hcheck := Options.check_eq_ok.2 ⟨hchecked, hreach.word⟩
  rcases h.attach path hlimit hcap hle with ⟨r', hattach, hsound, hsame, hnone, hgrown⟩
  refine ⟨r', (openRing_of_offers hoffers hcheck).trans hattach, hsound, hsame, hnone, ?_, ?_⟩
  · omega
  · have hhint : hint ≤ Options.requested ⟨hint, r.limit, some path⟩ := hlarge
    omega

end Sound

/-! ## First openings -/

section FirstOpening

variable {d : Disk} {hint limit : Nat} {r : Ring}

/-- What was opened on these bytes was within reach. -/
theorem withinReach_of_openRing {path : String} {content : Image} (hoffers : d.Offers path content)
    (hopen : (d.openRing ⟨hint, limit, some path⟩).1 = .ok r) :
    Options.WithinReach ⟨hint, limit, some path⟩ content := by
  have hcheck := check_of_openRing hopen
  rw [openRing_of_offers hoffers hcheck] at hopen
  exact withinReach_of_attach (o := ⟨hint, limit, some path⟩) hcheck hopen

theorem open_memory (hopen : (d.openRing ⟨hint, limit, none⟩).1 = .ok r) :
    Sound r [] ∧ r.limit = limit ∧ r.request = none := by
  have hword : limit < 2 ^ 32 := (checkRecordLimit_eq_ok.1 (limit_of_openRing hopen)).2
  rcases requested_spec ⟨hint, limit, none⟩ with ⟨hcap, -, hroomy⟩
  simp only [Disk.openRing, check_of_openRing hopen] at hopen
  rcases checkCapacity_cases .heap (Options.requested ⟨hint, limit, none⟩) with hcheck | hcheck
  · have hle := hcap.le_of_growth (b := .heap) hcheck rfl
    rw [hcheck] at hopen
    cases hopen
    exact ⟨sound_create hcap hle hword hroomy, rfl, rfl⟩
  · rw [hcheck] at hopen
    cases hopen

theorem open_blank {path : String} {content : Image} (hoffers : d.Offers path content)
    (hblank : content.size = 0) (hopen : (d.openRing ⟨hint, limit, some path⟩).1 = .ok r) :
    Sound r [] ∧ r.limit = limit ∧ r.request = none := by
  have hword : limit < 2 ^ 32 := (checkRecordLimit_eq_ok.1 (limit_of_openRing hopen)).2
  rcases requested_spec ⟨hint, limit, some path⟩ with ⟨hcap, -, hroomy⟩
  have hle := (withinReach_of_openRing hoffers hopen).requested_le (by omega)
  rcases attach_blank path hblank hcap hle hword hroomy with ⟨r', hattach, hrest⟩
  have hsame : Except.ok r = Except.ok r' :=
    hopen.symm.trans ((openRing_of_offers hoffers (check_of_openRing hopen)).trans hattach)
  cases hsame
  exact hrest

end FirstOpening

end Ring
end WriteBehind
