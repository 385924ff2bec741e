import WriteBehind.Ring.Geometry

/-!
# Places — where counters, paddings and planned frames stand

The arithmetic of a ring of `C` bytes, `C` a power of two, that has room for two frames:

* a counter stands at its residue modulo `C`;
* padding is met only in the last part of the ring that a largest frame would not fit into, and ends
  at offset zero of the next lap;
* `nextPowerOfTwo` rounds up to the least power of two.
-/

namespace WriteBehind
namespace Ring

/-! ## Powers of two -/

theorem isPowerOfTwo_two_pow (k : Nat) : IsPowerOfTwo (2 ^ k) := by
  rw [IsPowerOfTwo, Nat.log2_two_pow]

theorem IsPowerOfTwo.pos {n : Nat} (h : IsPowerOfTwo n) : 0 < n := by
  rw [← h]
  exact Nat.two_pow_pos _

theorem IsPowerOfTwo.double {n : Nat} (h : IsPowerOfTwo n) : IsPowerOfTwo (2 * n) := by
  have hdouble : 2 * n = 2 ^ (n.log2 + 1) := by
    rw [Nat.pow_succ, h, Nat.mul_comm]
  rw [hdouble]
  exact isPowerOfTwo_two_pow _

/-- Two powers of two are equal or apart by a factor of two at least. -/
theorem IsPowerOfTwo.two_mul_le {a b : Nat} (ha : IsPowerOfTwo a) (hb : IsPowerOfTwo b)
    (h : a < b) : 2 * a ≤ b := by
  have hlog : a.log2 < b.log2 := by
    rw [← ha, ← hb] at h
    exact (Nat.pow_lt_pow_iff_right (by decide)).1 h
  calc
    2 * a = 2 ^ (a.log2 + 1) := by rw [Nat.pow_succ, ha, Nat.mul_comm]
    _ ≤ 2 ^ b.log2 := Nat.pow_le_pow_right (by decide) hlog
    _ = b := hb

theorem isPowerOfTwo_nextPowerOfTwo (n : Nat) : IsPowerOfTwo (nextPowerOfTwo n) := by
  rw [nextPowerOfTwo]
  split
  · exact isPowerOfTwo_two_pow 0
  · exact isPowerOfTwo_two_pow _

theorem le_nextPowerOfTwo (n : Nat) : n ≤ nextPowerOfTwo n := by
  rw [nextPowerOfTwo]
  split
  · omega
  · have hlt : n - 1 < 2 ^ ((n - 1).log2 + 1) := Nat.lt_log2_self
    omega

theorem nextPowerOfTwo_le {n q : Nat} (hq : IsPowerOfTwo q) (h : n ≤ q) :
    nextPowerOfTwo n ≤ q := by
  have hpos := hq.pos
  rw [nextPowerOfTwo]
  split
  · exact hpos
  · -- The exponent of the result is at most that of `q`.
    have hlog : (n - 1).log2 < q.log2 := by
      refine (Nat.log2_lt (by omega)).2 ?_
      rw [hq]
      omega
    calc
      2 ^ ((n - 1).log2 + 1) ≤ 2 ^ q.log2 := Nat.pow_le_pow_right (by decide) hlog
      _ = q := hq

theorem nextPowerOfTwo_of_isPowerOfTwo {n : Nat} (h : IsPowerOfTwo n) : nextPowerOfTwo n = n :=
  Nat.le_antisymm (nextPowerOfTwo_le h (Nat.le_refl n)) (le_nextPowerOfTwo n)

theorem IsPowerOfTwo.max {a b : Nat} (ha : IsPowerOfTwo a) (hb : IsPowerOfTwo b) :
    IsPowerOfTwo (max a b) := by
  rcases Nat.le_total a b with h | h
  · rwa [Nat.max_eq_right h]
  · rwa [Nat.max_eq_left h]

/-! ## Words -/

theorem checkWord_eq_ok {n : Nat} : checkWord n = .ok () ↔ n < 2 ^ 64 := by
  rw [checkWord]
  split <;> simp [*]

theorem checkWord_of_lt {n : Nat} (h : n < 2 ^ 64) : checkWord n = .ok () := checkWord_eq_ok.2 h

theorem checkWord_of_le {n : Nat} (h : 2 ^ 64 ≤ n) : checkWord n = .error .overflow :=
  if_neg (Nat.not_lt.2 h)

/-- The greatest power of two in a word has its top bit set. -/
theorem IsPowerOfTwo.le_of_word {n : Nat} (h : IsPowerOfTwo n) (hword : n < 2 ^ 64) :
    n ≤ 2 ^ 63 := by
  refine Nat.le_of_not_lt ?_
  intro hlarge
  have hdouble := (isPowerOfTwo_two_pow 63).two_mul_le h hlarge
  omega

/-! ## Sizes -/

theorem checkRecordLimit_eq_ok {limit : Nat} :
    checkRecordLimit limit = .ok () ↔ 2 ≤ limit ∧ limit < 2 ^ 32 := by
  rw [checkRecordLimit]
  split <;> simp <;> omega

theorem two_mul_frameReserve_le_minCapacity (limit : Nat) :
    2 * frameReserve limit ≤ minCapacity limit :=
  le_nextPowerOfTwo _

theorem isPowerOfTwo_minCapacity (limit : Nat) : IsPowerOfTwo (minCapacity limit) :=
  isPowerOfTwo_nextPowerOfTwo _

theorem minCapacity_le {limit : Nat} (h : limit < 2 ^ 32) : minCapacity limit ≤ 2 ^ 34 :=
  nextPowerOfTwo_le (isPowerOfTwo_two_pow 34) (by simp only [frameReserve, prefixLength]; omega)

/-- A ring that asks for room asks for at least twice what it has. -/
theorem two_mul_le_growTarget {capacity : Nat} (hc : capacity < 2 ^ 63) (requested : Nat) :
    2 * capacity ≤ growTarget capacity requested := by
  have hle := le_nextPowerOfTwo (max (min (2 * capacity) (2 ^ 64 - 1)) requested)
  rw [growTarget]
  omega

/-- And as long as words hold what it has, for more than that. -/
theorem lt_growTarget {capacity : Nat} (hpos : 0 < capacity) (hc : capacity ≤ 2 ^ 63) (requested : Nat) :
    capacity < growTarget capacity requested := by
  have hle := le_nextPowerOfTwo (max (min (2 * capacity) (2 ^ 64 - 1)) requested)
  rw [growTarget]
  omega

theorem isPowerOfTwo_growTarget (capacity requested : Nat) :
    IsPowerOfTwo (growTarget capacity requested) :=
  isPowerOfTwo_nextPowerOfTwo _

theorem growTarget_le {capacity requested q : Nat} (hq : IsPowerOfTwo q) (hc : 2 * capacity ≤ q)
    (hr : requested ≤ q) : growTarget capacity requested ≤ q :=
  nextPowerOfTwo_le hq (by omega)

/-- Where nothing more is asked for it is just twice. -/
theorem growTarget_zero {capacity : Nat} (hcap : IsPowerOfTwo capacity) (hc : capacity < 2 ^ 63) :
    growTarget capacity 0 = 2 * capacity :=
  Nat.le_antisymm (growTarget_le hcap.double (Nat.le_refl _) (Nat.zero_le _))
    (two_mul_le_growTarget hc 0)

theorem le_growTarget (capacity requested : Nat) : requested ≤ growTarget capacity requested := by
  have hle := le_nextPowerOfTwo (max (min (2 * capacity) (2 ^ 64 - 1)) requested)
  rw [growTarget]
  omega

/-! ## Places of counters -/

theorem physicalOffset_eq_mod {capacity : Nat} (h : IsPowerOfTwo capacity) (counter : Nat) :
    physicalOffset counter capacity = counter % capacity := by
  -- The mask has ones just below the capacity's only bit.
  rw [physicalOffset, ← h]
  exact Nat.and_two_pow_sub_one_eq_mod counter _

/-- Two counters less than a lap apart stand at different places. -/
theorem mod_ne_of_lt {c d capacity : Nat} (h : c < d) (hlap : d < c + capacity) :
    c % capacity ≠ d % capacity := by
  intro he
  -- Equal residues would make the distance a multiple of the lap.
  have hdiv : capacity ∣ d - c :=
    Nat.dvd_of_mod_eq_zero (Nat.sub_mod_eq_zero_of_mod_eq he.symm)
  have hle : capacity ≤ d - c := Nat.le_of_dvd (by omega) hdiv
  omega

theorem mod_add_of_le {c i capacity : Nat} (h : c % capacity + i < capacity) :
    (c + i) % capacity = c % capacity + i := by
  rw [← Nat.mod_add_mod, Nat.mod_eq_of_lt h]

/-- Counters one behind the other and less than a lap apart stand at different places, also stretches of
them that do not cross the physical end. -/
theorem stretches_disjoint {c d m n capacity : Nat} (hc : c % capacity + m ≤ capacity)
    (hd : d % capacity + n ≤ capacity) (hle : c + m ≤ d) (hlap : d + n ≤ c + capacity) :
    c % capacity + m ≤ d % capacity ∨ d % capacity + n ≤ c % capacity := by
  refine Decidable.byContradiction ?_
  intro hcross
  -- One of the two would start inside the other.
  rcases Nat.le_total (c % capacity) (d % capacity) with horder | horder
  · obtain ⟨i, hi⟩ := Nat.exists_eq_add_of_le horder
    have hplace : (c + i) % capacity = c % capacity + i := mod_add_of_le (by omega)
    have hne : (c + i) % capacity ≠ d % capacity := mod_ne_of_lt (by omega) (by omega)
    omega
  · obtain ⟨i, hi⟩ := Nat.exists_eq_add_of_le horder
    have hplace : (d + i) % capacity = d % capacity + i := mod_add_of_le (by omega)
    have hne : c % capacity ≠ (d + i) % capacity := mod_ne_of_lt (by omega) (by omega)
    omega

/-- A word holds a whole number of laps. -/
theorem IsPowerOfTwo.dvd_word {capacity : Nat} (hcap : IsPowerOfTwo capacity)
    (hword : capacity ≤ 2 ^ 64) : capacity ∣ 2 ^ 64 := by
  rw [← hcap] at hword ⊢
  exact Nat.pow_dvd_pow 2 ((Nat.pow_le_pow_iff_right (by decide)).1 hword)

/-- A lap ends at `2 ^ 64` at the latest. -/
theorem add_le_of_offset_add_le {c n capacity : Nat} (hcap : IsPowerOfTwo capacity)
    (hword : capacity ≤ 2 ^ 64) (hc : c < 2 ^ 64) (h : c % capacity + n ≤ capacity) :
    c + n ≤ 2 ^ 64 := by
  -- The counter stands in one of the laps of the word.
  rcases hcap.dvd_word hword with ⟨laps, hlaps⟩
  have hlap : c / capacity + 1 ≤ laps := Nat.div_lt_of_lt_mul (hlaps ▸ hc)
  calc
    c + n = capacity * (c / capacity) + (c % capacity + n) := by
      rw [← Nat.add_assoc, Nat.div_add_mod]
    _ ≤ capacity * (c / capacity) + capacity := Nat.add_le_add_left h _
    _ = capacity * (c / capacity + 1) := (Nat.mul_succ _ _).symm
    _ ≤ capacity * laps := Nat.mul_le_mul_left _ hlap
    _ = 2 ^ 64 := hlaps.symm

/-! ## Padding -/

section Padding

variable {counter capacity limit : Nat}

theorem offset_add_le_of_wrapPad_eq_zero (hcap : IsPowerOfTwo capacity)
    (h : wrapPad counter capacity limit = 0) :
    counter % capacity + frameReserve limit ≤ capacity := by
  have hlt : counter % capacity < capacity := Nat.mod_lt _ hcap.pos
  simp only [wrapPad, physicalOffset_eq_mod hcap] at h
  split at h <;> omega

theorem wrapPad_eq_zero_of_le (hcap : IsPowerOfTwo capacity)
    (h : counter % capacity + frameReserve limit ≤ capacity) :
    wrapPad counter capacity limit = 0 := by
  simp only [wrapPad, physicalOffset_eq_mod hcap]
  rw [if_neg (by omega)]

theorem wrapPad_eq_of_pos (hcap : IsPowerOfTwo capacity)
    (h : 0 < wrapPad counter capacity limit) :
    wrapPad counter capacity limit = capacity - counter % capacity := by
  simp only [wrapPad, physicalOffset_eq_mod hcap] at h ⊢
  split at h
  · rename_i hfull
    rw [if_pos hfull]
  · omega

theorem wrapPad_lt (hcap : IsPowerOfTwo capacity) :
    wrapPad counter capacity limit < frameReserve limit := by
  have hpos : 0 < frameReserve limit := by simp only [frameReserve, prefixLength]; omega
  simp only [wrapPad, physicalOffset_eq_mod hcap]
  split <;> omega

/-- Behind padding a new lap begins. -/
theorem add_wrapPad_mod (hcap : IsPowerOfTwo capacity)
    (h : 0 < wrapPad counter capacity limit) :
    (counter + wrapPad counter capacity limit) % capacity = 0 := by
  have hlt : counter % capacity < capacity := Nat.mod_lt _ hcap.pos
  -- Padding reaches from its counter to the physical end.
  have hend : counter % capacity + (capacity - counter % capacity) = capacity := by omega
  rw [wrapPad_eq_of_pos hcap h, ← Nat.mod_add_mod, hend, Nat.mod_self]

/-- No padding is met at the start of a lap. -/
theorem wrapPad_add_wrapPad (hcap : IsPowerOfTwo capacity) (hroom : frameReserve limit ≤ capacity)
    (h : 0 < wrapPad counter capacity limit) :
    wrapPad (counter + wrapPad counter capacity limit) capacity limit = 0 := by
  refine wrapPad_eq_zero_of_le hcap ?_
  rw [add_wrapPad_mod hcap h]
  omega

/-- Two paddings in one lap end together. -/
theorem add_wrapPad_eq {later : Nat} (hcap : IsPowerOfTwo capacity)
    (hpad : 0 < wrapPad counter capacity limit) (hlater : 0 < wrapPad later capacity limit)
    (hle : counter ≤ later) (hlap : later + wrapPad later capacity limit ≤ counter + capacity) :
    counter + wrapPad counter capacity limit = later + wrapPad later capacity limit := by
  have hend := add_wrapPad_mod hcap hpad
  have hend' := add_wrapPad_mod hcap hlater
  have hfull : wrapPad counter capacity limit ≤ capacity := by
    rw [wrapPad_eq_of_pos hcap hpad]
    exact Nat.sub_le _ _
  -- Neither of the ends is in front of the other: both are multiples of a lap.
  rcases Nat.lt_trichotomy (counter + wrapPad counter capacity limit)
    (later + wrapPad later capacity limit) with hlt | heq | hgt
  · exact absurd (hend.trans hend'.symm) (mod_ne_of_lt hlt (by omega))
  · exact heq
  · exact absurd (hend'.trans hend.symm) (mod_ne_of_lt hgt (by omega))

end Padding

/-! ## Plans -/

theorem plan_eq_ok {write read capacity limit length : Nat} {p : Plan}
    (h : plan write read capacity limit length = .ok p) :
    0 < length ∧ length < limit ∧ read ≤ write ∧
      p.pad = wrapPad write capacity limit ∧
      p.offset = (if p.pad > 0 then 0 else physicalOffset write capacity) ∧
      p.frameLength = length + prefixLength ∧
      p.fits = decide (write - read + p.pad + p.frameLength ≤ capacity) := by
  simp only [plan] at h
  split at h
  · contradiction
  · split at h
    · contradiction
    · -- A plan is made for a length in range, behind what was read.
      cases h
      refine ⟨?_, ?_, ?_, rfl, rfl, rfl, rfl⟩ <;> omega

/-- A planned frame stands where its counter stands. -/
theorem plan_offset {write read capacity limit length : Nat} {p : Plan}
    (hcap : IsPowerOfTwo capacity) (h : plan write read capacity limit length = .ok p) :
    p.offset = (write + p.pad) % capacity := by
  rcases plan_eq_ok h with ⟨-, -, -, hpad, hoffset, -, -⟩
  rw [hoffset]
  split
  · -- With padding it is the start of the next lap.
    rename_i hpos
    rw [hpad] at hpos ⊢
    exact (add_wrapPad_mod hcap hpos).symm
  · rename_i hzero
    have hp : p.pad = 0 := by omega
    rw [hp, physicalOffset_eq_mod hcap, Nat.add_zero]

section Fitting

variable {write read capacity limit length : Nat} {p : Plan}

/-- Behind its padding a planned frame needs no other. -/
theorem plan_wrapPad (hcap : IsPowerOfTwo capacity) (hroom : frameReserve limit ≤ capacity)
    (h : plan write read capacity limit length = .ok p) :
    wrapPad (write + p.pad) capacity limit = 0 := by
  rcases plan_eq_ok h with ⟨-, -, -, hpad, -, -, -⟩
  rw [hpad]
  by_cases hpos : 0 < wrapPad write capacity limit
  · exact wrapPad_add_wrapPad hcap hroom hpos
  · have hzero : wrapPad write capacity limit = 0 := by omega
    rw [hzero, Nat.add_zero, hzero]

/-- A planned frame ends in front of the physical end. -/
theorem plan_offset_add_le (hcap : IsPowerOfTwo capacity) (hroom : frameReserve limit ≤ capacity)
    (h : plan write read capacity limit length = .ok p) : p.offset + p.frameLength ≤ capacity := by
  have hend := offset_add_le_of_wrapPad_eq_zero hcap (plan_wrapPad hcap hroom h)
  rw [frameReserve] at hend
  rcases plan_eq_ok h with ⟨-, hlength, -, -, -, hframe, -⟩
  rw [plan_offset hcap h, hframe]
  omega

/-- So does one that fits, in a ring of any size. -/
theorem plan_end_le_of_fits (hcap : IsPowerOfTwo capacity)
    (h : plan write read capacity limit length = .ok p) (hfits : p.fits = true) :
    p.offset + p.frameLength ≤ capacity := by
  rcases plan_eq_ok h with ⟨-, hlength, -, hpad, hoffset, hframe, hfit⟩
  rw [hfit, decide_eq_true_eq] at hfits
  rw [hoffset]
  split
  · omega
  · -- Without padding there is room for a largest frame.
    have hend : write % capacity + frameReserve limit ≤ capacity :=
      offset_add_le_of_wrapPad_eq_zero hcap (by omega)
    rw [frameReserve] at hend
    rw [physicalOffset_eq_mod hcap]
    omega

/-- A frame that fits leaves the place of every unread counter alone. -/
theorem plan_disjoint (hcap : IsPowerOfTwo capacity)
    (h : plan write read capacity limit length = .ok p) (hfits : p.fits = true) {c : Nat}
    (hlo : read ≤ c) (hhi : c < write) :
    c % capacity < p.offset ∨ p.offset + p.frameLength ≤ c % capacity := by
  rcases plan_eq_ok h with ⟨-, -, -, -, -, -, hfit⟩
  have hend := plan_end_le_of_fits hcap h hfits
  have hlt : c % capacity < capacity := Nat.mod_lt _ hcap.pos
  rw [hfit, decide_eq_true_eq] at hfits
  rw [plan_offset hcap h] at hend ⊢
  exact stretches_disjoint (m := 1) (Nat.succ_le_of_lt hlt) hend (by omega) (by omega)

end Fitting

end Ring
end WriteBehind
