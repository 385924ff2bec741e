import WriteBehind.Bytes

/-!
# Utf8 — text as bytes

A character takes one to four bytes, always as few as its number needs.

* `Utf8.encode` writes characters, `Utf8.decode?` reads them and refuses all other bytes;
  `Utf8.soundLength` tells how far the bytes are a text;
* `Utf8.decodeChar?_eq_some_iff` says that a character is read exactly where it was written, and
  `Utf8.decode?_eq_some_iff` says the same of whole texts.
-/

namespace WriteBehind
namespace Utf8

/-! ## Writing -/

/-- The bytes of a character. -/
def encodeChar (c : Char) : Bytes :=
  let n := c.toNat
  if n < 0x80 then [UInt8.ofNat n]
  else if n < 0x800 then [UInt8.ofNat (0xC0 + n / 64), UInt8.ofNat (0x80 + n % 64)]
  else if n < 0x10000 then
    [UInt8.ofNat (0xE0 + n / 4096), UInt8.ofNat (0x80 + n / 64 % 64), UInt8.ofNat (0x80 + n % 64)]
  else
    [UInt8.ofNat (0xF0 + n / 262144), UInt8.ofNat (0x80 + n / 4096 % 64),
      UInt8.ofNat (0x80 + n / 64 % 64), UInt8.ofNat (0x80 + n % 64)]

/-- The bytes of a text. -/
def encode (cs : List Char) : Bytes := cs.flatMap encodeChar

/-! ## Reading -/

/-- The six bits of a byte that continues a character. -/
def tail? (b : UInt8) : Option Nat :=
  if 0x80 ≤ b.toNat ∧ b.toNat < 0xC0 then some (b.toNat - 0x80) else none

/-- The character with this number, if there is one and its bytes are not fewer. -/
def scalar? (least n : Nat) : Option Char :=
  if n.isValidChar ∧ least ≤ n then some (Char.ofNat n) else none

/-- The first character, and the bytes behind it. -/
def decodeChar? : Bytes → Option (Char × Bytes)
  | [] => none
  | a :: r =>
    let a := a.toNat
    if a < 0x80 then (scalar? 0 a).map (·, r)
    else if a < 0xC0 then none
    else if a < 0xE0 then
      match r with
      | b :: r =>
        match tail? b with
        | some b => (scalar? 0x80 ((a - 0xC0) * 64 + b)).map (·, r)
        | none => none
      | _ => none
    else if a < 0xF0 then
      match r with
      | b :: c :: r =>
        match tail? b, tail? c with
        | some b, some c => (scalar? 0x800 ((a - 0xE0) * 4096 + b * 64 + c)).map (·, r)
        | _, _ => none
      | _ => none
    else
      match r with
      | b :: c :: d :: r =>
        match tail? b, tail? c, tail? d with
        | some b, some c, some d =>
          (scalar? 0x10000 ((a - 0xF0) * 262144 + b * 4096 + c * 64 + d)).map (·, r)
        | _, _, _ => none
      | _ => none

/-! ## A character is read exactly where it was written -/

theorem encodeChar_ne_nil (c : Char) : encodeChar c ≠ [] := by
  simp only [encodeChar]
  split
  · simp
  · split
    · simp
    · split <;> simp

theorem tail?_eq_some {b : UInt8} {n : Nat} (h : tail? b = some n) :
    n < 64 ∧ b.toNat = 0x80 + n := by
  simp only [tail?] at h
  split at h
  · simp only [Option.some.injEq] at h
    omega
  · contradiction

theorem scalar?_eq_some {least n : Nat} {c : Char} (h : scalar? least n = some c) :
    c.toNat = n ∧ least ≤ n ∧ n < 0x110000 := by
  simp only [scalar?] at h
  split at h
  · rename_i hv
    simp only [Option.some.injEq] at h
    subst h
    have hlt : n < 0x110000 := by
      have := hv.1
      simp only [Nat.isValidChar] at this
      omega
    refine ⟨?_, hv.2, hlt⟩
    rw [Char.ofNat, dif_pos hv.1]
    rfl
  · contradiction

theorem ofNat_eq_of_toNat {b : UInt8} {n : Nat} (h : b.toNat = n) : UInt8.ofNat n = b := by
  rw [← h]
  exact UInt8.ofNat_toNat

theorem eq_encodeChar_append {bs r : Bytes} {c : Char} (h : decodeChar? bs = some (c, r)) :
    bs = encodeChar c ++ r := by
  match bs with
  | [] => simp [decodeChar?] at h
  | a :: t =>
    -- The first byte says how many there are, and a character that is found lies in the range for as many.
    simp only [decodeChar?] at h
    split at h
    · obtain ⟨c', hc, he⟩ := Option.map_eq_some_iff.1 h
      cases he
      have hs := scalar?_eq_some hc
      rename_i hlt
      simp only [encodeChar, hs.1, hlt, if_true, List.cons_append, List.nil_append,
        UInt8.ofNat_toNat]
    split at h
    · contradiction
    split at h
    · split at h
      · split at h
        · rename_i hb
          obtain ⟨c', hc, he⟩ := Option.map_eq_some_iff.1 h
          cases he
          have hs := scalar?_eq_some hc
          have ht := tail?_eq_some hb
          have h₁ : ¬ c.toNat < 0x80 := by omega
          have h₂ : c.toNat < 0x800 := by omega
          simp only [encodeChar, h₁, h₂, if_true, if_false, List.cons_append, List.nil_append,
            List.cons.injEq, and_true]
          exact ⟨(ofNat_eq_of_toNat (by omega)).symm, (ofNat_eq_of_toNat (by omega)).symm⟩
        · contradiction
      · contradiction
    split at h
    · split at h
      · split at h
        · rename_i hb hc'
          obtain ⟨c', hc, he⟩ := Option.map_eq_some_iff.1 h
          cases he
          have hs := scalar?_eq_some hc
          have ht := tail?_eq_some hb
          have hu := tail?_eq_some hc'
          have h₁ : ¬ c.toNat < 0x80 := by omega
          have h₂ : ¬ c.toNat < 0x800 := by omega
          have h₃ : c.toNat < 0x10000 := by omega
          simp only [encodeChar, h₁, h₂, h₃, if_true, if_false, List.cons_append,
            List.nil_append, List.cons.injEq, and_true]
          exact ⟨(ofNat_eq_of_toNat (by omega)).symm, (ofNat_eq_of_toNat (by omega)).symm,
            (ofNat_eq_of_toNat (by omega)).symm⟩
        · contradiction
      · contradiction
    · split at h
      · split at h
        · rename_i hb hc' hd
          obtain ⟨c', hc, he⟩ := Option.map_eq_some_iff.1 h
          cases he
          have hs := scalar?_eq_some hc
          have ht := tail?_eq_some hb
          have hu := tail?_eq_some hc'
          have hv := tail?_eq_some hd
          have h₁ : ¬ c.toNat < 0x80 := by omega
          have h₂ : ¬ c.toNat < 0x800 := by omega
          have h₃ : ¬ c.toNat < 0x10000 := by omega
          simp only [encodeChar, h₁, h₂, h₃, if_false, List.cons_append,
            List.nil_append, List.cons.injEq, and_true]
          exact ⟨(ofNat_eq_of_toNat (by omega)).symm, (ofNat_eq_of_toNat (by omega)).symm,
            (ofNat_eq_of_toNat (by omega)).symm, (ofNat_eq_of_toNat (by omega)).symm⟩
        · contradiction
      · contradiction

theorem tail?_ofNat {n : Nat} (h : n < 64) : tail? (UInt8.ofNat (0x80 + n)) = some n := by
  have hb : (UInt8.ofNat (0x80 + n)).toNat = 0x80 + n := by
    rw [UInt8.toNat_ofNat']
    omega
  simp only [tail?, hb]
  rw [if_pos (by omega), Nat.add_sub_cancel_left]

theorem scalar?_toNat {c : Char} {least : Nat} (h : least ≤ c.toNat) :
    scalar? least c.toNat = some c := by
  have hv : c.toNat.isValidChar := c.valid
  rw [scalar?, if_pos ⟨hv, h⟩]
  simp

theorem decodeChar?_encodeChar_append (c : Char) (r : Bytes) :
    decodeChar? (encodeChar c ++ r) = some (c, r) := by
  have hlt : c.toNat < 0x110000 := by
    have hv : c.toNat.isValidChar := c.valid
    simp only [Nat.isValidChar] at hv
    omega
  -- One case for each number of bytes: the first one is told by its size, and the others by their lead.
  simp only [encodeChar]
  split
  · rename_i h₁
    have ha : (UInt8.ofNat c.toNat).toNat = c.toNat := by
      rw [UInt8.toNat_ofNat']
      omega
    simp only [List.cons_append, List.nil_append, decodeChar?, ha, h₁, if_true,
      scalar?_toNat (Nat.zero_le _), Option.map_some]
  split
  · rename_i h₁ h₂
    have ha : (UInt8.ofNat (0xC0 + c.toNat / 64)).toNat = 0xC0 + c.toNat / 64 := by
      rw [UInt8.toNat_ofNat']
      omega
    have hn : (0xC0 + c.toNat / 64 - 0xC0) * 64 + c.toNat % 64 = c.toNat := by omega
    simp only [List.cons_append, List.nil_append, decodeChar?, ha,
      tail?_ofNat (Nat.mod_lt _ (by decide : 0 < 64)), hn]
    rw [if_neg (by omega), if_neg (by omega), if_pos (by omega), scalar?_toNat (by omega)]
    rfl
  split
  · rename_i h₁ h₂ h₃
    have ha : (UInt8.ofNat (0xE0 + c.toNat / 4096)).toNat = 0xE0 + c.toNat / 4096 := by
      rw [UInt8.toNat_ofNat']
      omega
    have hn : (0xE0 + c.toNat / 4096 - 0xE0) * 4096 + c.toNat / 64 % 64 * 64 + c.toNat % 64
        = c.toNat := by omega
    simp only [List.cons_append, List.nil_append, decodeChar?, ha,
      tail?_ofNat (Nat.mod_lt _ (by decide : 0 < 64)), hn]
    rw [if_neg (by omega), if_neg (by omega), if_neg (by omega), if_pos (by omega),
      scalar?_toNat (by omega)]
    rfl
  · rename_i h₁ h₂ h₃
    have ha : (UInt8.ofNat (0xF0 + c.toNat / 262144)).toNat = 0xF0 + c.toNat / 262144 := by
      rw [UInt8.toNat_ofNat']
      omega
    have hn : (0xF0 + c.toNat / 262144 - 0xF0) * 262144 + c.toNat / 4096 % 64 * 4096
        + c.toNat / 64 % 64 * 64 + c.toNat % 64 = c.toNat := by omega
    simp only [List.cons_append, List.nil_append, decodeChar?, ha,
      tail?_ofNat (Nat.mod_lt _ (by decide : 0 < 64)), hn]
    rw [if_neg (by omega), if_neg (by omega), if_neg (by omega), if_neg (by omega),
      scalar?_toNat (by omega)]
    rfl

theorem decodeChar?_eq_some_iff {bs r : Bytes} {c : Char} :
    decodeChar? bs = some (c, r) ↔ bs = encodeChar c ++ r :=
  ⟨eq_encodeChar_append, fun h => h ▸ decodeChar?_encodeChar_append c r⟩

/-! ## Texts -/

/-- Reads a text up to the end, or refuses it. -/
def decode? (bs : Bytes) : Option (List Char) :=
  if bs = [] then some []
  else
    match _h : decodeChar? bs with
    | none => none
    | some (c, r) =>
      match decode? r with
      | none => none
      | some cs => some (c :: cs)
termination_by bs.length
decreasing_by
  have hb := eq_encodeChar_append _h
  have hc : 0 < (encodeChar c).length := List.length_pos_iff.2 (encodeChar_ne_nil c)
  rw [hb, List.length_append]
  omega

/-- The number of bytes in front of the first one that does not begin a character. -/
def soundLength (bs : Bytes) : Nat :=
  match _h : decodeChar? bs with
  | none => 0
  | some (c, r) => (encodeChar c).length + soundLength r
termination_by bs.length
decreasing_by
  have hb := eq_encodeChar_append _h
  have hc : 0 < (encodeChar c).length := List.length_pos_iff.2 (encodeChar_ne_nil c)
  rw [hb, List.length_append]
  omega

theorem decode?_encode (cs : List Char) : decode? (encode cs) = some cs := by
  induction cs with
  | nil => simp [encode, decode?]
  | cons c cs ih =>
    have he : encode (c :: cs) = encodeChar c ++ encode cs := rfl
    have hne : encodeChar c ++ encode cs ≠ [] := by simp [encodeChar_ne_nil]
    rw [he, decode?, if_neg hne]
    split
    · rename_i hd
      simp [decodeChar?_encodeChar_append] at hd
    · rename_i hd
      simp only [decodeChar?_encodeChar_append, Option.some.injEq, Prod.mk.injEq] at hd
      obtain ⟨rfl, rfl⟩ := hd
      rw [ih]

theorem eq_encode_of_decode? {bs : Bytes} {cs : List Char} (h : decode? bs = some cs) :
    bs = encode cs := by
  fun_induction decode? bs generalizing cs with
  | case1 =>
    cases h
    rfl
  | case2 => contradiction
  | case3 => contradiction
  | case4 bs _ c r hd cs' hr ih =>
    cases h
    rw [eq_encodeChar_append hd, ih hr]
    rfl

theorem decode?_eq_some_iff {bs : Bytes} {cs : List Char} :
    decode? bs = some cs ↔ bs = encode cs :=
  ⟨eq_encode_of_decode?, fun h => h ▸ decode?_encode cs⟩

end Utf8
end WriteBehind
