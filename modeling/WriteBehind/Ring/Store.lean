import WriteBehind.Image

/-!
# Store — the atomic changes of a ring's bytes

* `Store` is one atomic change of an image;
* `Image.applyAll` carries out a sequence of them.
-/

namespace WriteBehind

namespace Ring

/-- One atomic change of an image. -/
inductive Store
  /-- Bytes put in place. -/
  | bytes (offset : Nat) (data : Bytes)
  /-- The file cut or extended with zeros to a new length. -/
  | length (n : Nat)
  /-- All bytes given up for `n` zeros. -/
  | fresh (n : Nat)
  deriving DecidableEq, Repr

end Ring

namespace Image

open WriteBehind.Ring (Store)

/-- Carries out one store. -/
def apply (img : Image) : Store → Image
  | .bytes offset data => img.write offset data
  | .length n => img.resize n
  | .fresh n => zeros n

/-- Carries out stores in order. -/
def applyAll (img : Image) (stores : List Store) : Image := stores.foldl apply img

theorem applyAll_append (img : Image) (stores more : List Store) :
    img.applyAll (stores ++ more) = (img.applyAll stores).applyAll more :=
  List.foldl_append

end Image

end WriteBehind
