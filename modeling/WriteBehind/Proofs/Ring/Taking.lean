import WriteBehind.Proofs.Ring.Carry
import WriteBehind.Proofs.Ring.Room

/-!
# Taking — the oldest record, taken on loan and given up, on any bytes

A ring may hold anything behind its records.  A pop still leaves all records where they are, and what it
gives is the first of them.

* `Usable r`: a ring that has its room; `Steady.usable` says that every ring in use is like this;
* `SameUnread r r'`: a reader meets the same records in both rings, and the same defect behind them;
* `Usable.sameUnread_serve`: serving a request keeps them, whatever comes of it;
* `Takes r outcome` and `Usable.takes_pop`: what a pop comes to, and what giving up its record does.
-/

namespace WriteBehind
namespace Ring

/-- A reader meets the same records in both rings, and the same defect behind them. -/
structure SameUnread (r r' : Ring) : Prop where
  payloads : r'.backlog.payloads = r.backlog.payloads
  defect : r'.backlog.defect = r.backlog.defect

/-- A ring that is level and has room for two frames. -/
structure Usable (r : Ring) : Prop extends Level r where
  limit_lt : r.limit < 2 ^ 32
  roomy : 2 * frameReserve r.limit ≤ r.capacity

section Same

variable {r r' r'' : Ring}

theorem SameUnread.refl (r : Ring) : SameUnread r r := ⟨rfl, rfl⟩

theorem SameUnread.trans (h : SameUnread r r') (h' : SameUnread r' r'') : SameUnread r r'' :=
  ⟨h'.payloads.trans h.payloads, h'.defect.trans h.defect⟩

theorem SameUnread.of_backlog (h : r'.backlog = r.backlog) : SameUnread r r' :=
  ⟨congrArg Trail.payloads h, congrArg Trail.defect h⟩

/-- Stores to the header leave all records where they are. -/
theorem SameUnread.of_bytes {image : Image}
    (hbyte : ∀ i, Header.size ≤ i → image.byte i = r.image.byte i) :
    SameUnread r { r with image } := by
  have hview : ({ r with image } : Ring).view = r.view := view_eq_of_byte rfl rfl rfl hbyte
  refine .of_backlog ?_
  rw [Ring.backlog, hview]
  rfl

end Same

/-! ## Serving -/

namespace Usable

variable {r : Ring} {q : Request}

theorem reserve_le (h : Usable r) : frameReserve r.limit ≤ r.capacity := by
  have hroomy := h.roomy
  omega

/-- A resize keeps the records if it is to more room than there is: they are carried over, or it fails and
the ring bytes stay. -/
theorem sameUnread_resize (h : Usable r) {target : Nat}
    (hmore : r.capacity < 2 ^ 64 → r.capacity < target) : SameUnread r (r.resize target).2 := by
  have hround := le_nextPowerOfTwo (max target r.capacity)
  rcases r.resize_cases target with ⟨cause, -, hresize⟩ | ⟨staged, e, -, -, -, hresize⟩ |
    ⟨staged, growth, hstage, hlarger, hgrowth, hresize⟩ | ⟨staged, hstage, hsame, -⟩
  · rw [hresize]
    exact .refl r
  · -- Only the mark was set and cleared again.
    rw [hresize]
    exact .of_bytes fun i hi => byte_callOff r.image hi
  · rcases stage_eq_ok.1 hstage with ⟨hstaged, hroom, -, hcheck⟩
    rcases r.linearize_cases with ⟨hdefect, hall⟩ | ⟨cause, -, herror⟩
    · cases hstaged.symm.trans hall
      -- The frames took up no more than the old room, so half of the new room is left.
      have hcap := isPowerOfTwo_nextPowerOfTwo (max target r.capacity)
      have hdouble := h.powerOfTwo.two_mul_le hcap hlarger
      have hroomy := h.roomy
      have hcarried := carried_relaid hgrowth hcap h.limit_lt (lt_of_checkCapacity hcheck) (by omega)
      rw [hresize]
      refine ⟨hcarried.payloads, ?_⟩
      rw [hcarried.backlog, hdefect]
    · cases hstaged.symm.trans herror
  · -- A capacity that passes the check is a word, so the goal is more than the ring has.
    have hword := lt_of_checkCapacity (stage_eq_ok.1 hstage).2.2.2
    rw [hsame] at hword
    have hmore' := hmore hword
    omega

theorem sameUnread_serve (h : Usable r) (q : Request) : SameUnread r (r.serve q).2 := by
  rcases r.serve_cases q with ⟨-, hserve⟩ | ⟨-, -, hserve⟩ | ⟨-, hserve⟩ <;> rw [hserve]
  · exact ⟨rfl, rfl⟩
  · exact .refl r
  · have hmore : r.capacity < 2 ^ 64 → r.capacity < max q.target (growTarget r.capacity 0) := by
      intro hword
      have hgrow := lt_growTarget h.powerOfTwo.pos (h.powerOfTwo.le_of_word hword) 0
      omega
    have hsame := h.sameUnread_resize hmore
    exact ⟨hsame.payloads, hsame.defect⟩

end Usable

/-! ## The record on loan -/

/-- What looking for the oldest record comes to.  All records are still there, and the one on loan is the
first of them: its bytes can be read, and giving it up drops it and nothing else. -/
structure Takes (r : Ring) (outcome : Except Fault (Option Lease) × Ring) : Prop where
  same : SameUnread r outcome.2
  none : outcome.1 = .ok none → r.backlog.payloads = []
  some : ∀ l, outcome.1 = .ok (some l) →
    r.backlog.payloads = l.payload :: (outcome.2.release l).backlog.payloads ∧
      outcome.2.leased l = l.payload

section Taking

variable {r : Ring}

theorem Takes.of_same {r' : Ring} {outcome : Except Fault (Option Lease) × Ring}
    (h : Takes r' outcome) (hsame : SameUnread r r') : Takes r outcome := by
  refine ⟨hsame.trans h.same, ?_, ?_⟩
  · rw [← hsame.payloads]
    exact h.none
  · rw [← hsame.payloads]
    exact h.some

/-- A walk passes the padding just as the read counter does. -/
theorem Passes.sameUnread {r' : Ring} (h : Passes r r') : SameUnread r r' := by
  cases h with
  | here => exact .refl r
  | padding hlt hclassify _ =>
    refine .of_backlog ?_
    rw [Ring.backlog, view_moveRead, read_moveRead, write_moveRead]
    exact (View.walk_of_padding hclassify).symm

/-- Where the search ends at a frame, this is the oldest record. -/
theorem EndsAt.takes {outcome : Except Fault (Option Lease) × Ring} (h : EndsAt r outcome) :
    Takes r outcome := by
  rcases h with ⟨fault, rfl⟩ | ⟨heq, rfl⟩ | ⟨n, hlt, hclassify, rfl⟩
  · exact ⟨.refl r, by rintro ⟨⟩, by rintro l ⟨⟩⟩
  · refine ⟨.refl r, fun _ => ?_, by rintro l ⟨⟩⟩
    have hwalk : r.backlog = {} := View.walk_of_le (Nat.le_of_eq heq.symm)
    rw [hwalk]
    rfl
  · refine ⟨.refl r, by rintro ⟨⟩, ?_⟩
    rintro l ⟨⟩
    have hlength : (r.lease n).payload.length = n := View.length_slice _ _ _
    have hrest : (r.release (r.lease n)).backlog =
        r.view.walk (r.read + (n + prefixLength)) r.write := by
      rw [Ring.release, Ring.backlog, view_moveRead, read_moveRead, write_moveRead]
      rfl
    refine ⟨?_, ?_⟩
    · rw [hrest, Ring.backlog, View.walk_of_frame hclassify]
      rfl
    · rw [Ring.leased, hlength]
      rfl

theorem Level.takes_front (h : Level r) (hroom : frameReserve r.limit ≤ r.capacity) :
    Takes r r.front := by
  rcases h.front_cases hroom with ⟨r', hpasses, hends⟩
  exact hends.takes.of_same hpasses.sameUnread

/-- A pop serves a request first, and then looks for the oldest record. -/
theorem Usable.takes_pop (h : Usable r) : Takes r r.pop := by
  rcases r.pop_cases with ⟨-, hpop⟩ | ⟨q, fault, served, hq, hserve, hpop⟩ |
    ⟨q, served, hq, hserve, hpop⟩ <;> rw [hpop]
  · exact h.takes_front h.reserve_le
  · have hsame := h.sameUnread_serve q
    rw [hserve] at hsame
    exact ⟨hsame, by rintro ⟨⟩, by rintro l ⟨⟩⟩
  · have hsame := h.sameUnread_serve q
    rcases h.serve hq with ⟨hlevel, hlarge, -⟩
    have hlimit := (r.serve_keeps q).1
    rw [hserve] at hsame hlevel hlarge hlimit
    have hroom : frameReserve served.limit ≤ served.capacity := by
      rw [show served.limit = r.limit from hlimit]
      exact Nat.le_trans h.reserve_le hlarge
    exact (Level.takes_front hlevel hroom).of_same hsame

end Taking

/-! ## Rings in use -/

/-- Whatever has happened to a ring, its consumer can go on. -/
theorem Steady.usable {limit : Nat} {b : Bench} (h : Steady limit b) : Usable b.ring := by
  refine ⟨h.level, ?_, h.two_reserves_le⟩
  rw [h.limit_eq]
  exact (checkRecordLimit_eq_ok.1 h.checked).2

end Ring
end WriteBehind
