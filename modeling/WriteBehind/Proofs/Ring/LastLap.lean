import Mathlib.Control.Monad.Basic
import WriteBehind.Inspection.Basic
import WriteBehind.Proofs.Ring.Level
import WriteBehind.Proofs.Ring.Walking

/-!
# LastLap — walks with counters up to the greatest word

A header is believed if its counters are at most a lap apart, however close to `2 ^ 64` they stand.  A
frame ends in front of the end of its lap, and so does the last frame below `2 ^ 64`; but padding ends
right there, and the sum of its counter and its length does not fit a word any more.

* `Punctual v start stop` says that a walk forms no sum that overflows, always goes on and ends in time,
  `RunsOver v start stop` that it comes by padding up to `2 ^ 64`;
* `inWord_or_runsOver` says that nothing else can go wrong, and `punctual_iff_of_readHeader` says it of
  every file whose header is believed;
* `padding_runs_over`: a file that can be neither inspected nor grown.
-/

namespace WriteBehind
namespace Ring
namespace View

/-! ## Walks that keep time -/

/-- A walk forms no sum that overflows, every step of it leads on and not past the end, and it ends
after at most as many steps as there are counters to pass. -/
structure Punctual (v : View) (start stop : Nat) : Prop where
  sums : v.InWord stop start
  climbs : ∀ place piece, v.Reaches stop start place → place < stop →
    v.classify place stop = .ok piece → place < place + piece.size ∧ place + piece.size ≤ stop
  ends : ∃ n place, n ≤ stop - start ∧ v.after stop n start = some place ∧
    v.EndsAt stop place (v.walk start stop).defect

/-- A walk comes by padding, as long as the dirty size says, that ends at `2 ^ 64`. -/
def RunsOver (v : View) (start stop : Nat) : Prop :=
  ∃ place, v.Reaches stop start place ∧ place < stop ∧
    wrapPad place v.capacity v.limit = v.dirty ∧ 0 < v.dirty ∧ place + v.dirty = 2 ^ 64

section Walks

variable {v : View} {start stop : Nat}

/-- A walk that comes by a defect stops there. -/
theorem defect_of_reaches {position place : Nat} {cause : Cause} (h : v.Reaches stop position place)
    (hlt : place < stop) (hclassify : v.classify place stop = .error cause) :
    (v.walk position stop).defect = some cause := by
  rcases h with ⟨n, hn⟩
  induction n generalizing position with
  | zero =>
    cases hn
    rw [walk_of_error hlt hclassify]
  | succ n ih =>
    rcases after_succ_iff.1 hn with ⟨hbelow, piece, hpiece, hrest⟩
    cases piece with
    | padding n =>
      rw [walk_of_padding hpiece]
      exact ih hrest
    | frame n =>
      rw [walk_of_frame hpiece]
      exact ih hrest

/-- A walk stops over a sum just where one of its sums does not fit a word. -/
theorem defect_eq_overflow_iff (hle : start ≤ stop) :
    (v.walk start stop).defect = some .overflow ↔ ¬ v.InWord stop start := by
  constructor
  · intro hdefect hword
    rcases (meets_walk (v := v) hle).ends with ⟨n, place, hn, -, -, hends, -⟩
    rw [hdefect] at hends
    rcases classify_eq_overflow_iff.1 hends.2 with ⟨length, hdue, hover⟩
    exact absurd (hword place length ⟨n, hn⟩ hends.1 hdue) (Nat.not_lt.2 hover)
  · intro hword
    simp only [InWord, Classical.not_forall, Nat.not_lt] at hword
    rcases hword with ⟨place, n, hreaches, hlt, hdue, hover⟩
    exact defect_of_reaches hreaches hlt (classify_eq_overflow_iff.2 ⟨n, hdue, hover⟩)

theorem punctual_of_inWord (hle : start ≤ stop) (h : v.InWord stop start) :
    Punctual v start stop := by
  refine ⟨h, ?_, ?_⟩
  · intro place piece _ _ hclassify
    rcases classify_size hclassify with ⟨hpos, -, hend⟩
    exact ⟨Nat.lt_add_of_pos_right hpos, hend⟩
  · rcases (meets_walk (v := v) hle).ends with ⟨n, place, hn, hlo, hhi, hends, -⟩
    exact ⟨n, place, by omega, hn, hends⟩

/-- Unless all sums of a walk fit their word, it is padding up to `2 ^ 64` that does not. -/
theorem inWord_or_runsOver (hcap : IsPowerOfTwo v.capacity) (hword : v.capacity ≤ 2 ^ 64)
    (hstop : stop < 2 ^ 64) : v.InWord stop start ∨ RunsOver v start stop := by
  by_cases hin : v.InWord stop start
  · exact .inl hin
  refine .inr ?_
  simp only [InWord, Classical.not_forall, Nat.not_lt] at hin
  rcases hin with ⟨place, n, hreaches, hlt, hdue, hover⟩
  have hplace : place < 2 ^ 64 := Nat.lt_trans hlt hstop
  rcases offset_add_le_of_due? hcap hdue with ⟨hpad, hdirty, hlap⟩ | ⟨-, hlap⟩
  · have hend := add_le_of_offset_add_le hcap hword hplace (Nat.le_of_eq hlap)
    have hwrap := wrapPad_eq_of_pos hcap hpad
    exact ⟨place, hreaches, hlt, by omega, by omega, by omega⟩
  · -- A frame ends inside its lap.
    have hend : place + (n + 1) ≤ 2 ^ 64 := add_le_of_offset_add_le hcap hword hplace hlap
    omega

theorem RunsOver.not_inWord (h : RunsOver v start stop) : ¬ v.InWord stop start := by
  rcases h with ⟨place, hreaches, hlt, hpad, hpos, hsum⟩
  intro hword
  have hdue : v.due? place = some v.dirty := by
    simp only [due?]
    rw [if_pos (hpad ▸ hpos), if_neg (not_not_intro hpad), hpad]
  have hfits := hword place _ hreaches hlt hdue
  omega

end Walks
end View

/-! ## Files -/

open View (Punctual RunsOver)

/-- Of every file whose header is believed, whether it is opened or inspected: the walk over its unread
bytes keeps time unless it comes by padding up to `2 ^ 64`, and then it ends over that sum; and with a lap
to spare below `2 ^ 64` it always keeps time. -/
theorem punctual_iff_of_readHeader {content : Image} {h : Header} {capacity : Nat}
    (hread : readHeader content = .ok (h, capacity)) (hsize : content.size ≤ maxFileLength)
    (path : String) (limit : Nat) :
    (ofHeader path content capacity limit h).view = Inspection.view content limit h ∧
      (Punctual (Inspection.view content limit h) h.read h.write ↔
        ¬ RunsOver (Inspection.view content limit h) h.read h.write) ∧
      (((Inspection.view content limit h).walk h.read h.write).defect = some .overflow ↔
        RunsOver (Inspection.view content limit h) h.read h.write) ∧
      (h.write + capacity ≤ 2 ^ 64 →
        Punctual (Inspection.view content limit h) h.read h.write) := by
  rcases readHeader_eq_ok hread with ⟨hcontent, hcap, -, hdecode, hvalidate⟩
  rcases validate_eq_ok hvalidate with ⟨-, hle, -, -, -⟩
  have hstop : h.write < 2 ^ 64 := write_lt_of_decode hdecode
  have hcapacity : content.size - Header.size = capacity := by omega
  have hcap' : IsPowerOfTwo (Inspection.view content limit h).capacity := by
    show IsPowerOfTwo (content.size - Header.size)
    rwa [hcapacity]
  have hword : (Inspection.view content limit h).capacity ≤ 2 ^ 64 := by
    show content.size - Header.size ≤ 2 ^ 64
    rw [maxFileLength] at hsize
    omega
  have hcases : (Inspection.view content limit h).InWord h.write h.read ∨
      RunsOver (Inspection.view content limit h) h.read h.write :=
    View.inWord_or_runsOver hcap' hword hstop
  refine ⟨?_, ⟨?_, ?_⟩, ?_, ?_⟩
  · rw [Inspection.view, hcapacity]
    rfl
  · exact fun hpunctual hover => hover.not_inWord hpunctual.sums
  · exact fun hover => View.punctual_of_inWord hle (hcases.resolve_right hover)
  · rw [View.defect_eq_overflow_iff hle]
    exact ⟨hcases.resolve_left, RunsOver.not_inWord⟩
  · -- No piece ends more than a lap behind the end of the walk.
    intro hlap
    refine View.punctual_of_inWord hle (View.inWord_of_le hcap' ?_ _)
    show h.write + (content.size - Header.size) ≤ 2 ^ 64
    rwa [hcapacity]

/-- The record of a job, as it stands in a file. -/
def jobFrame : Bytes := View.encodeFrame (Job.encode ⟨0, .incr, [[97]]⟩)

/-- A file of 64 ring bytes, which start with these. -/
def fileOf (h : Header) (bytes : Bytes) : Image :=
  ((Image.zeros 88).write 0 h.encode).write Header.size bytes

/-- A record in the last lap, with less than a lap to spare below `2 ^ 64`. -/
def lateFrame : Image := fileOf ⟨2 ^ 64 - 47, 2 ^ 64 - 64, 0⟩ jobFrame

theorem punctual_iff_of_readHeader_late :
    (2 : Nat) ^ 64 < 2 ^ 64 - 47 + 64 ∧
      Punctual (Inspection.view lateFrame 16 ⟨2 ^ 64 - 47, 2 ^ 64 - 64, 0⟩) (2 ^ 64 - 64)
        (2 ^ 64 - 47) := by
  have hread : readHeader lateFrame = .ok (⟨2 ^ 64 - 47, 2 ^ 64 - 64, 0⟩, 64) := by decide +kernel
  have hpunctual := (punctual_iff_of_readHeader hread (by decide +kernel) "q" 16).2.1
  refine ⟨by decide, hpunctual.2 ?_⟩
  -- The dirty size says that there is no padding.
  rintro ⟨place, -, -, -, hpos, -⟩
  exact absurd hpos (by decide)

/-- Padding of eight bytes up to `2 ^ 64`, less than eight bytes in front of the write counter, and a
record at the start of the ring. -/
def overLastLap : Image := fileOf ⟨2 ^ 64 - 1, 2 ^ 64 - 8, 8⟩ jobFrame

/-- The padding runs past the write counter, and its sum past the greatest word: neither an inspection nor an
open that has to resize the ring comes to an answer. -/
theorem padding_runs_over :
    checkRecordLimit 16 = .ok () ∧
      readHeader overLastLap = .ok (⟨2 ^ 64 - 1, 2 ^ 64 - 8, 8⟩, 64) ∧
      (Inspection.view overLastLap 16 ⟨2 ^ 64 - 1, 2 ^ 64 - 8, 8⟩).due? (2 ^ 64 - 8) = some 8 ∧
      ¬ Punctual (Inspection.view overLastLap 16 ⟨2 ^ 64 - 1, 2 ^ 64 - 8, 8⟩) (2 ^ 64 - 8)
        (2 ^ 64 - 1) ∧
      Inspection.ofContent "q" false overLastLap 16 10 = .error .overflow ∧
      ((ofHeader "q" overLastLap 64 16 ⟨2 ^ 64 - 1, 2 ^ 64 - 8, 8⟩).resize 128).1 =
        .error Cause.overflow.fault := by
  have hdue : (Inspection.view overLastLap 16 ⟨2 ^ 64 - 1, 2 ^ 64 - 8, 8⟩).due? (2 ^ 64 - 8) =
      some 8 := by decide +kernel
  refine ⟨rfl, by decide +kernel, hdue, ?_, by decide +kernel, by decide +kernel⟩
  intro hpunctual
  have hlt := hpunctual.sums _ _ (.refl _ _ _) (by decide) hdue
  omega

end Ring
end WriteBehind
