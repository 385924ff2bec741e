import WriteBehind.Proofs.Ring.Meeting
import WriteBehind.Proofs.Ring.Opening

/-!
# Drain — taking records until none is left

A consumer that pops and releases without end comes to the end of the ring, or to a fault.

* `Drains r payloads outcome` follows it record by record;
* `drains_backlog`: on any bytes it takes what a walk meets, and fails where the walk does;
* `attach_cases`: a queue file of any bytes is refused, or it is opened with what a walk meets in it.
-/

namespace WriteBehind
namespace Ring

/-- Popping and releasing takes these payloads, and then there is none, or this fault. -/
inductive Drains : Ring → List Bytes → Option Fault → Prop
  | done {r r' : Ring} (hpop : r.pop = (.ok none, r')) : Drains r [] none
  | fault {r r' : Ring} {fault : Fault} (hpop : r.pop = (.error fault, r')) :
      Drains r [] (some fault)
  | take {r r' : Ring} {l : Lease} {payloads : List Bytes} {outcome : Option Fault}
      (hpop : r.pop = (.ok (some l), r')) (rest : Drains (r'.release l) payloads outcome) :
      Drains r (l.payload :: payloads) outcome

namespace Drains

variable {r r' : Ring} {payloads payloads' : List Bytes} {outcome outcome' : Option Fault}

/-- Draining leaves no choice. -/
theorem unique (h : Drains r payloads outcome) (h' : Drains r payloads' outcome') :
    payloads' = payloads ∧ outcome' = outcome := by
  induction h generalizing payloads' outcome' with
  | done hpop =>
    cases h' with
    | done => exact ⟨rfl, rfl⟩
    | fault hpop' => cases hpop.symm.trans hpop'
    | take hpop' => cases hpop.symm.trans hpop'
  | fault hpop =>
    cases h' with
    | done hpop' => cases hpop.symm.trans hpop'
    | fault hpop' =>
      cases hpop.symm.trans hpop'
      exact ⟨rfl, rfl⟩
    | take hpop' => cases hpop.symm.trans hpop'
  | take hpop _ ih =>
    cases h' with
    | done hpop' => cases hpop.symm.trans hpop'
    | fault hpop' => cases hpop.symm.trans hpop'
    | take hpop' rest' =>
      cases hpop.symm.trans hpop'
      rcases ih rest' with ⟨hpayloads, houtcome⟩
      rw [hpayloads, houtcome]
      exact ⟨rfl, rfl⟩

/-- Only what the first pop comes to matters. -/
theorem of_pop_eq (h : Drains r' payloads outcome) (hpop : r.pop = r'.pop) :
    Drains r payloads outcome := by
  cases h with
  | done hpop' => exact .done (hpop.trans hpop')
  | fault hpop' => exact .fault (hpop.trans hpop')
  | take hpop' rest => exact .take (hpop.trans hpop') rest

end Drains

/-! ## Single pops -/

theorem view_moveRead (r : Ring) (n : Nat) : (r.moveRead n).view = r.view := by
  rw [moveRead_eq]
  exact view_eq_of_byte rfl rfl rfl fun i hi => byte_storeRead r.image n hi

section Popping

variable {r : Ring}

theorem pop_eq_front (hnone : r.request = none) : r.pop = r.front := by
  simp only [pop, hnone]

theorem front_of_eq (heq : r.read = r.write) : r.front = (.ok none, r) := by
  rw [front, if_neg (by omega), if_pos heq]

theorem front_of_error {cause : Cause} (hlt : r.read < r.write)
    (h : r.view.classify r.read r.write = .error cause) : r.front = (.error cause.fault, r) := by
  rw [front, if_neg (by omega), if_neg (by omega), h]

theorem front_of_frame {n : Nat} (hlt : r.read < r.write)
    (h : r.view.classify r.read r.write = .ok (.frame n)) :
    r.front = (.ok (some (r.lease n)), r) := by
  rw [front, if_neg (by omega), if_neg (by omega), h]

/-- Padding in front of a record makes no difference but for the read counter: behind it a lap begins,
and no other padding stands there. -/
theorem front_of_padding {n : Nat} (hcap : IsPowerOfTwo r.capacity)
    (hroom : frameReserve r.limit ≤ r.capacity) (hlt : r.read < r.write)
    (h : r.view.classify r.read r.write = .ok (.padding n)) :
    r.front = (r.moveRead (r.read + n)).front := by
  have htwice : ∀ m, r.view.classify (r.read + n) r.write ≠ .ok (.padding m) :=
    View.not_padding_twice hcap hroom h
  have hread : (r.moveRead (r.read + n)).read = r.read + n := read_moveRead r _
  have hwrite : (r.moveRead (r.read + n)).write = r.write := write_moveRead r _
  have hview : (r.moveRead (r.read + n)).view = r.view := view_moveRead r _
  rw [front, if_neg (by omega), if_neg (by omega), h]
  dsimp only
  generalize r.moveRead (r.read + n) = moved at hread hwrite hview ⊢
  by_cases hstop : moved.read = moved.write
  · rw [if_pos hstop, front_of_eq hstop]
  · have hle := (View.classify_eq_padding h).2.2.2
    have hlt' : moved.read < moved.write := by omega
    rw [if_neg hstop]
    rcases hclassify : moved.view.classify moved.read moved.write with cause | m | m
    · rw [front_of_error hlt' hclassify]
    · rw [hview, hread, hwrite] at hclassify
      exact absurd hclassify (htwice m)
    · rw [front_of_frame hlt' hclassify]

end Popping

/-! ## Draining what a walk meets -/

theorem drains_of_meets {v : View} {stop position : Nat} {frames : List Frame}
    {defect : Option Cause} (h : v.Meets stop position frames defect)
    (hcap : IsPowerOfTwo v.capacity) (hroom : frameReserve v.limit ≤ v.capacity)
    {r : Ring} (hview : r.view = v) (hread : r.read = position) (hwrite : r.write = stop)
    (hnone : r.request = none) :
    Drains r (frames.map Frame.payload) (defect.map Cause.fault) := by
  induction h generalizing r with
  | done =>
    refine .done ((pop_eq_front hnone).trans (front_of_eq ?_))
    rw [hread, hwrite]
  | defect hlt hclassify =>
    rw [← hview, ← hread, ← hwrite] at hclassify
    exact .fault ((pop_eq_front hnone).trans (front_of_error (by omega) hclassify))
  | @padding position n frames defect hlt hclassify _ ih =>
    have hpiece := hclassify
    rw [← hview, ← hread, ← hwrite] at hpiece
    rw [← hview] at hcap hroom
    have hfront := front_of_padding hcap hroom (by omega) hpiece
    -- Draining goes on behind the padding, as if it had begun there.
    have hrest := ih ((view_moveRead r (r.read + n)).trans hview)
      ((read_moveRead r _).trans (congrArg (· + n) hread)) ((write_moveRead r _).trans hwrite)
      ((request_moveRead r _).trans hnone)
    refine hrest.of_pop_eq ?_
    rw [pop_eq_front hnone, pop_eq_front ((request_moveRead r _).trans hnone)]
    exact hfront
  | @frame position n frames defect hlt hclassify _ ih =>
    have hpiece := hclassify
    rw [← hview, ← hread, ← hwrite] at hpiece
    have hpayload : (r.lease n).payload = v.payload position n := by
      rw [← hview, ← hread]
      rfl
    have hnext : (r.lease n).next = position + (n + prefixLength) := by
      rw [← hread]
      rfl
    have hrest := ih ((view_moveRead r _).trans hview) ((read_moveRead r _).trans hnext)
      ((write_moveRead r _).trans hwrite) ((request_moveRead r _).trans hnone)
    have htaken := Drains.take
      ((pop_eq_front hnone).trans (front_of_frame (by omega) hpiece)) hrest
    rwa [hpayload] at htaken

/-- On any bytes, popping and releasing takes what a walk meets, and fails where the walk does. -/
theorem drains_backlog {r : Ring} (hcap : IsPowerOfTwo r.capacity)
    (hroom : frameReserve r.limit ≤ r.capacity) (hle : r.read ≤ r.write) (hnone : r.request = none) :
    Drains r r.backlog.payloads (r.backlog.defect.map Cause.fault) :=
  drains_of_meets (View.meets_walk hle) hcap hroom rfl rfl rfl hnone

/-! ## Opening files of any bytes -/

theorem length_of_mem_backlog {r : Ring} {payload : Bytes} (h : payload ∈ r.backlog.payloads) :
    0 < payload.length ∧ payload.length < r.limit := by
  rcases List.mem_map.1 h with ⟨f, hf, rfl⟩
  exact View.length_of_mem_walk hf

/-- The staged frames take up no more than what was unread. -/
theorem length_staged_le {r : Ring} (hle : r.read ≤ r.write) :
    (r.backlog.payloads.flatMap View.encodeFrame).length ≤ r.write - r.read := by
  have hlength : (r.backlog.payloads.flatMap View.encodeFrame).length + r.read ≤ r.write :=
    (View.meets_walk hle).length_flatMap_le
  omega

/-- What was laid out anew is walked over without a defect. -/
theorem drains_relaid {r : Ring} {growth : List Store} {capacity : Nat} {payloads : List Bytes}
    (hgrowth : r.backing.growth capacity = .ok growth) (hcap : IsPowerOfTwo capacity)
    (hlimit : r.limit < 2 ^ 32) (hle : capacity ≤ 2 ^ 62) (hnone : r.request = none)
    (hmem : ∀ payload ∈ payloads, 0 < payload.length ∧ payload.length < r.limit)
    (hroom : (payloads.flatMap View.encodeFrame).length + frameReserve r.limit ≤ capacity) :
    Drains (r.relaid growth capacity (payloads.flatMap View.encodeFrame)) payloads none := by
  have hlayout := r.layout_relaid hgrowth hcap hmem hroom
  rcases hlayout.walk_eq (Nat.le_of_lt hlimit) (by omega) with ⟨hpayloads, hdefect⟩
  have hdrains := drains_backlog
    (r := r.relaid growth capacity (payloads.flatMap View.encodeFrame)) hcap
    (by show frameReserve r.limit ≤ capacity; omega) (Nat.zero_le _) hnone
  rwa [show Trail.payloads (backlog _) = payloads from hpayloads,
    show (backlog _).defect = none from hdefect] at hdrains

/-- A file is made longer for what a walk meets, or not at all if the walk finds a defect. -/
theorem resize_walked {r : Ring} {path : String} {target : Nat} (hcap : IsPowerOfTwo r.capacity)
    (hlimit : r.limit < 2 ^ 32) (hle : r.read ≤ r.write)
    (hunread : r.write - r.read ≤ r.capacity) (hnone : r.request = none)
    (hfile : r.backing = .file path) (htarget : IsPowerOfTwo target) (hlarger : r.capacity < target)
    (hroomy : 2 * frameReserve r.limit ≤ target) (hlength : Header.size + target ≤ maxFileLength) :
    (∃ cause, r.backlog.defect = some cause ∧ r.resize target = (.error cause.fault, r)) ∨
    ∃ r', r.backlog.defect = none ∧ r.resize target = (.ok (), r') ∧
      Drains r' r.backlog.payloads none := by
  have hle62 := htarget.le_of_fileLength hlength
  have hgoal : nextPowerOfTwo (max target r.capacity) = target := by
    rw [Nat.max_eq_left (Nat.le_of_lt hlarger)]
    exact nextPowerOfTwo_of_isPowerOfTwo htarget
  have hgrowth : r.backing.growth target = .ok [.length (Header.size + target)] := by
    rw [hfile]
    exact if_neg (by omega)
  have hresize := r.resize_cases target
  rw [hgoal, hgrowth] at hresize
  cases hdefect : r.backlog.defect with
  | some cause =>
    -- The frames are staged before anything is stored.
    have hlinearize : r.linearize = .error cause := View.linearize_of_some hdefect
    have hstage : r.stage target = .error cause := by
      rw [stage, hlinearize]
    rw [hstage] at hresize
    rcases hresize with ⟨_, ⟨⟩, hresize⟩ | ⟨_, _, ⟨⟩, -⟩ | ⟨_, _, ⟨⟩, -⟩ | ⟨_, ⟨⟩, -⟩
    exact .inl ⟨cause, rfl, hresize⟩
  | none =>
    have hlinearize : r.linearize = .ok (r.backlog.payloads.flatMap View.encodeFrame) :=
      View.linearize_of_none hdefect
    have hstaged := length_staged_le hle
    have hmem : ∀ payload ∈ r.backlog.payloads,
        0 < payload.length ∧ payload.length < r.limit := fun _ => length_of_mem_backlog
    have hdouble := hcap.two_mul_le htarget hlarger
    generalize r.backlog.payloads = payloads at hlinearize hstaged hmem ⊢
    have hstage := stage_eq_ok.2 ⟨hlinearize, by omega, hstaged, checkCapacity_of_le r.backing hle62⟩
    rw [hstage] at hresize
    rcases hresize with ⟨_, ⟨⟩, -⟩ | ⟨_, _, -, -, ⟨⟩, -⟩ | ⟨_, _, ⟨⟩, -, ⟨⟩, hresize⟩ | ⟨_, -, hsame, -⟩
    · exact .inr ⟨_, rfl, hresize, drains_relaid hgrowth htarget hlimit hle62 hnone hmem (by omega)⟩
    · omega

/-- A file with a header in order is refused for what a walk finds wrong, or it opens to what a walk
meets.  The walk decides also where the frames have to be carried over to a longer file. -/
theorem attach_cases (path : String) {content : Image} {o : Options} {h : Header}
    {capacity : Nat} (hlimit : o.limit < 2 ^ 32) (hread : readHeader content = .ok (h, capacity))
    (hreach : o.WithinReach content) :
    (∃ cause, (ofHeader path content capacity o.limit h).backlog.defect = some cause ∧
      (attach path content o.requested o.limit).1 = .error cause.fault) ∨
    ∃ r, (attach path content o.requested o.limit).1 = .ok r ∧
      Drains r (ofHeader path content capacity o.limit h).backlog.payloads
        ((ofHeader path content capacity o.limit h).backlog.defect.map Cause.fault) := by
  rcases readHeader_eq_ok hread with ⟨hsize, hcap, -, -, hvalidate⟩
  rcases validate_eq_ok hvalidate with ⟨-, hle, hunread, -, -⟩
  rcases requested_spec o with ⟨hcap', -, hroomy⟩
  have hpos := hcap.pos
  have hsome : ¬ content.size = 0 := by omega
  simp only [attach, if_neg hsome, hread]
  by_cases hlarger : capacity < o.requested
  · rw [if_pos hlarger]
    rcases resize_walked (r := ofHeader path content capacity o.limit h) hcap hlimit hle hunread
      rfl rfl hcap' hlarger hroomy (hreach.length (by omega)) with
        ⟨cause, hdefect, hresize⟩ | ⟨r', hdefect, hresize, hdrains⟩
    · rw [hresize]
      exact .inl ⟨cause, hdefect, rfl⟩
    · rw [hresize, hdefect]
      exact .inr ⟨r', rfl, hdrains⟩
  · rw [if_neg hlarger]
    exact .inr ⟨_, rfl, drains_backlog hcap (by show frameReserve o.limit ≤ capacity; omega) hle rfl⟩

end Ring
end WriteBehind
