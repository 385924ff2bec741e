import WriteBehind.Proofs.Pipeline.Steps

/-!
# Rotation — no worker is passed over for ever

Without key affinity a record goes to the first free mailbox behind the one that got the last record.
Mailboxes are filled and freed between two searches in any way, and a mailbox that stays free gets its
record before the others have had two each.

* `Dispatcher.Between d d'`: what may happen between two searches;
* `Dispatcher.Delivers d l w d'`: a search finds the mailbox of worker `w`, and the record goes there;
* `Dispatcher.Turns d turns last`: one search after the other, each with its delivery;
* `Dispatcher.Due m i d`: worker `i` is among the first `m` that the next search asks;
* `Dispatcher.Delivers.due`: a delivery to somebody else brings a free worker nearer;
* `Dispatcher.picked_of_turns`: as many deliveries as there are workers leave out no free one;
* `Pipeline.between_of_through`: all steps but that of placing a record fall between two searches.
-/

namespace WriteBehind
namespace Dispatcher

/-! ## Searches and deliveries -/

/-- What may happen between two searches.  Any mailbox may be filled or freed, and everything else may
change, except for the number of mailboxes and the place where the next search starts. -/
structure Between (d d' : Dispatcher) : Prop where
  next : d'.next = d.next
  length : d'.mailboxes.length = d.mailboxes.length

/-- A search finds the mailbox of worker `w`, and the record on loan is delivered there. -/
structure Delivers (d : Dispatcher) (l : Ring.Lease) (w : Nat) (d' : Dispatcher) : Prop where
  scan : d.candidate? none = some w
  place : d.place l none = (some (.ok ()), d')

/-- Searches that find a mailbox, one after the other.  For each of them there is the dispatcher as the
search finds it, and the worker who gets the record. -/
inductive Turns : Dispatcher → List (Dispatcher × Nat) → Dispatcher → Prop
  | nil (d : Dispatcher) : Turns d [] d
  | cons {d seen after last : Dispatcher} {l : Ring.Lease} {w : Nat} {turns : List (Dispatcher × Nat)}
      (hbetween : d.Between seen) (hdelivers : seen.Delivers l w after)
      (rest : Turns after turns last) : Turns d ((seen, w) :: turns) last

/-- Every search up to the one that picks worker `i` finds its mailbox free. -/
def FreeUntilPicked (i : Nat) : List (Dispatcher × Nat) → Prop
  | [] => True
  | (d, w) :: turns => d.isFree i = true ∧ (w = i ∨ FreeUntilPicked i turns)

/-- Worker `i` is among the first `m` that the next search asks. -/
def Due (m i : Nat) (d : Dispatcher) : Prop :=
  ∃ k < m, (d.next + k) % d.mailboxes.length = i

variable {d d' : Dispatcher} {l : Ring.Lease} {w i m : Nat}

/-! ## One search -/

/-- All that were asked before the one that is found are occupied. -/
theorem busy_before_scan (h : d.candidate? none = some w) :
    ∃ k, (d.next + k) % d.mailboxes.length = w ∧
      ∀ j < k, d.isFree ((d.next + j) % d.mailboxes.length) = false := by
  rcases List.find?_eq_some_iff_getElem.1 h with ⟨-, k, hk, hw, hbefore⟩
  refine ⟨k, ?_, ?_⟩
  · simpa only [lap, List.getElem_map, List.getElem_range] using hw
  · intro j hj
    simpa only [lap, List.getElem_map, List.getElem_range, Bool.not_eq_true'] using hbefore j hj

theorem scan_eq_none_iff :
    d.candidate? none = none ↔ ∀ i < d.mailboxes.length, d.isFree i = false := by
  rw [candidate?_eq_none_iff]
  refine ⟨fun h i hi => h i ⟨hi, ?_⟩, fun h i hi => h i hi.1⟩
  rintro _ ⟨⟩

theorem place_of_scan_eq_none (h : d.candidate? none = none) (l : Ring.Lease) :
    d.place l none = (none, d) := by
  rw [Dispatcher.place, h]

/-- The next search starts behind the mailbox that was filled. -/
theorem Delivers.next_eq (h : d.Delivers l w d') :
    d'.next = (w + 1) % d.mailboxes.length ∧ d'.mailboxes.length = d.mailboxes.length := by
  have hplace := h.place
  simp only [Dispatcher.place, h.scan, Option.isNone_none, if_true] at hplace
  split at hplace
  · cases hplace
  · cases hplace
    exact ⟨rfl, List.length_set ..⟩

/-! ## Coming nearer -/

/-- A search of one lap asks everybody. -/
theorem due_of_lt (hi : i < d.mailboxes.length) : d.Due d.mailboxes.length i := by
  have hasked : i ∈ lap d.next d.mailboxes.length := mem_lap hi
  rcases List.mem_map.1 hasked with ⟨k, hk, hmod⟩
  exact ⟨k, List.mem_range.1 hk, hmod⟩

theorem Due.between (h : d.Due m i) (hbetween : d.Between d') : d'.Due m i := by
  rw [Due, hbetween.next, hbetween.length]
  exact h

/-- A free worker who is not picked is asked after the one who is.  Behind that one the next search
starts, so there is one less to be asked before. -/
theorem Delivers.due (h : d.Delivers l w d') (hdue : d.Due (m + 1) i) (hfree : d.isFree i = true)
    (hother : w ≠ i) : d'.Due m i := by
  rcases h.next_eq with ⟨hnext, hlength⟩
  rcases hdue with ⟨far, hfar, hi⟩
  rcases busy_before_scan h.scan with ⟨k, hw, hbefore⟩
  have hlt : k < far := by
    rcases Nat.lt_trichotomy far k with hless | rfl | hmore
    · -- Asked before `w`, worker `i` would have been occupied.
      have hbusy := hbefore far hless
      rw [hi, hfree] at hbusy
      cases hbusy
    · exact absurd (hw.symm.trans hi) hother
    · exact hmore
  refine ⟨far - (k + 1), by omega, ?_⟩
  calc (d'.next + (far - (k + 1))) % d'.mailboxes.length
      = ((w + 1) % d.mailboxes.length + (far - (k + 1))) % d.mailboxes.length := by
        rw [hnext, hlength]
    _ = ((d.next + k) % d.mailboxes.length + (1 + (far - (k + 1)))) % d.mailboxes.length := by
        rw [Nat.mod_add_mod, hw, Nat.add_assoc]
    _ = (d.next + (k + (1 + (far - (k + 1))))) % d.mailboxes.length := by
        rw [Nat.mod_add_mod, Nat.add_assoc]
    _ = (d.next + far) % d.mailboxes.length := by
        rw [← Nat.add_assoc k 1, Nat.add_sub_cancel' hlt]
    _ = i := hi

/-- A worker who is among the next `m` and stays free is picked by one of `m` searches. -/
theorem Turns.picked_of_due {turns : List (Dispatcher × Nat)} {last : Dispatcher}
    (h : d.Turns turns last) (hdue : d.Due turns.length i) (hfree : FreeUntilPicked i turns) :
    i ∈ turns.map Prod.snd := by
  induction h with
  | nil =>
    rcases hdue with ⟨k, hk, -⟩
    exact absurd hk (Nat.not_lt_zero k)
  | @cons d seen after last l w turns hbetween hdelivers rest ih =>
    rw [List.map_cons, List.mem_cons]
    by_cases hw : w = i
    · exact .inl hw.symm
    · have hdue' : after.Due turns.length i :=
        hdelivers.due (hdue.between hbetween) hfree.1 hw
      exact .inr (ih hdue' (hfree.2.resolve_left hw))

/-! ## Every worker has a turn -/

/-- A search finds a free mailbox or, with all of them occupied, none, and starts again at the same
place then.  Of as many searches in a row as there are mailboxes, each with its delivery, one picks the
worker whose mailbox is free all along, whatever happens to the others meanwhile. -/
theorem picked_of_turns (d : Dispatcher) :
    (∀ w, d.candidate? none = some w → d.isFree w = true) ∧
    (d.candidate? none = none ↔ ∀ i < d.mailboxes.length, d.isFree i = false) ∧
    (d.candidate? none = none → ∀ l, d.place l none = (none, d)) ∧
    ∀ turns last, d.Turns turns last → turns.length = d.mailboxes.length →
      ∀ i < d.mailboxes.length, FreeUntilPicked i turns → i ∈ turns.map Prod.snd := by
  refine ⟨fun _ => isFree_of_candidate?, scan_eq_none_iff, place_of_scan_eq_none, ?_⟩
  intro turns last hturns hlength i hi hfree
  exact hturns.picked_of_due (hlength ▸ due_of_lt hi) hfree

/-- Three free mailboxes, of which a search asks the second one first. -/
def threeFree : Dispatcher where
  channel := { ring := .create 64 16 }
  mailboxes := List.replicate 3 (.ofSize 16)
  next := 1

/-- A record of one byte on loan. -/
def oneByte : Ring.Lease := ⟨0, [0], 5⟩

/-- The dispatcher once it has placed the record. -/
def afterPlace (d : Dispatcher) : Dispatcher := (d.place oneByte none).2

theorem delivers_afterPlace (hscan : d.candidate? none = some w)
    (hplace : (d.place oneByte none).1.bind Except.toOption = some ()) :
    d.Delivers oneByte w d.afterPlace := by
  rcases Option.bind_eq_some_iff.1 hplace with ⟨_ | _, hresult, hok⟩
  · cases hok
  · exact ⟨hscan, Prod.ext hresult rfl⟩

/-- The dispatcher once a worker has freed its mailbox. -/
def afterFree (d : Dispatcher) (w : Nat) : Dispatcher :=
  { d with mailboxes := d.mailboxes.modify w Mailbox.clear }

/-- Mailbox 1 is free again when the third search starts, and it is the turn of mailbox 0. -/
theorem picked_third :
    ∃ turns last, threeFree.Turns turns last ∧ turns.length = threeFree.mailboxes.length ∧
      turns.map Prod.snd = [1, 2, 0] ∧ FreeUntilPicked 0 turns ∧ 0 ∈ turns.map Prod.snd ∧
      ∃ seen, turns.getLast? = some (seen, 0) ∧ seen.isFree 1 = true := by
  let second := threeFree.afterPlace
  let third := second.afterPlace.afterFree 1
  have hstays : ∀ d : Dispatcher, d.Between d := fun d => ⟨rfl, rfl⟩
  have hfreed : second.afterPlace.Between third := ⟨rfl, List.length_modify ..⟩
  have hturns : threeFree.Turns [(threeFree, 1), (second, 2), (third, 0)] third.afterPlace := by
    refine .cons (hstays _) (delivers_afterPlace (by decide +kernel) (by decide +kernel)) ?_
    refine .cons (hstays _) (delivers_afterPlace (by decide +kernel) (by decide +kernel)) ?_
    exact .cons hfreed (delivers_afterPlace (by decide +kernel) (by decide +kernel)) (.nil _)
  have hfree : FreeUntilPicked 0 [(threeFree, 1), (second, 2), (third, 0)] :=
    ⟨by decide +kernel, .inr ⟨by decide +kernel, .inr ⟨by decide +kernel, .inl rfl⟩⟩⟩
  exact ⟨_, _, hturns, rfl, rfl, hfree,
    (picked_of_turns threeFree).2.2.2 _ _ hturns rfl 0 (by decide) hfree, third, rfl,
    by decide +kernel⟩

end Dispatcher

/-! ## In the pipeline -/

namespace Pipeline

variable {p q : Pipeline} {a : Action}

theorem next_look (d : Dispatcher) : d.look.2.next = d.next := by
  rcases d.look_cases with ⟨_, _, hlook⟩ | ⟨_, hlook⟩ | ⟨_, _, _, _, hlook⟩ | ⟨_, _, _, _, hlook⟩ <;>
    rw [hlook] <;> rfl

theorem next_enqueue (p : Pipeline) (command : Command) (timestamp : Nat) (args : List Bytes) :
    (p.enqueue command timestamp args).2.dispatcher.next = p.dispatcher.next := by
  rcases p.exists_enqueue command timestamp args with ⟨c, scratch, henqueue⟩
  rw [henqueue]
  rfl

theorem between_release (d : Dispatcher) (l : Ring.Lease) : d.Between (d.release l) := by
  rw [Dispatcher.release, Dispatcher.setRing]
  exact ⟨rfl, rfl⟩

theorem Does.between (h : p.Does a q) (hother : a ≠ .place) :
    p.dispatcher.Between q.dispatcher := by
  cases h with
  | place => exact absurd rfl hother
  | enqueue command timestamp args _ =>
    exact ⟨next_enqueue p command timestamp args,
      congrArg List.length (mailboxes_enqueue p command timestamp args)⟩
  | look | lookFails | lookPanics | lookAborts =>
    exact ⟨next_look p.dispatcher, congrArg List.length (mailboxes_look p.dispatcher)⟩
  | @release l => exact between_release p.dispatcher l
  | leave => exact ⟨rfl, List.length_map ..⟩
  | serveAborts | free => exact ⟨rfl, List.length_modify ..⟩
  | resume | raiseStop | raiseWorkersStop | goOn | wait | giveUp | serve | findEmpty | checkStop
  | readRing | readMailbox => exact ⟨rfl, rfl⟩

/-- No step but that of placing a record moves the place where the next search starts. -/
theorem between_of_through (steps : Through (· ≠ .place) p q) :
    p.dispatcher.Between q.dispatcher := by
  refine steps.keeps (I := fun q => p.dispatcher.Between q.dispatcher) ⟨rfl, rfl⟩ ?_
  intro q q' a hother hbetween hact
  have hstep := (does_of_act? hact).2.between hother
  exact ⟨hstep.next.trans hbetween.next, hstep.length.trans hbetween.length⟩

end Pipeline
end WriteBehind
