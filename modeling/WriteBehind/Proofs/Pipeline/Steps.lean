import WriteBehind.Pipeline.State
import WriteBehind.Proofs.Ring.Calls

/-!
# Steps — what each step of the pipeline leads to

`Does p a q` says case by case when a step is possible and what it leads to.

* `does_of_act?` is the way from `Pipeline.act?` to these cases, and `Dispatcher.look_cases` says what a look
  comes to;
* `Does.inbox` says which steps leave a record in its mailbox;
* `Through allowed p q`: steps of some kinds lead from one state to another;
* `waiting_of_others`: the steps that are not the caller's leave the call that waits.
-/

namespace WriteBehind
namespace Dispatcher

/-- What a look comes to.  The pop fails or finds nothing, or the record that it finds is given up since its
key cannot be read, or is taken in hand. -/
theorem look_cases (d : Dispatcher) :
    (∃ fault, d.ring.pop.1 = .error fault ∧
      d.look = (.error fault, { d.setRing d.ring.pop.2 with hand := .empty })) ∨
    (d.ring.pop.1 = .ok none ∧
      d.look = (.ok (), { (d.setRing d.ring.pop.2).tick with hand := .empty })) ∨
    (∃ l cause, d.ring.pop.1 = .ok (some l) ∧ d.home? l.payload = .error cause ∧
      d.look = (.error cause.fault, { d.setRing (d.ring.pop.2.release l) with hand := .empty })) ∨
    (∃ l home, d.ring.pop.1 = .ok (some l) ∧ d.home? l.payload = .ok home ∧
      d.look = (.ok (), { d.setRing d.ring.pop.2 with hand := .holding l home })) := by
  rcases hpop : d.ring.pop with ⟨fault | (_ | l), r⟩
  · exact .inl ⟨fault, rfl, by simp only [look, hpop]⟩
  · exact .inr (.inl ⟨rfl, by simp only [look, hpop]⟩)
  · cases hhome : d.home? l.payload with
    | error cause =>
      exact .inr (.inr (.inl ⟨l, cause, rfl, hhome, by simp only [look, hpop, hhome]⟩))
    | ok home =>
      exact .inr (.inr (.inr ⟨l, home, rfl, hhome, by simp only [look, hpop, hhome]⟩))

end Dispatcher

namespace Pipeline

/-- A step leads from `p` to another state. -/
inductive Does (p : Pipeline) : Action → Pipeline → Prop
  | enqueue (command : Command) (timestamp : Nat) (args : List Bytes)
      (hnone : p.channel.waiting.isNone) :
      Does p (.enqueue command timestamp args) (p.enqueue command timestamp args).2
  | resume (hwaiting : p.channel.waiting.isSome) :
      Does p .resume (p.setChannel p.channel.resume.2)
  | raiseStop : Does p .raiseStop { p with stop := true }
  | raiseWorkersStop (hgone : p.dispatcher.hand = .gone) :
      Does p .raiseWorkersStop { p with workersStop := true }
  | goOn (hempty : p.dispatcher.hand = .empty) (hstop : p.stop = false) :
      Does p .goOn { p with dispatcher := { p.dispatcher with hand := .reaching } }
  | look (hreaching : p.dispatcher.hand = .reaching) (hlook : p.dispatcher.look.1 = .ok ()) :
      Does p .look { p with dispatcher := p.dispatcher.look.2 }
  | lookFails {fault : Fault} (hreaching : p.dispatcher.hand = .reaching)
      (hlook : p.dispatcher.look.1 = .error fault) (hkind : fault.kind ≠ .corrupt)
      (hgoes : fault.kind ≠ .panic) :
      Does p .look { p with dispatcher := p.dispatcher.look.2 }
  /-- A counter takes the look past the greatest word, and the dispatcher's thread ends over it. -/
  | lookPanics {fault : Fault} (hreaching : p.dispatcher.hand = .reaching)
      (hlook : p.dispatcher.look.1 = .error fault) (hkind : fault.kind = .panic) :
      Does p .look { p with dispatcher := p.dispatcher.look.2.depart }
  /-- The ring is corrupt, and the process is given up. -/
  | lookAborts {fault : Fault} (hreaching : p.dispatcher.hand = .reaching)
      (hlook : p.dispatcher.look.1 = .error fault) (hkind : fault.kind = .corrupt) :
      Does p .look ({ p with dispatcher := p.dispatcher.look.2 }.abort fault.cause)
  | place {l : Ring.Lease} {home : Option Nat} {result : Except Fault Unit}
      (hholding : p.dispatcher.hand = .holding l home)
      (hplace : (p.dispatcher.place l home).1 = some result) :
      Does p .place { p with dispatcher := (p.dispatcher.place l home).2 }
  | wait {l : Ring.Lease} {home : Option Nat} (hholding : p.dispatcher.hand = .holding l home)
      (hstop : p.stop = false) (hnone : p.dispatcher.candidate? home = none) :
      Does p .wait { p with dispatcher := p.dispatcher.tick }
  | release {l : Ring.Lease} {worker : Nat} (hplaced : p.dispatcher.hand = .placed l worker) :
      Does p .release { p with dispatcher := p.dispatcher.release l }
  | giveUp {l : Ring.Lease} {home : Option Nat} (hholding : p.dispatcher.hand = .holding l home)
      (hstop : p.stop = true) (hnone : p.dispatcher.candidate? home = none) :
      Does p .giveUp { p with dispatcher := p.dispatcher.giveUp }
  | leave (hempty : p.dispatcher.hand = .empty) (hstop : p.stop = true) :
      Does p .leave { p with dispatcher := p.dispatcher.leave }
  | serve {i : Nat} {accepted : Bool} {record : Bytes} {job : Job}
      (hready : p.workers[i]? = some .ready) (hrecord : p.inbox? i = some record)
      (hunpack : Record.unpack record = .ok job) :
      Does p (.serve i accepted)
        { p.setWorker i .served with ledger := p.ledger.add ⟨i, job, accepted⟩ }
  /-- The record cannot be decoded, and the process is given up. -/
  | serveAborts {i : Nat} {accepted : Bool} {record : Bytes} {cause : Cause}
      (hready : p.workers[i]? = some .ready) (hrecord : p.inbox? i = some record)
      (hunpack : Record.unpack record = .error cause) :
      Does p (.serve i accepted) ((p.clearMailbox i).abort cause)
  | free {i : Nat} (hserved : p.workers[i]? = some .served) :
      Does p (.free i) ((p.clearMailbox i).setWorker i .ready)
  | findEmpty {i : Nat} (hready : p.workers[i]? = some .ready) (hempty : p.inbox? i = none) :
      Does p (.findEmpty i) (p.setWorker i .foundEmpty)
  | checkStop {i : Nat} (hfound : p.workers[i]? = some .foundEmpty) :
      Does p (.checkStop i) (p.setWorker i (if p.workersStop then .gone else .ready))
  | readRing (w : Watch) : Does p .readRing { p with watch := w }
  | readMailbox (w : Watch) : Does p .readMailbox { p with watch := w }

variable {p q : Pipeline} {a : Action}

theorem does_of_call? (hact : p.call? a = some q) : p.Does a q := by
  cases a with
  | enqueue command timestamp args =>
    simp only [call?] at hact
    split at hact
    · rename_i hnone
      cases hact
      exact .enqueue command timestamp args hnone
    · cases hact
  | resume =>
    simp only [call?] at hact
    split at hact
    · rename_i hwaiting
      cases hact
      exact .resume hwaiting.1
    · cases hact
  | raiseStop =>
    cases hact
    exact .raiseStop
  | raiseWorkersStop =>
    simp only [call?] at hact
    split at hact
    · rename_i hgone
      cases hact
      exact .raiseWorkersStop hgone
    · cases hact
  | _ => cases hact

theorem does_of_dispatch? (hact : p.dispatch? a = some q) : p.Does a q := by
  cases a with
  | goOn =>
    simp only [dispatch?] at hact
    split at hact
    · rename_i hempty
      cases hact
      exact .goOn hempty.1 (Bool.not_eq_true _ ▸ hempty.2)
    · cases hact
  | look =>
    simp only [dispatch?] at hact
    split at hact
    · rename_i hreaching
      split at hact
      · -- A fault ends the look, or the dispatcher, or gives the process up.
        rename_i fault d hlook
        obtain rfl : p.dispatcher.look.2 = d := by rw [hlook]
        have hfault : p.dispatcher.look.1 = .error fault := by rw [hlook]
        split at hact
        · rename_i hkind
          cases hact
          exact .lookAborts hreaching hfault hkind
        · rename_i hkind
          split at hact
          · rename_i hpanic
            cases hact
            exact .lookPanics hreaching hfault hpanic
          · rename_i hgoes
            cases hact
            exact .lookFails hreaching hfault hkind hgoes
      · rename_i d hlook
        rw [Option.some.injEq] at hact
        obtain rfl : p.dispatcher.look.2 = d := by rw [hlook]
        subst hact
        exact .look hreaching (by rw [hlook])
    · cases hact
  | place =>
    simp only [dispatch?] at hact
    split at hact
    · rename_i l home hholding
      split at hact
      · cases hact
      · rename_i result d hplace
        rw [Option.some.injEq] at hact
        obtain rfl : (p.dispatcher.place l home).2 = d := by rw [hplace]
        subst hact
        exact .place hholding (by rw [hplace])
    · cases hact
  | wait =>
    simp only [dispatch?] at hact
    split at hact
    · rename_i l home hholding
      split at hact
      · rename_i hwaits
        cases hact
        exact .wait hholding (Bool.not_eq_true _ ▸ hwaits.1) hwaits.2
      · cases hact
    · cases hact
  | release =>
    simp only [dispatch?] at hact
    split at hact
    · rename_i l worker hplaced
      rw [Option.some.injEq] at hact
      subst hact
      exact .release hplaced
    · cases hact
  | giveUp =>
    simp only [dispatch?] at hact
    split at hact
    · rename_i l home hholding
      split at hact
      · rename_i hstop
        cases hact
        exact .giveUp hholding hstop.1 hstop.2
      · cases hact
    · cases hact
  | leave =>
    simp only [dispatch?] at hact
    split at hact
    · rename_i hempty
      cases hact
      exact .leave hempty.1 hempty.2
    · cases hact
  | _ => cases hact

theorem does_of_work? (hact : p.work? a = some q) : p.Does a q := by
  cases a with
  | serve i accepted =>
    simp only [work?] at hact
    split at hact
    · rename_i record hready hrecord
      cases hunpack : Record.unpack record with
      | error cause =>
        simp only [Worker.serve, hunpack, Option.some.injEq] at hact
        subst hact
        exact .serveAborts hready hrecord hunpack
      | ok job =>
        simp only [Worker.serve, hunpack, Option.some.injEq] at hact
        subst hact
        exact .serve hready hrecord hunpack
    · cases hact
  | free i =>
    simp only [work?] at hact
    split at hact
    · rename_i hserved
      cases hact
      exact .free hserved
    · cases hact
  | findEmpty i =>
    simp only [work?] at hact
    split at hact
    · rename_i hready
      cases hact
      exact .findEmpty hready.1 hready.2
    · cases hact
  | checkStop i =>
    simp only [work?] at hact
    split at hact
    · rename_i hfound
      cases hact
      exact .checkStop hfound
    · cases hact
  | _ => cases hact

theorem does_of_watch? (hact : p.watch? a = some q) : p.Does a q := by
  cases a with
  | readRing =>
    simp only [watch?] at hact
    split at hact <;> cases hact <;> exact .readRing _
  | readMailbox =>
    simp only [watch?] at hact
    split at hact
    · split at hact <;> cases hact <;> exact .readMailbox _
    · cases hact
  | _ => cases hact

/-- Steps are possible while the process was not given up, and do what `Does` says. -/
theorem does_of_act? (hact : p.act? a = some q) : p.aborted = none ∧ p.Does a q := by
  simp only [act?] at hact
  split at hact
  · cases hact
  · rename_i hrunning
    refine ⟨Option.not_isSome_iff_eq_none.1 hrunning, ?_⟩
    cases a with
    | enqueue | resume | raiseStop | raiseWorkersStop => exact does_of_call? hact
    | goOn | look | place | wait | release | giveUp | leave => exact does_of_dispatch? hact
    | serve | free | findEmpty | checkStop => exact does_of_work? hact
    | readRing | readMailbox => exact does_of_watch? hact

/-! ## Mailboxes that have a record -/

/-- An enqueue changes nothing but the channel and the scratch buffer. -/
theorem exists_enqueue (p : Pipeline) (command : Command) (timestamp : Nat) (args : List Bytes) :
    ∃ c scratch, (p.enqueue command timestamp args).2 = { p.setChannel c with scratch } := by
  simp only [enqueue]
  split
  · exact ⟨p.channel, _, rfl⟩
  · exact ⟨_, _, rfl⟩

theorem mailboxes_enqueue (p : Pipeline) (command : Command) (timestamp : Nat) (args : List Bytes) :
    (p.enqueue command timestamp args).2.dispatcher.mailboxes = p.dispatcher.mailboxes := by
  rcases p.exists_enqueue command timestamp args with ⟨c, scratch, henqueue⟩
  rw [henqueue]
  rfl

theorem mailboxes_look (d : Dispatcher) : d.look.2.mailboxes = d.mailboxes := by
  rcases d.look_cases with ⟨_, _, hlook⟩ | ⟨_, hlook⟩ | ⟨_, _, _, _, hlook⟩ | ⟨_, _, _, _, hlook⟩ <;>
    rw [hlook] <;> rfl

/-- A look that fails leaves nothing in hand. -/
theorem hand_look_of_error {d : Dispatcher} {fault : Fault} (h : d.look.1 = .error fault) :
    d.look.2.hand = .empty := by
  rcases d.look_cases with ⟨_, _, hlook⟩ | ⟨_, hlook⟩ | ⟨_, _, _, _, hlook⟩ | ⟨_, _, _, _, hlook⟩ <;>
    rw [hlook] at h ⊢
  cases h

theorem mailboxes_release (d : Dispatcher) (l : Ring.Lease) :
    (d.release l).mailboxes = d.mailboxes := by
  rw [Dispatcher.release, Dispatcher.setRing]

theorem contents?_place (d : Dispatcher) (l : Ring.Lease) (home : Option Nat) {i : Nat}
    {record : Bytes} (hrecord : d.mailboxes[i]?.bind Mailbox.contents? = some record) :
    (d.place l home).2.mailboxes[i]?.bind Mailbox.contents? = some record := by
  cases hcandidate : d.candidate? home with
  | none =>
    simp only [Dispatcher.place, hcandidate]
    exact hrecord
  | some w =>
    have hfilled : ∀ payload m, (d.mailboxes[w]?.bind fun m => m.deliver? payload) = some m →
        (d.mailboxes.set w m)[i]?.bind Mailbox.contents? = some record := by
      intro payload m hdeliver
      rcases Option.bind_eq_some_iff.1 hdeliver with ⟨old, hold, hdeliver⟩
      -- A mailbox that has a record refuses another one.
      have hne : w ≠ i := by
        rintro rfl
        rw [hold, Option.bind_some] at hrecord
        simp only [Mailbox.contents?] at hrecord
        simp only [Mailbox.deliver?] at hdeliver
        split at hrecord
        · cases hrecord
        · rename_i hbusy
          rw [if_pos (.inl hbusy)] at hdeliver
          cases hdeliver
      rw [List.getElem?_set_ne hne]
      exact hrecord
    cases home with
    | none =>
      simp only [Dispatcher.place, hcandidate, Option.isNone_none, if_true]
      split
      · exact hrecord
      · rename_i m hdeliver
        exact hfilled _ m hdeliver
    | some home =>
      simp only [Dispatcher.place, hcandidate, Option.isNone_some, Bool.false_eq_true, if_false]
      split
      · exact hrecord
      · rename_i m hdeliver
        exact hfilled _ m hdeliver

theorem contents?_modify (mailboxes : List Mailbox) {i k : Nat} (hk : k ≠ i) :
    (mailboxes.modify k Mailbox.clear)[i]?.bind Mailbox.contents? =
      mailboxes[i]?.bind Mailbox.contents? := by
  rw [List.getElem?_modify]
  simp only [if_neg hk, Option.map_eq_map, Option.map_id_fun', id_eq]

/-- A record stays in its mailbox until the worker frees it after a call of the store, or finds that
it cannot be decoded. -/
theorem Does.inbox (h : p.Does a q) {i : Nat} {record : Bytes}
    (hrecord : p.inbox? i = some record) :
    q.inbox? i = some record ∨ a = .free i ∨ ∃ cause, Record.unpack record = .error cause := by
  have hkept : ∀ {d : Dispatcher}, d.mailboxes = p.dispatcher.mailboxes →
      d.mailboxes[i]?.bind Mailbox.contents? = some record := by
    intro d hmailboxes
    rw [hmailboxes]
    exact hrecord
  cases h with
  | enqueue command timestamp args _ =>
    exact .inl (hkept (mailboxes_enqueue p command timestamp args))
  | look | lookFails | lookPanics | lookAborts => exact .inl (hkept (mailboxes_look p.dispatcher))
  | @place l home _ _ _ => exact .inl (contents?_place p.dispatcher l home hrecord)
  | @release l _ _ => exact .inl (hkept (mailboxes_release p.dispatcher l))
  | leave =>
    -- A mailbox that is nudged has what it had.
    refine .inl ?_
    show (p.dispatcher.mailboxes.map Mailbox.nudge)[i]?.bind Mailbox.contents? = some record
    rw [List.getElem?_map]
    rw [inbox?] at hrecord
    cases hm : p.dispatcher.mailboxes[i]? with
    | none =>
      rw [hm] at hrecord
      cases hrecord
    | some m =>
      rw [hm] at hrecord
      exact hrecord
  | @serveAborts k _ other cause _ hother hunpack =>
    by_cases hk : k = i
    · -- This is the record that cannot be decoded.
      subst hk
      cases hrecord.symm.trans hother
      exact .inr (.inr ⟨cause, hunpack⟩)
    · exact .inl ((contents?_modify p.dispatcher.mailboxes hk).trans hrecord)
  | @free k _ =>
    by_cases hk : k = i
    · exact .inr (.inl (congrArg Action.free hk))
    · exact .inl ((contents?_modify p.dispatcher.mailboxes hk).trans hrecord)
  | resume | raiseStop | raiseWorkersStop | goOn | wait | giveUp | serve | findEmpty | checkStop
  | readRing | readMailbox => exact .inl hrecord

/-! ## The ring -/

/-- Packing is refused, and the ring stays as it is, or a record is pushed. -/
theorem ring_enqueue (p : Pipeline) (command : Command) (timestamp : Nat) (args : List Bytes) :
    (p.enqueue command timestamp args).2.ring = p.ring ∨
      ∃ record, (p.enqueue command timestamp args).2.ring = (p.ring.push record).2 := by
  simp only [enqueue]
  split
  · exact .inl rfl
  · exact .inr ⟨_, Ring.Channel.settle_ring _ _⟩

/-- A look pops the ring, and gives up a record whose key cannot be read. -/
theorem ring_look (d : Dispatcher) :
    d.look.2.ring = d.ring.pop.2 ∨
      ∃ l, d.ring.pop.1 = .ok (some l) ∧ d.look.2.ring = d.ring.pop.2.moveRead l.next := by
  rcases d.look_cases with ⟨_, _, hlook⟩ | ⟨_, hlook⟩ | ⟨l, _, hpop, _, hlook⟩ | ⟨_, _, _, _, hlook⟩ <;>
    rw [hlook]
  · exact .inl rfl
  · exact .inl rfl
  · exact .inr ⟨l, hpop, rfl⟩
  · exact .inl rfl

theorem channel_place (d : Dispatcher) (l : Ring.Lease) (home : Option Nat) :
    (d.place l home).2.channel = d.channel := by
  simp only [Dispatcher.place]
  split
  · rfl
  · split <;> split <;> rfl

theorem ring_place (d : Dispatcher) (l : Ring.Lease) (home : Option Nat) :
    (d.place l home).2.ring = d.ring :=
  congrArg Ring.Channel.ring (channel_place d l home)

/-! ## Steps of some kinds -/

/-- Steps that are `allowed` lead from `p` on. -/
inductive Through (allowed : Action → Prop) (p : Pipeline) : Pipeline → Prop
  | refl : Through allowed p p
  | step {q q' : Pipeline} {a : Action} (steps : Through allowed p q) (hallowed : allowed a)
      (hact : q.act? a = some q') : Through allowed p q'

namespace Through

variable {allowed : Action → Prop} {p₀ : Pipeline}

theorem keeps {I : Pipeline → Prop} (steps : Through allowed p q) (hstart : I p)
    (hstep : ∀ {p q a}, allowed a → I p → p.act? a = some q → I q) : I q := by
  induction steps with
  | refl => exact hstart
  | step _ hallowed hact ih => exact hstep hallowed ih hact

theorem run (steps : Through allowed p₀ p) {as : List Action} (hallowed : ∀ a ∈ as, allowed a)
    (h : p.run? as = some q) : Through allowed p₀ q := by
  induction as generalizing p with
  | nil =>
    cases h
    exact steps
  | cons a as ih =>
    simp only [run?, Option.bind_eq_some_iff] at h
    rcases h with ⟨p', hact, hrest⟩
    exact ih (steps.step (hallowed a List.mem_cons_self) hact)
      (fun b hb => hallowed b (List.mem_cons_of_mem a hb)) hrest

end Through

/-- What holds at the start and is kept by every step holds of all that is reached. -/
theorem Reachable.keeps {start : Pipeline} {I : Pipeline → Prop} (reached : Reachable start p)
    (hstart : I start) (hstep : ∀ {p q a}, I p → p.act? a = some q → I q) : I p := by
  induction reached with
  | refl => exact hstart
  | step _ hact ih =>
    rcases hact with ⟨a, hact⟩
    exact hstep ih hact

theorem Reachable.run {start : Pipeline} (reached : Reachable start p) {as : List Action}
    (h : p.run? as = some q) : Reachable start q := by
  induction as generalizing p with
  | nil =>
    cases h
    exact reached
  | cons a as ih =>
    simp only [run?, Option.bind_eq_some_iff] at h
    rcases h with ⟨p', hact, hrest⟩
    exact ih (reached.step ⟨a, hact⟩) hrest

/-! ## What others leave to the caller -/

theorem waiting_look (d : Dispatcher) : d.look.2.channel.waiting = d.channel.waiting := by
  rcases d.look_cases with ⟨_, _, hlook⟩ | ⟨_, hlook⟩ | ⟨_, _, _, _, hlook⟩ | ⟨_, _, _, _, hlook⟩ <;>
    rw [hlook] <;> rfl

theorem waiting_release (d : Dispatcher) (l : Ring.Lease) :
    (d.release l).channel.waiting = d.channel.waiting := by
  rw [Dispatcher.release, Dispatcher.setRing]

/-- The steps of a call that is made of the pipeline. -/
def Action.isCall : Action → Bool
  | .enqueue .. | .resume => true
  | _ => false

/-- No step of others touches the call that waits. -/
theorem waiting_of_others (hother : a.isCall = false) (hact : p.act? a = some q) :
    q.channel.waiting = p.channel.waiting := by
  cases (does_of_act? hact).2 with
  | enqueue | resume => cases hother
  | look | lookFails | lookPanics | lookAborts => exact waiting_look p.dispatcher
  | place => exact congrArg Ring.Channel.waiting (channel_place p.dispatcher _ _)
  | @release l _ _ => exact waiting_release p.dispatcher l
  | raiseStop | raiseWorkersStop | goOn | wait | giveUp | leave | serve | serveAborts | free
  | findEmpty | checkStop | readRing | readMailbox => rfl

end Pipeline
end WriteBehind
