import WriteBehind.Proofs.Inspection
import WriteBehind.Proofs.Ring.Cut

/-!
# Crash — a queue file whose process ends at any point

The process that has a queue file open may end between any two stores.  What it leaves behind is
opened by the next one.

* `FileRun limit b` says that `b` is reached on a file through uses and through restarts, each after
  some of the stores of a use;
* `Kept` ties the open ring to its records, and `Kept.use` follows it store by store;
* `atomic_of_run`: after any number of the stores of a use, the file either carries the resize mark
  and is refused, or it opens with the backlog from before the use or from after it.
-/

namespace WriteBehind
namespace Ring

/-- A bench on a file is reached through uses and restarts, whatever capacities are asked for. -/
inductive FileRun (limit : Nat) : Bench → Prop
  /-- A ring on a new or empty file. -/
  | blank {d : Disk} {path : String} {content : Image} {hint : Nat} {r : Ring}
      (hoffers : d.Offers path content) (hblank : content.size = 0)
      (hopen : (d.openRing ⟨hint, limit, some path⟩).1 = .ok r) : FileRun limit (.ofRing r)
  | use {b b' : Bench} {u : Bench.Use} (run : FileRun limit b)
      (huse : b.use? u = some b') : FileRun limit b'
  /-- The process ends after the first `n` stores of a use, and the file is opened again.  With no
  store at all it has ended between two uses. -/
  | restart {b b' : Bench} {u : Bench.Use} (n : Nat) {d : Disk} {path : String} {hint : Nat}
      {r : Ring} (run : FileRun limit b) (huse : b.use? u = some b')
      (hoffers : d.Offers path (b.ring.image.applyAll ((b.stores u).take n)))
      (hopen : (d.openRing ⟨hint, limit, some path⟩).1 = .ok r) : FileRun limit (.ofRing r)

/-! ## Reading what was left behind -/

section Reading

variable {img : Image} {limit : Nat} {records : List Bytes} {d : Disk} {path : String}

theorem Torn.resizeInterrupted (h : Torn img) :
    Header.resizeInterrupted (img.slice 0 Header.size) = true := by
  have hmark : ((img.slice 0 Header.size).drop Header.markOffset).take 4 = Bytes.ofWord32 1 :=
    (mark_of_header img).trans h.mark
  have hlength : (img.slice 0 Header.size).length ≥ Header.size :=
    Nat.le_of_eq (Image.length_slice _ _ _).symm
  rw [Header.resizeInterrupted, hmark, Bytes.toWord_ofWord32 1 (by decide), decide_eq_true hlength]
  rfl

theorem Shows.resizeInterrupted (h : Shows img limit records) :
    Header.resizeInterrupted (img.slice 0 Header.size) = false := by
  rcases h with ⟨r, hsound, rfl, rfl⟩
  rw [hsound.slice_header]
  exact resizeInterrupted_encode _

/-- Nothing is opened on a file with a mark. -/
theorem Torn.open_eq (h : Torn img) {hint : Nat}
    (hcheck : Options.check ⟨hint, limit, some path⟩ = .ok ()) (hoffers : d.Offers path img) :
    (d.openRing ⟨hint, limit, some path⟩).1 = .error ⟨.resizeInterrupted, some path⟩ := by
  have hroom := h.room
  have hread : readHeader img = .error .resizeInterrupted := by
    simp only [readHeader, h.resizeInterrupted, if_true]
    rw [if_neg (by omega), if_neg (not_not_intro h.powerOfTwo)]
  rw [openRing_of_offers hoffers hcheck, attach, if_neg (by omega), hread]

theorem Torn.ofContent_eq (h : Torn img) (path : String) (inUse : Bool) (limit keep : Nat) :
    Inspection.ofContent path inUse img limit keep =
      .ok { path, fileSize := img.size, inUse, issue := some .resizeInterrupted } := by
  have hroom := h.room
  rw [Inspection.ofContent, if_neg (by omega), if_pos h.resizeInterrupted]

theorem Shows.header (h : Shows img limit records) (hlimit : limit + 3 ≤ 2 ^ 31 - 1) :
    ∃ header, Header.decode (img.slice 0 Header.size) = .ok header ∧
      header.validate (img.size - Header.size) = .ok () := by
  rcases h with ⟨r, hsound, rfl, rfl⟩
  rcases readHeader_eq_ok (hsound.readHeader hlimit) with ⟨hsize, -, -, hdecode, hvalidate⟩
  refine ⟨r.header, hdecode, ?_⟩
  rwa [hsize, Nat.add_sub_cancel_left]

/-- The bytes of a ring open to its records, if the file can be as long as that. -/
theorem Shows.opens (h : Shows img limit records) (hchecked : checkRecordLimit limit = .ok ())
    (hlimit : limit + 3 ≤ 2 ^ 31 - 1) (hoffers : d.Offers path img) {hint : Nat}
    (hreach : Options.WithinReach ⟨hint, limit, some path⟩ img) :
    ∃ r, (d.openRing ⟨hint, limit, some path⟩).1 = .ok r ∧ Sound r records ∧ r.limit = limit ∧
      r.request = none ∧ r.backing = .file path := by
  rcases h with ⟨r, hsound, rfl, rfl⟩
  have hsize := hsound.size
  have hle := hsound.capacity_le
  have hcap := (requested_spec ⟨hint, r.limit, some path⟩).1
  have hrequested := hreach.requested_le (by omega)
  have hcheck := Options.check_eq_ok.2 ⟨hchecked, hreach.word⟩
  rcases hsound.attach path hlimit hcap hrequested with ⟨r', hattach, hsound', hsame, hnone, -⟩
  refine ⟨r', ?_, hsound', hsame, hnone, backing_of_attach hattach⟩
  rw [openRing_of_offers hoffers hcheck]
  exact hattach

end Reading

/-! ## The invariant -/

/-- The ring on a file holds these records, and the record on loan is their head. -/
structure Kept (limit : Nat) (r : Ring) (held : Option Lease) (records : List Bytes) : Prop where
  sound : Sound r records
  limit_eq : r.limit = limit
  file : ∃ path, r.backing = .file path
  asked : r.WellAsked
  held : ∀ l, held = some l → Holds r l ∧ records.head? = some l.payload

namespace Kept

variable {limit : Nat} {r : Ring} {held : Option Lease} {records : List Bytes}

theorem of_opened {path : String} (hsound : Sound r records) (hlimit : r.limit = limit)
    (hnone : r.request = none) (hfile : r.backing = .file path) : Kept limit r none records := by
  refine ⟨hsound, hlimit, ⟨path, hfile⟩, ?_, ?_⟩
  · intro q hq
    cases hnone.symm.trans hq
  · intro l hl
    cases hl

theorem notesPad (h : Kept limit r held records) (hlimit : limit + 3 ≤ 2 ^ 31 - 1) (payload : Bytes) :
    r.NotesPad payload :=
  h.sound.notesPad (by rw [h.limit_eq]; exact hlimit) payload

/-- A producer's call keeps the record on loan. -/
theorem extend (h : Kept limit r held records) {r' : Ring} {more : List Bytes}
    (hextends : Extends r r' records more) : Kept limit r' held (records ++ more) := by
  rcases h.file with ⟨path, hfile⟩
  refine ⟨hextends.sound, hextends.limit.trans h.limit_eq, ⟨path, hextends.backing.trans hfile⟩,
    hextends.asked, ?_⟩
  intro l hl
  rcases h.held l hl with ⟨hholds, hhead⟩
  refine ⟨hextends.holds hholds, ?_⟩
  rw [List.head?_append, hhead]
  rfl

/-- The producer's call that waits is tried again, or goes on waiting, or is turned away. -/
theorem resume {b : Bench} (h : Kept limit b.ring held records) (hlimit : limit + 3 ≤ 2 ^ 31 - 1) :
    Kept limit b.channel.resume.2.ring held (records ++ b.channel.resumed) ∧
      Image.Throughout (Passing limit records (records ++ b.channel.resumed)) b.ring.image
        (b.stores .resume) := by
  refine ⟨h.extend (Channel.resume_extends h.sound h.asked fun payload _ => h.notesPad hlimit payload), ?_⟩
  rw [← h.limit_eq]
  simp only [Bench.stores]
  split
  · -- The push that waited is tried again.
    rename_i payload hwaiting hnone
    have hserved : b.channel.ring.request = none := hnone
    have hresumed : b.channel.resumed = added payload (b.ring.push payload).1 := by
      simp only [Channel.resumed, Channel.resume, hwaiting, hserved, Channel.retry, Channel.settle_fst]
      rfl
    rw [hresumed]
    exact h.sound.push_throughout (h.notesPad hlimit payload)
  · exact .nil (h.sound.passing _)

/-- A request that was dealt with is gone, or the thread has ended over it. -/
theorem serve (h : Kept limit r held records) {q : Request} (hq : r.request = some q) :
    Kept limit (r.serve q).2 none records := by
  rcases h.file with ⟨path, hfile⟩
  have hbacking := (r.serve_keeps q).2.1.trans hfile
  rcases h.sound.serve_outcome h.asked hq with ⟨r', hserve, hsound, hnone, hlimit⟩ |
    ⟨e, r', hserve, hsound, hnone, hlimit⟩ | hserve <;> rw [hserve] at hbacking ⊢
  · exact .of_opened hsound (hlimit.trans h.limit_eq) hnone hbacking
  · exact .of_opened hsound (hlimit.trans h.limit_eq) hnone hbacking
  · refine ⟨h.sound, h.limit_eq, h.file, h.asked, ?_⟩
    intro l hl
    cases hl

theorem front (h : Kept limit r held records) (hnone : r.request = none) :
    ∃ record r', r.front = (.ok record, r') ∧ Kept limit r' record records := by
  rcases h.sound.front with ⟨record, r', hfront, hfinds, hsame⟩
  rcases h.file with ⟨path, hfile⟩
  have hkeeps : r'.limit = r.limit ∧ r'.backing = r.backing ∧ r'.request = r.request := by
    rcases hsame with rfl | ⟨n, rfl⟩
    · exact ⟨rfl, rfl, rfl⟩
    · rw [moveRead_eq]
      exact ⟨rfl, rfl, rfl⟩
  rcases hkeeps with ⟨hlimit, hbacking, hrequest⟩
  refine ⟨record, r', hfront, hfinds.sound, hlimit.trans h.limit_eq,
    ⟨path, hbacking.trans hfile⟩, ?_, ?_⟩
  · intro q hq
    cases (hrequest.trans hnone).symm.trans hq
  · intro l hl
    have hhead := hfinds.head
    rw [hl] at hhead
    exact ⟨hfinds.holds l hl, hhead.symm⟩

/-- A pop puts the head of the list on loan, unless serving a request has failed. -/
theorem pop (h : Kept limit r held records) :
    (∃ record r', r.pop = (.ok record, r') ∧ Kept limit r' record records) ∨
    (∃ fault r', r.pop = (.error fault, r') ∧ Kept limit r' none records) := by
  rcases r.pop_cases with ⟨hnone, hpop⟩ | ⟨q, fault, r', hq, hserve, hpop⟩ |
    ⟨q, r', hq, hserve, hpop⟩ <;> rw [hpop]
  · rcases h.front hnone with ⟨record, r', hfront, hkept⟩
    exact .inl ⟨record, r', hfront, hkept⟩
  · have hserved := h.serve hq
    rw [hserve] at hserved
    exact .inr ⟨fault, r', rfl, hserved⟩
  · have hserved := h.serve hq
    have hnone := r.request_serve q
    rw [hserve] at hserved hnone
    rcases hserved.front (hnone.resolve_right fun h => nomatch h) with ⟨record, r'', hfront, hkept⟩
    exact .inl ⟨record, r'', hfront, hkept⟩

theorem pop_throughout (h : Kept limit r held records) :
    Image.Throughout (Passing limit records records) r.image r.popStores := by
  rcases h.file with ⟨path, hfile⟩
  have hthroughout := h.sound.pop_throughout hfile h.asked
  rwa [h.limit_eq] at hthroughout

theorem release {l : Lease} (h : Kept limit r (some l) records) :
    ∃ rest, records = l.payload :: rest ∧ Kept limit (r.release l) none rest := by
  rcases h.held l rfl with ⟨hholds, hhead⟩
  rcases List.head?_eq_some_iff.1 hhead with ⟨rest, rfl⟩
  refine ⟨rest, rfl, h.sound.release hholds, ?_, ?_, ?_, ?_⟩
  · exact (limit_moveRead r l.next).trans h.limit_eq
  · rw [Ring.release, moveRead_eq]
    exact h.file
  · exact h.asked.release l
  · intro l' hl'
    cases hl'

/-- Store by store, every use leads from some records to others. -/
theorem use {b b' : Bench} {u : Bench.Use} (h : Kept limit b.ring b.held records)
    (hlimit : limit + 3 ≤ 2 ^ 31 - 1) (huse : b.use? u = some b') :
    ∃ records', Kept limit b'.ring b'.held records' ∧
      Image.Throughout (Passing limit records records') b.ring.image (b.stores u) := by
  have hpassing := h.sound.passing records
  rw [h.limit_eq] at hpassing
  cases Bench.uses_of_use? huse with
  | @call call _ =>
    cases call with
    | push payload =>
      have hnotes := h.notesPad hlimit payload
      have hthroughout := h.sound.push_throughout hnotes
      rw [h.limit_eq] at hthroughout
      refine ⟨_, ?_, hthroughout⟩
      rw [Bench.ring, Channel.submit, Channel.settle_ring]
      exact h.extend (h.sound.push_extends h.asked hnotes)
    | grow capacity =>
      refine ⟨_, h.extend (Channel.submit_grow_extends h.sound h.asked capacity), ?_⟩
      rw [List.append_nil]
      exact .nil hpassing
  | resume => exact ⟨_, h.resume hlimit⟩
  | pop _ hfound =>
    rcases h.pop with ⟨record, r', hpop, hkept⟩ | ⟨fault, r', hpop, -⟩ <;> rw [hpop] at hfound ⊢ <;>
      cases hfound
    exact ⟨records, hkept, h.pop_throughout⟩
  | popFails _ hfault =>
    rcases h.pop with ⟨record, r', hpop, -⟩ | ⟨fault, r', hpop, hkept⟩ <;> rw [hpop] at hfault ⊢ <;>
      cases hfault
    exact ⟨records, hkept, h.pop_throughout⟩
  | drop hheld =>
    rw [hheld] at h
    rcases h.held _ rfl with ⟨hholds, -⟩
    rcases h.release with ⟨rest, rfl, hkept⟩
    have hthroughout := h.sound.release_throughout hholds
    rw [h.limit_eq] at hthroughout
    simp only [Bench.stores, hheld]
    exact ⟨rest, hkept, hthroughout⟩
  | unread _ =>
    refine ⟨records, ⟨h.sound, h.limit_eq, h.file, h.asked, ?_⟩, .nil hpassing⟩
    intro l' hl'
    cases hl'
  | serve _ hq =>
    rcases h.file with ⟨path, hfile⟩
    have hthroughout := h.sound.serve_throughout hfile h.asked hq
    rw [h.limit_eq] at hthroughout
    simp only [Bench.stores, hq]
    exact ⟨records, h.serve hq, hthroughout⟩

end Kept

theorem FileRun.kept {limit : Nat} {b : Bench} (run : FileRun limit b)
    (hlimit : limit + 3 ≤ 2 ^ 31 - 1) :
    checkRecordLimit limit = .ok () ∧ ∃ records, Kept limit b.ring b.held records := by
  induction run with
  | @blank d path content hint r hoffers hblank hopen =>
    rcases open_blank hoffers hblank hopen with ⟨hsound, hsame, hnone⟩
    have hattach := hopen
    rw [openRing_of_offers hoffers (check_of_openRing hopen)] at hattach
    exact ⟨limit_of_openRing hopen, [], .of_opened hsound hsame hnone (backing_of_attach hattach)⟩
  | use _ huse ih =>
    rcases ih with ⟨hchecked, records, hkept⟩
    rcases hkept.use hlimit huse with ⟨records', hkept', -⟩
    exact ⟨hchecked, records', hkept'⟩
  | @restart b b' u n d path hint r _ huse hoffers hopen ih =>
    rcases ih with ⟨hchecked, records, hkept⟩
    rcases hkept.use hlimit huse with ⟨records', -, hthroughout⟩
    have hreach := withinReach_of_openRing hoffers hopen
    -- What could be opened carries no mark, and so it is one of the two lists.
    have hopens : ∀ records, Shows (b.ring.image.applyAll ((b.stores u).take n)) limit records →
        ∃ records, Kept limit r none records := by
      intro records hshows
      rcases hshows.opens hchecked hlimit hoffers hreach with
        ⟨r', hopen', hsound, hsame, hnone, hfile⟩
      cases hopen.symm.trans hopen'
      exact ⟨records, .of_opened hsound hsame hnone hfile⟩
    refine ⟨hchecked, ?_⟩
    rcases hthroughout n with hbefore | hafter | htorn
    · exact hopens records hbefore
    · exact hopens records' hafter
    · rw [htorn.open_eq (check_of_openRing hopen) hoffers] at hopen
      cases hopen

/-! ## Every cut of every use -/

/-- After any number of the stores of a use, the bytes of the file are refused for their resize mark, by an
inspection and by the next opening, whatever hint it is given that can be rounded up to a word; or they carry
no mark, their header is in order, and they open to the backlog from before the use or to the one from after
it. -/
theorem atomic_of_run {limit : Nat} {b b' : Bench} {u : Bench.Use} (run : FileRun limit b)
    (hlimit : limit + 3 ≤ 2 ^ 31 - 1) (huse : b.use? u = some b') :
    b'.ring.image = b.ring.image.applyAll (b.stores u) ∧
      ∀ (n : Nat) (left : Image), left = b.ring.image.applyAll ((b.stores u).take n) →
        (Header.resizeInterrupted (left.slice 0 24) = true →
          ∀ (d : Disk) (path : String), d.HasFile path left →
            (∀ hint, ∃ fault, (d.openRing ⟨hint, limit, some path⟩).1 = .error fault ∧
              (hint ≤ 2 ^ 63 → fault.cause = .resizeInterrupted ∧ fault.kind = .corrupt)) ∧
            ∀ keep, ∃ i, d.inspect path limit keep = .ok i ∧ i.issue = some .resizeInterrupted ∧
              i.issue.map Issue.code = some "corrupt") ∧
        (Header.resizeInterrupted (left.slice 0 24) = false →
          (∃ header, Header.decode (left.slice 0 24) = .ok header ∧
            header.validate (left.size - 24) = .ok ()) ∧
          ∃ payloads, (payloads = b.ring.backlog.payloads ∨ payloads = b'.ring.backlog.payloads) ∧
            ∀ (d : Disk) (path : String) (hint : Nat), d.HasFile path left →
              Options.WithinReach ⟨hint, limit, some path⟩ left →
              ∃ r, (d.openRing ⟨hint, limit, some path⟩).1 = .ok r ∧
                r.backlog.payloads = payloads ∧ r.backlog.defect = none) := by
  rcases run.kept hlimit with ⟨hchecked, records, hkept⟩
  rcases hkept.use hlimit huse with ⟨records', hkept', hthroughout⟩
  refine ⟨Bench.image_use huse, ?_⟩
  rintro n left rfl
  have hcut := hthroughout n
  generalize b.ring.image.applyAll ((b.stores u).take n) = left at hcut
  refine ⟨?_, ?_⟩
  · intro hmark d path hfile
    -- Neither list of records is shown with a mark.
    have htorn : Torn left := by
      rcases hcut with hshows | hshows | htorn
      · cases hmark.symm.trans hshows.resizeInterrupted
      · cases hmark.symm.trans hshows.resizeInterrupted
      · exact htorn
    refine ⟨?_, ?_⟩
    · intro hint
      cases hcheck : Options.check ⟨hint, limit, some path⟩ with
      | error cause =>
        -- Only a hint that cannot be rounded up to a word is refused by itself.
        refine ⟨cause.fault, by simp only [Disk.openRing, hcheck], fun hhint => ?_⟩
        cases hcheck.symm.trans (check_of_le (o := ⟨hint, limit, some path⟩) hhint hchecked)
      | ok _ => exact ⟨_, htorn.open_eq hcheck hfile.offers, fun _ => ⟨rfl, rfl⟩⟩
    · intro keep
      rw [hfile.inspect_eq hchecked keep, htorn.ofContent_eq]
      exact ⟨_, rfl, rfl, rfl⟩
  · intro hmark
    have hshows : ∃ payloads, Shows left limit payloads ∧
        (payloads = b.ring.backlog.payloads ∨ payloads = b'.ring.backlog.payloads) := by
      rcases hcut with hshows | hshows | htorn
      · exact ⟨records, hshows, .inl hkept.sound.backlog.1.symm⟩
      · exact ⟨records', hshows, .inr hkept'.sound.backlog.1.symm⟩
      · cases hmark.symm.trans htorn.resizeInterrupted
    rcases hshows with ⟨payloads, hshows, hlist⟩
    refine ⟨hshows.header hlimit, payloads, hlist, ?_⟩
    intro d path hint hfile hreach
    rcases hshows.opens hchecked hlimit hfile.offers hreach with ⟨r, hopen, hsound, -⟩
    exact ⟨r, hopen, hsound.backlog.1, hsound.backlog.2⟩

/-- A push behind four bytes of padding ends just before its write counter is stored. -/
theorem atomic_of_run_wrapped :
    ∃ b b' : Bench, FileRun 12 b ∧ b.use? (.call (.push (List.replicate 10 3))) = some b' ∧
      (b.stores (.call (.push (List.replicate 10 3)))).length = 4 ∧
      ∀ left : Image,
        left = b.ring.image.applyAll ((b.stores (.call (.push (List.replicate 10 3)))).take 3) →
        left.slice 16 4 = [4, 0, 0, 0] ∧
        ∃ r, ((({ files := [("q", left)] } : Disk).openRing ⟨100, 12, some "q"⟩).1 = .ok r) ∧
          (r.backlog.payloads = b.ring.backlog.payloads ∨
            r.backlog.payloads = b'.ring.backlog.payloads) := by
  have hopen : (({} : Disk).openRing ⟨1, 12, some "q"⟩).1 =
      .ok (ofHeader "q" (({} : Image).resize 56) 32 12 {}) :=
    (openRing_of_offers Disk.offers_new_file rfl).trans rfl
  have opened := FileRun.blank Disk.offers_new_file rfl hopen
  have first := opened.use (u := .call (.push (List.replicate 10 1))) rfl
  have second := first.use (u := .call (.push (List.replicate 10 2))) rfl
  have popped := second.use (u := .pop) rfl
  have dropped := popped.use (u := .drop) rfl
  have hatomic := atomic_of_run dropped (u := .call (.push (List.replicate 10 3))) (by decide) rfl
  refine ⟨_, _, dropped, rfl, by decide +kernel, ?_⟩
  intro left hleft
  have hmark : Header.resizeInterrupted (left.slice 0 24) = false := by
    rw [hleft]
    decide +kernel
  have hpad : left.slice 16 4 = [4, 0, 0, 0] := by
    rw [hleft]
    decide +kernel
  have hsize : left.size = 56 := by
    rw [hleft]
    decide +kernel
  rcases (hatomic.2 3 left hleft).2 hmark with ⟨-, payloads, hlist, hopens⟩
  have hreach : Options.WithinReach ⟨100, 12, some "q"⟩ left := ⟨by decide, fun _ => by decide⟩
  rcases hopens _ "q" 100 (Disk.hasFile_single left) hreach with ⟨r, hopen, hpayloads, -⟩
  rw [← hpayloads] at hlist
  exact ⟨hpad, r, hopen, hlist⟩

end Ring
end WriteBehind
