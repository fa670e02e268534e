import Semispace.Proofs.Collector.Atomicity
import Semispace.Proofs.Store.Phases
import Semispace.Proofs.Store.Run

/-!
# References to records

A check reads the words that a reference points at; it does not know where records start. It accepts
the start of every record, and inside a record it accepts a word that reads as a header by chance
(`Misread`): the second one, or an empty slot. As long as no such reference is given to a collector,
it takes no other and refuses the rest without a change (`RecordRun.admits_iff`).
-/

namespace Semispace

/-! ## Words that read as headers -/

/-- The halves lie above all tags. -/
theorem Layout.address_ne_tag (l : Layout) {loc : Location} (h : loc.offset < l.spaceWords) (t : Tag) :
    l.address loc ≠ t.word := by
  intro he
  have h1 := l.toNat_address h
  have h2 : 0 < l.base := l.machine.base_pos
  have h3 : l.base % wordBytes = 0 := l.base_mod_word
  have h4 : l.base ≤ l.start loc.half := Nat.le_add_right ..
  have h5 : t.word.toNat ≤ 2 := by cases t <;> decide
  rw [he] at h1
  unfold wordBytes at h1 h3
  omega

/-- A word inside one of the `records` that passes for the first word of another: by chance the value
or length is a tag, or a slot is empty, and the object that seems to be there ends by the cursor. -/
inductive Collector.Misread (c : Collector) (records : Set Word) : Word → Prop
  | second {o : Nat} {h : Header} {t : Tag} : c.arena.address ⟨c.arena.active, o⟩ ∈ records →
      c.arena.headerAt ⟨c.arena.active, o⟩ = some h → h.second = t.word →
      o + 1 + (Header.mk t (c.arena.word ⟨c.arena.active, o + 2⟩)).size ≤ c.cursor.top →
      Misread c records (c.arena.address ⟨c.arena.active, o + 1⟩)
  | emptySlot {o i : Nat} {h : Header} : c.arena.address ⟨c.arena.active, o⟩ ∈ records →
      c.arena.headerAt ⟨c.arena.active, o⟩ = some h → i < h.slotCount → c.arena.slotAt ⟨c.arena.active, o⟩ i = 0 →
      o + (headerWords + i) + headerWords ≤ c.cursor.top →
      Misread c records (c.arena.address ⟨c.arena.active, o + (headerWords + i)⟩)

namespace Collector

variable {c : Collector} {rs : List (Nat × Header)} {r : Ref} {w : Word}

theorem exists_checkObject_iff (htop : c.cursor.top ≤ c.arena.spaceWords) :
    (∃ found, c.checkObject r = .ok found) ↔ ∃ o h, r.addr = c.arena.address ⟨c.arena.active, o⟩ ∧
      c.arena.headerAt ⟨c.arena.active, o⟩ = some h ∧ o + h.size ≤ c.cursor.top := by
  constructor
  · rintro ⟨⟨loc, h⟩, hc⟩
    obtain ⟨o, _, x, hend⟩ := checkObject_eq_ok_iff.mp hc
    exact ⟨o, h, x.word_eq, x.header, hend⟩
  · rintro ⟨o, h, hr, hh, hend⟩
    have hpos := h.size_pos
    have hlt : o < c.arena.layout.spaceWords := Nat.lt_of_lt_of_le (by omega) htop
    have x : c.arena.ObjectAt c.cursor.top r.addr o h :=
      ⟨hr ▸ @Layout.locate_address c.arena.layout ⟨c.arena.active, o⟩ hlt, by omega, hh, hend.trans htop⟩
    exact ⟨_, checkObject_eq_ok_iff.mpr ⟨o, rfl, x, hend⟩⟩

section
variable (t : c.arena.Tiled rs c.cursor.top) (htop : c.cursor.top ≤ c.arena.spaceWords)
include t htop

theorem Misread.exists_inside (m : c.Misread {w | c.arena.Starts rs w} w) : ∃ e ∈ rs, ∃ k, 0 < k ∧ k < e.2.size ∧
    w = c.arena.address ⟨c.arena.active, e.1 + k⟩ := by
  have hrecord : ∀ {o h}, c.arena.Starts rs (c.arena.address ⟨c.arena.active, o⟩) → o < c.arena.spaceWords →
      c.arena.headerAt ⟨c.arena.active, o⟩ = some h → (o, h) ∈ rs := by
    rintro o h ⟨e, he, hw⟩ ho hh
    have heq := Arena.address_injective ho (t.offset_lt htop he) hw
    obtain rfl : o = e.1 := congrArg Location.offset heq
    obtain rfl : h = e.2 := Option.some.inj (hh.symm.trans (t.header e he))
    exact he
  cases m with
  | @second o h _ hs hh _ hend =>
    have hsize := h.headerWords_le_size
    unfold headerWords at hsize
    exact ⟨_, hrecord hs (by omega) hh, 1, Nat.zero_lt_one, hsize, rfl⟩
  | @emptySlot o i h hs hh hi _ hend =>
    have hsize := h.size_eq
    have hpos : 0 < headerWords := by decide
    exact ⟨_, hrecord hs (by omega) hh, headerWords + i, by omega, by dsimp only; omega, rfl⟩

/-- No record starts inside another. -/
theorem not_misread (hs : c.arena.Starts rs w) : ¬ c.Misread {w | c.arena.Starts rs w} w := by
  intro m
  obtain ⟨e, he, k, hk, hlt, rfl⟩ := m.exists_inside t htop
  obtain ⟨e', he', hw⟩ := hs
  have hend := (t.consecutive.bounds he).2
  have heq := @Arena.address_injective c.arena ⟨c.arena.active, e.1 + k⟩ ⟨c.arena.active, e'.1⟩
    (by show e.1 + k < _; omega) (t.offset_lt htop he') hw
  have hk' : e.1 + k = e'.1 := congrArg Location.offset heq
  have hpos := e'.2.size_pos
  rcases t.consecutive.apart he he' with rfl | h | h <;> omega

/-- What a check accepts in a half whose slots are empty or refer to records. -/
theorem exists_checkObject_iff_starts (hslot : ∀ e ∈ rs, ∀ i < e.2.slotCount,
      c.arena.slotAt ⟨c.arena.active, e.1⟩ i = 0 ∨ c.arena.Starts rs (c.arena.slotAt ⟨c.arena.active, e.1⟩ i)) :
    (∃ found, c.checkObject r = .ok found) ↔
      c.arena.Starts rs r.addr ∨ c.Misread {w | c.arena.Starts rs w} r.addr := by
  rw [exists_checkObject_iff htop]
  constructor
  · rintro ⟨o, h, hr, hh, hend⟩
    have hsize := h.headerWords_le_size
    unfold headerWords at hsize
    obtain ⟨htag, hsecond⟩ := Arena.headerAt_eq_some_iff.mp hh
    obtain ⟨e, he, hle, hlt⟩ := t.consecutive.exists_block (k := o) (Nat.zero_le _) (by omega)
    obtain ⟨_, hsecond'⟩ := Arena.headerAt_eq_some_iff.mp (t.header e he)
    have hstart : c.arena.Starts rs (c.arena.address ⟨c.arena.active, e.1⟩) := ⟨e, he, rfl⟩
    rcases Nat.lt_or_ge o (e.1 + headerWords) with hhead | hbody
    · unfold headerWords at hhead
      rcases Nat.eq_or_lt_of_le hle with rfl | hgt
      · exact Or.inl (hr ▸ hstart)
      · obtain rfl : o = e.1 + 1 := by omega
        refine Or.inr (hr ▸ .second (t := h.tag) hstart (t.header e he) (hsecond'.symm.trans htag) ?_)
        have hh' : Header.mk h.tag (c.arena.word ⟨c.arena.active, e.1 + 2⟩) = h := by
          rw [show c.arena.word ⟨c.arena.active, e.1 + 2⟩ = h.second from hsecond]
        rw [hh']
        exact hend
    · obtain ⟨i, rfl⟩ := Nat.exists_eq_add_of_le hbody
      have hi : i < e.2.slotCount := by
        rw [Header.size_eq] at hlt
        omega
      rw [Nat.add_assoc] at hr htag hend
      have hword : c.arena.slotAt ⟨c.arena.active, e.1⟩ i = h.tag.word := htag
      -- a slot that is not empty holds an address, which is no tag
      rcases hslot e he i hi with hzero | ⟨e', he', haddr⟩
      · refine Or.inr (hr ▸ .emptySlot hstart (t.header e he) hi hzero ?_)
        unfold headerWords at *
        omega
      · exact absurd (haddr.symm.trans hword) (c.arena.layout.address_ne_tag (t.offset_lt htop he') _)
  · rintro (⟨e, he, hr⟩ | m)
    · exact ⟨e.1, e.2, hr, t.header e he, (t.consecutive.bounds he).2⟩
    · generalize hr : r.addr = w at m
      cases m with
      | @second o h tag _ hh hsecond hend =>
        refine ⟨o + 1, _, rfl, Arena.headerAt_eq_some_iff.mpr ⟨?_, rfl⟩, hend⟩
        exact (Arena.headerAt_eq_some_iff.mp hh).2.trans hsecond
      | @emptySlot o i h _ hh hi hzero hend =>
        exact ⟨o + (headerWords + i), ⟨.int, c.arena.word ⟨c.arena.active, o + (headerWords + i) + 1⟩⟩, rfl,
          Arena.headerAt_eq_some_iff.mpr ⟨hzero, rfl⟩, hend⟩

end

end Collector

/-! ## Records in a run -/

/-- The records of the active half in `m`, when those in `s` were `records`: a pass in between has left
the ones that it reports. -/
def Session.recordsSince (s : Session) (records : Set Word) (m : Session) : Set Word :=
  if m.collector.cycles = s.collector.cycles then records
  else {w | ∃ k ∈ m.journal.copies.drop s.journal.copies.length, k.target = w}

/-- The records after an operation, with the one that it has made. -/
def recordsAfter (s : Session) (records : Set Word) (op : Op Ref) (out : EStateM.Result Error Session (Option Ref)) :
    Set Word :=
  {w | op.allocates = true ∧ ∃ r, answer out = .ok (some r) ∧ r.addr = w} ∪ s.recordsSince records (endState out)

/-- A run on any references but misread ones, and the records at its end. -/
inductive RecordRun (machine : Machine) (config : Config) : Session → Set Word → Prop
  | start {j j' : Journal} {c : Collector} :
    (Collector.create machine config).run j = .ok c j' → RecordRun machine config ⟨c, j'⟩ ∅
  | step {s : Session} {records : Set Word} (op : Op Ref) :
    RecordRun machine config s records → (∀ r ∈ op.refs, ¬ s.collector.Misread records r.addr) →
    RecordRun machine config (endState (op.perform.run s)) (recordsAfter s records op (op.perform.run s))

section
variable {s m m' : Session} {records : Set Word} {op : Op Ref} {r : Ref} {e : Error}
  {out : EStateM.Result Error Session (Option Ref)}

theorem recordsSince_of_eq (h : m.collector.cycles = s.collector.cycles) : s.recordsSince records m = records :=
  if_pos h

theorem recordsSince_congr (hc : m'.collector.cycles = m.collector.cycles) (hj : m'.journal.copies = m.journal.copies) :
    s.recordsSince records m' = s.recordsSince records m := by
  unfold Session.recordsSince
  rw [hc, hj]

theorem recordsAfter_placed (ha : op.allocates = true) : recordsAfter s records op (.ok (some r) m) =
    insert r.addr (s.recordsSince records m) := by
  ext w
  constructor
  · rintro (⟨_, r', hr, rfl⟩ | hw)
    · cases hr
      exact Or.inl rfl
    · exact Or.inr hw
  · rintro (rfl | hw)
    · exact Or.inl ⟨ha, r, rfl, rfl⟩
    · exact Or.inr hw

theorem recordsAfter_other (h : op.allocates = true → ∃ e, answer out = .error e) :
    recordsAfter s records op out = s.recordsSince records (endState out) := by
  have hmade : {w | op.allocates = true ∧ ∃ r : Ref, answer out = .ok (some r) ∧ r.addr = w} = (∅ : Set Word) := by
    refine Set.eq_empty_of_forall_notMem ?_
    rintro w ⟨ha, r, hr, _⟩
    obtain ⟨e, he⟩ := h ha
    rw [he] at hr
    cases hr
  unfold recordsAfter
  rw [hmade, Set.empty_union]

end

/-! ## Refused references -/

/-- An operation does not get beyond a reference that is refused. -/
theorem Op.run_refused {s : Session} {op : Op Ref} {r : Ref} {e : Error} (hp : s.collector.phase ≠ .poisoned)
    (hr : r ∈ op.refs) (hc : s.collector.checkObject r = .error e) : ∃ e, op.perform.run s = .error e s := by
  cases op with
  | allocVector elements =>
    rcases Mutator.run_allocVector_or hp elements with ⟨_, _, e', _, hrun⟩ | ⟨hok, _⟩
    · exact ⟨e', run_bind_error hrun _⟩
    · obtain ⟨found, hf⟩ := hok r hr
      rw [hc] at hf
      cases hf
  | vectorSet v i value =>
    cases hl : s.collector.slotLocation v i with
    | error e' => exact ⟨e', run_bind_error (Mutator.run_vectorSet_unlocated hp hl value) _⟩
    | ok loc =>
      rcases List.mem_cons.mp hr with rfl | hr
      · rw [Collector.slotLocation_of_checkObject hc] at hl
        cases hl
      · obtain rfl := Option.mem_toList.mp hr
        exact ⟨e, run_bind_error (Mutator.run_vectorSet_error hp hl hc) _⟩
  | rootPush v =>
    obtain rfl := List.mem_singleton.mp hr
    exact ⟨e, run_bind_error (Mutator.run_rootPush_error hp hc) _⟩
  | allocInt v => cases hr
  | allocBool v => cases hr
  | rootPop => cases hr
  | collect => cases hr

/-! ## The records of a represented store -/

namespace Represents

variable {st : Store} {place : Nat → Ref} {live : Set Nat} {rs : List (Nat × Header)} {s : Session}
variable (R : Represents st place live rs s.collector)
include R

/-- A slot is empty or refers to a record. -/
theorem slot_starts {e : Nat × Header} (he : e ∈ rs) {i : Nat} (hi : i < e.2.slotCount) :
    s.collector.arena.slotAt ⟨s.collector.arena.active, e.1⟩ i = 0 ∨
      s.collector.arena.Starts rs (s.collector.arena.slotAt ⟨s.collector.arena.active, e.1⟩ i) := by
  obtain ⟨j, hj, hw⟩ := R.placed.surjOn ⟨e, he, rfl⟩
  have hw : (place j).addr = s.collector.arena.address ⟨s.collector.arena.active, e.1⟩ := hw
  have hh := R.holds j hj e he hw
  rw [(R.header_eq hj he hw).1, hh.slotCount_eq] at hi
  rw [hh.slotAt_eq hi]
  cases hk : (st.content j).slots[i] with
  | none => exact Or.inl rfl
  | some k => exact Or.inr (R.placed.mapsTo (R.closed j hj k (hk ▸ List.getElem_mem hi)))

/-- After the passes of an operation the records are those that were there or those that are reported. -/
theorem swept_records {op : Op Nat} (hop : ∀ i ∈ op.refs, i ∈ live) {xs : List CycleSummary} {m : Session}
    (h : (op.map place).Sweeps s xs m) : ∃ rs', m.collector.arena.Tiled rs' m.collector.cursor.top ∧
      s.recordsSince {w | s.collector.arena.Starts rs w} m = {w | m.collector.arena.Starts rs' w} := by
  rcases (R.sweeps hop).2 xs m h with ⟨_, hb, ha⟩ | ⟨x, t, _, _, hr, _⟩
  · have hcursor : m.collector.cursor = s.collector.cursor := congrArg (fun b => b.1) hb
    have hcycles : m.collector.cycles = s.collector.cycles := congrArg (fun b => b.2.2.1) hb
    refine ⟨rs, ?_, ?_⟩
    · rw [ha, hcursor]
      exact R.tiled
    · rw [recordsSince_of_eq hcycles, ha]
  · obtain ⟨made, rs', hcopies, ht, hmade⟩ := hr.records R.wellFormed
    have hs := Arena.starts_eq_targets hmade
    refine ⟨rs', ht, ?_⟩
    unfold Session.recordsSince
    rw [hr.cycles_eq, if_neg (Nat.succ_ne_self _), hs, hcopies, List.drop_left]

/-- What an allocation leaves. -/
theorem allocates_records {op : Op Nat} (hop : ∀ i ∈ op.refs, i ∈ live) (ha : (op.map place).allocates = true) :
    ∃ st' place' live' rs', Represents st' place' live' rs' (endState ((op.map place).perform.run s)).collector ∧
      recordsAfter s {w | s.collector.arena.Starts rs w} (op.map place) ((op.map place).perform.run s) =
        {w | (endState ((op.map place).perform.run s)).collector.arena.Starts rs' w} := by
  obtain ⟨a, st', place', live', rs', P⟩ := R.perform op hop
  obtain ⟨⟨xs, m, hx⟩, _⟩ := R.sweeps hop
  obtain ⟨rs₁, t, hs⟩ := R.swept_records hop hx
  refine ⟨st', place', live', rs', P.represents, ?_⟩
  have R' := P.represents
  have hsettles := hx.settles R.wellFormed R.usable
  generalize (op.map place).perform.run s = out at R' hsettles
  cases hsettles with
  | @placed y r s' _ Pl =>
    have x := Pl.extended
    -- the collector is well-formed afterwards, so it was before
    have hw : m.collector.cursor.capacity = m.collector.arena.spaceWords :=
      x.capacity.symm.trans (R'.wellFormed.trans x.spaceWords)
    have hfits : m.collector.cursor.top + y.words.length ≤ m.collector.arena.spaceWords := hw ▸ x.fits
    have hcount : y.header.slotCount = y.slots.length := by
      have hspace : m.collector.arena.spaceWords < UInt64.size := m.collector.arena.layout.spaceWords_lt
      rw [Content.length_words] at hfits
      exact Content.slotCount_header (by omega)
    have htiled := x.tiled t (by omega) hcount
    rw [recordsAfter_placed ha, recordsSince_congr x.cycles (congrArg Journal.copies Pl.journal), hs, Pl.address,
      ← x.starts_append, R'.tiled.unique htiled]
    rfl
  | @denied e s' _ hc hj =>
    have R' : Represents st' place' live' rs' s'.collector := R'
    rw [hc] at R'
    rw [recordsAfter_other fun _ => ⟨e, rfl⟩]
    show s.recordsSince _ s' = {w | s'.collector.arena.Starts rs' w}
    rw [recordsSince_congr (congrArg Collector.cycles hc) hj, hs, hc, R'.tiled.unique t]
  | other hn _ =>
    rw [ha] at hn
    cases hn

/-- What an operation leaves that neither makes an object nor runs a pass. -/
theorem keeps_records {op : Op Nat} (hop : ∀ i ∈ op.refs, i ∈ live) (hn : (op.map place).allocates = false)
    (hc : op ≠ .collect) : (endState ((op.map place).perform.run s)).collector.cycles = s.collector.cycles ∧
      ∃ st', Represents st' place live rs (endState ((op.map place).perform.run s)).collector := by
  cases op with
  | allocInt v => cases hn
  | allocBool v => cases hn
  | allocVector elements => cases hn
  | vectorSet i k o =>
    have ho : ∀ j, o = some j → j ∈ live := by
      rintro j rfl
      exact hop j (List.mem_cons_of_mem _ (List.mem_singleton_self j))
    rcases R.vectorSet (hop i (List.mem_cons_self ..)) k ho with ⟨_, s', _, hrun, hcy, R'⟩ | ⟨_, _, hrun⟩
    · have hout : ((Op.vectorSet i k o).map place).perform.run s = .ok none s' := run_bind_ok hrun _
      rw [hout]
      exact ⟨hcy, _, R'⟩
    · have hout : ((Op.vectorSet i k o).map place).perform.run s = .error _ s := run_bind_error hrun _
      rw [hout]
      exact ⟨rfl, _, R⟩
  | rootPush i =>
    rcases R.rootPush (hop i (List.mem_singleton_self i)) with ⟨_, s', hrun, hcy, R'⟩ | ⟨_, s', hrun, hcol⟩
    · have hout : ((Op.rootPush i).map place).perform.run s = .ok none s' := run_bind_ok hrun _
      rw [hout]
      exact ⟨hcy, _, R'⟩
    · have hout : ((Op.rootPush i).map place).perform.run s = .error _ s' := run_bind_error hrun _
      rw [hout]
      exact ⟨congrArg Collector.cycles hcol, st, hcol ▸ R⟩
  | rootPop =>
    rcases R.rootPop with ⟨_, s', _, hrun, hcy, R'⟩ | ⟨_, hrun⟩
    · have hout : ((Op.rootPop).map place).perform.run s = .ok _ s' := run_bind_ok hrun _
      rw [hout]
      exact ⟨hcy, _, R'⟩
    · have hout : ((Op.rootPop).map place).perform.run s = .error _ s := run_bind_error hrun _
      rw [hout]
      exact ⟨rfl, _, R⟩
  | collect => exact absurd rfl hc

/-- An operation on live objects leaves the records that it should. -/
theorem perform_records {op : Op Nat} (hop : ∀ i ∈ op.refs, i ∈ live) :
    ∃ st' place' live' rs', Represents st' place' live' rs' (endState ((op.map place).perform.run s)).collector ∧
      recordsAfter s {w | s.collector.arena.Starts rs w} (op.map place) ((op.map place).perform.run s) =
        {w | (endState ((op.map place).perform.run s)).collector.arena.Starts rs' w} := by
  cases ha : (op.map place).allocates with
  | true => exact R.allocates_records hop ha
  | false =>
    have hnone : ∀ {out : EStateM.Result Error Session (Option Ref)}, recordsAfter s {w | s.collector.arena.Starts rs w}
        (op.map place) out = s.recordsSince {w | s.collector.arena.Starts rs w} (endState out) :=
      recordsAfter_other fun h => by rw [ha] at h; cases h
    rw [hnone]
    by_cases hc : op = .collect
    · subst hc
      obtain ⟨place', rs', s', x, hrun, _, R'⟩ := R.collectAll
      obtain ⟨rs₁, t, hs⟩ := R.swept_records hop (.collect hrun)
      have hout : (Op.collect.map place).perform.run s = .ok none s' := Op.run_collect hrun
      rw [hout]
      exact ⟨st, place', _, rs₁, R'.tiled.unique t ▸ R', hs⟩
    · obtain ⟨hcy, st', R'⟩ := R.keeps_records hop ha hc
      refine ⟨st', place, live, rs, R', ?_⟩
      rw [recordsSince_of_eq hcy, ← R.placed.image_eq, ← R'.placed.image_eq]

end Represents

/-! ## Runs -/

theorem RecordRun.represents {machine : Machine} {config : Config} {s : Session} {records : Set Word}
    (h : RecordRun machine config s records) :
    ∃ st place live rs, Represents st place live rs s.collector ∧ records = {w | s.collector.arena.Starts rs w} := by
  induction h with
  | @start j j' c hc =>
    refine ⟨_, _, _, _, (Collector.create_fresh hc).represents fun _ => ⟨1, by decide⟩, ?_⟩
    symm
    refine Set.eq_empty_of_forall_notMem ?_
    rintro w ⟨_, he, _⟩
    cases he
  | @step s records op _ hop ih =>
    obtain ⟨st, place, live, rs, R, rfl⟩ := ih
    by_cases hall : ∀ r ∈ op.refs, ∃ found, s.collector.checkObject r = .ok found
    · have hname : ∀ r ∈ op.refs, ∃ i, i ∈ live ∧ place i = r := by
        intro r hr
        rcases (Collector.exists_checkObject_iff_starts R.tiled R.top_le fun e he i => R.slot_starts he).mp (hall r hr)
          with hs | hm
        · obtain ⟨i, hi, hw⟩ := R.placed.surjOn hs
          exact ⟨i, hi, Ref.eq_of_addr hw⟩
        · exact absurd hm (hop r hr)
      choose! name hlive hplace using hname
      have hop' : ∀ i ∈ (op.map name).refs, i ∈ live := by
        intro i hi
        rw [Op.refs_map] at hi
        obtain ⟨r, hr, rfl⟩ := List.mem_map.mp hi
        exact hlive r hr
      have hstep := R.perform_records hop'
      rw [Op.map_map_eq hplace] at hstep
      exact hstep
    · obtain ⟨r, hr, hall⟩ : ∃ r ∈ op.refs, ∀ found, s.collector.checkObject r ≠ .ok found := by
        simpa only [not_forall, not_exists, exists_prop] using hall
      cases hc : s.collector.checkObject r with
      | ok found => exact absurd hc (hall found)
      | error e =>
        obtain ⟨e', hrun⟩ := Op.run_refused R.usable hr hc
        refine ⟨st, place, live, rs, ?_, ?_⟩
        · rw [hrun]
          exact R
        · rw [recordsAfter_other fun _ => ⟨e', by rw [hrun]; rfl⟩, hrun]
          exact recordsSince_of_eq rfl

/-- What follows validation when the reference passes: it is pushed if there is room, stored in the slot,
or no obstacle among the elements of a vector. -/
structure Session.Admits (s : Session) (r : Ref) : Prop where
  push : (Mutator.rootPush r).run s = (Mutator.pushSlot r).run s
  set : ∀ v i loc, s.collector.slotLocation v i = .ok loc → ∃ arena, s.collector.arena.write loc r.addr = .ok arena ∧
    (Mutator.vectorSet v i (some r)).run s = .ok () { s with collector := { s.collector with arena } }
  element : ∀ elements, (∀ v ∈ elements.filterMap id, v = r ∨ ∃ found, s.collector.checkObject v = .ok found) →
    answer ((Mutator.allocVector elements).run s) = .error (.rootStackOverflow s.collector.roots.capacity) ∨
    ∃ t, Rooted s elements t ∧
      (Mutator.allocVector elements).run s = (Mutator.buildVector s.collector.roots.top elements).run t

/-- No operation takes the reference for a value, and none changes anything when it is tried. -/
structure Session.Rejects (s : Session) (r : Ref) : Prop where
  push : ∃ e, e.OfReference ∧ (Mutator.rootPush r).run s = .error e s
  set : ∀ v i loc, s.collector.slotLocation v i = .ok loc →
    ∃ e, e.OfReference ∧ (Mutator.vectorSet v i (some r)).run s = .error e s
  element : ∀ elements, r ∈ elements.filterMap id →
    ∃ e, e.OfReference ∧ (Mutator.allocVector elements).run s = .error e s

section
variable {s s' : Session} {r : Ref} {e : Error}

theorem Mutator.not_ofReference_pushSlot (h : (pushSlot r).run s = .error e s') : ¬ e.OfReference := by
  unfold pushSlot at h
  rw [run_collector_bind] at h
  cases hp : s.collector.roots.push r with
  | ok roots =>
    rw [hp] at h
    cases h
  | error e' =>
    obtain ⟨_, rfl⟩ := RootStack.push_eq_error_iff.mp hp
    rw [hp] at h
    cases h
    exact nofun

theorem Session.not_admits_of_rejects (h : s.Rejects r) : ¬ s.Admits r := by
  intro ha
  obtain ⟨e, he, hrun⟩ := h.push
  rw [ha.push] at hrun
  exact Mutator.not_ofReference_pushSlot hrun he

variable (hp : s.collector.phase ≠ .poisoned)
include hp

theorem Session.admits {found : Location × Header} (hc : s.collector.checkObject r = .ok found) : s.Admits r where
  push := Mutator.run_rootPush_ok hp hc
  set v i loc hl := by
    obtain ⟨b, hb, _, hrun⟩ := Mutator.run_vectorSet_ok hp hl fun _ hv => Option.some.inj hv ▸ ⟨_, hc⟩
    exact ⟨b, hb, hrun⟩
  element elements hall := by
    rcases Mutator.run_allocVector_or hp elements with ⟨v, hv, e, he, _⟩ | ⟨_, ⟨_, hrun⟩ | ⟨t, x, hrun⟩⟩
    · rcases hall v hv with rfl | ⟨found', hf⟩
      · rw [hc] at he
        cases he
      · rw [hf] at he
        cases he
    · exact Or.inl (congrArg answer hrun)
    · exact Or.inr ⟨t, x, hrun⟩

theorem Session.rejects (hc : s.collector.checkObject r = .error e) : s.Rejects r where
  push := ⟨e, Collector.checkObject_throws _ _ _ hc, Mutator.run_rootPush_error hp hc⟩
  set v i loc hl := ⟨e, Collector.checkObject_throws _ _ _ hc, Mutator.run_vectorSet_error hp hl hc⟩
  element elements hr := by
    rcases Mutator.run_allocVector_or hp elements with ⟨v, _, e', he', hrun⟩ | ⟨hok, _⟩
    · exact ⟨e', Collector.checkObject_throws _ _ _ he', hrun⟩
    · obtain ⟨found, hf⟩ := hok r hr
      rw [hc] at hf
      cases hf

end

/-- A reference is admitted exactly when it is the start of a record of the active half or a word inside
one that is misread; all others are rejected, and nothing is pushed or stored then. -/
theorem RecordRun.admits_iff {machine : Machine} {config : Config} {s : Session} {records : Set Word}
    (h : RecordRun machine config s records) (r : Ref) :
    (s.Admits r ↔ r.addr ∈ records ∨ s.collector.Misread records r.addr) ∧
    (s.Rejects r ↔ r.addr ∉ records ∧ ¬ s.collector.Misread records r.addr) ∧
    (r.addr ∈ records → ¬ s.collector.Misread records r.addr) := by
  obtain ⟨st, place, live, rs, R, rfl⟩ := h.represents
  have hiff : (∃ found, s.collector.checkObject r = .ok found) ↔ _ :=
    Collector.exists_checkObject_iff_starts R.tiled R.top_le fun e he i => R.slot_starts he
  refine ⟨?admitted, ?rejected, Collector.not_misread R.tiled R.top_le⟩
  case admitted =>
    refine Iff.trans ⟨fun ha => ?_, ?_⟩ hiff
    · cases hc : s.collector.checkObject r with
      | ok found => exact ⟨found, rfl⟩
      | error e => exact absurd ha (Session.not_admits_of_rejects (Session.rejects R.usable hc))
    · rintro ⟨found, hc⟩
      exact Session.admits R.usable hc
  case rejected =>
    refine Iff.trans ⟨fun hr hex => ?_, fun hnone => ?_⟩ ((not_congr hiff).trans not_or)
    · obtain ⟨found, hc⟩ := hex
      exact Session.not_admits_of_rejects hr (Session.admits R.usable hc)
    · cases hc : s.collector.checkObject r with
      | ok found => exact absurd ⟨found, hc⟩ hnone
      | error e => exact Session.rejects R.usable hc

/-! ## Two integers -/

/-- The integers 0 and 7 in a small collector. -/
def Session.pair : Session :=
  endState ((Op.allocInt 7).perform.run (endState ((Op.allocInt 0).perform.run .small)))

/-- The first integer. -/
def Ref.naught : Ref := (answer ((Op.allocInt 0).perform.run .small)).toOption.join.get (by decide +kernel)

/-- The word that holds its value. -/
def Ref.inner : Ref := (Ref.ofWord? (Session.pair.collector.arena.address ⟨.low, 1⟩)).get (by decide +kernel)

theorem notMem_recordsAfter {s : Session} {records : Set Word} {op : Op Ref}
    {out : EStateM.Result Error Session (Option Ref)} {w : Word}
    (hc : (endState out).collector.cycles = s.collector.cycles) (hw : w ∉ records)
    (ha : (answer out).toOption.join.map Ref.addr ≠ some w) : w ∉ recordsAfter s records op out := by
  rintro (⟨_, r, hr, rfl⟩ | hm)
  · rw [hr] at ha
    exact ha rfl
  · rw [recordsSince_of_eq hc] at hm
    exact hw hm

theorem exists_run_pair : ∃ records, RecordRun .standard ⟨64, 4, false, false⟩ .pair records ∧
    Ref.naught.addr ∈ records ∧ Ref.inner.addr ∉ records := by
  refine ⟨_, .step (.allocInt 7) (.step (.allocInt 0) (.start Session.small_created) nofun) nofun, ?_, ?_⟩
  · refine Or.inr ?_
    rw [recordsSince_of_eq (by decide +kernel)]
    refine Or.inl ⟨rfl, Ref.naught, ?_, rfl⟩
    show answer ((Op.allocInt 0).perform.run .small) = .ok (some Ref.naught)
    decide +kernel
  · exact notMem_recordsAfter (by decide +kernel)
      (notMem_recordsAfter (by decide +kernel) (Set.notMem_empty _) (by decide +kernel)) (by decide +kernel)

/-- The value of the first integer reads as another one, which goes on the root stack. -/
theorem rootPush_inner : ∃ records s', RecordRun .standard ⟨64, 4, false, false⟩ .pair records ∧
    Ref.inner.addr ∉ records ∧ (Mutator.rootPush .inner).run .pair = .ok () s' ∧
    s'.collector.roots.toList = [.inner] := by
  obtain ⟨records, hrun, _, hinner⟩ := exists_run_pair
  refine ⟨records, _, hrun, hinner, @eq_ok_get _ _ _ ((Mutator.rootPush .inner).run .pair) (by decide +kernel), ?_⟩
  decide +kernel

theorem admits_iff_pair : ∃ records, RecordRun .standard ⟨64, 4, false, false⟩ .pair records ∧
    Ref.naught.addr ∈ records ∧ Session.pair.Admits .naught ∧ ¬ Session.pair.Rejects .naught := by
  obtain ⟨records, hrun, hnaught, _⟩ := exists_run_pair
  obtain ⟨hadmits, hrejects, _⟩ := hrun.admits_iff .naught
  exact ⟨records, hrun, hnaught, hadmits.mpr (Or.inl hnaught), fun h => (hrejects.mp h).1 hnaught⟩

end Semispace
