import Semispace.Proofs.Relocation.Repeats
import Semispace.Proofs.Relocation.Rounds

/-!
# Copies that fail

Room is taken before the words are moved, so a copy whose words cannot be moved leaves its room taken, and
nothing else. In a pass there is always a half to move them to: a word that is not relocated leaves no
trace there (`failed_copy_keeps`).
-/

namespace Semispace

namespace Arena

variable {a b : Arena} {source target : Location} {n : Nat}

theorem copy_within (hh : source.half = target.half) :
    a.copy source target n = .error (.internal (.copyWithinHalf source.half)) := by
  unfold copy
  rw [if_pos hh]
  rfl

theorem copy_between (hh : source.half ≠ target.half) :
    a.copy source target n = (a.checkRange source n).bind fun _ => (a.checkRange target n).map fun _ =>
      { a with memory := a.memory.copy (a.layout.cell source) (a.layout.cell target) n } := by
  unfold copy
  rw [if_neg hh]
  cases a.checkRange source n with
  | error e => rfl
  | ok _ => cases a.checkRange target n <;> rfl

theorem copy_eq (h : a.copy source target n = .ok b) :
    b = { a with memory := a.memory.copy (a.layout.cell source) (a.layout.cell target) n } := by
  by_cases hh : source.half = target.half
  · rw [copy_within hh] at h
    cases h
  · rw [copy_between hh] at h
    cases hs : a.checkRange source n with
    | error e => rw [hs] at h; cases h
    | ok _ =>
      cases ht : a.checkRange target n with
      | error e => rw [hs, ht] at h; cases h
      | ok _ => rw [hs, ht] at h; cases h; rfl

/-- Words that can be read are not copied for one of three reasons. -/
theorem copy_eq_error_iff (hs : a.checkRange source n = .ok ()) : (∃ e, a.copy source target n = .error e) ↔
    source.half = target.half ∨ a.spaceWords < target.offset + n ∨ a.isOpen target.half = false := by
  by_cases hh : source.half = target.half
  · exact iff_of_true ⟨_, copy_within hh⟩ (.inl hh)
  · have ht := @checkRange_eq_ok_iff a target n
    rw [copy_between hh, hs]
    cases hc : a.checkRange target n with
    | error e =>
      rw [hc] at ht
      have hno : ¬ (target.offset + n ≤ a.spaceWords ∧ a.isOpen target.half = true) := fun hr => nomatch ht.mpr hr
      refine iff_of_true ⟨e, rfl⟩ (.inr ?_)
      by_cases hr : target.offset + n ≤ a.spaceWords
      · exact .inr (eq_false_of_ne_true fun ho => hno ⟨hr, ho⟩)
      · exact .inl (Nat.not_le.mp hr)
    | ok _ =>
      obtain ⟨hr, ho⟩ := ht.mp hc
      refine iff_of_false (fun ⟨_, he⟩ => nomatch he) ?_
      rintro (h | h | h)
      · exact hh h
      · omega
      · rw [ho] at h
        cases h

end Arena

namespace Copier

variable {c c' : Copier} {half : Half} {source : Location} {h : Header} {e : Error}

/-- The object can be read and there is room for it, but not in the half: it would end past the last word,
or the half is the one it lies in, or is shut. -/
structure Stranded (c : Copier) (half : Half) (source : Location) (h : Header) : Prop where
  read : Header.read c.arena source = .ok h
  room : c.cursor.top + h.size ≤ c.cursor.capacity
  refused : source.half = half ∨ c.arena.spaceWords < c.cursor.top + h.size ∨ c.arena.isOpen half = false

theorem Stranded.header_eq (s : c.Stranded half source h) {h' : Header} (hr : Header.read c.arena source = .ok h') :
    h' = h :=
  Except.ok.inj (hr.symm.trans s.read)

/-- The ways in which a copy ends. -/
inductive Ending (c : Copier) (half : Half) (source : Location) : EStateM.Result Error Copier Location → Prop
  | unread {e : Error} : Header.read c.arena source = .error e → Ending c half source (.error e c)
  | full {e : Error} {h : Header} : Header.read c.arena source = .ok h → c.cursor.capacity < c.cursor.top + h.size →
      Ending c half source (.error e c)
  | stranded {e : Error} {h : Header} (s : c.Stranded half source h) :
      Ending c half source (.error e { c with cursor := ⟨c.cursor.top + h.size, c.cursor.capacity, s.room⟩ })
  | copied {h : Header} {b : Arena} {target : Location} {cursor : Cursor} {copies : Array Copy} :
      Header.read c.arena source = .ok h → (¬ ∃ h, c.Stranded half source h) → b.layout = c.arena.layout →
      b.active = c.arena.active → b.inactiveOpen = c.arena.inactiveOpen → cursor.capacity = c.cursor.capacity →
      Ending c half source (.ok target ⟨b, cursor, copies⟩)

theorem ending (c : Copier) (half : Half) (source : Location) : Ending c half source ((copyObject half source).run c) := by
  cases hr : Header.read c.arena source with
  | error e =>
    rw [run_copyObject_unread hr]
    exact .unread hr
  | ok h =>
    by_cases hf : c.cursor.top + h.size ≤ c.cursor.capacity
    · obtain ⟨_, ho, hfits⟩ := Header.read_eq_ok_iff.mp hr
      have hcheck : c.arena.checkRange source h.size = .ok () := Arena.checkRange_of_ok hfits ho
      have hiff := @Arena.copy_eq_error_iff c.arena source ⟨half, c.cursor.top⟩ h.size hcheck
      have ht : c.cursor.take h.size = .ok (c.cursor.top, ⟨c.cursor.top + h.size, c.cursor.capacity, hf⟩) := by
        unfold Cursor.take; rw [dif_pos hf]
      simp only [copyObject, EStateM.run_bind, EStateM.run_get]
      rw [hr, run_liftM_ok]
      simp only [ht, EStateM.run_bind, EStateM.run_set]
      cases hc : c.arena.copy source ⟨half, c.cursor.top⟩ h.size with
      | error e => exact .stranded ⟨hr, hf, hiff.mp ⟨e, hc⟩⟩
      | ok b =>
        have hb := Arena.copy_eq hc
        refine .copied hr ?_ (by rw [hb]) (by rw [hb]) (by rw [hb]) rfl
        rintro ⟨h', s⟩
        obtain rfl := s.header_eq hr
        obtain ⟨e, he⟩ := hiff.mpr s.refused
        rw [hc] at he
        cases he
    · rw [run_copyObject_full half hr (Nat.not_le.mp hf)]
      exact .full hr (Nat.not_le.mp hf)

theorem copyObject_error (hrun : (copyObject half source).run c = .error e c') :
    c'.arena = c.arena ∧ c'.copies = c.copies ∧ c'.cursor.capacity = c.cursor.capacity ∧
      ((∀ h, ¬ c.Stranded half source h) → c' = c) ∧
      ∀ h, c.Stranded half source h → c'.cursor.top = c.cursor.top + h.size := by
  have hend := ending c half source
  rw [hrun] at hend
  cases hend with
  | unread hr =>
    refine ⟨rfl, rfl, rfl, fun _ => rfl, fun h s => ?_⟩
    cases hr.symm.trans s.read
  | @full _ h hr hf =>
    refine ⟨rfl, rfl, rfl, fun _ => rfl, fun h' s => ?_⟩
    obtain rfl := s.header_eq hr
    exact absurd s.room (Nat.not_le.mpr hf)
  | @stranded _ h s =>
    refine ⟨rfl, rfl, rfl, fun hno => absurd s (hno h), fun h' s' => ?_⟩
    obtain rfl := s'.header_eq s.read
    rfl

end Copier

/-! ## In a pass -/

/-- An operation that keeps a property of its state, whether it answers or not. -/
def Preserves {ε σ α : Type} (P : σ → Prop) (x : EStateM ε σ α) : Prop := ∀ s, P s → P (endState (x.run s))

namespace Preserves

variable {ε σ α β : Type} {P : σ → Prop}

theorem pure (a : α) : Preserves P (Pure.pure a : EStateM ε σ α) := fun _ h => h

theorem get : Preserves P (MonadState.get : EStateM ε σ σ) := fun _ h => h

theorem lift (x : Except ε α) : Preserves P (liftM x : EStateM ε σ α) := by
  cases x <;> exact fun _ h => h

theorem bind {x : EStateM ε σ α} {f : α → EStateM ε σ β} (hx : Preserves P x) (hf : ∀ a, Preserves P (f a)) :
    Preserves P (x >>= f) := by
  intro s h
  have hfirst := hx s h
  rw [EStateM.run_bind]
  cases hr : x.run s with
  | ok a s' => rw [hr] at hfirst; exact hf a s' hfirst
  | error e s' => rw [hr] at hfirst; exact hfirst

end Preserves

namespace Pass

variable {a : Arena} {top : Nat} {p p' : Pass} {w : Word} {e : Error}

/-- A pass over an arena on its way: the half it copies to is open and as large as its cursor, and what is
entered in its table are places of the source in use. -/
structure Underway (a : Arena) (top : Nat) (p : Pass) : Prop where
  layout : p.arena.layout = a.layout
  active : p.arena.active = a.active
  opened : p.arena.inactiveOpen = true
  capacity : p.cursor.capacity = a.spaceWords
  sourceTop : p.sourceTop = top
  entered : ∀ w, p.table.find? w ≠ none → ∃ o < top, a.locate w = some ⟨a.active, o⟩

theorem underway_of_start (h : start a top = .ok p) : Underway a top p := by
  rw [start_eq_ok h]
  exact ⟨rfl, rfl, rfl, rfl, rfl, fun w hw => absurd (ForwardTable.find?_empty w) hw⟩

namespace Underway

theorem spaceWords (U : Underway a top p) : p.arena.spaceWords = a.spaceWords := by
  unfold Arena.spaceWords
  rw [U.layout]

theorem destination (U : Underway a top p) : p.destination = a.active.other := congrArg Half.other U.active

theorem locate (U : Underway a top p) (w : Word) : p.arena.locate w = a.locate w := by
  unfold Arena.locate
  rw [U.layout]

/-- The places of the source in use. -/
theorem source_iff (U : Underway a top p) : (∃ source, p.arena.locate w = some source ∧ source.half ≠ p.destination ∧
    source.offset < p.sourceTop) ↔ ∃ o < top, a.locate w = some ⟨a.active, o⟩ := by
  rw [U.locate, U.destination, U.sourceTop]
  constructor
  · rintro ⟨⟨half, o⟩, hl, hh, ho⟩
    obtain rfl : half = a.active := (Half.eq_or_eq_other a.active half).resolve_right hh
    exact ⟨o, ho, hl⟩
  · rintro ⟨o, ho, hl⟩
    exact ⟨_, hl, Half.ne_other _, ho⟩

/-- In a pass there is a half to copy to. -/
theorem not_stranded (U : Underway a top p) {source : Location} (hh : source.half ≠ p.destination) (h : Header) :
    ¬ p.copier.Stranded p.destination source h := by
  intro s
  have hroom := s.room
  rw [show p.copier.cursor.capacity = p.copier.arena.spaceWords from U.capacity.trans U.spaceWords.symm] at hroom
  have hopen : p.copier.arena.isOpen p.destination = true := (Arena.isOpen_inactive _).trans U.opened
  rcases s.refused with h | h | h
  · exact hh h
  · omega
  · rw [hopen] at h
    cases h

theorem relocate (U : Underway a top p) (w : Word) : Underway a top (endState ((Pass.relocate w).run p)) ∧
    ∀ e p', (Pass.relocate w).run p = .error e p' → p' = p ∧ p.table.find? w = none := by
  by_cases hw : w = 0
  · subst hw
    exact ⟨U, fun _ _ h => nomatch h⟩
  by_cases hl : ∃ source, p.arena.locate w = some source ∧ source.half ≠ p.destination ∧ source.offset < p.sourceTop
  · have hentry := U.source_iff.mp hl
    obtain ⟨source, hl, hh, ht⟩ := hl
    rw [run_relocate hw hl hh ht]
    cases hf : p.table.find? w with
    | some new =>
      rw [run_forward_found hf]
      exact ⟨U, fun _ _ h => nomatch h⟩
    | none =>
      have hend := Copier.ending p.copier p.destination source
      cases hr : (Copier.copyObject p.destination source).run p.copier with
      | error e c =>
        have hc : c = p.copier := (Copier.copyObject_error hr).2.2.2.1 (U.not_stranded hh)
        rw [run_forward_failed hf hr, hc]
        exact ⟨U, fun e' p' h => by cases h; exact ⟨rfl, rfl⟩⟩
      | ok target c =>
        rw [hr] at hend
        rw [run_forward_copied hf hr]
        refine ⟨?_, fun _ _ h => nomatch h⟩
        cases hend with
        | copied _ _ hlayout hactive hopened hcapacity =>
          refine ⟨hlayout.trans U.layout, hactive.trans U.active, hopened.trans U.opened, hcapacity.trans U.capacity,
            U.sourceTop, fun w' hw' => ?_⟩
          rw [endState_ok, ForwardTable.find?_insert] at hw'
          by_cases he : w = w'
          · exact he ▸ hentry
          · rw [if_neg he] at hw'
            exact U.entered w' hw'
  · obtain ⟨e, hr⟩ := run_relocate_refused hw fun source h1 h2 => Nat.not_lt.mp fun h3 => hl ⟨source, h1, h2, h3⟩
    rw [hr]
    refine ⟨U, fun e' p' h => ?_⟩
    cases h
    exact ⟨rfl, Classical.byContradiction fun hf => hl (U.source_iff.mpr (U.entered w hf))⟩

theorem relocateSlot (loc : Location) : Preserves (Underway a top) (Pass.relocateSlot loc) := by
  refine Preserves.get.bind fun _ => (Preserves.lift _).bind fun old => ?_
  refine Preserves.bind (fun p U => (U.relocate old).1) fun new => ?_
  split
  · intro p U
    rw [run_get_bind]
    cases hw : p.arena.write loc new with
    | error e => exact U
    | ok b =>
      obtain ⟨_, rfl⟩ := Arena.write_eq hw
      exact ⟨U.layout, U.active, U.opened, U.capacity, U.sourceTop, U.entered⟩
  · exact .pure _

theorem relocateSlots : ∀ (loc : Location) (n : Nat), Preserves (Underway a top) (Pass.relocateSlots loc n)
  | _, 0 => .pure _
  | loc, n + 1 => (relocateSlot loc).bind fun _ => relocateSlots (loc.add 1) n

theorem scanObject (offset : Nat) : Preserves (Underway a top) (Pass.scanObject offset) :=
  Preserves.get.bind fun _ => (Preserves.lift _).bind fun _ => (relocateSlots _ _).bind fun _ => .pure _

theorem scanFrom (offset : Nat) (p : Pass) : Underway a top p → Underway a top (endState (Pass.scanFrom offset p)) := by
  induction offset, p using Pass.scanFrom.induct with
  | case1 offset p hlt e p' hr =>
    intro U
    have hend := scanObject offset p U
    rw [hr] at hend
    rw [scanFrom_error hlt hr]
    exact hend
  | case2 offset p hlt n p' hr ih =>
    intro U
    have hend := scanObject offset p U
    rw [hr] at hend
    rw [scanFrom_next hlt hr]
    exact ih hend
  | case3 offset p hlt =>
    intro U
    rw [scanFrom_done (Nat.not_lt.mp hlt)]
    exact U

theorem relocateRoots : ∀ (rs : List Ref) {p : Pass}, Underway a top p →
    Underway a top (endState (Pass.relocateRoots rs p).2)
  | [], _, U => U
  | r :: rs, p, U => by
    have hend := (U.relocate r.addr).1
    cases hr : (Pass.relocate r.addr).run p with
    | error e q =>
      rw [hr] at hend
      rw [relocateRoots_cons_error rs hr]
      exact hend
    | ok w q =>
      rw [hr] at hend
      cases hw : Ref.ofWord? w with
      | none =>
        rw [relocateRoots_cons_null rs hr hw]
        exact hend
      | some new =>
        rw [relocateRoots_cons_ok rs hr hw]
        exact relocateRoots rs hend

end Underway

/-- What can be asked of a pass. -/
inductive Errand
  | relocate (w : Word)
  | roots (rs : List Ref)
  | scan

/-- The pass afterwards, also when it was refused. -/
def Errand.perform (p : Pass) : Errand → Pass
  | relocate w => endState ((Pass.relocate w).run p)
  | roots rs => endState (relocateRoots rs p).2
  | scan => endState (Pass.scan.run p)

theorem underway_errands (errands : List Errand) : ∀ {p : Pass}, Underway a top p →
    Underway a top (errands.foldl Errand.perform p) := by
  induction errands with
  | nil => exact fun U => U
  | cons x errands ih =>
    intro p U
    refine ih ?_
    cases x with
    | relocate w => exact (U.relocate w).1
    | roots rs => exact U.relocateRoots rs
    | scan => exact U.scanFrom 0 p

end Pass

/-- A copy that fails changes neither the heap nor what was counted, whatever the words of the heap. The room at
the destination stays free as well, unless the object could be read and its words could not be moved to the
room taken for them: then this room stays taken. In a pass that cannot be; a word that is not relocated
there changes nothing at all, and has no entry in the table. -/
theorem failed_copy_keeps :
    (∀ (c c' : Copier) (half : Half) (source : Location) (e : Error),
      (Copier.copyObject half source).run c = .error e c' →
        c'.arena = c.arena ∧ c'.objectsCopied = c.objectsCopied ∧ c'.wordsCopied = c.wordsCopied ∧
        ((∀ h, ¬ c.Stranded half source h) → c'.cursor = c.cursor) ∧
        ∀ h, c.Stranded half source h → c'.cursor.top = c.cursor.top + h.size ∧
          c'.cursor.capacity = c.cursor.capacity) ∧
    ∀ (a : Arena) (top : Nat) (p : Pass) (errands : List Pass.Errand) (w : Word) (e : Error) (p' : Pass),
      Pass.start a top = .ok p → (Pass.relocate w).run (errands.foldl Pass.Errand.perform p) = .error e p' →
        p' = errands.foldl Pass.Errand.perform p ∧ p'.table.find? w = none := by
  refine ⟨fun c c' half source e hrun => ?_, fun a top p errands w e p' hstart hrun => ?_⟩
  · obtain ⟨harena, hcopies, hcapacity, hfree, htaken⟩ := Copier.copyObject_error hrun
    refine ⟨harena, ?_, ?_, fun hno => congrArg Copier.cursor (hfree hno), fun h s => ⟨htaken h s, hcapacity⟩⟩
    · rw [Copier.objectsCopied, hcopies]
      rfl
    · rw [Copier.wordsCopied, hcopies]
      rfl
  · have U := Pass.underway_errands errands (Pass.underway_of_start hstart)
    obtain ⟨rfl, hnone⟩ := (U.relocate w).2 e p' hrun
    exact ⟨rfl, hnone⟩

/-- The half copied to is shut, and two words of it stay taken. -/
theorem copyObject_reserves_shut : ∃ a, Arena.map .standard 64 = .ok a ∧
    ∃ c', (Copier.copyObject .high ⟨.low, 0⟩).run (.ofArena a) =
        .error (.protectedAccess (a.address ⟨.high, 0⟩)) c' ∧
      (Copier.ofArena a).cursor.top = 0 ∧ c'.cursor.top = 2 :=
  ⟨_, rfl, _, rfl, rfl, rfl⟩

/-- The same copy, and a pass over two objects, the second of them damaged. -/
theorem failed_copy_keeps_shut : ∃ a, Arena.map .standard 64 = .ok a ∧
    (∃ e c', (Copier.copyObject .high ⟨.low, 0⟩).run (.ofArena a) = .error e c' ∧
      c'.arena = a ∧ c'.objectsCopied = 0 ∧ c'.wordsCopied = 0 ∧ c'.cursor.top = 2) ∧
    ∃ b p e p', a.openInactive.write ⟨.low, 2⟩ 42 = .ok b ∧ Pass.start b 4 = .ok p ∧
      let q := [Pass.Errand.relocate (a.address ⟨.low, 0⟩)].foldl Pass.Errand.perform p
      (Pass.relocate (a.address ⟨.low, 2⟩)).run q = .error e p' ∧ q.cursor.top = 2 ∧ p' = q ∧
        p'.table.find? (a.address ⟨.low, 2⟩) = none := by
  obtain ⟨hcopy, hpass⟩ := failed_copy_keeps
  have h : Arena.map .standard 64 = .ok ⟨⟨.standard, 32, by decide, by decide⟩, .low, false, .empty⟩ := rfl
  refine ⟨_, h, ?_, ?_⟩
  · obtain ⟨e, c', hrun⟩ : ∃ e c', (Copier.copyObject .high ⟨.low, 0⟩).run
        (.ofArena ⟨⟨.standard, 32, by decide, by decide⟩, .low, false, .empty⟩) = .error e c' := ⟨_, _, rfl⟩
    obtain ⟨harena, hobjects, hwords, _, htaken⟩ := hcopy _ _ _ _ _ hrun
    exact ⟨e, c', hrun, harena, hobjects, hwords, (htaken ⟨.int, 0⟩ ⟨rfl, by decide, .inr (.inr rfl)⟩).1⟩
  · generalize hl : (⟨.standard, 32, by decide, by decide⟩ : Layout) = l
    obtain ⟨b, p, e, p', hb, hstart, hrun, htop⟩ : ∃ b p e p',
        Arena.write ⟨l, .low, true, .empty⟩ ⟨.low, 2⟩ 42 = .ok b ∧ Pass.start b 4 = .ok p ∧
        (Pass.relocate (l.address ⟨.low, 2⟩)).run (Pass.Errand.perform p (.relocate (l.address ⟨.low, 0⟩))) =
          .error e p' ∧ (Pass.Errand.perform p (.relocate (l.address ⟨.low, 0⟩))).cursor.top = 2 := by
      subst hl
      exact ⟨_, _, _, _, rfl, rfl, rfl, rfl⟩
    obtain ⟨hsame, hnone⟩ := hpass b 4 p [.relocate _] _ e p' hstart hrun
    exact ⟨b, p, e, p', hb, hstart, hrun, htop, hsame, hnone⟩

end Semispace
