import Semispace.Proofs.Collector.Validity

/-!
# Allocation

An allocation hands out the next free words (`Extended`), after one pass over all roots when they do
not suffice. What a pass leaves in use is what the roots reach, so it is refused exactly when there is
no room beside that (`allocate_needs_room`).
-/

namespace Semispace

/-- The collector `c` with words stored after the last record. -/
structure Extended (c c' : Collector) (ws : List Word) : Prop where
  fits : c.cursor.top + ws.length ≤ c.cursor.capacity
  stored : c.arena.Stored c'.arena ⟨c.arena.active, c.cursor.top⟩ ws
  top : c'.cursor.top = c.cursor.top + ws.length
  capacity : c'.cursor.capacity = c.cursor.capacity
  roots : c'.roots = c.roots
  phase : c'.phase = c.phase
  cycles : c'.cycles = c.cycles

namespace Extended

variable {c c' : Collector} {ws : List Word} (x : Extended c c' ws)
include x

theorem spaceWords : c'.arena.spaceWords = c.arena.spaceWords := x.stored.spaceWords

theorem address (o : Nat) : c'.arena.address ⟨c'.arena.active, o⟩ = c.arena.address ⟨c.arena.active, o⟩ := by
  rw [x.stored.address, x.stored.active]

theorem word_old {o : Nat} (h : o < c.cursor.top) (hs : o < c.arena.spaceWords) :
    c'.arena.word ⟨c'.arena.active, o⟩ = c.arena.word ⟨c.arena.active, o⟩ := by
  rw [x.stored.active]
  exact x.stored.outside ⟨c.arena.active, o⟩ hs fun _ => Or.inl h

theorem word_new {k : Nat} (h : k < ws.length) : c'.arena.word ⟨c'.arena.active, c.cursor.top + k⟩ = ws[k] := by
  rw [x.stored.active]
  exact x.stored.inside k h

/-- The address that was handed out is that of the first of the words. -/
theorem located {r : Ref} (hw : c.WellFormed) (hr : r.addr = c.arena.address ⟨c.arena.active, c.cursor.top⟩)
    (hne : ws ≠ []) : c'.arena.locate r.addr = some ⟨c'.arena.active, c.cursor.top⟩ := by
  have hpos : 0 < ws.length := List.length_pos_iff.mpr hne
  have hfits : c.cursor.top + ws.length ≤ c.arena.spaceWords := hw ▸ x.fits
  rw [x.stored.locate, x.stored.active, hr]
  exact c.arena.layout.locate_address (Nat.lt_of_lt_of_le (Nat.lt_add_of_pos_right hpos) hfits)

theorem headerAt_old {o : Nat} (h : o + 1 < c.cursor.top) (htop : c.cursor.top ≤ c.arena.spaceWords) :
    c'.arena.headerAt ⟨c'.arena.active, o⟩ = c.arena.headerAt ⟨c.arena.active, o⟩ :=
  congrArg₂ Header.decode (x.word_old (by omega) (by omega)) (x.word_old (o := o + 1) h (by omega))

end Extended

namespace Mutator

theorem run_writeWords : ∀ {ws : List Word} {loc : Location} {s : Session},
    loc.offset + ws.length ≤ s.collector.arena.spaceWords → s.collector.arena.isOpen loc.half = true →
    ∃ b, (writeWords loc ws).run s = .ok () { s with collector := { s.collector with arena := b } } ∧
      s.collector.arena.Stored b loc ws
  | [], loc, s, _, _ => ⟨s.collector.arena, rfl, .nil _ _⟩
  | w :: ws, loc, s, hl, ho => by
    rw [List.length_cons] at hl
    have hlt : loc.offset < s.collector.arena.spaceWords := by omega
    obtain ⟨b, hb, hst⟩ := Arena.write_ok w hlt ho
    have hl' : (loc.add 1).offset + ws.length ≤ b.spaceWords := by
      rw [hst.spaceWords]
      show loc.offset + 1 + ws.length ≤ _
      omega
    obtain ⟨b', hrun, hst'⟩ := @run_writeWords ws (loc.add 1) { s with collector := { s.collector with arena := b } } hl'
      ((hst.isOpen _).trans ho)
    refine ⟨b', ?_, hst.cons hst' hlt⟩
    -- each word goes into the heap as the words before it leave it
    unfold writeWords
    rw [run_collector_bind, run_liftM_bind hb, run_update_bind]
    exact hrun

theorem run_fill {c : Collector} {s : Session} {r : Ref} {ws ws' : List Word} (x : Extended c s.collector ws)
    (hc : c.WellFormed) (hr : r.addr = c.arena.address ⟨c.arena.active, c.cursor.top⟩) (hl : ws.length = ws'.length)
    (hw : ws ≠ []) : ∃ s', (fill r ws').run s = .ok () s' ∧ Extended c s'.collector ws' := by
  have hpos : 0 < ws.length := List.length_pos_iff.mpr hw
  have hfits : c.cursor.top + ws.length ≤ c.arena.spaceWords := hc ▸ x.fits
  have hspace : s.collector.arena.spaceWords = c.arena.spaceWords := x.stored.spaceWords
  have hlocate : s.collector.arena.locate r.addr = some ⟨c.arena.active, c.cursor.top⟩ :=
    x.stored.active ▸ x.located hc hr hw
  have hloc : s.collector.wordLocation r 0 = .ok ⟨c.arena.active, c.cursor.top⟩ := by
    unfold Collector.wordLocation
    rw [hlocate]
    dsimp only
    rw [if_neg (fun h => h x.stored.active.symm), if_neg (by rw [x.top]; omega)]
    rfl
  have hopen : s.collector.arena.isOpen c.arena.active = true := by
    rw [x.stored.isOpen]
    exact c.arena.isOpen_active
  obtain ⟨b, hrun, hst⟩ := @run_writeWords ws' ⟨c.arena.active, c.cursor.top⟩ s
    (by rw [hspace, ← hl]; exact hfits) hopen
  have hfill : (fill r ws').run s = .ok () { s with collector := { s.collector with arena := b } } := by
    unfold fill
    rw [run_collector_bind, run_liftM_bind hloc]
    exact hrun
  exact ⟨_, hfill, hl ▸ x.fits, x.stored.overwrite hst hl, hl ▸ x.top, x.capacity, x.roots, x.phase, x.cycles⟩

/-- Words that fit are handed out zeroed. -/
theorem run_handOut {s : Session} {words : Nat} (hw : s.collector.WellFormed) (hpos : words ≠ 0)
    (hf : s.collector.cursor.fits words = true) :
    ∃ r s', (handOut words).run s = .ok r s' ∧
      r.addr = s.collector.arena.address ⟨s.collector.arena.active, s.collector.cursor.top⟩ ∧
      Extended s.collector s'.collector (List.replicate words 0) ∧ s'.journal = s.journal := by
  have hfits : s.collector.cursor.top + words ≤ s.collector.cursor.capacity := of_decide_eq_true hf
  have hspace : s.collector.cursor.top + words ≤ s.collector.arena.spaceWords := hw ▸ hfits
  have htake : s.collector.cursor.take words = .ok (s.collector.cursor.top,
      ⟨s.collector.cursor.top + words, s.collector.cursor.capacity, hfits⟩) := by
    unfold Cursor.take
    rw [dif_pos hfits]
  obtain ⟨b, hb, hst⟩ := @Arena.zero_ok s.collector.arena ⟨s.collector.arena.active, s.collector.cursor.top⟩ words
    hspace s.collector.arena.isOpen_active
  have hne : s.collector.arena.address ⟨s.collector.arena.active, s.collector.cursor.top⟩ ≠ 0 :=
    s.collector.arena.layout.address_ne_zero
      (Nat.lt_of_lt_of_le (Nat.lt_add_of_pos_right (Nat.pos_of_ne_zero hpos)) hspace)
  have haddr : b.address ⟨s.collector.arena.active, s.collector.cursor.top⟩ =
      s.collector.arena.address ⟨s.collector.arena.active, s.collector.cursor.top⟩ := hst.address _
  have hlen : (List.replicate words (0 : Word)).length = words := List.length_replicate
  unfold handOut
  rw [run_collector_bind, run_liftM_bind htake]
  dsimp only
  rw [run_update_bind, run_liftM_bind hb, run_update_bind, haddr, Ref.ofWord?_of_ne hne]
  exact ⟨_, _, rfl, rfl, ⟨by rw [hlen]; exact hfits, hst, by rw [hlen], rfl, rfl, rfl, rfl⟩, rfl⟩

theorem run_allocate_fits {s : Session} {words : Nat} (hw : s.collector.WellFormed) (hp : s.collector.phase ≠ .poisoned)
    (hpos : words ≠ 0) (hf : s.collector.cursor.fits words = true) :
    ∃ r s', (allocate words).run s = .ok r s' ∧
      r.addr = s.collector.arena.address ⟨s.collector.arena.active, s.collector.cursor.top⟩ ∧
      Extended s.collector s'.collector (List.replicate words 0) ∧ s'.journal = s.journal := by
  obtain ⟨r, s', hout, hgiven⟩ := run_handOut hw hpos hf
  refine ⟨r, s', ?_, hgiven⟩
  rw [run_allocate hp hpos, run_bind_ok (run_ensureRoom_fits hf)]
  exact hout

/-- An allocation that does not fit hands out words after a pass, or none. -/
theorem run_allocate_full {s : Session} {words : Nat} {p : Pass} (hw : s.collector.WellFormed)
    (hp : s.collector.phase ≠ .poisoned) (hf : s.collector.cursor.fits words = false)
    (hr : (s.collector.relocateLive s.collector.roots.top).2 = .ok () p) :
    ∃ m s' vs, Swept (s.triggered words) s.collector.roots.top
        (.allocationFailure words s.collector.cursor.remaining) p m ∧
      Extended m.collector s'.collector vs ∧ s'.journal.events = m.journal.events ∧
      ((∃ r, (allocate words).run s = .ok r s' ∧ vs.length = words ∧
          r.addr = m.collector.arena.address ⟨m.collector.arena.active, m.collector.cursor.top⟩) ∨
        m.collector.cursor.fits words = false ∧ vs = [] ∧
          (allocate words).run s = .error (.outOfMemory words m.collector.cursor.remaining) s') := by
  have hpos := Cursor.ne_zero_of_not_fits hf
  have hroom := run_ensureRoom s words
  rw [run_allocate hp hpos]
  generalize hout : (ensureRoom words).run s = out at hroom
  cases hroom with
  | fits hf' => rw [hf] at hf'; cases hf'
  | failed _ hr' _ => rw [hr] at hr'; cases hr'
  | @made p' m _ hr' hs hf' =>
    rw [hr] at hr'
    cases hr'
    obtain ⟨hwell, _⟩ := Swept.copied (s := s.triggered words) hw hr hs
    obtain ⟨r, s', hgive, haddr, x, hj⟩ := run_handOut hwell hpos hf'
    rw [run_bind_ok hout]
    exact ⟨m, s', _, hs, x, congrArg Journal.events hj, Or.inl ⟨r, hgive, List.length_replicate, haddr⟩⟩
  | @exhausted p' m _ hr' hs hf' =>
    rw [hr] at hr'
    cases hr'
    have hnone : Extended m.collector m.collector [] :=
      ⟨m.collector.cursor.top_le, .nil _ _, rfl, rfl, rfl, rfl, rfl⟩
    refine ⟨m, ⟨m.collector, m.journal.report (.exhausted words m.collector.cursor.remaining)⟩, [], hs, hnone, ?_,
      Or.inr ⟨hf', rfl, run_bind_error hout _⟩⟩
    rw [Journal.events_report]
    exact List.append_nil _

end Mutator

/-! ## The pass of an allocation -/

/-- The session `s'` comes of `s` by the one pass of an allocation of `words` words, and its roots reach
the words `ws`. The roots denote copies of what they denoted. -/
structure Renewed (s : Session) (words : Nat) (ws : List Word) (s' : Session) : Prop where
  phase : s'.collector.phase = .idle
  cycles : s'.collector.cycles = s.collector.cycles + 1
  copied : ∃ f rs, Copied s.collector.arena s'.collector.arena s.collector.cursor.top
      (ws.map s.collector.arena.sizeAt).sum s.collector.roots.toList f rs ∧
    s'.collector.roots.toList.map Ref.addr = s.collector.roots.toList.map fun r => f r.addr
  events : ∃ utilization, s'.journal.events = s.journal.events ++ [
    .allocationFailure words s.collector.cursor.remaining,
    .cycleStart (s.collector.cycles + 1) (Reason.allocationFailure words s.collector.cursor.remaining).message
      s.collector.roots.top,
    .relocateStats ws.length (ws.map s.collector.arena.sizeAt).sum ws.length,
    .halvesSwapped s.collector.arena.inactive.name s.collector.arena.active.name,
    .cycleEnd (s.collector.cycles + 1) Pause.none.millis (ws.map s.collector.arena.sizeAt).sum
      (s.collector.cursor.top - (ws.map s.collector.arena.sizeAt).sum),
    .heapStats (ws.map s.collector.arena.sizeAt).sum s.collector.arena.spaceWords utilization]

section
variable {s s' m : Session} {words : Nat} {ws vs : List Word} {p : Pass}

theorem Swept.renewed (hw : s.collector.WellFormed) (hp : (s.collector.relocateLive s.collector.roots.top).2 = .ok () p)
    (x : Swept (s.triggered words) s.collector.roots.top (.allocationFailure words s.collector.cursor.remaining) p m)
    (hn : ws.Nodup) (hr : ∀ w, w ∈ ws ↔ s.collector.arena.Reach s.collector.roots.toList w) :
    m.collector.cursor.capacity = s.collector.arena.spaceWords ∧
      m.collector.cursor.top = (ws.map s.collector.arena.sizeAt).sum ∧ Renewed s words ws m := by
  obtain ⟨hwell, htop, f, rs, C, hroots⟩ := copied_all (s := s.triggered words) hw hp x
  obtain ⟨hsum, hcount, hentries⟩ := Collector.relocateLive_counts hp hn (s.collector.roots.bottom_top.symm ▸ hr)
  have hspace : m.collector.arena.spaceWords = s.collector.arena.spaceWords := congrArg Layout.spaceWords C.layout
  have hactive : p.arena.swap.active = s.collector.arena.inactive := x.arena ▸ C.active
  have hinactive : p.arena.swap.inactive = s.collector.arena.active := by
    unfold Arena.inactive
    rw [hactive]
    exact Half.other_other _
  have htop := htop.trans hsum
  refine ⟨hwell.trans hspace, htop, x.phase, x.cycles, ⟨f, rs, htop ▸ C, hroots⟩, m.collector.utilization, ?_⟩
  have hbefore : (s.triggered words).journal.events = s.journal.events ++
      [.allocationFailure words s.collector.cursor.remaining] := Logger.events_record ..
  have hev := x.events
  unfold Collector.usedWords at hev
  rw [hcount, hentries, hsum, hactive, hinactive, hspace, htop, hbefore, List.append_assoc] at hev
  exact hev

/-- What is stored after the copies changes nothing of that. -/
theorem Renewed.extended (X : Renewed s words ws m) (htop : m.collector.cursor.top = (ws.map s.collector.arena.sizeAt).sum)
    (x : Extended m.collector s'.collector vs) (hj : s'.journal.events = m.journal.events) : Renewed s words ws s' := by
  obtain ⟨f, rs, C, hroots⟩ := X.copied
  refine ⟨x.phase.trans X.phase, x.cycles.trans X.cycles, ⟨f, rs, ?_, ?_⟩, ?_⟩
  · refine C.congr x.stored.layout x.stored.active fun i hi => ?_
    exact x.stored.outside ⟨m.collector.arena.active, i⟩ (Nat.lt_of_lt_of_le hi C.top_le) fun _ =>
      Or.inl (htop.symm ▸ hi)
  · rw [x.roots]
    exact hroots
  · rw [hj]
    exact X.events

end

/-- An allocation is refused only when there is no room for it beside what the roots reach, all of that
being objects. While it fits it runs no pass; otherwise it runs exactly one, over all roots, which leaves
in use what they reach and nothing else. -/
theorem allocate_needs_room {s : Session} {words : Nat} {ws : List Word} (hw : s.collector.WellFormed)
    (hp : s.collector.phase ≠ .poisoned) (hpos : 0 < words) (hn : ws.Nodup)
    (hr : ∀ w, w ∈ ws ↔ s.collector.arena.Reach s.collector.roots.toList w)
    (ho : ∀ w ∈ ws, ∃ o h, s.collector.arena.ObjectAt s.collector.cursor.top w o h)
    (hl : (ws.map s.collector.arena.sizeAt).sum ≤ s.collector.arena.spaceWords) :
    let c := s.collector
    let space := c.arena.spaceWords
    let reached := (ws.map c.arena.sizeAt).sum
    let s' := endState ((Mutator.allocate words).run s)
    let c' := s'.collector
    (c.cursor.top + words ≤ space → ∃ r, (Mutator.allocate words).run s = .ok r s' ∧
      r.addr = c.arena.address ⟨c.arena.active, c.cursor.top⟩ ∧ c'.cursor.top = c.cursor.top + words ∧
      c'.cycles = c.cycles ∧ c'.roots = c.roots ∧ s'.journal = s.journal) ∧
    (space < c.cursor.top + words → Renewed s words ws s' ∧
      (reached + words ≤ space → ∃ r, (Mutator.allocate words).run s = .ok r s' ∧
        r.addr = c'.arena.address ⟨c'.arena.active, reached⟩ ∧ c'.cursor.top = reached + words) ∧
      (space < reached + words → (Mutator.allocate words).run s = .error (.outOfMemory words (space - reached)) s' ∧
        c'.cursor.top = reached)) := by
  generalize hs : endState ((Mutator.allocate words).run s) = s'
  intro c space reached _ c'
  have hcap : c.cursor.capacity = space := hw
  refine ⟨fun hroom => ?_, fun hfull => ?_⟩
  · have hf : c.cursor.fits words = true := decide_eq_true (hcap ▸ hroom)
    obtain ⟨r, s₁, hrun, haddr, x, hj⟩ := Mutator.run_allocate_fits hw hp hpos.ne' hf
    have hend : s₁ = s' := (congrArg endState hrun).symm.trans hs
    subst hend
    exact ⟨r, hrun, haddr, x.top.trans (by rw [List.length_replicate]), x.cycles, x.roots, hj⟩
  have hf : c.cursor.fits words = false := decide_eq_false (hcap ▸ Nat.not_le.mpr hfull)
  have hvalid : ValidGraph c.arena c.cursor.top (c.roots.bottom c.roots.top) := by
    rw [RootStack.bottom_top]
    exact ⟨fun w h => ho w ((hr w).mpr h), ws, hn, hr, hl⟩
  obtain ⟨p, hpass⟩ := Collector.relocateLive_ok_iff.mpr (fits_iff_validGraph.mpr hvalid)
  obtain ⟨m, s₁, vs, hswept, x, hj, hanswer⟩ := Mutator.run_allocate_full hw hp hf hpass
  obtain ⟨hmcap, hmtop, X⟩ := hswept.renewed hw hpass hn hr
  rcases hanswer with ⟨r, hrun, hlen, haddr⟩ | ⟨hno, hnil, hrun⟩
  · -- there is room after the pass
    have hend : s₁ = s' := (congrArg endState hrun).symm.trans hs
    subst hend
    have htop : c'.cursor.top = reached + words := by rw [x.top, hlen, hmtop]
    refine ⟨X.extended hmtop x hj, fun _ => ⟨r, hrun, ?_, htop⟩, fun hno => ?_⟩
    · rw [x.address, haddr, hmtop]
    · have hle : m.collector.cursor.top + vs.length ≤ m.collector.cursor.capacity := x.fits
      rw [hmtop, hlen, hmcap] at hle
      exact absurd hle (Nat.not_le.mpr hno)
  · -- the pass has left too little
    have hend : s₁ = s' := (congrArg endState hrun).symm.trans hs
    subst hend
    have hlt : ¬ m.collector.cursor.top + words ≤ m.collector.cursor.capacity := of_decide_eq_false hno
    have hremaining : m.collector.cursor.remaining = space - reached := by
      unfold Cursor.remaining
      rw [hmtop, hmcap]
    refine ⟨X.extended hmtop x hj, fun hroom => ?_, fun _ => ⟨hremaining ▸ hrun, ?_⟩⟩
    · rw [hmtop, hmcap] at hlt
      exact absurd hroom hlt
    · rw [x.top, hnil, hmtop]
      rfl

/-- A session with thirty of 32 words in use, six of them reached. -/
def Session.crowded : Session := endState ((Mutator.allocate 24).run .looped)

theorem allocate_needs_room_crowded :
    (∃ r s', (Mutator.allocate 10).run .crowded = .ok r s' ∧ s'.collector.cursor.top = 16 ∧ s'.collector.cycles = 1) ∧
    ∃ s', (Mutator.allocate 27).run .crowded = .error (.outOfMemory 27 26) s' ∧ s'.collector.cursor.top = 6 := by
  have hw : Session.crowded.collector.WellFormed := by unfold Collector.WellFormed; decide +kernel
  have hspace : Session.crowded.collector.arena.spaceWords = 32 := by decide +kernel
  have htop : Session.crowded.collector.cursor.top = 30 := by decide +kernel
  have hcycles : Session.crowded.collector.cycles = 0 := by decide +kernel
  have hsix : (endState (Session.crowded.collector.relocateLive Session.crowded.collector.roots.top).2).cursor.top = 6 := by
    decide +kernel
  obtain ⟨_, p, hp⟩ := exists_of_isSome
    (r := (Session.crowded.collector.relocateLive Session.crowded.collector.roots.top).2) (by decide +kernel)
  obtain ⟨ws, hn, hr⟩ := Session.crowded.collector.arena.exists_reached Session.crowded.collector.roots.toList
  have hfits := Collector.relocateLive_ok_iff.mp ⟨p, hp⟩
  obtain ⟨hsum, _⟩ := Collector.relocateLive_counts hp hn (RootStack.bottom_top _ ▸ hr)
  rw [hp] at hsix
  have hreached : (ws.map Session.crowded.collector.arena.sizeAt).sum = 6 := hsum.symm.trans hsix
  rw [RootStack.bottom_top] at hfits
  have ho : ∀ w ∈ ws, ∃ o h, Session.crowded.collector.arena.ObjectAt Session.crowded.collector.cursor.top w o h :=
    fun w h => hfits.objects w ((hr w).mp h)
  have hl : (ws.map Session.crowded.collector.arena.sizeAt).sum ≤ Session.crowded.collector.arena.spaceWords := by
    rw [hreached, hspace]
    decide
  constructor
  · obtain ⟨X, hok, _⟩ := (@allocate_needs_room .crowded 10 ws hw (by decide +kernel) (by decide) hn hr ho hl).2
      (by rw [hspace, htop]; decide)
    obtain ⟨r, hrun, _, ht⟩ := hok (by rw [hreached, hspace]; decide)
    have hcy := X.cycles
    rw [hreached] at ht
    rw [hcycles] at hcy
    exact ⟨r, _, hrun, ht, hcy⟩
  · obtain ⟨_, _, hno⟩ := (@allocate_needs_room .crowded 27 ws hw (by decide +kernel) (by decide) hn hr ho hl).2
      (by rw [hspace, htop]; decide)
    obtain ⟨hrun, ht⟩ := hno (by rw [hreached, hspace]; decide)
    rw [hreached] at ht hrun
    rw [hspace] at hrun
    exact ⟨_, hrun, ht⟩

end Semispace
