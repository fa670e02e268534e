import Semispace.Proofs.Collector.Atomicity
import Semispace.Proofs.Collector.Normal
import Semispace.Proofs.Relocation.Isomorphism
import Semispace.Proofs.Store.Pass
import Semispace.Proofs.Store.Allocation

/-!
# The elements of a new vector

While room is made for a vector its elements are roots, above those of the program. A pass moves them
all, and the vector is filled with what stands on the root stack afterwards: its slots are the elements
where they are now, and the roots of the program denote what they denoted (`vector_spans_pass`).
-/

namespace Semispace

/-! ## Objects that stay or move -/

/-- The words in use of `a` are in use of `b`, with others after them perhaps. -/
structure Arena.Grows (a b : Arena) (top top' : Nat) : Prop where
  layout : b.layout = a.layout
  active : b.active = a.active
  top_le : top ≤ top'
  words : ∀ i < top, b.word ⟨a.active, i⟩ = a.word ⟨a.active, i⟩

/-- Where the objects of `a` that `roots` reach are in `b` after so many passes, one at most. -/
inductive Displaced (a b : Arena) (top top' : Nat) (roots : List Ref) : Nat → (Word → Word) → Prop
  | still : a.Grows b top top' → Displaced a b top top' roots 0 id
  | copied {mid : Nat} {f : Word → Word} {rs : List (Nat × Header)} : Copied a b top mid roots f rs → mid ≤ top' →
      Displaced a b top top' roots 1 f

namespace Arena.Grows

variable {a b d : Arena} {top top' top'' : Nat}

theorem refl (a : Arena) (top : Nat) : a.Grows a top top := ⟨rfl, rfl, Nat.le_refl _, fun _ _ => rfl⟩

theorem trans (g : a.Grows b top top') (g' : b.Grows d top' top'') : a.Grows d top top'' := by
  refine ⟨g'.layout.trans g.layout, g'.active.trans g.active, Nat.le_trans g.top_le g'.top_le, fun i hi => ?_⟩
  have h := g'.words i (Nat.lt_of_lt_of_le hi g.top_le)
  rw [g.active] at h
  exact h.trans (g.words i hi)

variable (g : a.Grows b top top') {w : Word} {o : Nat} {h : Header} (hend : o + h.size ≤ top)
include g hend

theorem objectAt (x : a.ObjectAt top w o h) : b.ObjectAt top' w o h := by
  have hsize := h.headerWords_le_size
  unfold headerWords at hsize
  refine ⟨?located, Nat.lt_of_lt_of_le x.below g.top_le, ?header, ?inside⟩
  case located =>
    unfold locate
    rw [g.layout, g.active]
    exact x.located
  case header =>
    rw [g.active, ← x.header]
    exact congrArg₂ Header.decode (g.words o x.below) (g.words (o + 1) (by omega))
  case inside =>
    unfold spaceWords
    rw [g.layout]
    exact x.inside

theorem slotAt {i : Nat} (hi : i < h.slotCount) : b.slotAt ⟨b.active, o⟩ i = a.slotAt ⟨a.active, o⟩ i := by
  have hsize := h.size_eq
  rw [g.active]
  exact g.words (o + (headerWords + i)) (by omega)

end Arena.Grows

namespace Displaced

variable {a b d : Arena} {top top' top'' passes : Nat} {roots live live' : List Ref} {f : Word → Word}

theorem grows (D : Displaced a b top top' roots passes f) (g : b.Grows d top' top'') :
    Displaced a d top top'' roots passes f := by
  cases D with
  | still g₀ => exact .still (g₀.trans g)
  | copied C hle =>
    refine .copied (C.congr g.layout g.active fun i hi => ?_) (Nat.le_trans hle g.top_le)
    exact g.words i (Nat.lt_of_lt_of_le hi hle)

theorem injOn (D : Displaced a b top top' roots passes f) : Set.InjOn f {w | a.Reach roots w} := by
  cases D with
  | still _ => exact Function.injective_id.injOn
  | copied C _ => exact C.bijective.injOn

/-- Some of the roots denote what they denoted, if it was whole. -/
theorem isomorphism (D : Displaced a b top top' roots passes f) (hsub : live ⊆ roots)
    (hlive : live'.map Ref.addr = (live.map Ref.addr).map f)
    (hwhole : ∀ w, a.Reach live w → ∃ o h, a.ObjectAt top w o h ∧ o + h.size ≤ top) :
    Isomorphism a b top top' live live' f := by
  have hreach : ∀ w, a.Reach live w → a.Reach roots w := fun w hw => hw.mono hsub
  refine ⟨hlive, ?zero, D.injOn.mono hreach, fun w hw => ?_⟩
  case zero =>
    cases D with
    | still _ => rfl
    | copied C _ => exact C.zero
  cases D with
  | still g =>
    obtain ⟨o, h, x, hend⟩ := hwhole w hw
    exact ⟨o, o, h, x, g.objectAt hend x, fun i hi => g.slotAt hend hi⟩
  | copied C hle =>
    obtain ⟨o, o', h, x, he, hf, _, hslot⟩ := C.object w (hreach w hw)
    have y : b.ObjectAt _ (f w) o' h := hf ▸ C.tiled.objectAt C.top_le he
    exact ⟨o, o', h, x, { y with below := Nat.lt_of_lt_of_le y.below hle }, hslot⟩

end Displaced

theorem Extended.grows {c c' : Collector} {ws : List Word} (x : Extended c c' ws) (hw : c.WellFormed) :
    c.arena.Grows c'.arena c.cursor.top c'.cursor.top := by
  have hfits : c.cursor.top + ws.length ≤ c.arena.spaceWords := hw ▸ x.fits
  refine ⟨x.stored.layout, x.stored.active, x.top ▸ Nat.le_add_right .., fun i hi => ?_⟩
  exact x.stored.outside ⟨c.arena.active, i⟩ (by show i < _; omega) fun _ => Or.inl hi

/-- Making room moves what the roots reach, all together, or nothing. -/
theorem Session.Cleared.displaced {s m : Session} {n : Nat} {xs : List CycleSummary} (C : s.Cleared n xs m)
    (hw : s.collector.WellFormed) : ∃ f, Displaced s.collector.arena m.collector.arena s.collector.cursor.top
        m.collector.cursor.top s.collector.roots.toList xs.length f ∧
      m.collector.cycles = s.collector.cycles + xs.length ∧
      m.collector.roots.toList.map Ref.addr = (s.collector.roots.toList.map Ref.addr).map f := by
  cases C with
  | fits _ => exact ⟨id, .still (.refl _ _), rfl, (List.map_id _).symm⟩
  | swept _ hrun =>
    obtain ⟨p, hp, hs, _⟩ := Mutator.runCycle_ok hrun
    obtain ⟨_, _, f, rs, X, hroots⟩ := Swept.copied_all (s := s.triggered n) hw hp hs
    refine ⟨f, .copied X (Nat.le_refl _), hs.cycles, ?_⟩
    rw [hroots, List.map_map]
    rfl

/-! ## What is read from a new vector -/

theorem Extended.vector {c c' : Collector} {slots : List (Option Ref)} {r : Ref}
    (x : Extended c c' (Content.vector slots).words) (hw : c.WellFormed)
    (hr : r.addr = c.arena.address ⟨c.arena.active, c.cursor.top⟩) :
    c'.vectorLength r = .ok slots.length ∧ ∀ i (hi : i < slots.length), c'.vectorGet r i = .ok slots[i] := by
  have hlen : (Content.vector slots).words.length = headerWords + slots.length := Content.length_words _
  have hfits : c.cursor.top + (Content.vector slots).words.length ≤ c.arena.spaceWords := hw ▸ x.fits
  have hspace : c.arena.spaceWords < UInt64.size := c.arena.layout.spaceWords_lt
  have hcount : (Content.vector slots).header.slotCount = slots.length := Content.slotCount_header (by
    show slots.length < _
    omega)
  have hsize : (Content.vector slots).header.size = (Content.vector slots).words.length := by
    rw [Header.size_eq, hcount, hlen]
  have hpos := (Content.vector slots).header.size_pos
  have H : c'.arena.Holds c.cursor.top (.vector slots) := x.holds_new hcount
  have hc : c'.checkObject r = .ok (⟨c'.arena.active, c.cursor.top⟩, (Content.vector slots).header) := by
    refine Collector.checkObject_eq_ok_iff.mpr ⟨_, rfl, ⟨x.located hw hr nofun, ?below, H.header, ?inside⟩, ?whole⟩
    case below =>
      rw [x.top]
      omega
    case inside => rw [x.spaceWords, hsize]; exact hfits
    case whole => rw [x.top, hsize]
  refine ⟨(Collector.vectorLength_of_checkObject hc rfl).trans (congrArg _ hcount), fun i hi => ?_⟩
  rw [Collector.vectorGet_of_checkObject hc rfl (hcount.symm ▸ hi), H.slot i hi, Ref.ofWord?_slotWord]
  rfl

/-- The vector `v` has the elements for its slots, where `f` has moved them. -/
structure Collector.HasElements (c : Collector) (v : Ref) (elements : List (Option Ref)) (f : Word → Word) : Prop where
  length : c.vectorLength v = .ok elements.length
  null : ∀ i (h : i < elements.length), c.vectorGet v i = .ok none ↔ elements[i] = none
  element : ∀ i (h : i < elements.length) r, elements[i] = some r →
    ∃ r', c.vectorGet v i = .ok (some r') ∧ r'.addr = f r.addr
  same : ∀ i j (hi : i < elements.length) (hj : j < elements.length),
    c.vectorGet v i = c.vectorGet v j ↔ elements[i] = elements[j]

theorem Collector.hasElements {c : Collector} {v : Ref} {slots elements : List (Option Ref)} {f : Word → Word}
    (hlen : c.vectorLength v = .ok slots.length) (hget : ∀ i (hi : i < slots.length), c.vectorGet v i = .ok slots[i])
    (hmap : slots.map (Option.map Ref.addr) = elements.map (Option.map fun r => f r.addr))
    (hinj : Set.InjOn f {w | ∃ r ∈ elements.filterMap id, r.addr = w}) : c.HasElements v elements f := by
  have hlength : slots.length = elements.length := by
    have h := congrArg List.length hmap
    rwa [List.length_map, List.length_map] at h
  have hslot : ∀ i (hi : i < elements.length), ∃ o, c.vectorGet v i = .ok o ∧
      o.map Ref.addr = elements[i].map fun r => f r.addr := by
    intro i hi
    refine ⟨slots[i], hget i (hlength ▸ hi), ?_⟩
    have h := congrArg (·[i]?) hmap
    simpa [hi, hlength ▸ hi] using h
  have hmem : ∀ i (hi : i < elements.length) r, elements[i] = some r → r ∈ elements.filterMap id :=
    fun i hi r h => List.mem_filterMap.mpr ⟨some r, h ▸ List.getElem_mem hi, rfl⟩
  refine ⟨hlength ▸ hlen, fun i hi => ?null, fun i hi r hr => ?element, fun i j hi hj => ?same⟩
  case null =>
    obtain ⟨o, ho, haddr⟩ := hslot i hi
    rw [ho, Except.ok.injEq, ← Option.map_eq_none_iff (f := Ref.addr), haddr, Option.map_eq_none_iff]
  case element =>
    obtain ⟨o, ho, haddr⟩ := hslot i hi
    rw [hr] at haddr
    obtain ⟨r', rfl, h⟩ := Option.map_eq_some_iff.mp haddr
    exact ⟨r', ho, h⟩
  case same =>
    obtain ⟨o, ho, haddr⟩ := hslot i hi
    obtain ⟨o', ho', haddr'⟩ := hslot j hj
    rw [ho, ho']
    constructor
    · intro h
      obtain rfl := Except.ok.inj h
      rw [haddr] at haddr'
      cases hr : elements[i] with
      | none =>
        rw [hr] at haddr'
        exact (Option.map_eq_none_iff.mp haddr'.symm).symm
      | some r =>
        rw [hr] at haddr'
        obtain ⟨r', hr', he⟩ := Option.map_eq_some_iff.mp haddr'.symm
        have heq := hinj ⟨r', hmem j hj r' hr', rfl⟩ ⟨r, hmem i hi r hr, rfl⟩ he
        rw [hr', Ref.eq_of_addr heq]
    · intro h
      have heq : o.map Ref.addr = o'.map Ref.addr := by rw [haddr, haddr', h]
      exact congrArg _ (Option.map_injective (fun _ _ => Ref.eq_of_addr) heq)

/-! ## Vectors -/

/-- What the roots reach are objects that end below the cursor. -/
def Collector.RootsWhole (c : Collector) : Prop :=
  ∀ w, c.arena.Reach c.roots.toList w → ∃ o h, c.arena.ObjectAt c.cursor.top w o h ∧ o + h.size ≤ c.cursor.top

theorem Collector.rootsWhole {c : Collector} {rs : List (Nat × Header)} (N : c.arena.Normal rs c.cursor.top)
    (hroots : ∀ r ∈ c.roots.toList, c.arena.Starts rs r.addr) : c.RootsWhole := by
  intro w hw
  obtain ⟨e, he, rfl⟩ := N.starts hroots hw
  exact ⟨e.1, e.2, N.objectAt N.top_le he, (N.consecutive.bounds he).2⟩

/-- The collector `c'` comes of `c` by the allocation of a vector with these elements. Each root denotes
what it denoted, at the address that `f` gives it. -/
structure Spanned (c c' : Collector) (elements : List Ref) (passes : Nat) (f : Word → Word) : Prop where
  displaced : Displaced c.arena c'.arena c.cursor.top c'.cursor.top (c.roots.toList ++ elements) passes f
  cycles : c'.cycles = c.cycles + passes
  stack : c'.roots.top = c.roots.top
  rooted : Isomorphism c.arena c'.arena c.cursor.top c'.cursor.top c.roots.toList c'.roots.toList f

section
variable {s t m : Session} {c d c' : Collector} {refs : List Ref} {n passes : Nat} {xs : List CycleSummary} {ws : List Word}
  {f : Word → Word}

/-- The elements leave the root stack, and only they. -/
theorem Pushed.spanned (x : Pushed s refs t) (C : t.Cleared n xs m) (hw : s.collector.WellFormed)
    (hwhole : s.collector.RootsWhole) :
    ∃ f, Spanned s.collector (m.truncated s.collector.roots.top).collector refs xs.length f ∧
      (m.collector.roots.toList.drop s.collector.roots.top).map Ref.addr = refs.map fun r => f r.addr := by
  have htop : s.collector.roots.top = (s.collector.roots.toList.map Ref.addr).length := (List.length_map _).symm
  -- the pass meets the roots and the elements as one list, so one `f` moves both
  obtain ⟨f, D, hcycles, hroots⟩ := C.displaced (x.wellFormed hw)
  rw [x.arena, x.cursor, x.roots] at D
  rw [x.roots, List.map_append, List.map_append] at hroots
  have hlive : (m.collector.roots.truncate s.collector.roots.top).toList.map Ref.addr =
      (s.collector.roots.toList.map Ref.addr).map f := by
    rw [RootStack.toList_truncate, List.map_take, hroots, htop]
    exact List.take_left' (List.length_map _)
  have hlength := congrArg List.length hlive
  rw [List.length_map, List.length_map, List.length_map] at hlength
  refine ⟨f, ⟨D, hcycles.trans (congrArg (· + _) x.cycles), hlength, ?_⟩, ?_⟩
  · exact D.isomorphism (List.subset_append_left ..) hlive hwhole
  · rw [List.map_drop, hroots, htop]
    exact (List.drop_left' (List.length_map _)).trans List.map_map

theorem Spanned.extended (S : Spanned c d refs passes f) (x : Extended d c' ws) (hw : d.WellFormed)
    (hwhole : c.RootsWhole) : Spanned c c' refs passes f := by
  have D := S.displaced.grows (x.grows hw)
  have hlive := S.rooted.rooted
  rw [← x.roots] at hlive
  exact ⟨D, x.cycles.trans S.cycles, (congrArg RootStack.top x.roots).trans S.stack,
    D.isomorphism (List.subset_append_left ..) hlive hwhole⟩

end

namespace Mutator

variable {s : Session} {elements : List (Option Ref)}

/-- A vector of records is refused for want of memory only, in a heap of records. -/
theorem allocVector_served (hw : s.collector.WellFormed) (hp : s.collector.phase ≠ .poisoned) {rs : List (Nat × Header)}
    (N : s.collector.arena.Normal rs s.collector.cursor.top)
    (hroots : ∀ r ∈ s.collector.roots.toList, s.collector.arena.Starts rs r.addr)
    (helements : ∀ r ∈ elements.filterMap id, s.collector.arena.Starts rs r.addr)
    (hroom : s.collector.roots.top + (elements.filterMap id).length ≤ s.collector.roots.capacity) :
    (∃ v s', (allocVector elements).run s = .ok v s') ∨
      ∃ n available s', (allocVector elements).run s = .error (.outOfMemory n available) s' := by
  rcases run_allocVector_or hp elements with ⟨r, hr, e, he, _⟩ | ⟨_, ⟨hlt, _⟩ | ⟨t, x, hrun⟩⟩
  · obtain ⟨k, hk, haddr⟩ := helements r hr
    have y := N.objectAt N.top_le hk
    rw [← haddr] at y
    rw [Collector.checkObject_eq_ok_iff.mpr ⟨k.1, rfl, y, (N.consecutive.bounds hk).2⟩] at he
    cases he
  · exact absurd hroom (Nat.not_le.mpr hlt)
  · have hall : ∀ r ∈ t.collector.roots.toList, s.collector.arena.Starts rs r.addr := by
      rw [x.roots]
      intro r hr
      rcases List.mem_append.mp hr with hr | hr
      · exact hroots r hr
      · exact helements r hr
    -- the words in use bound the copies of records, so the pass completes
    have hfits := N.fits N.top_le fun w => N.starts hall
    have hpass : ∃ p, (t.collector.relocateLive t.collector.roots.top).2 = .ok () p := by
      apply Collector.relocateLive_ok_iff.mpr
      rw [RootStack.bottom_top, x.rest]
      exact hfits
    obtain ⟨xs, m, C⟩ : ∃ xs m, t.Cleared (Header.vectorWords elements.length) xs m :=
      Session.Cleared.exists_of_completes fun _ => hpass
    have ho := obtains_buildVector C (x.wellFormed hw) (x.usable hp) s.collector.roots.top
    rw [hrun]
    generalize (buildVector s.collector.roots.top elements).run t = out at ho
    cases ho with
    | placed _ => exact Or.inl ⟨_, _, rfl⟩
    | denied _ _ _ => exact Or.inr ⟨_, _, _, rfl⟩

end Mutator

/-- A vector that is allocated has the elements it was given, moved by the pass if there was one, and each
root denotes what it denoted, also when memory is wanting. In a heap of records nothing else happens to a
vector of records that fits on the root stack. -/
theorem vector_spans_pass {s : Session} {elements : List (Option Ref)} (hw : s.collector.WellFormed)
    (hwhole : s.collector.RootsWhole) :
    (∀ v s', (Mutator.allocVector elements).run s = .ok v s' → ∃ passes f,
      Spanned s.collector s'.collector (elements.filterMap id) passes f ∧ s'.collector.HasElements v elements f) ∧
    (∀ n available s', (Mutator.allocVector elements).run s = .error (.outOfMemory n available) s' → ∃ passes f,
      Spanned s.collector s'.collector (elements.filterMap id) passes f) ∧
    ∀ rs, s.collector.phase ≠ .poisoned → s.collector.arena.Normal rs s.collector.cursor.top →
      (∀ r ∈ s.collector.roots.toList, s.collector.arena.Starts rs r.addr) →
      (∀ r ∈ elements.filterMap id, s.collector.arena.Starts rs r.addr) →
      s.collector.roots.top + (elements.filterMap id).length ≤ s.collector.roots.capacity →
      (∃ v s', (Mutator.allocVector elements).run s = .ok v s') ∨
        ∃ n available s', (Mutator.allocVector elements).run s = .error (.outOfMemory n available) s' := by
  refine ⟨fun v s' h => ?allocated, fun n available s' h => ?denied, fun rs hp N => Mutator.allocVector_served hw hp N⟩
  case allocated =>
    obtain ⟨t, xs, m, x, C, hplaced⟩ := Mutator.exists_of_allocVector_ok h
    have P := hplaced hw
    obtain ⟨f, S, hrefs⟩ := x.spanned C hw hwhole
    have hm : (m.truncated s.collector.roots.top).collector.WellFormed := C.wellFormed (x.wellFormed hw)
    have S' := S.extended P.extended hm hwhole
    obtain ⟨hlen, hget⟩ := P.extended.vector hm P.address
    have hmap := Mutator.map_refill id hrefs
    rw [Option.map_id_fun, List.map_id_fun] at hmap
    refine ⟨xs.length, f, S', Collector.hasElements hlen hget hmap (S'.displaced.injOn.mono ?_)⟩
    rintro _ ⟨r, hr, rfl⟩
    exact .root (List.mem_append_right _ hr)
  case denied =>
    have hdenied : ∀ e t, (Mutator.allocVector elements).run s = .error e t → ∃ n available, e = .outOfMemory n available := by
      intro e t h'
      rw [h] at h'
      cases h'
      exact ⟨n, available, rfl⟩
    obtain ⟨t, xs, m, x, C, ho⟩ := Mutator.exists_of_allocVector hdenied
    obtain ⟨f, S, _⟩ := x.spanned C hw hwhole
    obtain ⟨_, _, hc⟩ := Mutator.error_of_obtains (h ▸ ho hw)
    exact ⟨xs.length, f, hc ▸ S⟩

/-- A session with thirty of 32 words in use, all of them records, six of them reached. -/
def Session.packed : Session := endState ((Mutator.allocVector (List.replicate 22 none)).run .looped)

def Session.packedRecords : List (Nat × Header) := [(0, ⟨.vector, 2⟩), (4, ⟨.int, 7⟩), (6, ⟨.vector, 22⟩)]

theorem Session.packed_normal : Session.packed.collector.arena.Normal packedRecords Session.packed.collector.cursor.top := by
  have htop : Session.packed.collector.cursor.top = 30 := by decide +kernel
  rw [htop]
  refine ⟨⟨⟨rfl, rfl, rfl, rfl⟩, by decide +kernel⟩, by decide +kernel, ?_⟩
  unfold Arena.Starts
  decide +kernel

theorem Session.packed_wellFormed : Session.packed.collector.WellFormed := by
  unfold Collector.WellFormed
  decide +kernel

theorem Session.packed_starts : ∀ r ∈ Session.packed.collector.roots.toList,
    Session.packed.collector.arena.Starts packedRecords r.addr := by
  unfold Arena.Starts
  decide +kernel

/-- The root twice, with a null between. -/
def Session.packedElements : List (Option Ref) :=
  [Session.packed.collector.roots.get? 0, none, Session.packed.collector.roots.get? 0]

theorem vector_spans_pass_packed : Session.packed.collector.WellFormed ∧ Session.packed.collector.RootsWhole ∧
    (∃ v s' f, (Mutator.allocVector Session.packedElements).run .packed = .ok v s' ∧
      Spanned Session.packed.collector s'.collector (Session.packedElements.filterMap id) 1 f ∧
      s'.collector.HasElements v Session.packedElements f) ∧
    ∃ n available s' f, (Mutator.allocVector (List.replicate 27 none)).run .packed = .error (.outOfMemory n available) s' ∧
      Spanned Session.packed.collector s'.collector ((List.replicate 27 none).filterMap id) 1 f := by
  have hw := Session.packed_wellFormed
  have helements : ∀ r ∈ Session.packedElements.filterMap id,
      Session.packed.collector.arena.Starts Session.packedRecords r.addr := by
    unfold Arena.Starts
    decide +kernel
  have hpasses : ∀ {c' : Collector} {refs : List Ref} {passes : Nat} {f : Word → Word},
      Spanned Session.packed.collector c' refs passes f → c'.cycles = 1 → passes = 1 := by
    intro c' refs passes f S hone
    have hbefore : Session.packed.collector.cycles = 0 := by decide +kernel
    have hafter := S.cycles
    omega
  have hwhole := Collector.rootsWhole Session.packed_normal Session.packed_starts
  refine ⟨hw, hwhole, ?allocated, ?denied⟩
  case allocated =>
    obtain ⟨hspans, _, hserved⟩ := @vector_spans_pass .packed Session.packedElements hw hwhole
    have hsome : (answer ((Mutator.allocVector Session.packedElements).run .packed)).toOption.isSome = true := by
      decide +kernel
    have hone : (endState ((Mutator.allocVector Session.packedElements).run .packed)).collector.cycles = 1 := by
      decide +kernel
    rcases hserved _ (by decide +kernel) Session.packed_normal Session.packed_starts helements (by decide +kernel) with
      ⟨v, s', hrun⟩ | ⟨_, _, _, hrun⟩
    · obtain ⟨passes, f, S, H⟩ := hspans v s' hrun
      rw [hrun] at hone
      exact ⟨v, s', f, hrun, hpasses S hone ▸ S, H⟩
    · rw [hrun] at hsome
      cases hsome
  case denied =>
    obtain ⟨_, hspans, _⟩ := @vector_spans_pass .packed (List.replicate 27 none) hw hwhole
    obtain ⟨s', hrun⟩ := @exists_of_answer_error _ _ _ ((Mutator.allocVector (List.replicate 27 none)).run .packed)
      (.outOfMemory 29 26) (by decide +kernel)
    have hone : (endState ((Mutator.allocVector (List.replicate 27 none)).run .packed)).collector.cycles = 1 := by
      decide +kernel
    obtain ⟨passes, f, S⟩ := hspans _ _ s' hrun
    rw [hrun] at hone
    exact ⟨_, _, s', f, hrun, hpasses S hone ▸ S⟩

end Semispace
