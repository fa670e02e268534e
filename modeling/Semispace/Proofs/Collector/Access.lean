import Semispace.Collector.Access
import Semispace.Proofs.Heap.Record

/-!
# What can be read through a reference

A reference is accepted exactly when it is the address of a word in use of the active half, and an
object is read there exactly when a whole one ends below the cursor. Nothing else of a collector
matters to a reading: not the other half, not the roots, not its phase (`readings_congr`).
-/

namespace Semispace

/-- All that can be read through one reference. -/
structure Readings where
  header : Except Error Header
  tag : Except Error Tag
  int : Except Error Int64
  bool : Except Error Bool
  length : Except Error Nat
  slot : Nat → Except Error (Option Ref)
  value : Except Error Value
  word : Nat → Except Error Word

/-- The readings of a reference that is not accepted. -/
def Readings.refused (e : Error) : Readings :=
  ⟨.error e, .error e, .error e, .error e, .error e, fun _ => .error e, .error e, fun _ => .error e⟩

def Collector.readings (c : Collector) (r : Ref) : Readings :=
  ⟨c.header r, c.tagOf r, c.intValue r, c.boolValue r, c.vectorLength r, c.vectorGet r, c.value r, c.readWord r⟩

theorem Arena.read_active (a : Arena) (o : Nat) : a.read ⟨a.active, o⟩ =
    if o < a.spaceWords then .ok (a.word ⟨a.active, o⟩) else .error (.invalidReference (a.address ⟨a.active, o⟩)) := by
  by_cases h : o < a.spaceWords
  · rw [if_pos h]
    exact read_eq_ok_iff.mpr ⟨h, a.isOpen_active, rfl⟩
  · have hlt : a.spaceWords < o + 1 := by omega
    rw [if_neg h]
    unfold read checkRange
    simp [hlt, bind, Except.bind]

theorem mapM_ok {ε α β : Type} {f : α → Except ε β} {g : α → β} : ∀ {xs : List α}, (∀ x ∈ xs, f x = .ok (g x)) →
    xs.mapM f = .ok (xs.map g)
  | [], _ => rfl
  | x :: xs, h => by
    rw [List.mapM_cons, h x (List.mem_cons_self ..), mapM_ok fun y hy => h y (List.mem_cons_of_mem _ hy)]
    rfl

theorem Collector.readWords_ok (c : Collector) {loc : Location} {n : Nat} (h : loc.offset + n ≤ c.arena.spaceWords)
    (ho : c.arena.isOpen loc.half = true) :
    c.readWords loc n = .ok ((List.range n).map fun i => c.arena.word (loc.add i)) := by
  refine mapM_ok fun i hi => Arena.read_ok ?_ ho
  have := List.mem_range.mp hi
  show loc.offset + i < c.arena.spaceWords
  omega

namespace Collector

variable {c c' : Collector} {r : Ref} {i o : Nat} {loc : Location} {h : Header}

/-! ## What is accepted -/

theorem wordLocation_located (hl : c.arena.locate r.addr = some ⟨c.arena.active, o⟩) (i : Nat) :
    c.wordLocation r i =
      if c.cursor.top ≤ o + i then .error (.invalidReference r.addr) else .ok ⟨c.arena.active, o + i⟩ := by
  unfold wordLocation
  simp [hl, Location.add]

theorem wordLocation_eq_ok_iff : c.wordLocation r i = .ok loc ↔
    ∃ o, c.arena.locate r.addr = some ⟨c.arena.active, o⟩ ∧ o + i < c.cursor.top ∧ loc = ⟨c.arena.active, o + i⟩ := by
  constructor
  · intro h
    unfold wordLocation at h
    split at h
    · cases h
    · next l hl =>
      split at h
      · cases h
      · next ha =>
        split at h
        · cases h
        · next ht =>
          cases h
          have ha : l.half = c.arena.active := not_not.mp ha
          exact ⟨l.offset, by rw [hl, ← ha], Nat.not_le.mp ht, by rw [← ha]; rfl⟩
  · rintro ⟨o, hl, ht, rfl⟩
    rw [wordLocation_located hl, if_neg (Nat.not_le.mpr ht)]

/-- An object is accepted when it is whole and ends below the cursor. -/
theorem checkObject_eq_ok_iff : c.checkObject r = .ok (loc, h) ↔
    ∃ o, loc = ⟨c.arena.active, o⟩ ∧ c.arena.ObjectAt c.cursor.top r.addr o h ∧ o + h.size ≤ c.cursor.top := by
  have hread : ∀ o, Header.read c.arena ⟨c.arena.active, o⟩ = .ok h ↔
      c.arena.headerAt ⟨c.arena.active, o⟩ = some h ∧ o + h.size ≤ c.arena.spaceWords := by
    intro o
    rw [Header.read_eq_ok_iff]
    exact ⟨fun ⟨h1, _, h3⟩ => ⟨h1, h3⟩, fun ⟨h1, h3⟩ => ⟨h1, c.arena.isOpen_active, h3⟩⟩
  unfold checkObject
  constructor
  · intro hc
    cases hl : c.wordLocation r 0 with
    | error e => simp [hl, bind, Except.bind] at hc
    | ok l =>
      obtain ⟨o, hloc, ht, rfl⟩ := wordLocation_eq_ok_iff.mp hl
      simp only [hl, bind, Except.bind, Nat.add_zero] at hc
      cases hr : Header.read c.arena ⟨c.arena.active, o⟩ with
      | error e => simp [hr] at hc
      | ok h' =>
        simp only [hr] at hc
        split at hc
        · cases hc
        · next hend =>
          cases hc
          obtain ⟨hh, hin⟩ := (hread o).mp hr
          exact ⟨o, rfl, ⟨hloc, ht, hh, hin⟩, Nat.not_lt.mp hend⟩
  · rintro ⟨o, rfl, x, hend⟩
    have hl : c.wordLocation r 0 = .ok ⟨c.arena.active, o⟩ :=
      wordLocation_eq_ok_iff.mpr ⟨o, x.located, x.below, rfl⟩
    simp only [hl, (hread o).mpr ⟨x.header, x.inside⟩, bind, Except.bind]
    rw [if_neg (Nat.not_lt.mpr hend)]
    rfl

/-- A slot is found in an object that is accepted. -/
theorem exists_of_slotLocation (hs : c.slotLocation r i = .ok loc) :
    ∃ o h, c.arena.ObjectAt c.cursor.top r.addr o h ∧ o + h.size ≤ c.cursor.top ∧ i < h.slotCount ∧
      loc = ⟨c.arena.active, o + (headerWords + i)⟩ := by
  unfold slotLocation at hs
  cases hc : c.checkObject r with
  | error e => simp [hc, bind, Except.bind] at hs
  | ok found =>
    obtain ⟨l, h⟩ := found
    obtain ⟨o, rfl, x, hend⟩ := checkObject_eq_ok_iff.mp hc
    simp only [hc, bind, Except.bind] at hs
    split at hs
    · cases hs
    · split at hs
      · cases hs
      · next hi =>
        cases hs
        exact ⟨o, h, x, hend, Nat.not_le.mp hi, rfl⟩

theorem half_of_slotLocation (hs : c.slotLocation r i = .ok loc) : loc.half = c.arena.active := by
  obtain ⟨_, _, _, _, _, rfl⟩ := exists_of_slotLocation hs
  rfl

/-- The reference that is read from a slot. -/
theorem exists_of_vectorGet {v : Ref} (hg : c.vectorGet v i = .ok (some r)) :
    ∃ o h, c.arena.ObjectAt c.cursor.top v.addr o h ∧ o + h.size ≤ c.cursor.top ∧ i < h.slotCount ∧
      c.arena.slotAt ⟨c.arena.active, o⟩ i = r.addr := by
  unfold vectorGet at hg
  cases hs : c.slotLocation v i with
  | error e => simp [hs, bind, Except.bind] at hg
  | ok loc =>
    obtain ⟨o, h, x, hend, hi, rfl⟩ := exists_of_slotLocation hs
    simp only [hs, bind, Except.bind] at hg
    cases hw : c.arena.read ⟨c.arena.active, o + (headerWords + i)⟩ with
    | error e => simp [hw] at hg
    | ok w =>
      obtain ⟨_, _, rfl⟩ := Arena.read_eq_ok_iff.mp hw
      simp only [hw] at hg
      have hr : Ref.ofWord? (c.arena.word ⟨c.arena.active, o + (headerWords + i)⟩) = some r := Except.ok.inj hg
      exact ⟨o, h, x, hend, hi, (Ref.slotWord_ofWord? _).symm.trans (congrArg Ref.slotWord hr)⟩

theorem vectorLength_of_checkObject (hc : c.checkObject r = .ok (loc, h)) (ht : h.tag = .vector) :
    c.vectorLength r = .ok h.slotCount := by
  simp [vectorLength, headerTagged, header, hc, ht, bind, Except.bind, Except.map, pure, Except.pure]

theorem vectorGet_of_checkObject (hc : c.checkObject r = .ok (⟨c.arena.active, o⟩, h)) (ht : h.tag = .vector)
    (hi : i < h.slotCount) : c.vectorGet r i = .ok (Ref.ofWord? (c.arena.slotAt ⟨c.arena.active, o⟩ i)) := by
  obtain ⟨_, hloc, x, _⟩ := checkObject_eq_ok_iff.mp hc
  cases hloc
  have hs : c.slotLocation r i = .ok ⟨c.arena.active, o + (headerWords + i)⟩ := by
    unfold slotLocation
    simp only [hc, bind, Except.bind]
    rw [if_neg (fun hn => hn ht), if_neg (Nat.not_le.mpr hi)]
    rfl
  have hlt : o + (headerWords + i) < c.arena.spaceWords := by
    have hin := x.inside
    rw [Header.size_eq] at hin
    omega
  have hread := @Arena.read_ok c.arena ⟨c.arena.active, o + (headerWords + i)⟩ hlt c.arena.isOpen_active
  unfold vectorGet
  simp only [hs, hread, bind, Except.bind]
  rfl

/-! ## What is refused -/

theorem slotLocation_of_checkObject {e : Error} (hc : c.checkObject r = .error e) (i : Nat) :
    c.slotLocation r i = .error e := by
  simp [slotLocation, hc, bind, Except.bind]

theorem checkObject_of_wordLocation {e : Error} (hw : ∀ i, c.wordLocation r i = .error e) :
    c.checkObject r = .error e := by
  simp [checkObject, hw, bind, Except.bind]

theorem readings_of_wordLocation {e : Error} (hw : ∀ i, c.wordLocation r i = .error e) :
    c.readings r = .refused e := by
  have hc := checkObject_of_wordLocation hw
  simp [readings, Readings.refused, header, headerTagged, tagOf, intValue, boolValue, vectorLength, value, hc,
    bind, Except.bind, Except.map]
  refine ⟨funext fun i => ?_, funext fun i => ?_⟩
  · simp [vectorGet, slotLocation_of_checkObject hc, bind, Except.bind]
  · simp [readWord, hw, bind, Except.bind]

/-- A reference into the half that is not active is refused. -/
theorem wordLocation_vacated (hl : c.arena.locate r.addr = some loc) (hh : loc.half ≠ c.arena.active) (i : Nat) :
    c.wordLocation r i = .error (.protectedAccess r.addr) := by
  unfold wordLocation
  simp [hl, hh]

/-! ## What a reading depends on -/

section
variable (hl : c'.arena.layout = c.arena.layout) (ha : c'.arena.active = c.arena.active)
  (ht : c'.cursor.top = c.cursor.top)
  (hm : ∀ i < c.arena.spaceWords, c'.arena.word ⟨c.arena.active, i⟩ = c.arena.word ⟨c.arena.active, i⟩)

include hl ha ht in
theorem wordLocation_congr (r : Ref) (i : Nat) : c'.wordLocation r i = c.wordLocation r i := by
  unfold wordLocation Arena.locate
  rw [hl, ha, ht]

include hl ha in
theorem read_congr {o : Nat} (h : o < c.arena.spaceWords →
    c'.arena.word ⟨c.arena.active, o⟩ = c.arena.word ⟨c.arena.active, o⟩) :
    c'.arena.read ⟨c.arena.active, o⟩ = c.arena.read ⟨c.arena.active, o⟩ := by
  have hs : c'.arena.spaceWords = c.arena.spaceWords := congrArg Layout.spaceWords hl
  have hr := c'.arena.read_active o
  rw [ha, hs] at hr
  rw [hr, c.arena.read_active]
  by_cases ho : o < c.arena.spaceWords
  · rw [if_pos ho, if_pos ho, h ho]
  · rw [if_neg ho, if_neg ho]
    unfold Arena.address
    rw [hl]

end

end Collector

end Semispace
