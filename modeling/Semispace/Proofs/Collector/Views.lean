import Semispace.Proofs.Collector.Access

/-!
# Three views of an object

An object can be looked at as a value, through the accessors of its tag and word by word. All three
go by the same check, and where it accepts the reference they tell the same of every memory
(`Collector.views_agree`).
-/

namespace Semispace

/-- Words that make up a value: the tag, then the scalar or the length, then the slots. -/
def Value.Spelled (word : Nat → Except Error Word) (v : Value) : Prop :=
  word 0 = .ok v.tag.word ∧ ∃ second, word 1 = .ok second ∧
    match v with
    | .int x => second.toInt64 = x
    | .bool b => (second != 0) = b
    | .vector slots => second.toNat = slots.length ∧
      ∀ i (h : i < slots.length), word (headerWords + i) = .ok (Ref.slotWord slots[i])

namespace Collector

variable {c : Collector} {r : Ref} {t : Tag} {e : Error} {i o : Nat} {h : Header}

/-! ## A refused reference -/

theorem value_of_refused (hc : c.checkObject r = .error e) : c.value r = .error e := by
  simp [value, hc, bind, Except.bind]

theorem header_of_refused (hc : c.checkObject r = .error e) : c.header r = .error e := by
  simp [header, hc, Except.map]

theorem headerTagged_of_refused (hc : c.checkObject r = .error e) : c.headerTagged r t = .error e := by
  simp [headerTagged, header_of_refused hc, bind, Except.bind]

/-! ## An accepted reference -/

/-- The meaning of the words from the offset `o` of the active half on, after a header. -/
def meaning (c : Collector) (o : Nat) (h : Header) : Value :=
  match h.tag with
  | .int => .int h.second.toInt64
  | .bool => .bool (h.second != 0)
  | .vector => .vector ((List.range h.slotCount).map fun i => Ref.ofWord? (c.arena.slotAt ⟨c.arena.active, o⟩ i))

section
variable (hc : c.checkObject r = .ok (⟨c.arena.active, o⟩, h))

include hc in
theorem header_of_checkObject : c.header r = .ok h := by
  simp [header, hc, Except.map]

include hc in
theorem headerTagged_of_checkObject (t : Tag) : c.headerTagged r t =
    if h.tag = t then .ok h else .error (.invalidArgument (.wrongTag t r h.tag)) := by
  unfold headerTagged
  rw [header_of_checkObject hc]
  rfl

include hc in
theorem value_of_checkObject : c.value r = .ok (c.meaning o h) := by
  obtain ⟨_, hloc, x, _⟩ := checkObject_eq_ok_iff.mp hc
  cases hloc
  have hin := x.inside
  rw [Header.size_eq] at hin
  unfold value meaning
  simp only [hc, bind, Except.bind]
  cases h.tag with
  | int => rfl
  | bool => rfl
  | vector =>
    have hwords : c.readWords (Location.add ⟨c.arena.active, o⟩ headerWords) h.slotCount = _ :=
      c.readWords_ok (by show o + headerWords + h.slotCount ≤ c.arena.spaceWords; omega) c.arena.isOpen_active
    simp only [hwords, pure, Except.pure, List.map_map]
    refine congrArg (fun f => Except.ok (Value.vector ((List.range h.slotCount).map f))) (funext fun i => ?_)
    rw [Arena.slotAt, ← Location.add_add]
    rfl

include hc in
theorem vectorGet_beyond (ht : h.tag = .vector) (hi : h.slotCount ≤ i) :
    c.vectorGet r i = .error (.invalidArgument (.slotOutOfBounds i h.slotCount)) := by
  have hs : c.slotLocation r i = .error (.invalidArgument (.slotOutOfBounds i h.slotCount)) := by
    unfold slotLocation
    simp only [hc, bind, Except.bind]
    rw [if_neg (fun hn => hn ht), if_pos hi]
    rfl
  unfold vectorGet
  rw [hs]
  rfl

include hc in
/-- Every word of an object can be read. -/
theorem readWord_of_checkObject (hi : i < h.size) : c.readWord r i = .ok (c.arena.word ⟨c.arena.active, o + i⟩) := by
  obtain ⟨_, hloc, x, hend⟩ := checkObject_eq_ok_iff.mp hc
  cases hloc
  have hin := x.inside
  have hl : c.wordLocation r i = .ok ⟨c.arena.active, o + i⟩ := by
    rw [wordLocation_located x.located, if_neg (by omega)]
  unfold readWord
  rw [hl]
  exact Arena.read_ok (by show o + i < c.arena.spaceWords; omega) c.arena.isOpen_active

include hc in
theorem spelled_meaning : (c.meaning o h).Spelled (c.readWord r) := by
  obtain ⟨_, hloc, x, _⟩ := checkObject_eq_ok_iff.mp hc
  cases hloc
  obtain ⟨hfirst, hsecond⟩ := Arena.headerAt_eq_some_iff.mp x.header
  have hsize := h.headerWords_le_size
  unfold headerWords at hsize
  have h0 : c.readWord r 0 = .ok h.tag.word := by
    rw [readWord_of_checkObject hc (by omega), ← hfirst]
    rfl
  have h1 : c.readWord r 1 = .ok h.second := by
    rw [readWord_of_checkObject hc (by omega), ← hsecond]
    rfl
  have htag : (c.meaning o h).tag = h.tag := by
    unfold meaning
    cases h.tag <;> rfl
  refine ⟨htag ▸ h0, h.second, h1, ?_⟩
  unfold meaning
  cases ht : h.tag with
  | int => rfl
  | bool => rfl
  | vector =>
    have hcount : h.slotCount = h.second.toNat := by rw [Header.slotCount, ht]
    refine ⟨by rw [List.length_map, List.length_range, hcount], fun i hi => ?_⟩
    rw [List.length_map, List.length_range] at hi
    rw [readWord_of_checkObject hc (by rw [h.size_eq]; omega), List.getElem_map, List.getElem_range,
      Ref.slotWord_ofWord?]
    rfl

end

/-! ## The views -/

theorem checkObject_cases (c : Collector) (r : Ref) : (∃ e, c.checkObject r = .error e) ∨
    ∃ o h, c.checkObject r = .ok (⟨c.arena.active, o⟩, h) := by
  cases hc : c.checkObject r with
  | error e => exact .inl ⟨e, rfl⟩
  | ok found =>
    obtain ⟨loc, h⟩ := found
    obtain ⟨o, rfl, _⟩ := checkObject_eq_ok_iff.mp hc
    exact .inr ⟨o, h, rfl⟩

theorem value_eq_error_iff : c.value r = .error e ↔ c.header r = .error e := by
  obtain ⟨e', hc⟩ | ⟨o, h, hc⟩ := c.checkObject_cases r
  · rw [value_of_refused hc, header_of_refused hc]
    simp
  · rw [value_of_checkObject hc, header_of_checkObject hc]
    simp

theorem value_eq_int_iff {x : Int64} : c.value r = .ok (.int x) ↔ c.intValue r = .ok x := by
  unfold intValue
  obtain ⟨e', hc⟩ | ⟨o, h, hc⟩ := c.checkObject_cases r
  · rw [value_of_refused hc, headerTagged_of_refused hc]
    simp [Except.map]
  · rw [value_of_checkObject hc, headerTagged_of_checkObject hc, meaning]
    cases h.tag <;> simp [Except.map]

theorem value_eq_bool_iff {b : Bool} : c.value r = .ok (.bool b) ↔ c.boolValue r = .ok b := by
  unfold boolValue
  obtain ⟨e', hc⟩ | ⟨o, h, hc⟩ := c.checkObject_cases r
  · rw [value_of_refused hc, headerTagged_of_refused hc]
    simp [Except.map]
  · rw [value_of_checkObject hc, headerTagged_of_checkObject hc, meaning]
    cases h.tag <;> simp [Except.map]

theorem exists_of_value_vector {slots : List (Option Ref)} (hv : c.value r = .ok (.vector slots)) :
    ∃ o h, c.checkObject r = .ok (⟨c.arena.active, o⟩, h) ∧ h.tag = .vector ∧
      slots = (List.range h.slotCount).map fun i => Ref.ofWord? (c.arena.slotAt ⟨c.arena.active, o⟩ i) := by
  obtain ⟨e', hc⟩ | ⟨o, h, hc⟩ := c.checkObject_cases r
  · rw [value_of_refused hc] at hv
    cases hv
  · rw [value_of_checkObject hc, meaning] at hv
    refine ⟨o, h, hc, ?_⟩
    cases ht : h.tag with
    | int => rw [ht] at hv; cases hv
    | bool => rw [ht] at hv; cases hv
    | vector =>
      rw [ht] at hv
      cases hv
      exact ⟨rfl, rfl⟩

theorem exists_of_vectorLength {n : Nat} (hn : c.vectorLength r = .ok n) :
    ∃ o h, c.checkObject r = .ok (⟨c.arena.active, o⟩, h) ∧ h.tag = .vector ∧ h.slotCount = n := by
  unfold vectorLength at hn
  obtain ⟨e', hc⟩ | ⟨o, h, hc⟩ := c.checkObject_cases r
  · rw [headerTagged_of_refused hc] at hn
    cases hn
  · rw [headerTagged_of_checkObject hc] at hn
    split at hn
    · next ht =>
      cases hn
      exact ⟨o, h, hc, ht, rfl⟩
    · cases hn

theorem vectorGet_of_value {slots : List (Option Ref)} (hv : c.value r = .ok (.vector slots)) (i : Nat) :
    c.vectorGet r i = if h : i < slots.length then .ok slots[i]
      else .error (.invalidArgument (.slotOutOfBounds i slots.length)) := by
  obtain ⟨o, h, hc, ht, rfl⟩ := exists_of_value_vector hv
  simp only [List.length_map, List.length_range, List.getElem_map, List.getElem_range]
  split
  · next hi => exact vectorGet_of_checkObject hc ht hi
  · next hi => exact vectorGet_beyond hc ht (Nat.not_lt.mp hi)

theorem vectorLength_of_value {slots : List (Option Ref)} (hv : c.value r = .ok (.vector slots)) :
    c.vectorLength r = .ok slots.length := by
  obtain ⟨o, h, hc, ht, rfl⟩ := exists_of_value_vector hv
  rw [vectorLength_of_checkObject hc ht, List.length_map, List.length_range]

/-- Length and slots determine the value. -/
theorem value_of_vectorGet {slots : List (Option Ref)} (hn : c.vectorLength r = .ok slots.length)
    (hg : ∀ i (h : i < slots.length), c.vectorGet r i = .ok slots[i]) : c.value r = .ok (.vector slots) := by
  obtain ⟨o, h, hc, ht, hcount⟩ := exists_of_vectorLength hn
  rw [value_of_checkObject hc, meaning, ht]
  refine congrArg (fun s => Except.ok (Value.vector s)) (List.ext_getElem ?_ fun i hi hi' => ?_)
  · rw [List.length_map, List.length_range, hcount]
  · have hslot := hg i hi'
    rw [vectorGet_of_checkObject hc ht (hcount.symm ▸ hi')] at hslot
    rw [List.getElem_map, List.getElem_range]
    exact Except.ok.inj hslot

/-- Whatever the words of the heap, the structured view of an object, its accessors and its words tell
the same. -/
theorem views_agree (c : Collector) (r : Ref) :
    (∀ e, c.value r = .error e ↔ c.header r = .error e) ∧
    ((∃ v, c.value r = .ok v) ↔ ∃ h, c.header r = .ok h) ∧
    (∀ x, c.value r = .ok (.int x) ↔ c.intValue r = .ok x) ∧
    (∀ b, c.value r = .ok (.bool b) ↔ c.boolValue r = .ok b) ∧
    (∀ slots : List (Option Ref), c.value r = .ok (.vector slots) ↔ c.vectorLength r = .ok slots.length ∧
      ∀ i, (∀ h : i < slots.length, c.vectorGet r i = .ok slots[i]) ∧
        (slots.length ≤ i → ∃ fault, c.vectorGet r i = .error (.invalidArgument fault))) ∧
    (∀ slots i, c.value r = .ok (.vector slots) → slots.length ≤ i →
      c.vectorGet r i = .error (.invalidArgument (.slotOutOfBounds i slots.length))) ∧
    ∀ v, c.value r = .ok v → v.Spelled (c.readWord r) := by
  refine ⟨fun e => value_eq_error_iff, ?_, fun x => value_eq_int_iff, fun b => value_eq_bool_iff,
    fun slots => ⟨fun hv => ?_, fun ⟨hn, hg⟩ => value_of_vectorGet hn fun i => (hg i).1⟩, fun slots i hv hi => ?_, ?_⟩
  · obtain ⟨e, hc⟩ | ⟨o, h, hc⟩ := c.checkObject_cases r
    · simp [value_of_refused hc, header_of_refused hc]
    · simp [value_of_checkObject hc, header_of_checkObject hc]
  · refine ⟨vectorLength_of_value hv, fun i => ⟨fun hi => ?_, fun hi => ?_⟩⟩
    · rw [vectorGet_of_value hv, dif_pos hi]
    · exact ⟨.slotOutOfBounds i slots.length, by rw [vectorGet_of_value hv, dif_neg (Nat.not_lt.mpr hi)]⟩
  · rw [vectorGet_of_value hv, dif_neg (Nat.not_lt.mpr hi)]
  · intro v hv
    obtain ⟨e, hc⟩ | ⟨o, h, hc⟩ := c.checkObject_cases r
    · rw [value_of_refused hc] at hv
      cases hv
    · rw [value_of_checkObject hc] at hv
      cases hv
      exact spelled_meaning hc

end Collector

end Semispace
