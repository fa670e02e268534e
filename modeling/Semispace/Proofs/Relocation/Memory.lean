import Mathlib.Data.Finset.Card
import Semispace.Proofs.Relocation.Word

/-!
# The memory of a forwarding table

A table is given addresses to resolve, each with a copy that may fail and that may change the world it works
on. The calls so far tell all that the table knows: for each address the copy that succeeded first, and
nothing of those that failed (`remembers_first_copies`).
-/

namespace Semispace.ForwardTable

variable {ε σ : Type}

/-! ## Calls -/

/-- A call of a table. -/
inductive Call (ε σ : Type)
  | resolve (old : Word) (copy : EStateM ε σ Word)
  | find (old : Word)

/-- A call of `resolve` that was made. -/
structure Attempt (ε σ : Type) where
  old : Word
  copy : EStateM ε σ Word
  /-- The world in which it was made. -/
  world : σ
  /-- How often it ran the copy. -/
  runs : Nat
  outcome : Except ε Forwarded
  /-- The world that it left. -/
  left : σ

/-- A call that was made, with what it answered. -/
inductive Visit (ε σ : Type)
  | attempt (x : Attempt ε σ)
  | lookup (old : Word) (new : Option Word)

namespace Visit

def call : Visit ε σ → Call ε σ
  | attempt x => .resolve x.old x.copy
  | lookup old _ => .find old

/-- The address that was resolved, and the new one. -/
def success? : Visit ε σ → Option (Word × Word)
  | attempt x => match x.outcome with
    | .ok f => some (x.old, f.address)
    | .error _ => none
  | lookup _ _ => none

end Visit

/-- A copy that counts how often it runs. -/
def counted (copy : EStateM ε σ Word) : EStateM ε (σ × Nat) Word := fun s =>
  match copy.run s.1 with
  | .ok new s' => .ok new (s', s.2 + 1)
  | .error e s' => .error e (s', s.2 + 1)

theorem run_counted (copy : EStateM ε σ Word) (s : σ) (n : Nat) : (counted copy).run (s, n) =
    match copy.run s with
    | .ok new s' => .ok new (s', n + 1)
    | .error e s' => .error e (s', n + 1) := rfl

/-- A table, the world that the copies work on, and the calls so far in order. -/
structure History (ε σ : Type) where
  table : ForwardTable
  world : σ
  visits : List (Visit ε σ)

namespace History

def start (s : σ) : History ε σ := ⟨.empty, s, []⟩

/-- Makes one more call. A call that fails hands no table back. -/
def perform (d : History ε σ) : Call ε σ → History ε σ
  | .find old => { d with visits := d.visits ++ [.lookup old (d.table.find? old)] }
  | .resolve old copy =>
    -- the runs are counted in the same call with a copy that counts them
    let runs := (endState ((d.table.resolve old (counted copy)).run (d.world, 0))).2
    match (d.table.resolve old copy).run d.world with
    | .ok (f, t) s => ⟨t, s, d.visits ++ [.attempt ⟨old, copy, d.world, runs, .ok f, s⟩]⟩
    | .error e s => ⟨d.table, s, d.visits ++ [.attempt ⟨old, copy, d.world, runs, .error e, s⟩]⟩

/-- The history of a table that was empty. -/
def ofCalls (calls : List (Call ε σ)) (s : σ) : History ε σ := calls.foldl perform (start s)

section
variable {d : History ε σ} {old new : Word} {copy : EStateM ε σ Word} {s : σ} {e : ε}

theorem perform_of_some (h : d.table.find? old = some new) : d.perform (.resolve old copy) =
    { d with visits := d.visits ++ [.attempt ⟨old, copy, d.world, 0, .ok (.existing new), d.world⟩] } := by
  simp only [perform, resolve_of_some h]
  rfl

theorem perform_of_ok (h : d.table.find? old = none) (hc : copy.run d.world = .ok new s) :
    d.perform (.resolve old copy) = ⟨d.table.insert old new h, s,
      d.visits ++ [.attempt ⟨old, copy, d.world, 1, .ok (.copied new), s⟩]⟩ := by
  simp only [perform, resolve_of_none h, EStateM.run_bind, hc, run_counted]
  rfl

theorem perform_of_error (h : d.table.find? old = none) (hc : copy.run d.world = .error e s) :
    d.perform (.resolve old copy) =
      ⟨d.table, s, d.visits ++ [.attempt ⟨old, copy, d.world, 1, .error e, s⟩]⟩ := by
  simp only [perform, resolve_of_none h, EStateM.run_bind, hc, run_counted]
  rfl

end

theorem map_call_perform (d : History ε σ) (call : Call ε σ) :
    (d.perform call).visits.map Visit.call = d.visits.map Visit.call ++ [call] := by
  cases call with
  | find old => simp [perform, Visit.call]
  | resolve old copy =>
    simp only [perform]
    split <;> simp [Visit.call]

theorem map_call_foldl (d : History ε σ) (calls : List (Call ε σ)) :
    (calls.foldl perform d).visits.map Visit.call = d.visits.map Visit.call ++ calls := by
  induction calls generalizing d with
  | nil => exact (List.append_nil _).symm
  | cons call calls ih => rw [List.foldl_cons, ih, map_call_perform, List.append_assoc, List.singleton_append]

end History

/-! ## What the calls tell -/

/-- The addresses that were resolved, each time with the new one. -/
def successes (vs : List (Visit ε σ)) : List (Word × Word) := vs.filterMap Visit.success?

/-- A call to resolve the address succeeded. -/
def Succeeded (vs : List (Visit ε σ)) (w : Word) : Prop := w ∈ (successes vs).map Prod.fst

instance (vs : List (Visit ε σ)) (w : Word) : Decidable (Succeeded vs w) :=
  inferInstanceAs (Decidable (_ ∈ _))

/-- The attempt does what the calls of the past tell. -/
structure Attempt.Recalls (past : List (Visit ε σ)) (x : Attempt ε σ) : Prop where
  /-- The copy runs, and only once, when no earlier call for the address succeeded. -/
  runs : x.runs = if Succeeded past x.old then 0 else 1
  left : x.left = if Succeeded past x.old then x.world else endState (x.copy.run x.world)
  copied_iff : ∀ new, x.outcome = .ok (.copied new) ↔
    ¬ Succeeded past x.old ∧ answer (x.copy.run x.world) = .ok new
  /-- Later the address has the new one of its first success. -/
  existing_iff : ∀ new, x.outcome = .ok (.existing new) ↔ (successes past).lookup x.old = some new
  failed_iff : ∀ e, x.outcome = .error e ↔ ¬ Succeeded past x.old ∧ answer (x.copy.run x.world) = .error e

/-- The call does what the calls of the past tell. -/
def Visit.Recalls (past : List (Visit ε σ)) : Visit ε σ → Prop
  | attempt x => x.Recalls past
  | lookup old new => new = (successes past).lookup old

section
variable {vs past : List (Visit ε σ)} {old new w : Word}

theorem lookup_successes_eq_none_iff : (successes vs).lookup w = none ↔ ¬ Succeeded vs w := by
  rw [List.lookup_eq_none_iff, Succeeded, List.mem_map]
  constructor
  · rintro h ⟨p, hp, rfl⟩
    simpa using h p hp
  · intro h p hp
    exact bne_iff_ne.mpr fun hw => h ⟨p, hp, hw.symm⟩

theorem mem_successes_of_lookup (h : (successes vs).lookup w = some new) : (w, new) ∈ successes vs := by
  obtain ⟨l₁, l₂, hl, _⟩ := List.lookup_eq_some_iff.mp h
  rw [hl]
  exact List.mem_append_right _ (List.mem_cons_self ..)

theorem Succeeded.of_lookup (h : (successes vs).lookup w = some new) : Succeeded vs w :=
  List.mem_map.mpr ⟨_, mem_successes_of_lookup h, rfl⟩

theorem successes_concat (vs : List (Visit ε σ)) (u : Visit ε σ) :
    successes (vs ++ [u]) = successes vs ++ u.success?.toList := by
  cases hu : u.success? <;> simp [successes, hu]

/-- What was found first for an address is not replaced. -/
theorem lookup_concat_of_some (h : (successes vs).lookup old = some new) (w : Word) :
    (successes vs ++ [(old, new)]).lookup w = (successes vs).lookup w := by
  rw [List.lookup_append]
  by_cases hw : w = old
  · rw [hw, h, Option.some_or]
  · rw [List.lookup_cons, beq_false_of_ne hw, List.lookup_nil, Option.or_none]

theorem lookup_concat_of_none (h : (successes vs).lookup old = none) (new w : Word) :
    (successes vs ++ [(old, new)]).lookup w = if old = w then some new else (successes vs).lookup w := by
  rw [List.lookup_append]
  split
  · next hw => rw [← hw, h, Option.none_or, List.lookup_cons_self]
  · next hw => rw [List.lookup_cons, beq_false_of_ne (Ne.symm hw), List.lookup_nil, Option.or_none]

theorem eraseDups_concat_of_mem {α : Type} [BEq α] [LawfulBEq α] {l : List α} {a : α} (h : a ∈ l) :
    (l ++ [a]).eraseDups = l.eraseDups := by
  rw [List.eraseDups_append]
  simp [List.removeAll, h]

theorem eraseDups_concat_of_notMem {α : Type} [BEq α] [LawfulBEq α] {l : List α} {a : α} (h : a ∉ l) :
    (l ++ [a]).eraseDups = l.eraseDups ++ [a] := by
  rw [List.eraseDups_append, List.removeAll, List.filter_cons_of_pos (by simpa using h)]
  rfl

end

namespace Attempt

variable {past : List (Visit ε σ)} {old new : Word} {copy : EStateM ε σ Word} {s s' : σ} {e : ε}

theorem recalls_of_some (h : (successes past).lookup old = some new) :
    Recalls past ⟨old, copy, s, 0, .ok (.existing new), s⟩ where
  runs := (if_pos (Succeeded.of_lookup h)).symm
  left := (if_pos (Succeeded.of_lookup h)).symm
  copied_iff _ := ⟨nofun, fun hx => absurd (Succeeded.of_lookup h) hx.1⟩
  existing_iff _ := by simp [h]
  failed_iff _ := ⟨nofun, fun hx => absurd (Succeeded.of_lookup h) hx.1⟩

theorem recalls_of_ok (h : ¬ Succeeded past old) (hc : copy.run s = .ok new s') :
    Recalls past ⟨old, copy, s, 1, .ok (.copied new), s'⟩ where
  runs := (if_neg h).symm
  left := by rw [if_neg h, hc, endState_ok]
  copied_iff _ := by simp [h, hc, answer]
  existing_iff _ := by simp [lookup_successes_eq_none_iff.mpr h]
  failed_iff _ := by simp [hc, answer]

theorem recalls_of_error (h : ¬ Succeeded past old) (hc : copy.run s = .error e s') :
    Recalls past ⟨old, copy, s, 1, .error e, s'⟩ where
  runs := (if_neg h).symm
  left := by rw [if_neg h, hc, endState_error]
  copied_iff _ := by simp [hc, answer]
  existing_iff _ := by simp [lookup_successes_eq_none_iff.mpr h]
  failed_iff _ := by simp [h, hc, answer]

end Attempt

/-- Each call does what the calls before it tell. -/
def Told (vs : List (Visit ε σ)) : Prop := ∀ past v later, vs = past ++ v :: later → v.Recalls past

theorem told_nil : Told ([] : List (Visit ε σ)) :=
  fun _ _ _ h => absurd h.symm (List.append_ne_nil_of_right_ne_nil _ (List.cons_ne_nil _ _))

theorem Told.concat {vs : List (Visit ε σ)} {u : Visit ε σ} (h : Told vs) (hu : u.Recalls vs) : Told (vs ++ [u]) := by
  intro past v later hvs
  -- the last call is `u`, and any other has the same past as before
  rcases List.eq_nil_or_concat later with rfl | ⟨later, u', rfl⟩
  · obtain ⟨rfl, hv⟩ := List.append_inj' hvs rfl
    cases hv
    exact hu
  · rw [List.concat_eq_append, ← List.cons_append, ← List.append_assoc] at hvs
    exact h past v later (List.append_inj' hvs rfl).1

/-! ## What the table knows -/

namespace History

/-- The table knows what the calls tell: its entries are the successes, each address with its first. -/
structure Remembers (d : History ε σ) : Prop where
  find?_eq : ∀ w, d.table.find? w = (successes d.visits).lookup w
  toList_eq : d.table.toList = (successes d.visits).eraseDups
  nodup : (d.table.toList.map Prod.fst).Nodup
  told : Told d.visits

namespace Remembers

variable {d : History ε σ} {u : Visit ε σ} {old new : Word} {s : σ}

theorem start (s : σ) : (History.start s : History ε σ).Remembers :=
  ⟨find?_empty, rfl, .nil, told_nil⟩

theorem not_succeeded (h : d.Remembers) (ho : d.table.find? old = none) : ¬ Succeeded d.visits old :=
  lookup_successes_eq_none_iff.mp ((h.find?_eq old).symm.trans ho)

/-- A call that resolved nothing tells nothing. -/
theorem unresolved (h : d.Remembers) (hu : u.Recalls d.visits) (hn : u.success? = none) :
    (⟨d.table, s, d.visits ++ [u]⟩ : History ε σ).Remembers := by
  have hs : successes (d.visits ++ [u]) = successes d.visits := by
    rw [successes_concat, hn, Option.toList_none, List.append_nil]
  exact ⟨fun w => hs ▸ h.find?_eq w, hs ▸ h.toList_eq, h.nodup, h.told.concat hu⟩

/-- A success that is not the first of its address tells nothing new. -/
theorem again (h : d.Remembers) (hu : u.Recalls d.visits) (hn : u.success? = some (old, new))
    (ho : d.table.find? old = some new) : (⟨d.table, s, d.visits ++ [u]⟩ : History ε σ).Remembers := by
  have hl := (h.find?_eq old).symm.trans ho
  have hs : successes (d.visits ++ [u]) = successes d.visits ++ [(old, new)] := by
    rw [successes_concat, hn, Option.toList_some]
  refine ⟨fun w => ?_, ?_, h.nodup, h.told.concat hu⟩
  · rw [hs, lookup_concat_of_some hl, h.find?_eq]
  · rw [hs, eraseDups_concat_of_mem (mem_successes_of_lookup hl), h.toList_eq]

theorem first (h : d.Remembers) (hu : u.Recalls d.visits) (hn : u.success? = some (old, new))
    (ho : d.table.find? old = none) :
    (⟨d.table.insert old new ho, s, d.visits ++ [u]⟩ : History ε σ).Remembers := by
  have hold := h.not_succeeded ho
  have hs : successes (d.visits ++ [u]) = successes d.visits ++ [(old, new)] := by
    rw [successes_concat, hn, Option.toList_some]
  have hnew : (old, new) ∉ successes d.visits := fun hm => hold (List.mem_map.mpr ⟨_, hm, rfl⟩)
  refine ⟨fun w => ?_, ?_, ?_, h.told.concat hu⟩
  · rw [hs, lookup_concat_of_none (lookup_successes_eq_none_iff.mpr hold), find?_insert, h.find?_eq]
  · rw [hs, eraseDups_concat_of_notMem hnew, toList_insert, h.toList_eq]
  · rw [toList_insert, List.map_append, List.map_singleton, List.nodup_append']
    refine ⟨h.nodup, List.nodup_singleton _, ?_⟩
    rw [List.disjoint_singleton, h.toList_eq]
    intro hm
    -- an entry of the address would come from a success
    obtain ⟨p, hp, rfl⟩ := List.mem_map.mp hm
    exact hold (List.mem_map.mpr ⟨p, List.mem_eraseDups.mp hp, rfl⟩)

theorem perform (h : d.Remembers) (call : Call ε σ) : (d.perform call).Remembers := by
  cases call with
  | find old => exact h.unresolved (h.find?_eq old) rfl
  | resolve old copy =>
    cases ho : d.table.find? old with
    | some new =>
      rw [perform_of_some ho]
      exact h.again (Attempt.recalls_of_some ((h.find?_eq old).symm.trans ho)) rfl ho
    | none =>
      have hold := h.not_succeeded ho
      cases hc : copy.run d.world with
      | ok new s =>
        rw [perform_of_ok ho hc]
        exact h.first (u := .attempt _) (Attempt.recalls_of_ok hold hc) rfl ho
      | error e s =>
        rw [perform_of_error ho hc]
        exact h.unresolved (Attempt.recalls_of_error hold hc) rfl

theorem foldl (h : d.Remembers) (calls : List (Call ε σ)) : (calls.foldl History.perform d).Remembers := by
  induction calls generalizing d with
  | nil => exact h
  | cons call calls ih => exact ih (h.perform call)

/-- The table counts the addresses for which a call succeeded. -/
theorem size_eq (h : d.Remembers) : d.table.size = ((successes d.visits).map Prod.fst).toFinset.card := by
  have hs : ((successes d.visits).map Prod.fst).toFinset = (d.table.toList.map Prod.fst).toFinset := by
    ext w
    simp [h.toList_eq]
  rw [hs, List.toFinset_card_of_nodup h.nodup, List.length_map]
  exact Array.length_toList.symm

end Remembers

end History

/-- Whatever is asked of a table, it remembers the first copy of each address that succeeded. A copy runs only
until then; one that fails is not remembered. The entries are the addresses for which a call succeeded, each
once, in the order of their first successes. -/
theorem remembers_first_copies (calls : List (Call ε σ)) (s : σ) :
    let d := History.ofCalls calls s
    d.visits.map Visit.call = calls ∧
    (∀ past v later, d.visits = past ++ v :: later → v.Recalls past) ∧
    d.table.toList = (successes d.visits).eraseDups ∧ (d.table.toList.map Prod.fst).Nodup ∧
    d.table.size = ((successes d.visits).map Prod.fst).toFinset.card ∧
    ∀ w, d.table.find? w = (successes d.visits).lookup w := by
  intro d
  have h : d.Remembers := (History.Remembers.start s).foldl calls
  exact ⟨History.map_call_foldl (.start s) calls, h.told, h.toList_eq, h.nodup, h.size_eq, h.find?_eq⟩

/-- The first copy of an object fails and is tried again, and a second copy of another is not needed. -/
def retriedCalls : List (Call String Nat) :=
  [.resolve 16 (throw "full"), .find 16, .resolve 32 (modifyGet fun n => (900, n + 1)), .resolve 16 (pure 908),
    .resolve 32 (throw "full"), .find 16]

def History.retried : History String Nat := .ofCalls retriedCalls 0

theorem remembers_first_copies_retried : History.retried.table.toList = [(32, 900), (16, 908)] ∧
    ∃ past x later, History.retried.visits = past ++ .attempt x :: later ∧ past.length = 4 ∧ x.old = 32 ∧
      x.runs = 0 ∧ x.outcome = .ok (.existing 900) := by
  obtain ⟨_, hrecalls, hlist, _⟩ := remembers_first_copies retriedCalls 0
  have hsplit : History.retried.visits = History.retried.visits.take 4 ++
      .attempt ⟨32, throw "full", 1, 0, .ok (.existing 900), 1⟩ :: History.retried.visits.drop 5 := rfl
  have hx : Attempt.Recalls _ _ := hrecalls _ _ _ hsplit
  refine ⟨hlist.trans (by decide +kernel), _, _, _, hsplit, rfl, rfl, ?runs, ?outcome⟩
  case runs => exact hx.runs.trans (if_pos (by decide +kernel))
  case outcome => exact (hx.existing_iff 900).mpr (by decide +kernel)

end Semispace.ForwardTable
