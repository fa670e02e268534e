import Mathlib.Algebra.GroupWithZero.Nat
import Mathlib.Logic.Function.Basic
import Semispace.Object.Header
import Semispace.Object.Value

/-!
# Stores

A store keeps objects under identities that never change, and a bounded stack of identities. What it
does on an operation of a program (`Store.perform`) knows nothing of words, halves or passes.
-/

namespace Semispace

/-! ## Contents -/

/-- What an object holds, with references of type `ρ`. -/
inductive Content (ρ : Type)
  | int (v : Int64)
  | bool (v : Bool)
  | vector (slots : List (Option ρ))

/-- Why a store refuses an operation or a reading. -/
inductive Refusal (ρ : Type)
  | wrongTag (expected : Tag) (r : ρ) (found : Tag)
  | slotOutOfBounds (index length : Nat)
  | stackFull (capacity : Nat)
  | stackEmpty

/-- The error that a collector reports for a refusal. -/
def Refusal.error : Refusal Ref → Error
  | wrongTag expected r found => .invalidArgument (.wrongTag expected r found)
  | slotOutOfBounds index length => .invalidArgument (.slotOutOfBounds index length)
  | stackFull capacity => .rootStackOverflow capacity
  | stackEmpty => .rootStackEmpty

def Refusal.map {ρ ρ' : Type} (f : ρ → ρ') : Refusal ρ → Refusal ρ'
  | wrongTag expected r found => .wrongTag expected (f r) found
  | slotOutOfBounds index length => .slotOutOfBounds index length
  | stackFull capacity => .stackFull capacity
  | stackEmpty => .stackEmpty

/-- What a store answers, as a collector gives it. -/
def Refusal.image {α : Type} (place : Nat → Ref) (x : Except (Refusal Nat) α) : Except Error α :=
  x.mapError fun e => (e.map place).error

namespace Content

variable {ρ ρ' : Type}

def map (f : ρ → ρ') : Content ρ → Content ρ'
  | int v => int v
  | bool v => bool v
  | vector slots => vector (slots.map (Option.map f))

def tag : Content ρ → Tag
  | int _ => .int
  | bool _ => .bool
  | vector _ => .vector

def slots : Content ρ → List (Option ρ)
  | vector slots => slots
  | _ => []

/-- The word after the tag. -/
def second : Content ρ → Word
  | int v => v.toUInt64
  | bool v => if v then 1 else 0
  | vector slots => UInt64.ofNat slots.length

def header (x : Content ρ) : Header := ⟨x.tag, x.second⟩

/-- Words that an object takes. -/
def size (x : Content ρ) : Nat := headerWords + x.slots.length

/-- The words of an object. -/
def words (x : Content Ref) : List Word := x.tag.word :: x.second :: x.slots.map Ref.slotWord

/-- The content as a value of the program. -/
def value : Content Ref → Value
  | int v => .int v
  | bool v => .bool v
  | vector slots => .vector slots

/-! ## Readings -/

def intValue (r : ρ) : Content ρ → Except (Refusal ρ) Int64
  | int v => .ok v
  | x => .error (.wrongTag .int r x.tag)

def boolValue (r : ρ) : Content ρ → Except (Refusal ρ) Bool
  | bool v => .ok v
  | x => .error (.wrongTag .bool r x.tag)

def vectorLength (r : ρ) : Content ρ → Except (Refusal ρ) Nat
  | vector slots => .ok slots.length
  | x => .error (.wrongTag .vector r x.tag)

def vectorGet (r : ρ) (i : Nat) : Content ρ → Except (Refusal ρ) (Option ρ)
  | vector slots => (slots[i]?.map .ok).getD (.error (.slotOutOfBounds i slots.length))
  | x => .error (.wrongTag .vector r x.tag)

/-- A vector with another reference in a slot. -/
def vectorSet (r : ρ) (i : Nat) (o : Option ρ) : Content ρ → Except (Refusal ρ) (Content ρ)
  | vector slots => if i < slots.length then .ok (vector (slots.set i o)) else .error (.slotOutOfBounds i slots.length)
  | x => .error (.wrongTag .vector r x.tag)

@[simp] theorem tag_map (f : ρ → ρ') (x : Content ρ) : (x.map f).tag = x.tag := by cases x <;> rfl

@[simp] theorem slots_map (f : ρ → ρ') (x : Content ρ) : (x.map f).slots = x.slots.map (Option.map f) := by
  cases x <;> rfl

@[simp] theorem second_map (f : ρ → ρ') (x : Content ρ) : (x.map f).second = x.second := by
  cases x <;> simp [map, second]

@[simp] theorem header_map (f : ρ → ρ') (x : Content ρ) : (x.map f).header = x.header := by simp [header]

theorem length_words (x : Content Ref) : x.words.length = headerWords + x.slots.length := by
  simp only [words, List.length_cons, List.length_map, headerWords]
  omega

theorem length_words_map (f : ρ → Ref) (x : Content ρ) : (x.map f).words.length = headerWords + x.slots.length := by
  rw [length_words, slots_map, List.length_map]

theorem vectorGet_eq_ok_iff {r : ρ} {k : Nat} {x : Content ρ} {o : Option ρ} :
    x.vectorGet r k = .ok o ↔ x.slots[k]? = some o := by
  cases x with
  | int v => exact ⟨nofun, nofun⟩
  | bool v => exact ⟨nofun, nofun⟩
  | vector xs =>
    simp only [vectorGet, slots]
    cases xs[k]? with
    | none => exact ⟨nofun, nofun⟩
    | some o' => exact ⟨fun h => congrArg some (Except.ok.inj h), fun h => congrArg Except.ok (Option.some.inj h)⟩

theorem map_congr {f g : ρ → ρ'} {x : Content ρ} (h : ∀ r, some r ∈ x.slots → f r = g r) : x.map f = x.map g := by
  cases x with
  | int v => rfl
  | bool v => rfl
  | vector slots =>
    refine congrArg vector (List.map_congr_left ?_)
    rintro (_ | r) hr
    · rfl
    · exact congrArg some (h r hr)

end Content

/-! ## Operations -/

/-- An operation of a program on its objects and its stack. -/
inductive Op (ρ : Type)
  | allocInt (v : Int64)
  | allocBool (v : Bool)
  | allocVector (elements : List (Option ρ))
  | vectorSet (r : ρ) (i : Nat) (value : Option ρ)
  | rootPush (r : ρ)
  | rootPop
  | collect

theorem filterMap_map_map {α β : Type} (f : α → β) : ∀ (xs : List (Option α)),
    (xs.map (Option.map f)).filterMap id = (xs.filterMap id).map f
  | [] => rfl
  | none :: xs => filterMap_map_map f xs
  | some x :: xs => congrArg (f x :: ·) (filterMap_map_map f xs)

theorem map_map_option {α β : Type} {f : β → α} {g : α → β} : ∀ {xs : List (Option α)},
    (∀ x ∈ xs.filterMap id, f (g x) = x) → (xs.map (Option.map g)).map (Option.map f) = xs
  | [], _ => rfl
  | none :: xs, h => congrArg (none :: ·) (@map_map_option _ _ _ _ xs h)
  | some x :: _, h => congrArg₂ (fun y ys => some y :: ys) (h x (List.mem_cons_self ..))
      (map_map_option fun y hy => h y (List.mem_cons_of_mem _ hy))

namespace Op

variable {ρ ρ' : Type}

/-- The references that an operation is given. -/
def refs : Op ρ → List ρ
  | allocVector elements => elements.filterMap id
  | vectorSet r _ value => r :: value.toList
  | rootPush r => [r]
  | _ => []

def map (f : ρ → ρ') : Op ρ → Op ρ'
  | allocInt v => allocInt v
  | allocBool v => allocBool v
  | allocVector elements => allocVector (elements.map (Option.map f))
  | vectorSet r i value => vectorSet (f r) i (value.map f)
  | rootPush r => rootPush (f r)
  | rootPop => rootPop
  | collect => collect

theorem refs_map (f : ρ → ρ') (op : Op ρ) : (op.map f).refs = op.refs.map f := by
  cases op with
  | allocVector elements => exact filterMap_map_map f elements
  | vectorSet r i value => cases value <;> rfl
  | _ => rfl

theorem map_map_eq {f : ρ' → ρ} {g : ρ → ρ'} {op : Op ρ} (h : ∀ r ∈ op.refs, f (g r) = r) : (op.map g).map f = op := by
  cases op with
  | allocVector elements => exact congrArg allocVector (map_map_option h)
  | vectorSet r i value =>
    have hr : f (g r) = r := h r (List.mem_cons_self ..)
    cases value with
    | none => simp [map, hr]
    | some v => simp [map, hr, h v (List.mem_cons_of_mem _ (List.mem_singleton_self v))]
  | rootPush r => exact congrArg rootPush (h r (List.mem_singleton_self r))
  | _ => rfl

end Op

/-! ## Stores -/

/-- Objects under identities, and a stack of identities. -/
structure Store where
  /-- The identities in use are the ones below. -/
  size : Nat
  content : Nat → Content Nat
  /-- The stack, bottom first. -/
  stack : List Nat
  capacity : Nat

namespace Store

def empty (capacity : Nat) : Store := ⟨0, fun _ => .int 0, [], capacity⟩

/-- The store with one more object. -/
def add (st : Store) (x : Content Nat) : Store :=
  { st with size := st.size + 1, content := Function.update st.content st.size x }

/-- What a store does on an operation: it answers with an identity or nothing, or it refuses. -/
def perform (st : Store) : Op Nat → Except (Refusal Nat) (Option Nat × Store)
  | .allocInt v => .ok (some st.size, st.add (.int v))
  | .allocBool v => .ok (some st.size, st.add (.bool v))
  | .allocVector elements =>
    -- the elements have to fit on the stack, too
    if st.capacity < st.stack.length + (elements.filterMap id).length then .error (.stackFull st.capacity)
    else .ok (some st.size, st.add (.vector elements))
  | .vectorSet r i value =>
    ((st.content r).vectorSet r i value).map fun x => (none, { st with content := Function.update st.content r x })
  | .rootPush r =>
    if st.stack.length < st.capacity then .ok (none, { st with stack := st.stack ++ [r] })
    else .error (.stackFull st.capacity)
  | .rootPop =>
    match st.stack.getLast? with
    | none => .error .stackEmpty
    | some r => .ok (some r, { st with stack := st.stack.dropLast })
  | .collect => .ok (none, st)

/-- What is reachable from the stack. -/
inductive Reach (st : Store) : Nat → Prop
  | root {i : Nat} : i ∈ st.stack → Reach st i
  | slot {i j : Nat} : Reach st i → some j ∈ (st.content i).slots → Reach st j

/-- What is reachable leaves `available` of `space` words, which are less than `words`. -/
def Full (st : Store) (space words available : Nat) : Prop :=
  ∃ ids : List Nat, ids.Nodup ∧ (∀ i, i ∈ ids ↔ st.Reach i) ∧
    (ids.map fun i => (st.content i).size).sum + available = space ∧ available < words

end Store

end Semispace
