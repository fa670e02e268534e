/-!
# Tags

The first word of an object says what it is: an integer, a boolean, or a vector of references.
-/

namespace Semispace

/-- The three kinds of heap object. -/
inductive Tag
  | int
  | bool
  | vector
  deriving DecidableEq, Repr, Inhabited

namespace Tag

/-- The word that stands for a tag. -/
def word : Tag → UInt64
  | int => 0
  | bool => 1
  | vector => 2

/-- The tag a word stands for. -/
def ofWord? (w : UInt64) : Option Tag :=
  if w = 0 then some int else if w = 1 then some bool else if w = 2 then some vector else none

/-- Whether the object is a single value rather than a list of slots. -/
def isScalar : Tag → Bool
  | vector => false
  | _ => true

/-- The name of a tag. -/
def name : Tag → String
  | int => "Int"
  | bool => "Bool"
  | vector => "Vector"

@[simp] theorem ofWord?_word (t : Tag) : ofWord? t.word = some t := by
  cases t <;> rfl

theorem ofWord?_eq_some_iff {w : UInt64} {t : Tag} : ofWord? w = some t ↔ w = t.word := by
  constructor
  · intro h
    unfold ofWord? at h
    split at h
    · cases h; assumption
    · split at h
      · cases h; assumption
      · split at h
        · cases h; assumption
        · cases h
  · rintro rfl
    exact ofWord?_word t

end Tag

end Semispace
