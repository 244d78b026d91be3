/-!
# Priorities

The group an activity belongs to. Groups are visited one after another: ascending to prepare and to
suspend, descending to resume. There are ten of them and no value outside their range exists
(`Priority`).
-/

namespace Quiesce

/-- A priority level, from 0 (suspended first, resumed last) to 9. -/
structure Priority where
  level : Nat
  level_le : level ≤ 9
deriving DecidableEq, Repr

namespace Priority

/-- Suspended first, resumed last. -/
def first : Priority := ⟨0, by decide⟩

/-- Suspended last, resumed first. -/
def last : Priority := ⟨9, by decide⟩

/-- The middle of the range, for an activity that states no preference. -/
def standard : Priority := ⟨5, by decide⟩

def count : Nat := last.level + 1

/-- The priority of a raw level, if the level is in range. -/
def ofLevel? (level : Nat) : Option Priority :=
  if h : level ≤ 9 then some ⟨level, h⟩ else none

def all : List Priority :=
  (List.range count).filterMap ofLevel?

instance : Inhabited Priority := ⟨standard⟩

instance : LT Priority := ⟨fun p q => p.level < q.level⟩

instance : LE Priority := ⟨fun p q => p.level ≤ q.level⟩

instance (p q : Priority) : Decidable (p < q) :=
  inferInstanceAs (Decidable (p.level < q.level))

instance (p q : Priority) : Decidable (p ≤ q) :=
  inferInstanceAs (Decidable (p.level ≤ q.level))

instance : Ord Priority := ⟨fun p q => compare p.level q.level⟩

def render (p : Priority) : String := toString p.level

theorem ofLevel?_level (p : Priority) : ofLevel? p.level = some p := by
  simp [ofLevel?, p.level_le]

theorem ofLevel?_eq_none_iff {level : Nat} : ofLevel? level = none ↔ 9 < level := by
  simp [ofLevel?]

theorem eq_of_level {p q : Priority} (h : p.level = q.level) : p = q := by
  obtain ⟨level, le⟩ := p
  cases h
  rfl

/-- Every priority stands at the place of its level. -/
theorem level_of_getElem?_all {i : Nat} {p : Priority} (h : all[i]? = some p) : p.level = i := by
  have lt : i < count := (List.getElem?_eq_some_iff.1 h).1
  have places : ∀ i < count, all[i]?.map level = some i := by decide
  simpa [h] using places i lt

theorem mem_all (p : Priority) : p ∈ all := by
  have h : p.level < count := by
    have := p.level_le
    simp only [count, last]
    omega
  exact List.mem_filterMap.2 ⟨p.level, List.mem_range.2 h, ofLevel?_level p⟩

end Priority

end Quiesce
