import NexusMainframe.Lib.Url
import Mathlib.Data.List.Nodup

/-!
# Patterns of paths

A pattern is a path of which some segments are placeholders, a colon with a name behind it. A path
fits a pattern when it has as many segments and the same ones, except that it may have any value
where the pattern has a placeholder.
-/

namespace PathPattern

/-- What stands between the slashes. -/
def segments (path : Bytes) : List Bytes :=
  path.splitOn 0x2F

/-- The name of a segment that is a placeholder. -/
def placeholder? : Bytes → Option Bytes
  | 0x3A :: name => if name = [] then none else some name
  | _ => none

/-- The values of the placeholders, if the segments fit. -/
def fitSegments : List Bytes → List Bytes → Option (List (Bytes × Bytes))
  | [], [] => some []
  | p :: pattern, s :: path =>
      match placeholder? p with
      | some name => (fitSegments pattern path).map ((name, s) :: ·)
      | none => if p = s then fitSegments pattern path else none
  | _, _ => none

/-- The values of the placeholders, if the path fits the pattern. -/
def fit (pattern path : Bytes) : Option (List (Bytes × Bytes)) :=
  fitSegments (segments pattern) (segments path)

/-- No segment behind a slash is empty. -/
def Clean (path : Bytes) : Prop :=
  ∀ segment ∈ (segments path).tail, segment ≠ []

instance : DecidablePred Clean :=
  fun path => inferInstanceAs (Decidable (∀ segment ∈ (segments path).tail, segment ≠ []))

/-- The names of the placeholders. -/
def names (pattern : Bytes) : List Bytes :=
  (segments pattern).filterMap placeholder?

/-- There may be segments that fit both lists. -/
def overlap : List Bytes → List Bytes → Bool
  | [], [] => true
  | p :: pattern, q :: pattern' =>
      ((placeholder? p).isSome || (placeholder? q).isSome || p = q) && overlap pattern pattern'
  | _, _ => false

/-! ### Values -/

section

variable {pattern path : List Bytes} {values : List (Bytes × Bytes)}

/-- The first segment is the value of a placeholder, or the same as in the pattern. -/
theorem fitSegments_cons
    {p s : Bytes} (h : fitSegments (p :: pattern) (s :: path) = some values) :
  ∃ rest, fitSegments pattern path = some rest
    ∧ ((∃ name, placeholder? p = some name ∧ values = (name, s) :: rest)
      ∨ placeholder? p = none ∧ p = s ∧ values = rest)
  := by
  rw [fitSegments] at h
  split at h
  next name hname =>
    obtain ⟨rest, hrest, rfl⟩ := Option.map_eq_some_iff.mp h
    exact ⟨rest, hrest, .inl ⟨name, hname, rfl⟩⟩
  next hnone =>
    obtain ⟨hsame, hrest⟩ := Option.ite_none_right_eq_some.mp h
    exact ⟨values, hrest, .inr ⟨hnone, hsame, rfl⟩⟩

/-- Segments that fit two lists show that these overlap. -/
theorem overlap_of_fitSegments
    {pattern' : List Bytes} {values' : List (Bytes × Bytes)}
    (h : fitSegments pattern path = some values) (h' : fitSegments pattern' path = some values') :
  overlap pattern pattern' = true
  := by
  induction pattern generalizing path pattern' values values' with
  | nil =>
      cases path with
      | nil =>
          cases pattern' with
          | nil => rfl
          | cons q pattern' => cases h'
      | cons s path => cases h
  | cons p pattern ih =>
      cases path with
      | nil => cases h
      | cons s path =>
          cases pattern' with
          | nil => cases h'
          | cons q pattern' =>
              obtain ⟨rest, hrest, hp⟩ := fitSegments_cons h
              obtain ⟨rest', hrest', hq⟩ := fitSegments_cons h'
              rw [overlap, ih hrest hrest', Bool.and_true]
              obtain ⟨name, hname, -⟩ | ⟨-, rfl, -⟩ := hp
              · simp [hname]
              · obtain ⟨name, hname, -⟩ | ⟨-, rfl, -⟩ := hq <;> simp [*]

end

end PathPattern
