import NexusMainframe.Lib.JsonCodec

/-!
# Merge patches

A patch that is an object sets the members that it has, removes those that are `null` in it,
and is merged into the members that are there. Any other patch replaces the value.
-/

namespace Json

/-- A value whose strings are UTF-8, as a parser returns it. -/
def WellFormed (j : Json) : Prop :=
  j.Proper ∧ j.Valid

instance : DecidablePred WellFormed :=
  fun j => inferInstanceAs (Decidable (j.Proper ∧ j.Valid))

/-- The members of an object, and none of another value. -/
def members : Json → List (Bytes × Json)
  | object members => members
  | _ => []

mutual

/-- A value with a patch merged into it. -/
def mergePatch (j : Json) : Json → Json
  | object patch => object (mergeMembers j.members patch)
  | patch => patch

/-- The loop over the members of a patch. -/
def mergeMembers (members : List (Bytes × Json)) : List (Bytes × Json) → List (Bytes × Json)
  | [] => members
  | (key, null) :: patch => mergeMembers (members.filter fun m => m.1 ≠ key) patch
  | (key, j) :: patch =>
      mergeMembers (setMember key (mergePatch ((members.lookup key).getD null) j) members) patch

end

/-! ### Well-formed values -/

theorem wellFormed_object {members : List (Bytes × Json)} :
  WellFormed (object members)
    ↔ (members.map Prod.fst).Pairwise KeyLt
      ∧ ∀ m ∈ members, Utf8.Valid m.1 ∧ WellFormed m.2
  := by
  rw [WellFormed, proper_object, valid_object, and_assoc, ← forall₂_and]
  simp only [WellFormed, and_left_comm]

theorem WellFormed.members {j : Json} (h : j.WellFormed) :
  WellFormed (object j.members)
  := by
  cases j with
  | object members => apply h
  | _ => exact wellFormed_object.mpr ⟨List.Pairwise.nil, List.forall_mem_nil _⟩

theorem WellFormed.filter
    {members : List (Bytes × Json)} (h : WellFormed (object members))
    (p : Bytes × Json → Bool) :
  WellFormed (object (members.filter p))
  := by
  rw [wellFormed_object] at h ⊢
  constructor
  · apply List.Pairwise.sublist (List.filter_sublist.map Prod.fst) h.1
  · intro m hm
    apply h.2 m (List.mem_of_mem_filter hm)

theorem lookup_member_cons (key k : Bytes) (j : Json) (members : List (Bytes × Json)) :
  ((key, j) :: members).lookup k = if k = key then some j else members.lookup k
  := by
  rw [List.lookup_cons]
  split <;> simp_all

/-- Just the member that is set has changed. -/
theorem lookup_setMember (key : Bytes) (j : Json) (members : List (Bytes × Json)) (k : Bytes) :
  (setMember key j members).lookup k = if k = key then some j else members.lookup k
  := by
  induction members with
  | nil => rw [setMember, lookup_member_cons]
  | cons m members ih =>
      obtain ⟨key', j'⟩ := m
      rw [setMember]
      split
      next heq =>
        rw [← heq, lookup_member_cons, lookup_member_cons]
        split <;> rfl
      next hne =>
        split
        next => rw [lookup_member_cons]
        next =>
          rw [lookup_member_cons, lookup_member_cons, ih]
          by_cases hk : k = key'
          · rw [if_pos hk, if_pos hk, if_neg (hk ▸ Ne.symm hne)]
          · rw [if_neg hk, if_neg hk]

theorem WellFormed.setMember
    {members : List (Bytes × Json)} (h : WellFormed (object members)) {key : Bytes} {j : Json}
    (hkey : Utf8.Valid key) (hj : j.WellFormed) :
  WellFormed (object (setMember key j members))
  := by
  rw [wellFormed_object] at h ⊢
  use sorted_setMember h.1 key j
  intro m hm
  rcases mem_setMember hm with rfl | hm
  · exact ⟨hkey, hj⟩
  · apply h.2 m hm

theorem WellFormed.lookup
    {members : List (Bytes × Json)} (h : WellFormed (object members)) (key : Bytes) :
  ((members.lookup key).getD null).WellFormed
  := by
  cases hlookup : members.lookup key with
  | none => exact ⟨trivial, trivial⟩
  | some j => apply ((wellFormed_object.mp h).2 (key, j) (mem_of_member hlookup)).2

mutual

/-- Merging keeps values well formed. -/
theorem WellFormed.mergePatch {j : Json} (h : j.WellFormed) :
  ∀ {patch : Json}, patch.WellFormed → (mergePatch j patch).WellFormed
  | object _, hpatch => h.members.mergeMembers (wellFormed_object.mp hpatch).2
  | null, hpatch | boolean _, hpatch | integer _, hpatch | float _, hpatch
  | string _, hpatch | array _, hpatch => hpatch

theorem WellFormed.mergeMembers
    {members : List (Bytes × Json)} (h : WellFormed (object members)) :
  ∀ {patch : List (Bytes × Json)}, (∀ m ∈ patch, Utf8.Valid m.1 ∧ WellFormed m.2) →
    WellFormed (object (mergeMembers members patch))
  | [], _ => h
  | (key, j) :: patch, hpatch => by
      obtain ⟨⟨hkey, hj⟩, hrest⟩ := List.forall_mem_cons.mp hpatch
      cases j with
      | null => exact (h.filter _).mergeMembers hrest
      | _ => exact (h.setMember hkey ((h.lookup key).mergePatch hj)).mergeMembers hrest

end

/-- A member that is `null` in the patch goes, one that is an object is merged. -/
example :
  mergePatch (object [([0x61], integer 1), ([0x62], object [([0x63], integer 2)])])
    (object [([0x61], null), ([0x62], object [([0x64], integer 3)])])
    = object [([0x62], object [([0x63], integer 2), ([0x64], integer 3)])]
  := rfl

end Json
