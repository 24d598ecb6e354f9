import Mathlib.Data.List.Count
import NexusMainframe.Lib.Lts

/-!
# Ownership of resources

A history tells when resources are acquired, used and released. A program accounts for its
resources when each that it has acquired is either owned still and has not been released,
or has been released once, and when nothing uses a resource after its release.
`Ownership.Accounted` is the invariant, with the set of the resources owned; its rules say
how the set changes with what is done.
-/

namespace Ownership

variable {R : Type*} [DecidableEq R]

/-- What is done with a resource. -/
inductive Use (R : Type*) where
  | acquired (r : R)
  | used (r : R)
  | released (r : R)
deriving DecidableEq

/-- Every resource acquired has been released once, or is owned and has not been
released. -/
def ReleasedOnce (Owned : R → Prop) (tr : List (Use R)) : Prop :=
  ∀ r, .acquired r ∈ tr →
    Owned r ∧ tr.count (.released r) = 0 ∨ ¬ Owned r ∧ tr.count (.released r) = 1

/-- Nothing uses a resource after its release. -/
def NoUseAfterRelease (tr : List (Use R)) : Prop :=
  ∀ pre r post, tr = pre ++ .released r :: post → .used r ∉ post

/-- The history of a program that owns the resources in `Owned`. -/
structure Accounted (Owned : R → Prop) (tr : List (Use R)) : Prop where
  owned : ∀ r, Owned r → .acquired r ∈ tr
  released : ∀ r, .released r ∈ tr → .acquired r ∈ tr
  once : ReleasedOnce Owned tr
  final : NoUseAfterRelease tr

omit [DecidableEq R] in
/-- A history grows by something that is no use of a released resource. -/
theorem NoUseAfterRelease.concat
    {tr : List (Use R)} (h : NoUseAfterRelease tr) {o : Use R}
    (ho : ∀ r, o = .used r → .released r ∉ tr) :
  NoUseAfterRelease (tr ++ [o])
  := by
  intro pre r post htr
  rcases Lts.concat_eq_append_cons.mp htr with ⟨rfl, rfl, rfl⟩ | ⟨post, rfl, hpre⟩
  · simp
  · rw [List.mem_append, List.mem_singleton, not_or]
    use h pre r post hpre
    intro heq
    apply ho r heq.symm
    simp [hpre]

namespace Accounted

variable {Owned : R → Prop} {tr : List (Use R)} {r : R}

theorem nil
    (h : ∀ r, ¬ Owned r) :
  Accounted Owned []
  := by
  constructor
  · intro r hr
    exact absurd hr (h r)
  · intro r hr
    cases hr
  · intro r hr
    cases hr
  · intro pre r post htr
    simp at htr

theorem congr
    (h : Accounted Owned tr) {Owned' : R → Prop} (hsame : ∀ r, Owned' r ↔ Owned r) :
  Accounted Owned' tr
  := by
  obtain rfl : Owned' = Owned := funext fun r => propext (hsame r)
  exact h

/-- What is owned has not been released. -/
theorem not_released
    (h : Accounted Owned tr) (hr : Owned r) :
  .released r ∉ tr
  := by
  rcases h.once r (h.owned r hr) with ⟨-, hcount⟩ | ⟨hnot, -⟩
  · exact List.count_eq_zero.mp hcount
  · exact absurd hr hnot

/-- A new resource is owned once it is acquired. -/
theorem acquire
    (h : Accounted Owned tr) (hnew : .acquired r ∉ tr) :
  Accounted (fun r' => Owned r' ∨ r' = r) (tr ++ [.acquired r])
  := by
  constructor
  · rintro r' (hr' | rfl)
    · apply List.mem_append_left _ (h.owned r' hr')
    · simp
  · intro r' hr'
    apply List.mem_append_left _ (h.released r' (by simpa using hr'))
  · intro r' hr'
    simp only [List.count_append, List.count_singleton, beq_iff_eq, reduceCtorEq, if_false,
      Nat.add_zero]
    by_cases heq : r' = r
    · left
      subst heq
      use .inr rfl
      rw [List.count_eq_zero]
      intro hreleased
      apply hnew (h.released _ hreleased)
    · simpa [heq] using h.once r' (by simpa [heq] using hr')
  · apply h.final.concat
    rintro r' ⟨⟩

/-- A resource that is owned is used. -/
theorem use
    (h : Accounted Owned tr) (hr : Owned r) :
  Accounted Owned (tr ++ [.used r])
  := by
  constructor
  · intro r' hr'
    apply List.mem_append_left _ (h.owned r' hr')
  · intro r' hr'
    apply List.mem_append_left _ (h.released r' (by simpa using hr'))
  · intro r' hr'
    simpa [List.count_append] using h.once r' (by simpa using hr')
  · apply h.final.concat
    rintro r' ⟨⟩
    apply h.not_released hr

/-- A resource that is owned is released, and is owned no more. -/
theorem release
    (h : Accounted Owned tr) (hr : Owned r) :
  Accounted (fun r' => Owned r' ∧ r' ≠ r) (tr ++ [.released r])
  := by
  constructor
  · rintro r' ⟨hr', -⟩
    apply List.mem_append_left _ (h.owned r' hr')
  · intro r' hr'
    rcases List.mem_append.mp hr' with hr' | hr'
    · apply List.mem_append_left _ (h.released r' hr')
    · obtain rfl := Use.released.inj (List.mem_singleton.mp hr')
      apply List.mem_append_left _ (h.owned r' hr)
  · intro r' hr'
    rw [List.count_append]
    by_cases heq : r' = r
    · right
      subst heq
      have hcount := List.count_eq_zero.mpr (h.not_released hr)
      simp [hcount]
    · have honce := h.once r' (by simpa using hr')
      simpa [heq, Ne.symm heq] using honce
  · apply h.final.concat
    rintro r' ⟨⟩

end Accounted

end Ownership
