import NexusMainframe.Lib.FiniteMap
import NexusMainframe.Lib.Interleaving

/-!
# Delayed removals

A map, `later`, from which some keys are still to be erased: `Delayed now later keys` says
that `now` is `later` without them. While they are kept back, the other keys may be changed
in both maps, and a key that is put in again needs no more to be erased.

Where the map is part of a state and a request erases a key of it, `Delayed.serves` serves the
requests that have been kept back, and `Delayed.exists_serves_notMem` only the one for a key.
-/

variable {κ : Type} {α : Type} [DecidableEq κ]

/-- A map is another without some keys, which the other has. -/
structure Delayed (now later : Finmap fun _ : κ => α) (keys : List κ) : Prop where
  nodup : keys.Nodup
  mem : ∀ k ∈ keys, k ∈ later
  lookup : ∀ k, now.lookup k = if k ∈ keys then none else later.lookup k

namespace Delayed

open FiniteMap (lookup_insert lookup_erase)

variable {now later : Finmap fun _ : κ => α} {keys : List κ} {k : κ}

theorem refl (m : Finmap fun _ : κ => α) : Delayed m m [] := by
  constructor <;> simp

theorem eq_of_nil (h : Delayed now later []) :
  now = later
  := by
  apply Finmap.ext_lookup
  intro k
  rw [h.lookup, if_neg List.not_mem_nil]

theorem lookup_later (h : Delayed now later keys) {a : α} (hk : now.lookup k = some a) :
  later.lookup k = some a
  := by
  rw [h.lookup] at hk
  split at hk
  next => cases hk
  next => apply hk

theorem mem_later (h : Delayed now later keys) (hk : k ∈ now) :
  k ∈ later
  := by
  obtain ⟨a, ha⟩ := Finmap.mem_iff.mp hk
  apply Finmap.mem_iff.mpr ⟨a, h.lookup_later ha⟩

theorem notMem_keys (h : Delayed now later keys) (hk : k ∈ now) :
  k ∉ keys
  := by
  intro hkeys
  obtain ⟨a, ha⟩ := Finmap.mem_iff.mp hk
  rw [h.lookup, if_pos hkeys] at ha
  cases ha

theorem mem_keys (h : Delayed now later keys) (hlater : k ∈ later) (hnow : k ∉ now) :
  k ∈ keys
  := by
  by_contra hkeys
  apply hnow
  obtain ⟨a, ha⟩ := Finmap.mem_iff.mp hlater
  apply Finmap.mem_iff.mpr
  use a
  rw [h.lookup, if_neg hkeys, ha]

/-- A key that is not to be erased is changed in both maps. -/
theorem insert (h : Delayed now later keys) (hk : k ∈ now) (a : α) :
  Delayed (now.insert k a) (later.insert k a) keys
  := by
  constructor
  · apply h.nodup
  · intro k' hk'
    apply Finmap.mem_insert.mpr (Or.inr (h.mem k' hk'))
  · intro k'
    have hkeys := h.notMem_keys hk
    rw [lookup_insert, lookup_insert, h.lookup]
    split
    next heq => rw [heq, if_neg hkeys]
    next => rfl

/-- A key that is to be erased may be changed before. -/
theorem insert_later (h : Delayed now later keys) (hk : k ∈ keys) (a : α) :
  Delayed now (later.insert k a) keys
  := by
  constructor
  · apply h.nodup
  · intro k' hk'
    apply Finmap.mem_insert.mpr (Or.inr (h.mem k' hk'))
  · intro k'
    rw [lookup_insert, h.lookup]
    split
    next => rfl
    next hk' =>
      rw [if_neg]
      rintro rfl
      apply hk' hk

/-- A key that is put in again is not to be erased any more. -/
theorem insert_new
    [BEq κ] [LawfulBEq κ] (h : Delayed now later keys) (k : κ) (a : α) :
  Delayed (now.insert k a) (later.insert k a) (keys.erase k)
  := by
  constructor
  · apply h.nodup.erase
  · intro k' hk'
    apply Finmap.mem_insert.mpr (Or.inr (h.mem k' (List.mem_of_mem_erase hk')))
  · intro k'
    rw [lookup_insert, lookup_insert, h.lookup]
    by_cases heq : k' = k
    · rw [heq, if_pos rfl, if_neg h.nodup.not_mem_erase, if_pos rfl]
    · simp [heq, List.mem_erase_of_ne heq]

/-- A removal is delayed. -/
theorem erase (h : Delayed now later keys) (hk : k ∈ now) :
  Delayed (now.erase k) later (keys ++ [k])
  := by
  constructor
  · apply List.Nodup.append h.nodup (List.nodup_singleton k)
    apply List.disjoint_singleton.mpr (h.notMem_keys hk)
  · intro k' hk'
    rcases List.mem_append.mp hk' with hk' | hk'
    · apply h.mem k' hk'
    · obtain rfl := List.mem_singleton.mp hk'
      apply h.mem_later hk
  · intro k'
    rw [lookup_erase, h.lookup]
    by_cases heq : k' = k
    · simp [heq]
    · simp [heq]

/-- The first of the removals is made. -/
theorem tail (h : Delayed now later (k :: keys)) :
  Delayed now (later.erase k) keys
  := by
  obtain ⟨hnotMem, hnodup⟩ := List.nodup_cons.mp h.nodup
  constructor
  · apply hnodup
  · intro k' hk'
    apply Finmap.mem_erase.mpr
    constructor
    · rintro rfl
      apply hnotMem hk'
    · apply h.mem k' (List.mem_cons_of_mem k hk')
  · intro k'
    rw [lookup_erase, h.lookup]
    by_cases heq : k' = k
    · simp [heq]
    · simp [heq]

/-! ### Requests that erase -/

section Requests

open Interleaving (Serves)

variable {σ ι β : Type} {serve : ι → σ → σ × β}

/-- A request for each key, that erases it from the map of the state where it is there. -/
def Erases (serve : ι → σ → σ × β) (state : (Finmap fun _ : κ => α) → σ)
    (erasing : κ → ι × β) : Prop :=
  ∀ m, ∀ k ∈ m, serve (erasing k).1 (state m) = (state (m.erase k), (erasing k).2)

variable {state : (Finmap fun _ : κ => α) → σ} {erasing : κ → ι × β}

theorem serves (h : Delayed now later keys) (herases : Erases serve state erasing) :
  Serves serve (state later) (keys.map erasing) (state now)
  := by
  induction keys generalizing later with
  | nil =>
      rw [h.eq_of_nil]
      rfl
  | cons k keys ih =>
      have hserve := herases later k (h.mem k List.mem_cons_self)
      rw [List.map_cons, Serves, hserve]
      use rfl, ih h.tail

/-- The key is erased if it was to be, before something is put in for it. -/
theorem exists_serves_notMem
    [BEq κ] [LawfulBEq κ] (h : Delayed now later keys) (herases : Erases serve state erasing)
    (hk : k ∉ now) :
  ∃ xs m, Serves serve (state later) xs (state m) ∧ k ∉ m
    ∧ (∀ a, Finmap.insert k a m = Finmap.insert k a later)
    ∧ (xs ++ (keys.erase k).map erasing).Perm (keys.map erasing)
  := by
  by_cases hlater : k ∈ later
  · have hkeys := h.mem_keys hlater hk
    use [erasing k], later.erase k
    constructor
    · apply Interleaving.serves_single.mpr (herases later k hlater)
    · use Finmap.notMem_erase_self, FiniteMap.insert_erase later k
      apply ((List.perm_cons_erase hkeys).map erasing).symm
  · have hkeys : k ∉ keys := fun hkeys => hlater (h.mem k hkeys)
    use [], later, rfl, hlater, fun a => rfl
    rw [List.erase_of_not_mem hkeys]
    rfl

end Requests

end Delayed
