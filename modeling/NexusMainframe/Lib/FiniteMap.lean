import Mathlib.Data.Finmap

/-!
# Lookup in finite maps

What is found in a finite map after a key is put in or erased, for the same key and for
another, and after a loop over entries with different keys.
-/

namespace FiniteMap

variable {κ α : Type*} [DecidableEq κ] {m : Finmap fun _ : κ => α} {k k' : κ} {a a' : α}

theorem lookup_insert (m : Finmap fun _ : κ => α) (k k' : κ) (a : α) :
  (m.insert k a).lookup k' = if k' = k then some a else m.lookup k'
  := by
  split
  next heq => rw [heq, Finmap.lookup_insert]
  next hne => rw [Finmap.lookup_insert_of_ne _ hne]

theorem lookup_erase (m : Finmap fun _ : κ => α) (k k' : κ) :
  (m.erase k).lookup k' = if k' = k then none else m.lookup k'
  := by
  split
  next heq => rw [heq, Finmap.lookup_erase]
  next hne => rw [Finmap.lookup_erase_ne hne]

theorem lookup_insert_eq_some :
  (m.insert k a).lookup k' = some a'
    ↔ (k' = k ∧ a' = a) ∨ (k' ≠ k ∧ m.lookup k' = some a')
  := by
  rw [lookup_insert]
  split
  next heq => simp [heq, eq_comm]
  next hne => simp [hne]

theorem lookup_erase_eq_some :
  (m.erase k).lookup k' = some a' ↔ k' ≠ k ∧ m.lookup k' = some a'
  := by
  rw [lookup_erase]
  split
  next heq => simp [heq]
  next hne => simp [hne]

theorem notMem_insert (h : k' ∉ m) (hne : k' ≠ k) (a : α) :
  k' ∉ m.insert k a
  := by
  intro hmem
  rcases Finmap.mem_insert.mp hmem with heq | hmem
  · apply hne heq
  · apply h hmem

/-- What is put in does not depend on what was there. -/
theorem insert_erase (m : Finmap fun _ : κ => α) (k : κ) (a : α) :
  (m.erase k).insert k a = m.insert k a
  := by
  apply Finmap.ext_lookup
  intro k'
  rw [lookup_insert, lookup_insert, lookup_erase]
  split
  next => rfl
  next => rfl

theorem insert_of_lookup (h : m.lookup k = some a) :
  m.insert k a = m
  := by
  apply Finmap.ext_lookup
  intro k'
  rw [lookup_insert]
  split
  next heq => rw [heq, h]
  next => rfl

theorem erase_of_notMem (h : k ∉ m) :
  m.erase k = m
  := by
  apply Finmap.ext_lookup
  intro k'
  rw [lookup_erase]
  split
  next heq => rw [heq, Finmap.lookup_eq_none.mpr h]
  next => rfl

omit [DecidableEq κ] in
/-- The value of an entry is found under its key, where the keys are different. -/
theorem lookup_of_mem
    [BEq κ] [LawfulBEq κ] {β : Type*} {entries : List (κ × β)}
    (hnodup : (entries.map Prod.fst).Nodup) {e : κ × β} (he : e ∈ entries) :
  entries.lookup e.1 = some e.2
  := by
  obtain ⟨front, back, rfl⟩ := List.append_of_mem he
  rw [List.map_append, List.nodup_append] at hnodup
  rw [List.lookup_eq_some_iff]
  use front, back, rfl
  intro e' he'
  rw [bne_iff_ne]
  apply (hnodup.2.2 e'.1 (List.mem_map_of_mem he') e.1 (by simp)).symm

/-- A loop that puts in what becomes of the value of each entry, if anything does, into a map
of any kind. -/
theorem get_foldl
    [BEq κ] [LawfulBEq κ] {μ β : Type*} (get : μ → κ → Option α)
    {f : μ → κ × β → μ} {g : β → Option α}
    (hf : ∀ m e k, get (f m e) k = if k = e.1 then (g e.2).or (get m k) else get m k)
    {entries : List (κ × β)} (hnodup : (entries.map Prod.fst).Nodup) (m : μ) (k : κ) :
  get (entries.foldl f m) k = ((entries.lookup k).bind g).or (get m k)
  := by
  induction entries generalizing m with
  | nil => rfl
  | cons e entries ih =>
      obtain ⟨k', b⟩ := e
      rw [List.map_cons, List.nodup_cons] at hnodup
      rw [List.foldl_cons, ih hnodup.2, hf, List.lookup_cons]
      by_cases h : k = k'
      · have hnone : entries.lookup k = none := by
          rw [List.lookup_eq_none_iff]
          intro e he
          rw [bne_iff_ne]
          rintro rfl
          apply hnodup.1
          rw [← h]
          apply List.mem_map_of_mem he
        rw [hnone, h, beq_self_eq_true, if_pos rfl]
        rfl
      · rw [if_neg h, beq_eq_false_iff_ne.mpr h]

/-- The same loop, for a finite map. -/
theorem lookup_foldl
    [BEq κ] [LawfulBEq κ] {β : Type*}
    {f : (Finmap fun _ : κ => α) → κ × β → Finmap fun _ : κ => α} {g : β → Option α}
    (hf : ∀ m e k, (f m e).lookup k = if k = e.1 then (g e.2).or (m.lookup k) else m.lookup k)
    {entries : List (κ × β)} (hnodup : (entries.map Prod.fst).Nodup)
    (m : Finmap fun _ : κ => α) (k : κ) :
  (entries.foldl f m).lookup k = ((entries.lookup k).bind g).or (m.lookup k)
  := get_foldl (fun m k => m.lookup k) hf hnodup m k

end FiniteMap
