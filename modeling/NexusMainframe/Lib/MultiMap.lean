import NexusMainframe.Lib.FiniteMap
import Mathlib.Data.Finset.Insert

/-!
# Maps to finite sets

A finite map to finite sets is a relation between its keys and the elements of its sets. A
key that is absent stands for the empty set. The map can be kept so that no key of it has
the empty set, and two maps can be kept so that one is the inverse of the other.
-/

namespace MultiMap

variable {α β : Type*} [DecidableEq α]

/-- The set under a key. -/
def get (m : Finmap fun _ : α => Finset β) (a : α) : Finset β :=
  (m.lookup a).getD ∅

/-- No key has the empty set. -/
def Full (m : Finmap fun _ : α => Finset β) : Prop :=
  ∀ a, m.lookup a ≠ some ∅

theorem get_eq_empty_of_notMem {m : Finmap fun _ : α => Finset β} {a : α} (h : a ∉ m) :
  get m a = ∅
  := by
  rw [get, Finmap.lookup_eq_none.mpr h, Option.getD_none]

/-- In a full map the keys are those that have elements. -/
theorem Full.mem_iff {m : Finmap fun _ : α => Finset β} (h : Full m) {a : α} :
  a ∈ m ↔ get m a ≠ ∅
  := by
  constructor
  · intro ha
    obtain ⟨s, hs⟩ := Finmap.mem_iff.mp ha
    rw [get, hs, Option.getD_some]
    rintro rfl
    apply h a hs
  · intro hne
    by_contra ha
    apply hne (get_eq_empty_of_notMem ha)

theorem mem_get_erase {m : Finmap fun _ : α => Finset β} {a x : α} {y : β} :
  y ∈ get (m.erase a) x ↔ y ∈ get m x ∧ x ≠ a
  := by
  rw [get, FiniteMap.lookup_erase]
  split
  next h => simp [h]
  next h => simp [h, get]

theorem full_empty : Full (∅ : Finmap fun _ : α => Finset β) := by
  intro a
  rw [Finmap.lookup_empty]
  simp

variable [DecidableEq β]

/-! ### Adding and removing -/

/-- An element put into the set under a key. -/
def add (m : Finmap fun _ : α => Finset β) (a : α) (b : β) : Finmap fun _ : α => Finset β :=
  m.insert a (Insert.insert b (get m a))

/-- An element taken out of the set under a key, which stays. -/
def remove (m : Finmap fun _ : α => Finset β) (a : α) (b : β) : Finmap fun _ : α => Finset β :=
  m.insert a ((get m a).erase b)

/-- An element taken out of the set under a key, and the key with it when no element is
left. -/
def prune (m : Finmap fun _ : α => Finset β) (a : α) (b : β) : Finmap fun _ : α => Finset β :=
  if (get m a).erase b = ∅ then m.erase a else m.insert a ((get m a).erase b)

/-- The relation of one map is the converse of the relation of the other. -/
def Inverse (m : Finmap fun _ : α => Finset β) (n : Finmap fun _ : β => Finset α) : Prop :=
  ∀ a b, b ∈ get m a ↔ a ∈ get n b

/-! ### Lookup -/

theorem lookup_add (m : Finmap fun _ : α => Finset β) (a x : α) (b : β) :
  (add m a b).lookup x = if x = a then some (Insert.insert b (get m a)) else m.lookup x
  := FiniteMap.lookup_insert m a x _

theorem lookup_remove (m : Finmap fun _ : α => Finset β) (a x : α) (b : β) :
  (remove m a b).lookup x = if x = a then some ((get m a).erase b) else m.lookup x
  := FiniteMap.lookup_insert m a x _

theorem lookup_prune (m : Finmap fun _ : α => Finset β) (a x : α) (b : β) :
  (prune m a b).lookup x
    = if x = a then (if (get m a).erase b = ∅ then none else some ((get m a).erase b))
      else m.lookup x
  := by
  unfold prune
  by_cases hempty : (get m a).erase b = ∅
  · rw [if_pos hempty, if_pos hempty, FiniteMap.lookup_erase]
  · rw [if_neg hempty, if_neg hempty, FiniteMap.lookup_insert]

/-! ### The relation of a map -/

theorem mem_get_add {m : Finmap fun _ : α => Finset β} {a x : α} {b y : β} :
  y ∈ get (add m a b) x ↔ (x = a ∧ y = b) ∨ y ∈ get m x
  := by
  rw [get, lookup_add]
  split
  next h => simp [h]
  next h => simp [h, get]

theorem mem_get_remove {m : Finmap fun _ : α => Finset β} {a x : α} {b y : β} :
  y ∈ get (remove m a b) x ↔ y ∈ get m x ∧ ¬ (x = a ∧ y = b)
  := by
  rw [get, lookup_remove]
  split
  next h => simp [h, and_comm]
  next h => simp [h, get]

theorem mem_get_prune {m : Finmap fun _ : α => Finset β} {a x : α} {b y : β} :
  y ∈ get (prune m a b) x ↔ y ∈ get m x ∧ ¬ (x = a ∧ y = b)
  := by
  rw [← mem_get_remove, get, get, lookup_prune, lookup_remove]
  split
  next =>
    split
    next hempty => rw [hempty, Option.getD_none, Option.getD_some]
    next => rfl
  next => rfl

/-! ### Maps without empty sets -/

theorem full_add {m : Finmap fun _ : α => Finset β} (h : Full m) (a : α) (b : β) :
  Full (add m a b)
  := by
  intro x
  rw [lookup_add]
  split
  next => simp
  next => apply h x

theorem full_prune {m : Finmap fun _ : α => Finset β} (h : Full m) (a : α) (b : β) :
  Full (prune m a b)
  := by
  intro x
  rw [lookup_prune]
  split
  next =>
    split
    next => simp
    next hne => simpa using hne
  next => apply h x

/-! ### Taking an element out under many keys -/

theorem prune_comm (m : Finmap fun _ : α => Finset β) (a a' : α) (b : β) :
  prune (prune m a b) a' b = prune (prune m a' b) a b
  := by
  by_cases h : a = a'
  · rw [h]
  · have hget : ∀ {x x' : α}, x' ≠ x → get (prune m x b) x' = get m x' := by
      intro x x' hne
      rw [get, lookup_prune, if_neg hne, get]
    apply Finmap.ext_lookup
    intro x
    simp only [lookup_prune, hget h, hget (Ne.symm h)]
    by_cases hx : x = a
    · simp [hx, h]
    · simp [hx]

instance (b : β) :
    RightCommutative fun (m : Finmap fun _ : α => Finset β) (a : α) => prune m a b where
  right_comm m a a' := prune_comm m a a' b

/-- An element taken out of the sets under some keys, and each key with it where no element
is left. -/
def pruneAll (m : Finmap fun _ : α => Finset β) (keys : Finset α) (b : β) :
    Finmap fun _ : α => Finset β :=
  keys.val.foldl (fun m a => prune m a b) m

theorem pruneAll_empty (m : Finmap fun _ : α => Finset β) (b : β) : pruneAll m ∅ b = m :=
  rfl

theorem pruneAll_insert
    (m : Finmap fun _ : α => Finset β) {keys : Finset α} {a : α} (h : a ∉ keys) (b : β) :
  pruneAll m (Insert.insert a keys) b = pruneAll (prune m a b) keys b
  := by
  rw [pruneAll, Finset.insert_val_of_notMem h, Multiset.foldl_cons, pruneAll]

theorem mem_get_pruneAll
    {m : Finmap fun _ : α => Finset β} {keys : Finset α} {x : α} {b y : β} :
  y ∈ get (pruneAll m keys b) x ↔ y ∈ get m x ∧ ¬ (x ∈ keys ∧ y = b)
  := by
  induction keys using Finset.induction_on generalizing m with
  | empty => simp [pruneAll_empty]
  | insert a keys ha ih =>
      rw [pruneAll_insert m ha, ih, mem_get_prune, Finset.mem_insert, or_and_right, not_or,
        and_assoc]

theorem full_pruneAll
    {m : Finmap fun _ : α => Finset β} (h : Full m) (keys : Finset α) (b : β) :
  Full (pruneAll m keys b)
  := by
  induction keys using Finset.induction_on generalizing m with
  | empty => apply h
  | insert a keys ha ih =>
      rw [pruneAll_insert m ha]
      apply ih (full_prune h a b)

/-! ### Maps inverse to each other -/

section Inverse

variable {m : Finmap fun _ : α => Finset β} {n : Finmap fun _ : β => Finset α}

theorem inverse_empty :
  Inverse (∅ : Finmap fun _ : α => Finset β) (∅ : Finmap fun _ : β => Finset α)
  := by
  intro a b
  simp [get]

theorem Inverse.add (h : Inverse m n) (a : α) (b : β) : Inverse (add m a b) (add n b a) := by
  intro x y
  rw [mem_get_add, mem_get_add, h x y, and_comm]

theorem Inverse.prune (h : Inverse m n) (a : α) (b : β) :
  Inverse (remove m a b) (prune n b a)
  := by
  intro x y
  rw [mem_get_remove, mem_get_prune, h x y, and_comm (a := x = a)]

/-- A key is taken out of one map, and out of every set of the other. -/
theorem Inverse.erase (h : Inverse m n) (a : α) :
  Inverse (m.erase a) (pruneAll n (get m a) a)
  := by
  intro x y
  rw [mem_get_erase, mem_get_pruneAll, h x y, h a y]
  constructor
  · rintro ⟨hmem, hne⟩
    use hmem
    rintro ⟨-, rfl⟩
    apply hne rfl
  · rintro ⟨hmem, hnot⟩
    use hmem
    rintro rfl
    apply hnot ⟨hmem, rfl⟩

end Inverse

end MultiMap
