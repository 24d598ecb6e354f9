import Mathlib.Data.List.Basic

/-!
# Numbered lists

`Numbered.tail xs start` lists the elements of `xs` from a position on, each with its
position. What comes in order from there is a prefix of it, whose length tells the positions
in it.
-/

namespace Numbered

variable {α : Type*} {xs : List α} {start : Nat} {l : List (α × Nat)}

/-- The elements from a position on, with their positions. -/
def tail (xs : List α) (start : Nat) : List (α × Nat) :=
  xs.zipIdx.drop start

theorem length_tail :
  (tail xs start).length = xs.length - start
  := by
  rw [tail, List.length_drop, List.length_zipIdx]

theorem getElem?_tail (m : Nat) :
  (tail xs start)[m]? = xs[start + m]?.map fun x => (x, start + m)
  := by
  rw [tail, List.getElem?_drop, List.getElem?_zipIdx, Nat.zero_add]

/-- Elements that are cut off and numbered then are a tail. -/
theorem zipIdx_drop (xs : List α) (start : Nat) :
  (xs.drop start).zipIdx start = tail xs start
  := by
  apply List.ext_getElem?
  intro m
  rw [getElem?_tail, List.getElem?_zipIdx, List.getElem?_drop]

theorem tail_concat (h : start ≤ xs.length) (x : α) :
  tail (xs ++ [x]) start = tail xs start ++ [(x, xs.length)]
  := by
  have hlength : start ≤ xs.zipIdx.length := by rwa [List.length_zipIdx]
  rw [tail, tail, List.zipIdx_append, List.drop_append_of_le_length hlength]
  simp

/-- The position behind a prefix is the one of the element that may follow. -/
theorem concat_prefix_iff {x : α × Nat} :
  l ++ [x] <+: tail xs start
    ↔ l <+: tail xs start ∧ x.2 = start + l.length ∧ xs[x.2]? = some x.1
  := by
  have hnext : (tail xs start)[l.length]? = some x
      ↔ x.2 = start + l.length ∧ xs[x.2]? = some x.1 := by
    rw [getElem?_tail, Option.map_eq_some_iff]
    constructor
    · rintro ⟨y, hy, rfl⟩
      use rfl, hy
    · rintro ⟨hposition, hx⟩
      use x.1
      rw [← hposition]
      use hx
  rw [← hnext]
  constructor
  · rintro ⟨rest, hrest⟩
    rw [← hrest]
    constructor
    · rw [List.append_assoc]
      apply List.prefix_append
    · simp
  · rintro ⟨hl, hx⟩
    rw [List.prefix_iff_eq_take, List.length_append, List.length_singleton, List.take_add_one, hx,
      ← List.prefix_iff_eq_take.mp hl]
    rfl

/-- An element that is put into a prefix leaves a prefix only at its end. -/
theorem eq_nil_of_insert_prefix
    {x : α × Nat} {rest : List (α × Nat)} (h : l ++ rest <+: tail xs start)
    (hinsert : (l ++ [x]) ++ rest <+: tail xs start) :
  rest = []
  := by
  cases rest with
  | nil => rfl
  | cons y rest =>
      have hy : [y] <+: y :: rest := List.prefix_append [y] rest
      have hbefore := ((List.prefix_append_right_inj l).mpr hy).trans h
      have hafter := ((List.prefix_append_right_inj _).mpr hy).trans hinsert
      have hbefore := (concat_prefix_iff.mp hbefore).2.1
      have hafter := (concat_prefix_iff.mp hafter).2.1
      rw [List.length_append, List.length_singleton] at hafter
      omega

/-- The positions in a prefix. -/
theorem position_mem_iff (h : l <+: tail xs start) (position : Nat) :
  (∃ x ∈ l, x.2 = position) ↔ start ≤ position ∧ position < start + l.length
  := by
  have hmem : ∀ m : Nat, m < l.length → ∃ x ∈ l, x.2 = start + m := by
    intro m hm
    have hx := List.prefix_iff_getElem?.mp h m hm
    rw [getElem?_tail, Option.map_eq_some_iff] at hx
    obtain ⟨x, -, hx⟩ := hx
    use l[m], List.getElem_mem hm
    rw [← hx]
  constructor
  · rintro ⟨x, hx, rfl⟩
    obtain ⟨m, hm, rfl⟩ := List.getElem_of_mem hx
    have hx := List.prefix_iff_getElem?.mp h m hm
    rw [getElem?_tail, Option.map_eq_some_iff] at hx
    obtain ⟨y, -, hy⟩ := hx
    rw [← hy]
    dsimp only
    omega
  · rintro ⟨hstart, hlt⟩
    obtain ⟨x, hx, hposition⟩ := hmem (position - start) (by omega)
    use x, hx
    omega

/-- A prefix that reaches as far is all there is. -/
theorem eq_tail (h : l <+: tail xs start) (hlength : xs.length ≤ start + l.length) :
  l = tail xs start
  := by
  apply h.eq_of_length_le
  rw [length_tail]
  omega

end Numbered
