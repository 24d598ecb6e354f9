import Mathlib.Data.List.Chain
import Mathlib.Data.List.Nodup
import Mathlib.Data.List.Perm.Subperm

/-!
# Lines of descent

Items come into a system, and an item that is in it can be replaced by one that descends from it.
Each has the number of the item that it goes back to, its origin, and the history lists the items
that there have been. Those of one origin are a chain of descent, as long as an item is replaced
once: then there is at most one item of an origin at a time, the last of its line.
-/

namespace Lineage

variable {α : Type*} {R : α → α → Prop} {entered : List α} {history live live' : List (Nat × α)}

/-- The items of an origin, in the order in which they came. -/
def line (origin : Nat) (history : List (Nat × α)) : List α :=
  history.filterMap fun p => if p.1 = origin then some p.2 else none

theorem line_concat_self (history : List (Nat × α)) (origin : Nat) (x : α) :
  line origin (history ++ [(origin, x)]) = line origin history ++ [x]
  := by
  simp [line]

theorem line_concat_of_ne
    {origin other : Nat} (h : other ≠ origin) (history : List (Nat × α)) (x : α) :
  line origin (history ++ [(other, x)]) = line origin history
  := by
  simp [line, h]

/-- An origin that no item has yet has an empty line. -/
theorem line_eq_nil {origin : Nat} (h : ∀ p ∈ history, p.1 < origin) :
  line origin history = []
  := by
  apply List.filterMap_eq_nil_iff.mpr
  intro p hp
  rw [if_neg (h p hp).ne]

/-- The lines are chains that start with the items that have come in, and the items that are there
are the last of theirs. -/
structure Tracks (R : α → α → Prop) (entered : List α) (history live : List (Nat × α)) :
    Prop where
  chain : ∀ origin, (line origin history).IsChain R
  starts : ∀ origin x, (line origin history).head? = some x → entered[origin]? = some x
  last : ∀ p ∈ live, (line p.1 history).getLast? = some p.2
  distinct : (live.map Prod.fst).Nodup
  lt : ∀ p ∈ history, p.1 < entered.length

namespace Tracks

theorem init :
  Tracks R [] [] []
  := by
  constructor <;> simp [line]

/-- Items can go, and change their places. -/
theorem subperm (h : Tracks R entered history live) (hlive : live'.Subperm live) :
  Tracks R entered history live'
  := by
  use h.chain, h.starts
  · intro p hp
    apply h.last p (hlive.subset hp)
  · obtain ⟨kept, hperm, hsub⟩ := hlive
    rw [← (hperm.map Prod.fst).nodup_iff]
    apply h.distinct.sublist (hsub.map Prod.fst)
  · apply h.lt

/-- The line of an item that is there starts with an item that has come in. -/
theorem lt_of_mem (h : Tracks R entered history live) {p : Nat × α} (hp : p ∈ live) :
  p.1 < entered.length
  := by
  by_contra hge
  have hnil : line p.1 history = [] := by
    apply line_eq_nil
    intro q hq
    apply (h.lt q hq).trans_le (Nat.le_of_not_lt hge)
  have hlast := h.last p hp
  rw [hnil] at hlast
  cases hlast

/-- An item is refused. -/
theorem refuse (h : Tracks R entered history live) (x : α) :
  Tracks R (entered ++ [x]) history live
  := by
  use h.chain
  · intro origin y hy
    have hold := h.starts origin y hy
    rw [List.getElem?_append_left (List.getElem?_eq_some_iff.mp hold).1]
    apply hold
  · apply h.last
  · apply h.distinct
  · intro p hp
    rw [List.length_append]
    apply Nat.lt_add_right _ (h.lt p hp)

/-- An item comes in. -/
theorem enter (h : Tracks R entered history live) (x : α) :
  Tracks R (entered ++ [x]) (history ++ [(entered.length, x)]) (live ++ [(entered.length, x)])
  := by
  have hnil : line entered.length history = [] := line_eq_nil h.lt
  have hrefuse := h.refuse x
  constructor
  · intro origin
    by_cases horigin : entered.length = origin
    · subst horigin
      rw [line_concat_self, hnil]
      apply List.isChain_singleton
    · rw [line_concat_of_ne horigin]
      apply h.chain
  · intro origin y hy
    by_cases horigin : entered.length = origin
    · subst horigin
      rw [line_concat_self, hnil] at hy
      rw [List.getElem?_concat_length]
      apply hy
    · rw [line_concat_of_ne horigin] at hy
      apply hrefuse.starts origin y hy
  · intro p hp
    rcases List.mem_append.mp hp with hp | hp
    · rw [line_concat_of_ne (h.lt_of_mem hp).ne']
      apply h.last p hp
    · obtain rfl := List.mem_singleton.mp hp
      rw [line_concat_self, List.getLast?_concat]
  · rw [List.map_append, List.map_singleton, List.nodup_append]
    use h.distinct, List.nodup_singleton _
    intro origin horigin other hother
    obtain ⟨p, hp, rfl⟩ := List.mem_map.mp horigin
    obtain rfl := List.mem_singleton.mp hother
    apply (h.lt_of_mem hp).ne
  · intro p hp
    rcases List.mem_append.mp hp with hp | hp
    · apply hrefuse.lt p hp
    · obtain rfl := List.mem_singleton.mp hp
      simp

/-- An item is replaced by one that descends from it. -/
theorem descend {p : Nat × α} (h : Tracks R entered history (p :: live)) {y : α} (hy : R p.2 y) :
  Tracks R entered (history ++ [(p.1, y)]) (live ++ [(p.1, y)])
  := by
  obtain ⟨origin, x⟩ := p
  have hdistinct := h.distinct
  rw [List.map_cons, List.nodup_cons] at hdistinct
  have hlast : (line origin history).getLast? = some x := h.last (origin, x) List.mem_cons_self
  constructor
  · intro other
    by_cases horigin : origin = other
    · subst horigin
      rw [line_concat_self]
      apply (h.chain origin).append (List.isChain_singleton y)
      intro x' hx' y' hy'
      rw [hlast] at hx'
      obtain rfl := Option.some.inj hx'
      obtain rfl := Option.some.inj hy'
      apply hy
    · rw [line_concat_of_ne horigin]
      apply h.chain
  · intro other x' hx'
    by_cases horigin : origin = other
    · subst horigin
      have hne : line origin history ≠ [] := by
        intro hnil
        rw [hnil] at hlast
        cases hlast
      rw [line_concat_self, List.head?_append_of_ne_nil _ hne] at hx'
      apply h.starts origin x' hx'
    · rw [line_concat_of_ne horigin] at hx'
      apply h.starts other x' hx'
  · intro q hq
    rcases List.mem_append.mp hq with hold | hq
    · have hne : origin ≠ q.1 := by
        intro heq
        apply hdistinct.1
        rw [heq]
        apply List.mem_map_of_mem hold
      rw [line_concat_of_ne hne]
      apply h.last q (List.mem_cons_of_mem _ hold)
    · obtain rfl := List.mem_singleton.mp hq
      rw [line_concat_self, List.getLast?_concat]
  · rw [List.map_append, List.map_singleton]
    apply (List.perm_append_singleton origin _).nodup_iff.mpr
    apply h.distinct
  · intro q hq
    rcases List.mem_append.mp hq with hq | hq
    · apply h.lt q hq
    · obtain rfl := List.mem_singleton.mp hq
      apply h.lt_of_mem List.mem_cons_self

/-- What has descended from an item that came in. -/
theorem isChain_tail (h : Tracks R entered history live) {origin : Nat} {x : α}
    (hx : entered[origin]? = some x) :
  (x :: (line origin history).tail).IsChain R
  := by
  have hchain := h.chain origin
  have hstarts := h.starts origin
  cases hline : line origin history with
  | nil => apply List.isChain_singleton
  | cons x' rest =>
      rw [hline] at hchain hstarts
      obtain rfl : x' = x := Option.some.inj ((hstarts x' rfl).symm.trans hx)
      apply hchain

end Tracks

end Lineage
