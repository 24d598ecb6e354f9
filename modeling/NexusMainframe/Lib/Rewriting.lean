import Mathlib.Algebra.BigOperators.Group.List.Basic
import Mathlib.Algebra.GroupWithZero.Nat
import Mathlib.Data.List.Basic
import Mathlib.Data.List.Perm.Subperm

/-!
# Rewriting the cells of a row

Rules are applied to a row of cells one after the other, each to the first cell that it can be
applied to. Each sets at most one cell right. So where as many cells are wrong as there are
rules, and all cells are right in the end, each rule has set one of them right; and where no rule
can be applied to a cell that is smaller than its own, it has been that cell.
-/

namespace Rewriting

variable {α β γ : Type} (rule : β → α → Option α)

/-- The row after the rules. -/
def rewrites (ns : List β) (row : List α) : List α :=
  ns.foldl (fun row n => row.replaceF (rule n)) row

@[simp]
theorem rewrites_cons (n : β) (ns : List β) (row : List α) :
  rewrites rule (n :: ns) row = rewrites rule ns (row.replaceF (rule n))
  := rfl

theorem rewrites_concat (ns : List β) (n : β) (row : List α) :
  rewrites rule (ns ++ [n]) row = (rewrites rule ns row).replaceF (rule n)
  := List.foldl_concat ..

@[simp]
theorem length_rewrites (ns : List β) (row : List α) :
  (rewrites rule ns row).length = row.length
  := by
  induction ns generalizing row with
  | nil => rfl
  | cons n ns ih => rw [rewrites_cons, ih, List.length_replaceF]

/-- Rules that change nothing can be left out. -/
theorem rewrites_filter
    {p : β → Bool} {ns : List β}
    (h : ∀ n ∈ ns, p n = false → ∀ row : List α, row.replaceF (rule n) = row) (row : List α) :
  rewrites rule (ns.filter p) row = rewrites rule ns row
  := by
  induction ns generalizing row with
  | nil => rfl
  | cons n ns ih =>
      obtain ⟨hn, hns⟩ := List.forall_mem_cons.mp h
      cases hp : p n with
      | true => rw [List.filter_cons_of_pos hp, rewrites_cons, rewrites_cons, ih hns]
      | false =>
          rw [List.filter_cons_of_neg (by rw [hp]; simp), rewrites_cons, hn hp, ih hns]

/-- The first cell of a row that a rule can be applied to, behind others that it cannot be
applied to. -/
theorem replaceF_append_cons
    {f : α → Option α} {front : List α} {a a' : α} (hfront : ∀ b ∈ front, f b = none)
    (ha : f a = some a') (back : List α) :
  (front ++ a :: back).replaceF f = front ++ a' :: back
  := by
  induction front with
  | nil => rw [List.nil_append, List.replaceF_cons_of_some f ha, List.nil_append]
  | cons b front ih =>
      obtain ⟨hb, hfront⟩ := List.forall_mem_cons.mp hfront
      rw [List.cons_append, List.replaceF_cons_of_none f hb, ih hfront, List.cons_append]

/-- A rule changes nothing, or it changes one cell, in its place. -/
theorem exists_or_replaceF_eq
    (f : α → Option α) {row : List α} {values : List γ} (h : row.length = values.length) :
  row.replaceF f = row ∨
    ∃ front a back a' values₁ x values₂, row = front ++ a :: back ∧
      values = values₁ ++ x :: values₂ ∧ front.length = values₁.length ∧
      (∀ b ∈ front, f b = none) ∧ f a = some a' ∧ row.replaceF f = front ++ a' :: back
  := by
  rcases List.exists_or_eq_self_of_replaceF f row with
    heq | ⟨a, a', front, back, hfront, ha, rfl, hnew⟩
  · left
    apply heq
  · right
    have hlt : front.length < values.length := by
      rw [← h, List.length_append, List.length_cons]
      omega
    use front, a, back, a', values.take front.length, values[front.length],
      values.drop (front.length + 1)
    rw [List.getElem_cons_drop, List.take_append_drop, List.length_take]
    use rfl, rfl, by omega

/-! ### Wrong cells -/

section Wrong

variable [DecidableEq γ] (good : α → γ)

/-- The cells that do not have the values they should have. -/
def wrong (row : List α) (values : List γ) : List α :=
  ((row.zip values).filter fun c => good c.1 ≠ c.2).map Prod.fst

theorem wrong_cons (a : α) (row : List α) (x : γ) (values : List γ) :
  wrong good (a :: row) (x :: values)
    = (if good a = x then [] else [a]) ++ wrong good row values
  := by
  rw [wrong, List.zip_cons_cons, List.filter_cons]
  split_ifs <;> simp_all [wrong]

theorem wrong_append_cons
    {front : List α} {values : List γ} (h : front.length = values.length) (a : α) (back : List α)
    (x : γ) (values' : List γ) :
  wrong good (front ++ a :: back) (values ++ x :: values')
    = wrong good front values ++ ((if good a = x then [] else [a]) ++ wrong good back values')
  := by
  rw [wrong, List.zip_append h, List.filter_append, List.map_append, ← wrong, ← wrong, wrong_cons]

/-- The values that a function gives to the cells themselves. -/
theorem wrong_map_of (value : α → γ) (row : List α) :
  wrong good row (row.map value) = row.filter fun a => good a ≠ value a
  := by
  induction row with
  | nil => rfl
  | cons a row ih =>
      rw [List.map_cons, wrong_cons, ih, List.filter_cons]
      by_cases ha : good a = value a <;> simp [ha]

theorem wrong_map (row : List α) :
  wrong good row (row.map good) = []
  := by
  rw [wrong_map_of]
  simp

/-- A rule sets right the first cell that it can be applied to. -/
def SetsRight (f : α → Option α) (row : List α) (values : List γ) (a : α) : Prop :=
  ∃ front back a' values₁ x values₂, row = front ++ a :: back ∧
    values = values₁ ++ x :: values₂ ∧ front.length = values₁.length ∧
    (∀ b ∈ front, f b = none) ∧ f a = some a' ∧ good a ≠ x ∧ good a' = x

/-- A rule sets at most one cell right. -/
theorem wrong_length_le_succ
    (f : α → Option α) {row : List α} {values : List γ} (h : row.length = values.length) :
  (wrong good row values).length ≤ (wrong good (row.replaceF f) values).length + 1
  := by
  rcases exists_or_replaceF_eq f h with
    heq | ⟨front, a, back, a', values₁, x, values₂, rfl, rfl, hlen, -, -, hnew⟩
  · rw [heq]
    omega
  · rw [hnew, wrong_append_cons good hlen, wrong_append_cons good hlen]
    simp only [List.length_append]
    split_ifs <;> simp <;> omega

variable {rule good}

/-- Where all cells are right in the end, there have not been more wrong ones than rules. -/
theorem wrong_length_le
    {ns : List β} {row : List α} {values : List γ}
    (hright : (rewrites rule ns row).map good = values) :
  (wrong good row values).length ≤ ns.length
  := by
  induction ns generalizing row with
  | nil =>
      subst hright
      have hnone := wrong_map good row
      rw [rewrites, List.foldl_nil, hnone]
      simp
  | cons n ns ih =>
      have hlen : row.length = values.length := by
        rw [← hright, List.length_map, length_rewrites]
      have hstep := wrong_length_le_succ good (rule n) hlen
      rw [rewrites_cons] at hright
      have hrest := ih hright
      rw [List.length_cons]
      omega

/-- A rule that leaves one wrong cell less has set it right. -/
theorem exists_setsRight
    (f : α → Option α) {row : List α} {values : List γ} (h : row.length = values.length)
    (hless : (wrong good (row.replaceF f) values).length < (wrong good row values).length) :
  ∃ a, SetsRight good f row values a ∧
    ∃ front back, wrong good row values = front ++ a :: back ∧
      wrong good (row.replaceF f) values = front ++ back
  := by
  rcases exists_or_replaceF_eq f h with
    heq | ⟨front, a, back, a', values₁, x, values₂, rfl, rfl, hlen, hfront, ha, hnew⟩
  · rw [heq] at hless
    cases Nat.lt_irrefl _ hless
  · have hbefore := wrong_append_cons good hlen a back x values₂
    have hafter := wrong_append_cons good hlen a' back x values₂
    rw [← hnew] at hafter
    rw [hbefore, hafter] at hless
    simp only [List.length_append] at hless
    have hwrong : good a ≠ x := by
      intro heq
      rw [if_pos heq, List.length_nil] at hless
      omega
    have hset : good a' = x := by
      by_contra hne
      rw [if_neg hne, if_neg hwrong, List.length_singleton, List.length_singleton] at hless
      omega
    rw [if_neg hwrong] at hbefore
    rw [if_pos hset] at hafter
    use a
    constructor
    · use front, back, a', values₁, x, values₂, rfl, rfl, hlen, hfront, ha, hwrong, hset
    · use wrong good front values₁, wrong good back values₂, hbefore, hafter

/-- Where there are as many wrong cells as rules and all are right in the end, the rules have been
applied to cells that are together no smaller than the rules, and if they are no larger, each rule
has set right a cell of its own size. -/
theorem sum_le_sum_wrong
    (size : α → Nat) (need : β → Nat)
    (hsize : ∀ n a a', rule n a = some a' → need n ≤ size a)
    {ns : List β} {row : List α} {values : List γ}
    (hright : (rewrites rule ns row).map good = values)
    (hcount : ns.length ≤ (wrong good row values).length) :
  (ns.map need).sum ≤ ((wrong good row values).map size).sum ∧
    (((wrong good row values).map size).sum = (ns.map need).sum →
      ∀ before n after, ns = before ++ n :: after →
        ∃ a, SetsRight good (rule n) (rewrites rule before row) values a ∧ size a = need n)
  := by
  induction ns generalizing row with
  | nil => simp
  | cons n ns ih =>
      have hlen : row.length = values.length := by
        rw [← hright, List.length_map, length_rewrites]
      rw [rewrites_cons] at hright
      have hrest := wrong_length_le hright
      rw [List.length_cons] at hcount
      obtain ⟨a, hset, front, back, hbefore, hafter⟩ :=
        exists_setsRight (rule n) hlen (Nat.lt_of_le_of_lt hrest hcount)
      have hneed : need n ≤ size a := by
        obtain ⟨_, _, a', _, _, _, _, _, _, _, ha, _⟩ := hset
        apply hsize n a a' ha
      rw [hbefore, List.length_append, List.length_cons] at hcount
      obtain ⟨hle, hhits⟩ := ih hright (by
        rw [hafter, List.length_append]
        omega)
      rw [hafter, List.map_append, List.sum_append] at hle hhits
      rw [hbefore, List.map_append, List.map_cons, List.sum_append, List.sum_cons, List.map_cons,
        List.sum_cons]
      constructor
      · omega
      · intro heq before m after hsplit
        cases before with
        | nil =>
            obtain ⟨rfl, rfl⟩ := List.cons.inj hsplit
            use a, hset
            omega
        | cons k before =>
            obtain ⟨rfl, rfl⟩ := List.cons.inj hsplit
            apply hhits (by omega) before m after rfl

/-- Where the own cells of the rules are wrong, and no rule can be applied to a smaller one, and
all cells are right in the end, these have been the wrong cells, and each rule has set right a
cell of the size of its own. -/
theorem setsRight_of_right
    (size : α → Nat) (cell : β → α)
    (hsize : ∀ n a a', rule n a = some a' → size (cell n) ≤ size a)
    {ns : List β} (hnodup : (ns.map cell).Nodup) {row : List α} {values : List γ}
    (hwrong : ∀ n ∈ ns, cell n ∈ wrong good row values)
    (hright : (rewrites rule ns row).map good = values) :
  (ns.map cell).Perm (wrong good row values) ∧
    ∀ before n after, ns = before ++ n :: after →
      ∃ a, SetsRight good (rule n) (rewrites rule before row) values a ∧ size a = size (cell n)
  := by
  have hsub : (ns.map cell).Subperm (wrong good row values) := by
    apply hnodup.subperm
    intro a ha
    obtain ⟨n, hn, rfl⟩ := List.mem_map.mp ha
    apply hwrong n hn
  have hperm : (ns.map cell).Perm (wrong good row values) := by
    apply hsub.perm_of_length_le
    rw [List.length_map]
    apply wrong_length_le hright
  use hperm
  have hlen := hperm.length_eq
  rw [List.length_map] at hlen
  apply (sum_le_sum_wrong size (fun n => size (cell n)) hsize hright (Nat.le_of_eq hlen)).2
  have hsum := (hperm.map size).sum_eq
  rw [← hsum, List.map_map]
  rfl

end Wrong

end Rewriting
