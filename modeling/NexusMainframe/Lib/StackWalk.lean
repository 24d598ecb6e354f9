import Mathlib.Data.List.Perm.Basic
import Mathlib.Data.List.Forall2
import Mathlib.Algebra.BigOperators.Group.List.Basic
import Mathlib.Algebra.GroupWithZero.Nat

/-!
# Walking a tree with a stack

A walk takes a node off a stack, adds what the node has to its output, and puts the nodes below
it on the stack, the last of them on top. It ends once as many nodes have been taken off as there
are, and what all nodes have is in the output, in some order, each as often as it is there.

The nodes on the stack stand for those of a tree, which need not be there as a value: a relation
says which.
-/

namespace StackWalk

variable {α β τ : Type*}

/-- The output of a walk, unless it takes more than some number of nodes. `expand` gives the nodes
below a node, and what the node has. -/
def walk (expand : α → List α × List β) : Nat → List α → List β → Option (List β)
  | _, [], out => some out
  | 0, _ :: _, _ => none
  | fuel + 1, a :: stack, out =>
      walk expand fuel ((expand a).1.reverse ++ stack) (out ++ (expand a).2)

/-- More steps do not change the output. -/
theorem walk_mono
    {expand : α → List α × List β} {fuel fuel' : Nat} (hle : fuel ≤ fuel') {stack : List α}
    {out out' : List β} (h : walk expand fuel stack out = some out') :
  walk expand fuel' stack out = some out'
  := by
  induction fuel generalizing fuel' stack out with
  | zero =>
      cases stack with
      | nil =>
          rw [walk] at h ⊢
          apply h
      | cons a stack => cases h
  | succ fuel ih =>
      cases stack with
      | nil =>
          rw [walk] at h ⊢
          apply h
      | cons a stack =>
          cases fuel' with
          | zero => omega
          | succ fuel' => apply ih (Nat.le_of_succ_le_succ hle) h

/-- A kind of trees: the trees below one, what it has itself, its size, and what it and those
below have. -/
structure Forest (τ β : Type*) where
  below : τ → List τ
  own : τ → List β
  size : τ → Nat
  all : τ → List β
  size_below : ∀ t, ((below t).map size).sum < size t
  all_perm : ∀ t, (all t).Perm (own t ++ (below t).flatMap all)

variable (f : Forest τ β) {expand : α → List α × List β} {R : α → τ → Prop}

/-- A node has what its tree has, and the nodes below it stand for the trees below. -/
def Represents (expand : α → List α × List β) (R : α → τ → Prop) : Prop :=
  ∀ a t, R a t → (expand a).2 = f.own t ∧ List.Forall₂ R (expand a).1 (f.below t)

variable {f}

/-- A walk with steps enough ends, with all that the trees have. -/
theorem walk_eq_some
    (h : Represents f expand R) {fuel : Nat} {stack : List α} {ts : List τ}
    (hstack : List.Forall₂ R stack ts) (hfuel : (ts.map f.size).sum ≤ fuel) (out : List β) :
  ∃ out', walk expand fuel stack out = some out' ∧ out'.Perm (out ++ ts.flatMap f.all)
  := by
  induction fuel generalizing stack ts out with
  | zero =>
      cases hstack with
      | nil =>
          use out, rfl
          simp
      | @cons a t stack ts ha hrest =>
          have hsize := f.size_below t
          rw [List.map_cons, List.sum_cons] at hfuel
          omega
  | succ fuel ih =>
      cases hstack with
      | nil =>
          use out, rfl
          simp
      | @cons a t stack ts ha hrest =>
          obtain ⟨hown, hbelow⟩ := h a t ha
          have hnext : List.Forall₂ R ((expand a).1.reverse ++ stack) ((f.below t).reverse ++ ts) :=
            List.rel_append (List.rel_reverse hbelow) hrest
          have hsize : (((f.below t).reverse ++ ts).map f.size).sum ≤ fuel := by
            have hlt := f.size_below t
            rw [List.map_append, List.sum_append, List.map_reverse, List.sum_reverse]
            rw [List.map_cons, List.sum_cons] at hfuel
            omega
          obtain ⟨out', hwalk, hperm⟩ := ih hnext hsize (out ++ (expand a).2)
          use out', hwalk
          have hall : ((f.below t).reverse.flatMap f.all).Perm ((f.below t).flatMap f.all) :=
            (List.reverse_perm (f.below t)).flatMap_right f.all
          calc
            out'.Perm ((out ++ (expand a).2) ++ ((f.below t).reverse ++ ts).flatMap f.all) := hperm
            _ = out ++ (f.own t ++ ((f.below t).reverse.flatMap f.all ++ ts.flatMap f.all)) := by
                rw [hown, List.flatMap_append, List.append_assoc]
            List.Perm _ (out ++ (f.own t ++ ((f.below t).flatMap f.all ++ ts.flatMap f.all))) :=
                ((hall.append_right _).append_left _).append_left _
            List.Perm _ (out ++ (f.all t ++ ts.flatMap f.all)) := by
                rw [← List.append_assoc (f.own t)]
                apply ((f.all_perm t).symm.append_right _).append_left
            _ = out ++ (t :: ts).flatMap f.all := by rw [List.flatMap_cons]

end StackWalk
