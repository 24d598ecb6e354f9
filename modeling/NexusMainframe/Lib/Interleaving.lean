import NexusMainframe.Lib.Lts
import Mathlib.Data.List.Perm.Basic

/-!
# Interleaved programs

A program calls operations on a shared state one after another, and how it goes on depends
on their answers. Requests arrive at any time and have a program each; in a pool of them any
program may make the next call.

`Serves` is the sequential execution of requests, for requests that are served in one piece.
A request that is served without an effect can be put in between wherever the state is one
that it is served so in, `Serves.insertAll`.
-/

namespace Interleaving

variable {σ ω ρ ι α : Type}

/-- A program with calls of operations `ω` that have answers in `ρ`. -/
inductive Prog (ω ρ α : Type)
  | done (result : α)
  | call (op : ω) (next : ρ → Prog ω ρ α)

/-- There is nothing left to call. -/
def Prog.isDone : Prog ω ρ α → Bool
  | .done _ => true
  | .call _ _ => false

/-- A program that runs alone. -/
def exec (apply : ω → σ → σ × ρ) : Prog ω ρ α → σ → σ × α
  | .done result, s => (s, result)
  | .call op next, s => exec apply (next (apply op s).2) (apply op s).1

/-- A request with what is left of its program. -/
structure Thread (ι ω ρ α : Type) where
  request : ι
  rest : Prog ω ρ α

/-- Programs that share a state. -/
structure Pool (σ ι ω ρ α : Type) where
  shared : σ
  threads : List (Thread ι ω ρ α)

/-- A request arrives, or one of the programs makes a call. -/
inductive Act (ι : Type)
  | start (request : ι)
  | step (i : Nat)
deriving DecidableEq

/-- The pool after a step: a call runs in one piece. -/
def next (apply : ω → σ → σ × ρ) (program : ι → Prog ω ρ α) (p : Pool σ ι ω ρ α) :
    Act ι → Option (Pool σ ι ω ρ α)
  | .start q => some { p with threads := p.threads ++ [⟨q, program q⟩] }
  | .step i =>
      match p.threads[i]? with
      | some ⟨q, .call op k⟩ =>
          some ⟨(apply op p.shared).1, p.threads.set i ⟨q, k (apply op p.shared).2⟩⟩
      | _ => none

/-- The requests that are done, with their results. -/
def outcome (t : Thread ι ω ρ α) : Option (ι × α) :=
  match t.rest with
  | .done result => some (t.request, result)
  | .call _ _ => none

/-- The results so far, by the order in which the requests arrived. -/
def outcomes (p : Pool σ ι ω ρ α) : List (ι × α) :=
  p.threads.filterMap outcome

/-- No request is in flight. -/
def Idle (p : Pool σ ι ω ρ α) : Prop :=
  ∀ t ∈ p.threads, t.rest.isDone = true

instance decidableIdle (p : Pool σ ι ω ρ α) : Decidable (Idle p) :=
  inferInstanceAs (Decidable (∀ t ∈ p.threads, _))

/-- Every call of the programs is made in a state where `G` allows it. -/
def Allows (G : σ → ω → Prop) (p : Pool σ ι ω ρ α) : Act ι → Prop
  | .start _ => True
  | .step i => ∀ t ∈ p.threads[i]?, ∀ op k, t.rest = .call op k → G p.shared op

instance decidableAllows (G : σ → ω → Prop) [∀ s op, Decidable (G s op)]
    (p : Pool σ ι ω ρ α) : ∀ a, Decidable (Allows G p a)
  | .start _ => isTrue trivial
  | .step i =>
      match h : p.threads[i]? with
      | some ⟨_, .call op _⟩ =>
          decidable_of_iff (G p.shared op) (by simp [Allows, h])
      | some ⟨_, .done _⟩ => isTrue (by simp [Allows, h])
      | none => isTrue (by simp [Allows, h])

variable {apply : ω → σ → σ × ρ} {program : ι → Prog ω ρ α} {p u : Pool σ ι ω ρ α}

/-- What a step does. -/
theorem next_step {i : Nat} :
  next apply program p (.step i) = some u
    ↔ ∃ q op k, p.threads[i]? = some ⟨q, .call op k⟩
      ∧ u = ⟨(apply op p.shared).1, p.threads.set i ⟨q, k (apply op p.shared).2⟩⟩
  := by
  constructor
  · intro h
    simp only [next] at h
    split at h
    next q op k hi =>
      cases h
      use q, op, k, hi
    next => cases h
  · rintro ⟨q, op, k, hi, rfl⟩
    simp only [next, hi]

theorem next_start {q : ι} :
  next apply program p (.start q) = some u
    ↔ u = { p with threads := p.threads ++ [⟨q, program q⟩] }
  := by
  rw [next, Option.some.injEq, eq_comm]

/-- The program calls only operations of which `P` holds. -/
def Prog.Calls (P : ω → Prop) : Prog ω ρ α → Prop
  | .done _ => True
  | .call op k => P op ∧ ∀ a, Calls P (k a)

/-- All programs call only operations of which `P` holds. -/
def AllCall (P : ω → Prop) (p : Pool σ ι ω ρ α) : Prop :=
  ∀ t ∈ p.threads, t.rest.Calls P

/-- Programs go on with operations of which `P` holds. -/
theorem AllCall.next
    {P : ω → Prop} (h : AllCall P p) (hprogram : ∀ q, (program q).Calls P) {a : Act ι}
    (hnext : next apply program p a = some u) :
  AllCall P u
  := by
  intro t ht
  cases a with
  | start q =>
      obtain rfl := next_start.mp hnext
      rcases List.mem_append.mp ht with ht | ht
      · apply h t ht
      · obtain rfl := List.mem_singleton.mp ht
        apply hprogram
  | step i =>
      obtain ⟨q, op, k, hi, rfl⟩ := next_step.mp hnext
      rcases List.mem_or_eq_of_mem_set ht with ht | rfl
      · apply h t ht
      · apply (h _ (List.mem_of_getElem? hi)).2

/-- An entry that comes to something in place of one that came to nothing. -/
theorem filterMap_set_perm
    {β τ : Type} {f : τ → Option β} {l : List τ} {i : Nat} {a b : τ} {x : β}
    (hi : l[i]? = some a) (ha : f a = none) (hb : f b = some x) :
  ((l.set i b).filterMap f).Perm (x :: l.filterMap f)
  := by
  induction l generalizing i with
  | nil => cases hi
  | cons c l ih =>
      cases i with
      | zero =>
          obtain rfl := Option.some.inj hi
          simp [ha, hb]
      | succ i =>
          have ih := ih hi
          rw [List.set_cons_succ, List.filterMap_cons, List.filterMap_cons]
          cases f c with
          | none => apply ih
          | some y => apply (ih.cons y).trans (List.Perm.swap x y _)

theorem filterMap_set_of_eq
    {β τ : Type} {f : τ → Option β} {l : List τ} {i : Nat} {a b : τ} (hi : l[i]? = some a)
    (h : f b = f a) :
  (l.set i b).filterMap f = l.filterMap f
  := by
  induction l generalizing i with
  | nil => cases hi
  | cons c l ih =>
      cases i with
      | zero =>
          obtain rfl := Option.some.inj hi
          simp [List.filterMap_cons, h]
      | succ i => rw [List.set_cons_succ, List.filterMap_cons, List.filterMap_cons, ih hi]

/-! ### Sequential execution -/

/-- Requests that are served one after the other with these results. -/
def Serves (serve : ι → σ → σ × α) : σ → List (ι × α) → σ → Prop
  | s, [], t => s = t
  | s, (q, result) :: xs, t => (serve q s).2 = result ∧ Serves serve (serve q s).1 xs t

/-- A state that requests which are served one after the other go through. -/
def Visits (serve : ι → σ → σ × α) (s : σ) (xs : List (ι × α)) (t : σ) : Prop :=
  ∃ xs', xs' <+: xs ∧ Serves serve s xs' t

variable {serve : ι → σ → σ × α} {s t t' : σ} {xs ys : List (ι × α)}

theorem serves_append :
  Serves serve s (xs ++ ys) t ↔ ∃ u, Serves serve s xs u ∧ Serves serve u ys t
  := by
  induction xs generalizing s with
  | nil => simp [Serves]
  | cons x xs ih => simp [Serves, ih, and_assoc]

theorem Serves.append (h : Serves serve s xs t) (h' : Serves serve t ys t') :
  Serves serve s (xs ++ ys) t'
  := serves_append.mpr ⟨t, h, h'⟩

theorem serves_single {q : ι} {result : α} :
  Serves serve s [(q, result)] t ↔ serve q s = (t, result)
  := by
  rw [Serves, Serves, Prod.ext_iff, and_comm]

theorem Serves.unique (h : Serves serve s xs t) (h' : Serves serve s xs t') :
  t = t'
  := by
  induction xs generalizing s with
  | nil => apply h.symm.trans h'
  | cons x xs ih => apply ih h.2 h'.2

theorem Serves.visits (h : Serves serve s xs t) :
  Visits serve s xs t
  := ⟨xs, List.prefix_rfl, h⟩

theorem Visits.append (h : Visits serve s xs t) (ys : List (ι × α)) :
  Visits serve s (xs ++ ys) t
  := by
  obtain ⟨xs', hprefix, hserves⟩ := h
  use xs', hprefix.trans (List.prefix_append xs ys), hserves

theorem Serves.visits_append (h : Serves serve s xs t) (h' : Visits serve t ys t') :
  Visits serve s (xs ++ ys) t'
  := by
  obtain ⟨ys', hprefix, hserves⟩ := h'
  use xs ++ ys', (List.prefix_append_right_inj xs).mpr hprefix, h.append hserves

/-- A request without an effect can be served in between. -/
theorem Serves.insert
    (h : Serves serve s xs t) {x : ι × α} (hvisits : Visits serve s xs t')
    (hx : serve x.1 t' = (t', x.2)) :
  ∃ ys, ys.Perm (x :: xs) ∧ Serves serve s ys t
    ∧ ∀ u, Visits serve s xs u → Visits serve s ys u
  := by
  obtain ⟨before, ⟨rest, rfl⟩, hbefore⟩ := hvisits
  obtain ⟨u, hu, hrest⟩ := serves_append.mp h
  have hsingle : Serves serve t' [x] t' := serves_single.mpr hx
  obtain rfl := hbefore.unique hu
  use before ++ [x] ++ rest
  constructor
  · rw [List.append_assoc]
    apply List.perm_middle
  · use (hbefore.append hsingle).append hrest
    rintro v ⟨xs', ⟨tail, htail⟩, hv⟩
    rcases List.append_eq_append_iff.mp htail with ⟨zs, rfl, -⟩ | ⟨zs, rfl, rfl⟩
    · use xs'
      constructor
      · rw [List.append_assoc, List.append_assoc]
        apply List.prefix_append
      · apply hv
    · use before ++ [x] ++ zs
      constructor
      · rw [← List.append_assoc]
        apply List.prefix_append
      · obtain ⟨w, hw, hzs⟩ := serves_append.mp hv
        obtain rfl := hbefore.unique hw
        apply (hbefore.append hsingle).append hzs

/-- Requests without an effect can be served in between, each in a state where it has its
result. -/
theorem Serves.insertAll
    (h : Serves serve s xs t)
    (hys : ∀ y ∈ ys, ∃ u, Visits serve s xs u ∧ serve y.1 u = (u, y.2)) :
  ∃ zs, zs.Perm (xs ++ ys) ∧ Serves serve s zs t
  := by
  induction ys generalizing xs with
  | nil =>
      use xs
      constructor
      · rw [List.append_nil]
      · apply h
  | cons y ys ih =>
      obtain ⟨⟨u, hu, hy⟩, hys⟩ := List.forall_mem_cons.mp hys
      obtain ⟨xs', hperm, hserves, hvisits⟩ := h.insert hu hy
      obtain ⟨zs, hzs, hserves⟩ := ih hserves fun y hy => by
        obtain ⟨u, hu, hserve⟩ := hys y hy
        use u, hvisits u hu, hserve
      use zs
      constructor
      · calc
          zs.Perm (xs' ++ ys) := hzs
          List.Perm _ (y :: (xs ++ ys)) := hperm.append_right ys
          List.Perm _ (xs ++ y :: ys) := List.perm_middle.symm
      · apply hserves

end Interleaving
