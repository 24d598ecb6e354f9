import Mathlib.Data.List.Basic
import Mathlib.Data.List.Induction

/-!
# Runs of a labelled transition system

A transition system is a function `step : σ → α → Option σ`: in a state, an action is
either not enabled or leads to a next state. `Lts.run` takes a list of actions, and
`Lts.run_induction` is the rule for invariants: what holds of the first state and is
preserved by every step holds at the end of every run. `Lts.Guarded` says that every step
of a run is taken under a condition on the state before it, and
`Lts.guarded_induction` is the rule for the runs that meet such a condition. `Lts.run_view`
takes the runs of a system to the runs of a part of it.
-/

namespace Lts

variable {σ α : Type*} (step : σ → α → Option σ)

/-- The state after a list of actions, if each is enabled in its turn. -/
def run : σ → List α → Option σ
  | s, [] => some s
  | s, a :: as => (step s a).bind fun t => run t as

/-- Every action of a run is taken in a state where `G` allows it. -/
def Guarded (G : σ → α → Prop) : σ → List α → Prop
  | _, [] => True
  | s, a :: as => G s a ∧ ∀ t ∈ step s a, Guarded G t as

instance decidableGuarded (G : σ → α → Prop) [∀ s a, Decidable (G s a)] :
    ∀ s as, Decidable (Guarded step G s as)
  | _, [] => isTrue trivial
  | s, a :: as =>
      have : ∀ t, Decidable (Guarded step G t as) := fun t => decidableGuarded G t as
      inferInstanceAs (Decidable (G s a ∧ ∀ t ∈ step s a, Guarded step G t as))

variable {step}

theorem run_append (s : σ) (as bs : List α) :
  run step s (as ++ bs) = (run step s as).bind fun t => run step t bs
  := by
  induction as generalizing s with
  | nil => rfl
  | cons a as ih =>
      simp only [List.cons_append, run, ih, Option.bind_assoc]

/-- A run of one more action is a run followed by a step. -/
theorem run_concat {s u : σ} {as : List α} {a : α} :
  run step s (as ++ [a]) = some u ↔ ∃ t, run step s as = some t ∧ step t a = some u
  := by
  simp [run_append, run, Option.bind_eq_some_iff]

theorem guarded_append {G : σ → α → Prop} {s : σ} {as bs : List α} :
  Guarded step G s (as ++ bs)
    ↔ Guarded step G s as ∧ ∀ t ∈ run step s as, Guarded step G t bs
  := by
  induction as generalizing s with
  | nil => simp [run, Guarded]
  | cons a as ih =>
      simp only [List.cons_append, Guarded, run, ih, Option.mem_def, Option.bind_eq_some_iff]
      constructor
      · rintro ⟨ha, h⟩
        use ⟨ha, fun t ht => (h t ht).1⟩
        rintro u ⟨t, ht, hu⟩
        apply (h t ht).2 u hu
      · rintro ⟨⟨ha, h⟩, h'⟩
        use ha
        intro t ht
        use h t ht
        intro u hu
        apply h' u ⟨t, ht, hu⟩

/-- An entry of a history that has grown by one is the new entry or one of the old. -/
theorem concat_eq_append_cons {β : Type*} {tr pre post : List β} {o x : β} :
  tr ++ [o] = pre ++ x :: post
    ↔ (post = [] ∧ pre = tr ∧ x = o) ∨ ∃ post', post = post' ++ [o] ∧ tr = pre ++ x :: post'
  := by
  constructor
  · intro h
    rcases List.eq_nil_or_concat post with rfl | ⟨post', y, rfl⟩
    · left
      obtain ⟨rfl, hx⟩ := List.append_inj' h rfl
      use rfl, rfl
      simpa using hx.symm
    · right
      rw [List.concat_eq_append, ← List.cons_append, ← List.append_assoc] at h
      obtain ⟨htr, ho⟩ := List.append_inj' h rfl
      use post'
      constructor
      · simpa using ho.symm
      · apply htr
  · rintro (⟨rfl, rfl, rfl⟩ | ⟨post', rfl, rfl⟩)
    · rfl
    · simp

/-- An element of a list that has grown by one is one of the old, or the new one. -/
theorem getElem?_concat_eq_some
    {β : Type*} {xs : List β} {x y : β} {i : Nat} :
  (xs ++ [y])[i]? = some x ↔ xs[i]? = some x ∨ i = xs.length ∧ x = y
  := by
  rw [List.getElem?_append]
  split
  next hlt =>
    have hne : i ≠ xs.length := by omega
    simp [hne]
  next hge =>
    have hnone : xs[i]? = none := List.getElem?_eq_none (by omega)
    simp only [hnone, List.getElem?_singleton, reduceCtorEq, false_or]
    split
    next heq =>
      have heq : i = xs.length := by omega
      simp [heq, eq_comm]
    next hne =>
      have hne : i ≠ xs.length := by omega
      simp [hne]

/-- What holds at the start of a run and is preserved by its steps, taken under `G`, holds
at its end. The property may speak of the actions taken so far. -/
theorem guarded_induction
    {G : σ → α → Prop} {P : List α → σ → Prop} {s : σ} (start : P [] s)
    (next : ∀ (as : List α) (t : σ) (a : α) (u : σ), run step s as = some t → P as t → G t a →
      step t a = some u → P (as ++ [a]) u)
    {as : List α} {t : σ} (hG : Guarded step G s as) (h : run step s as = some t) :
  P as t
  := by
  induction as using List.reverseRec generalizing t with
  | nil =>
      obtain rfl := Option.some.inj h
      apply start
  | append_singleton as a ih =>
      obtain ⟨u, hu, ht⟩ := run_concat.mp h
      obtain ⟨hG, ha⟩ := guarded_append.mp hG
      apply next as u a t hu (ih hG hu) (ha u hu).1 ht

/-- What holds at the start of a run and is preserved by every step holds at its end. -/
theorem run_induction
    {P : List α → σ → Prop} {s : σ} (start : P [] s)
    (next : ∀ (as : List α) (t : σ) (a : α) (u : σ), run step s as = some t → P as t →
      step t a = some u → P (as ++ [a]) u)
    {as : List α} {t : σ} (h : run step s as = some t) :
  P as t
  := by
  have hG : ∀ (as : List α) (s : σ), Guarded step (fun _ _ => True) s as := by
    intro as
    induction as with
    | nil =>
        intro s
        trivial
    | cons a as ih =>
        intro s
        use trivial
        intro t _
        apply ih t
  apply guarded_induction start _ (hG as s) h
  intro as t a u ht hP _ hu
  apply next as t a u ht hP hu

/-- A part of a system, of which some of the actions are actions of the part and the others
leave it alone, has runs of its own. -/
theorem run_view
    {τ β : Type*} {part : τ → β → Option τ} (view : σ → τ) (label : α → Option β)
    {I : σ → Prop} {s : σ} (hI : I s) (nextI : ∀ t a u, I t → step t a = some u → I u)
    (own : ∀ t a b u, I t → step t a = some u → label a = some b →
      part (view t) b = some (view u))
    (other : ∀ t a u, I t → step t a = some u → label a = none → view u = view t)
    {as : List α} {t : σ} (h : run step s as = some t) :
  run part (view s) (as.filterMap label) = some (view t)
  := by
  induction as generalizing s with
  | nil =>
      obtain rfl := Option.some.inj h
      rfl
  | cons a as ih =>
      obtain ⟨u, hu, ht⟩ := Option.bind_eq_some_iff.mp h
      have ih := ih (nextI s a u hI hu) ht
      cases ha : label a with
      | none =>
          rw [List.filterMap_cons_none ha, ← other s a u hI hu ha]
          exact ih
      | some b =>
          rw [List.filterMap_cons_some ha, run, own s a b u hI hu ha]
          exact ih

/-- Where a step leads to a state with `P` just if it is taken from one, under `G`, a run ends
in a state with `P` just if all its steps are taken under `G`. The states have `I` in any
case. -/
theorem run_iff_guarded
    {G : σ → α → Prop} {I P : σ → Prop} {s : σ} (hI : I s) (hP : P s)
    (nextI : ∀ t a u, I t → step t a = some u → I u)
    (nextP : ∀ t a u, I t → step t a = some u → (P u ↔ P t ∧ G t a)) {as : List α} {t : σ}
    (h : run step s as = some t) :
  P t ↔ Guarded step G s as
  := by
  have hinv : I t ∧ (P t ↔ Guarded step G s as) := by
    apply run_induction (P := fun as t => I t ∧ (P t ↔ Guarded step G s as)) _ _ h
    · simp [hI, hP, Guarded]
    · rintro as t a u ht ⟨hIt, hPt⟩ hu
      use nextI t a u hIt hu
      rw [nextP t a u hIt hu, hPt, guarded_append]
      simp [ht, Guarded]
  apply hinv.2

/-- Where a step from a state with `P` leads to one with `P` just if it is taken under `G`, all
states of a run have `P` just if all its steps are taken under `G`. The states have `I` in any
case. -/
theorem forall_run_iff_guarded
    {G : σ → α → Prop} {I P : σ → Prop} {s : σ} (hI : I s) (hP : P s)
    (nextI : ∀ t a u, I t → step t a = some u → I u)
    (nextP : ∀ t a u, I t → P t → step t a = some u → (P u ↔ G t a)) {as : List α} {t : σ}
    (h : run step s as = some t) :
  (∀ bs u, bs <+: as → run step s bs = some u → P u) ↔ Guarded step G s as
  := by
  induction as generalizing s with
  | nil =>
      constructor
      · intro _
        trivial
      · intro _ bs u hprefix hu
        obtain rfl := List.prefix_nil.mp hprefix
        obtain rfl := Option.some.inj hu
        apply hP
  | cons a as ih =>
      obtain ⟨v, hv, ht⟩ := Option.bind_eq_some_iff.mp h
      constructor
      · intro hall
        have hPv : P v := by
          apply hall [a] v
          · apply List.prefix_append [a] as
          · rw [run, hv]
            rfl
        use (nextP s a v hI hP hv).mp hPv
        intro v' hv'
        obtain rfl := Option.some.inj (hv.symm.trans hv')
        apply (ih (nextI s a v hI hv) hPv ht).mp
        intro bs u hprefix hu
        apply hall (a :: bs) u
        · apply List.cons_prefix_cons.mpr ⟨rfl, hprefix⟩
        · rw [run, hv]
          apply hu
      · rintro ⟨hG, hguarded⟩ bs u hprefix hu
        have hPv := (nextP s a v hI hP hv).mpr hG
        cases bs with
        | nil =>
            obtain rfl := Option.some.inj hu
            apply hP
        | cons b bs =>
            obtain ⟨rfl, hbs⟩ := List.cons_prefix_cons.mp hprefix
            rw [run, hv] at hu
            apply (ih (nextI s b v hI hv) hPv ht).mpr (hguarded v hv) bs u hbs hu

end Lts
