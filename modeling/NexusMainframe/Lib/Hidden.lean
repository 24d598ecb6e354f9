import Mathlib.Data.List.Forall2

/-!
# Hidden events

A system takes inputs and gives outputs, and between two inputs events may happen to it: a restart,
or what others ask of it. When the outputs depend on a part of its state alone, and an event
leaves this part as it is or brings it back, the events cannot be told from the outputs: a run
with events has those of the run without them. This may hold under a guard on the inputs, and up
to what differs between the inputs of the two runs.
-/

namespace Hidden

/-- How a system takes an input, and what an event makes of it, if it goes on after that. -/
structure System (σ ι ρ ο : Type*) where
  take : σ → ι → σ × ο
  event : σ → ρ → Option σ

/-- A step: an input, or an event, which is not seen. -/
inductive Act (ι ρ : Type*) where
  | input (i : ι)
  | event (r : ρ)

variable {σ ι ρ ο ν : Type*}

/-- The input of a step. -/
def Act.input? : Act ι ρ → Option ι
  | .input i => some i
  | .event _ => none

/-- The outputs of two runs, of which those to one input agree for it. -/
inductive Agree (P : ι → ο → ο → Prop) : List ι → List ο → List ο → Prop where
  | nil : Agree P [] [] []
  | cons {i o o' is os os'} (head : P i o o') (tail : Agree P is os os') :
      Agree P (i :: is) (o :: os) (o' :: os')

theorem Agree.eq {is : List ι} {os os' : List ο} (h : Agree (fun _ => Eq) is os os') :
  os = os'
  := by
  induction h with
  | nil => rfl
  | cons head _ ih => rw [head, ih]

/-- The inputs without the events. -/
def inputs (acts : List (Act ι ρ)) : List ι :=
  acts.filterMap Act.input?

namespace System

variable (S : System σ ι ρ ο)

/-- The state and the outputs after some inputs. -/
def takeAll : σ → List ι → σ × List ο
  | s, [] => (s, [])
  | s, i :: is => ((takeAll (S.take s i).1 is).1, (S.take s i).2 :: (takeAll (S.take s i).1 is).2)

/-- The state and the outputs after some inputs and events, if the system goes on after each
event. -/
def run : σ → List (Act ι ρ) → Option (σ × List ο)
  | s, [] => some (s, [])
  | s, .input i :: acts =>
      (run (S.take s i).1 acts).map fun out => (out.1, (S.take s i).2 :: out.2)
  | s, .event r :: acts => (S.event s r).bind fun t => run t acts

/-- Every input is taken in a state in which the guard allows it. -/
def Guarded (G : σ → ι → Prop) : σ → List ι → Prop
  | _, [] => True
  | s, i :: is => G s i ∧ Guarded G (S.take s i).1 is

/-- To related inputs in states with one view, the outputs agree; and in the states with an
invariant, which guarded inputs keep, an event keeps the view. -/
structure TransparentOn (Q : ι → ι → Prop) (P : ι → ο → ο → Prop) (G : σ → ι → Prop) (view : σ → ν)
    (Inv : σ → Prop) : Prop where
  view_take : ∀ {s t i j}, Q i j → view s = view t → view (S.take s i).1 = view (S.take t j).1
  output_take : ∀ {s t i j}, Q i j → view s = view t → P i (S.take s i).2 (S.take t j).2
  guard_view : ∀ {s t i j}, Q i j → view s = view t → G t j → G s i
  inv_take : ∀ {s} i, Inv s → G s i → Inv (S.take s i).1
  event : ∀ {s} r, Inv s → ∃ t, S.event s r = some t ∧ Inv t ∧ view t = view s

/-- The same for equal inputs and outputs, and without a guard. -/
structure Transparent (view : σ → ν) (Inv : σ → Prop) : Prop where
  view_take : ∀ {s t} i, view s = view t → view (S.take s i).1 = view (S.take t i).1
  output_take : ∀ {s t} i, view s = view t → (S.take s i).2 = (S.take t i).2
  inv_take : ∀ {s} i, Inv s → Inv (S.take s i).1
  event : ∀ {s} r, Inv s → ∃ t, S.event s r = some t ∧ Inv t ∧ view t = view s

variable {S} {Q : ι → ι → Prop} {P : ι → ο → ο → Prop} {G : σ → ι → Prop} {view : σ → ν}
  {Inv : σ → Prop}

/-- A run with events has outputs that agree with those of a run without them, and its view, when
the inputs of that run are related to its own and guarded; that run may start from another state
with the view. -/
theorem TransparentOn.exists_run
    (h : S.TransparentOn Q P G view Inv) {s t : σ} (hs : Inv s) (hview : view s = view t)
    {acts : List (Act ι ρ)} {js : List ι} (hjs : List.Forall₂ Q (inputs acts) js)
    (hguarded : S.Guarded G t js) :
  ∃ s' outs, S.run s acts = some (s', outs) ∧ Inv s' ∧ view s' = view (S.takeAll t js).1
    ∧ Agree P (inputs acts) outs (S.takeAll t js).2
  := by
  induction acts generalizing s t js with
  | nil =>
      cases hjs
      exact ⟨s, [], rfl, hs, hview, .nil⟩
  | cons act acts ih =>
      cases act with
      | input i =>
          cases hjs with
          | cons hij hjs =>
              obtain ⟨hj, hrest⟩ := hguarded
              have hinv := h.inv_take i hs (h.guard_view hij hview hj)
              obtain ⟨s', outs, hrun, hs', hview', hagree⟩ :=
                ih hinv (h.view_take hij hview) hjs hrest
              refine ⟨s', (S.take s i).2 :: outs, ?_, hs', hview', ?_⟩
              · rw [run, hrun]
                rfl
              · exact .cons (h.output_take hij hview) hagree
      | event r =>
          obtain ⟨u, hevent, hu, hviewu⟩ := h.event r hs
          obtain ⟨s', outs, hrun, hs'⟩ := ih hu (hviewu.trans hview) hjs hguarded
          use s', outs
          constructor
          · rw [run, hevent]
            apply hrun
          · exact hs'

theorem guarded_true (s : σ) (is : List ι) :
  S.Guarded (fun _ _ => True) s is
  := by
  induction is generalizing s with
  | nil => trivial
  | cons i is ih => exact ⟨trivial, ih _⟩

namespace Transparent

theorem transparentOn (h : S.Transparent view Inv) :
  S.TransparentOn Eq (fun _ => Eq) (fun _ _ => True) view Inv
  where
  view_take hij hview := hij ▸ h.view_take _ hview
  output_take hij hview := hij ▸ h.output_take _ hview
  guard_view _ _ _ := trivial
  inv_take i hs _ := h.inv_take i hs
  event := h.event

theorem exists_run
    (h : S.Transparent view Inv) {s t : σ} (hs : Inv s) (hview : view s = view t)
    (acts : List (Act ι ρ)) :
  ∃ s', S.run s acts = some (s', (S.takeAll t (inputs acts)).2) ∧ Inv s'
    ∧ view s' = view (S.takeAll t (inputs acts)).1
  := by
  have hsame : List.Forall₂ Eq (inputs acts) (inputs acts) :=
    List.forall₂_same.mpr fun _ _ => rfl
  obtain ⟨s', outs, hrun, hs', hview', hagree⟩ :=
    h.transparentOn.exists_run hs hview hsame (guarded_true t (inputs acts))
  rw [hagree.eq] at hrun
  exact ⟨s', hrun, hs', hview'⟩

/-- Every run that goes on to its end keeps the invariant. -/
theorem inv_of_run
    (h : S.Transparent view Inv) {s s' : σ} (hs : Inv s) {acts : List (Act ι ρ)} {outs : List ο}
    (hrun : S.run s acts = some (s', outs)) :
  Inv s'
  := by
  obtain ⟨s'', hrun', hinv, -⟩ := h.exists_run hs rfl acts
  rw [hrun] at hrun'
  cases hrun'
  apply hinv

end Transparent

end System

end Hidden
