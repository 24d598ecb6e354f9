import NexusMainframe.Lib.Interleaving
import Mathlib.Tactic.ByContra

/-!
# Programs that save what they change

A part of the shared state is kept in a file, and an operation writes the part into the file.
When every program, right after a call that changes the part, calls that operation, the
programs may be interleaved: the file has the part as it was when it was saved last, all
changes of the requests that are done had been made by then, and it has the part as it is
when no request is in flight.
-/

namespace Interleaving

variable {σ ω ρ ι α ξ : Type} {apply : ω → σ → σ × ρ}

/-- A part of the state that one operation saves, and where it is saved. -/
structure File (apply : ω → σ → σ × ρ) (ξ : Type) where
  view : σ → ξ
  file : σ → ξ
  save : ω
  file_save : ∀ s, file (apply save s).1 = view s
  view_save : ∀ s, view (apply save s).1 = view s
  file_of_ne : ∀ op s, op ≠ save → file (apply op s).1 = file s

namespace File

variable (f : File apply ξ)

/-- The program saves right after a call that changes the part. -/
def SavesAfter : Prog ω ρ α → Prop
  | .done _ => True
  | .call op k => ∀ s,
      (f.view (apply op s).1 ≠ f.view s → ∃ k', k (apply op s).2 = .call f.save k')
        ∧ SavesAfter (k (apply op s).2)

/-- The program is about to save. -/
def IsSaving (t : Thread ι ω ρ α) : Prop :=
  ∃ k, t.rest = .call f.save k

variable (program : ι → Prog ω ρ α) (p₀ : Pool σ ι ω ρ α)

/-- After some actions, a step of the program at `i` changes the part. -/
def Changes (acts : List (Act ι)) (i : Nat) : Prop :=
  ∃ p u, Lts.run (next apply program) p₀ acts = some p
    ∧ next apply program p (.step i) = some u ∧ f.view u.shared ≠ f.view p.shared

/-- The file has the part as it was at a time of the run, and the changes since then are by
programs of which `R` holds. -/
def SavedExcept (R : Thread ι ω ρ α → Prop) (acts : List (Act ι)) (p : Pool σ ι ω ρ α) : Prop :=
  ∃ saved u, saved <+: acts ∧ Lts.run (next apply program) p₀ saved = some u
    ∧ f.file p.shared = f.view u.shared
    ∧ ∀ before i, before ++ [.step i] <+: acts → f.Changes program p₀ before i →
      before ++ [.step i] <+: saved ∨ ∃ t ∈ p.threads[i]?, R t

/-- The file has the part as it was after all changes by requests that are done. -/
def IsRecent (acts : List (Act ι)) (p : Pool σ ι ω ρ α) : Prop :=
  f.SavedExcept program p₀ (fun t => t.rest.isDone = false) acts p

/-- What holds along a run. -/
structure Tracked (acts : List (Act ι)) (p : Pool σ ι ω ρ α) : Prop where
  savesAfter : ∀ t ∈ p.threads, f.SavesAfter t.rest
  saved : f.SavedExcept program p₀ f.IsSaving acts p
  saving : f.view p.shared ≠ f.file p.shared → ∃ i : Nat, ∃ t ∈ p.threads[i]?, f.IsSaving t

variable {f program p₀} {acts : List (Act ι)} {p u : Pool σ ι ω ρ α}

theorem savesAfter_call
    {op : ω} {k : ρ → Prog ω ρ α}
    (h : ∀ s, f.view (apply op s).1 ≠ f.view s → ∃ k', k (apply op s).2 = .call f.save k')
    (hk : ∀ a, f.SavesAfter (k a)) :
  f.SavesAfter (.call op k)
  := fun s => ⟨h s, hk _⟩

/-- A call that does not change the part need not be followed by any. -/
theorem savesAfter_call_of_frame
    {op : ω} {k : ρ → Prog ω ρ α} (h : ∀ s, f.view (apply op s).1 = f.view s)
    (hk : ∀ a, f.SavesAfter (k a)) :
  f.SavesAfter (.call op k)
  := by
  apply savesAfter_call _ hk
  intro s hne
  cases hne (h s)

theorem Tracked.init
    (hthreads : p₀.threads = []) (hfile : f.file p₀.shared = f.view p₀.shared) :
  f.Tracked program p₀ [] p₀
  := by
  constructor
  · rw [hthreads]
    apply List.forall_mem_nil
  · use [], p₀, List.prefix_rfl, rfl, hfile
    intro before i hprefix
    cases List.append_ne_nil_of_right_ne_nil _ (List.cons_ne_nil _ _)
      (List.prefix_nil.mp hprefix)
  · intro hne
    cases hne hfile.symm

theorem Tracked.start
    (h : f.Tracked program p₀ acts p) {q : ι} (hq : f.SavesAfter (program q))
    (hstart : next apply program p (.start q) = some u) :
  f.Tracked program p₀ (acts ++ [.start q]) u
  := by
  obtain rfl := next_start.mp hstart
  have hold : ∀ {i : Nat} {t}, p.threads[i]? = some t →
      (p.threads ++ [⟨q, program q⟩])[i]? = some t := by
    intro i t hi
    rw [List.getElem?_append_left (List.getElem?_eq_some_iff.mp hi).1]
    apply hi
  constructor
  · intro t ht
    rcases List.mem_append.mp ht with ht | ht
    · apply h.savesAfter t ht
    · obtain rfl := List.mem_singleton.mp ht
      apply hq
  · obtain ⟨saved, v, hsaved, hv, hfile, hchanges⟩ := h.saved
    use saved, v, hsaved.trans (List.prefix_append _ _), hv, hfile
    intro before i hprefix hchange
    rcases List.prefix_concat_iff.mp hprefix with heq | hprefix
    · obtain ⟨-, hact⟩ := List.append_inj' heq rfl
      cases hact
    · rcases hchanges before i hprefix hchange with hsaved | ⟨t, ht, hsaving⟩
      · left
        apply hsaved
      · right
        exact ⟨t, hold ht, hsaving⟩
  · intro hne
    obtain ⟨i, t, ht, hsaving⟩ := h.saving hne
    exact ⟨i, t, hold ht, hsaving⟩

section Step

variable {i : Nat} {q : ι} {op : ω} {k : ρ → Prog ω ρ α}

theorem Tracked.savesAfter_set
    (h : f.Tracked program p₀ acts p) (hi : p.threads[i]? = some ⟨q, .call op k⟩) :
  ∀ t ∈ p.threads.set i ⟨q, k (apply op p.shared).2⟩, f.SavesAfter t.rest
  := by
  obtain ⟨-, hsavesAfter⟩ := h.savesAfter _ (List.mem_of_getElem? hi) p.shared
  intro t ht
  rcases List.mem_or_eq_of_mem_set ht with ht | rfl
  · apply h.savesAfter t ht
  · apply hsavesAfter

/-- A program that is about to save is not the one that makes another call. -/
theorem getElem?_set_of_isSaving
    (hi : p.threads[i]? = some ⟨q, .call op k⟩) (hop : op ≠ f.save) {j : Nat}
    {t t' : Thread ι ω ρ α} (hj : p.threads[j]? = some t) (ht : f.IsSaving t) :
  (p.threads.set i t')[j]? = some t
  := by
  obtain ⟨k', hk'⟩ := ht
  have hne : i ≠ j := by
    rintro rfl
    rw [hi] at hj
    obtain rfl := Option.some.inj hj
    cases hk'
    apply hop rfl
  rw [List.getElem?_set_ne hne]
  apply hj

/-- The part is saved. -/
theorem Tracked.stepSave
    (h : f.Tracked program p₀ acts p) (hi : p.threads[i]? = some ⟨q, .call f.save k⟩)
    (hrun : Lts.run (next apply program) p₀ (acts ++ [.step i])
      = some ⟨(apply f.save p.shared).1, p.threads.set i ⟨q, k (apply f.save p.shared).2⟩⟩) :
  f.Tracked program p₀ (acts ++ [.step i])
    ⟨(apply f.save p.shared).1, p.threads.set i ⟨q, k (apply f.save p.shared).2⟩⟩
  := by
  constructor
  · apply h.savesAfter_set hi
  · use acts ++ [.step i]
    constructor
    · use List.prefix_rfl, hrun
      constructor
      · rw [f.file_save, f.view_save]
      · intro before j hprefix _
        left
        apply hprefix
  · intro hne
    rw [f.file_save, f.view_save] at hne
    cases hne rfl

/-- Another call: where it changes the part, its program is about to save. -/
theorem Tracked.stepCall
    (h : f.Tracked program p₀ acts p) (hrun : Lts.run (next apply program) p₀ acts = some p)
    (hi : p.threads[i]? = some ⟨q, .call op k⟩) (hop : op ≠ f.save) :
  f.Tracked program p₀ (acts ++ [.step i])
    ⟨(apply op p.shared).1, p.threads.set i ⟨q, k (apply op p.shared).2⟩⟩
  := by
  obtain ⟨hlt, -⟩ := List.getElem?_eq_some_iff.mp hi
  obtain ⟨hsaves, -⟩ := h.savesAfter _ (List.mem_of_getElem? hi) p.shared
  have hnew : f.view (apply op p.shared).1 ≠ f.view p.shared →
      ∃ t ∈ (p.threads.set i ⟨q, k (apply op p.shared).2⟩)[i]?, f.IsSaving t := by
    intro hne
    use ⟨q, k (apply op p.shared).2⟩, List.getElem?_set_self hlt
    apply hsaves hne
  constructor
  · apply h.savesAfter_set hi
  · obtain ⟨saved, v, hsaved, hv, hfile, hchanges⟩ := h.saved
    use saved, v, hsaved.trans (List.prefix_append _ _), hv
    constructor
    · rw [f.file_of_ne _ _ hop, hfile]
    · intro before j hprefix hchange
      rcases List.prefix_concat_iff.mp hprefix with heq | hprefix
      · right
        obtain ⟨rfl, hact⟩ := List.append_inj' heq rfl
        cases hact
        obtain ⟨p', u', hp', hu', hne⟩ := hchange
        obtain rfl := Option.some.inj (hrun.symm.trans hp')
        obtain ⟨q', op', k', hi', rfl⟩ := next_step.mp hu'
        obtain ⟨⟩ := hi.symm.trans hi'
        apply hnew hne
      · rcases hchanges before j hprefix hchange with hsaved | ⟨t, ht, hsaving⟩
        · left
          apply hsaved
        · right
          exact ⟨t, getElem?_set_of_isSaving hi hop ht hsaving, hsaving⟩
  · intro hne
    rw [f.file_of_ne _ _ hop] at hne
    by_cases hview : f.view (apply op p.shared).1 = f.view p.shared
    · rw [hview] at hne
      obtain ⟨j, t, ht, hsaving⟩ := h.saving hne
      exact ⟨j, t, getElem?_set_of_isSaving hi hop ht hsaving, hsaving⟩
    · use i
      apply hnew hview

theorem Tracked.step
    (h : f.Tracked program p₀ acts p) (hrun : Lts.run (next apply program) p₀ acts = some p)
    (hstep : next apply program p (.step i) = some u) :
  f.Tracked program p₀ (acts ++ [.step i]) u
  := by
  have hrun' : Lts.run (next apply program) p₀ (acts ++ [.step i]) = some u :=
    Lts.run_concat.mpr ⟨p, hrun, hstep⟩
  obtain ⟨q, op, k, hi, rfl⟩ := next_step.mp hstep
  by_cases hop : op = f.save
  · subst hop
    apply h.stepSave hi hrun'
  · apply h.stepCall hrun hi hop

end Step

/-- In every run of programs that save what they change, from a file that has the part. -/
theorem tracked_of_run
    (hthreads : p₀.threads = []) (hfile : f.file p₀.shared = f.view p₀.shared)
    (hprogram : ∀ q, f.SavesAfter (program q))
    (hrun : Lts.run (next apply program) p₀ acts = some p) :
  f.Tracked program p₀ acts p
  := by
  apply Lts.run_induction _ _ hrun
  · apply Tracked.init hthreads hfile
  · intro acts t a u hrun ht hstep
    cases a with
    | start q => apply ht.start (hprogram q) hstep
    | step i => apply ht.step hrun hstep

theorem Tracked.isRecent (h : f.Tracked program p₀ acts p) :
  f.IsRecent program p₀ acts p
  := by
  obtain ⟨saved, v, hsaved, hv, hfile, hchanges⟩ := h.saved
  use saved, v, hsaved, hv, hfile
  intro before i hprefix hchange
  rcases hchanges before i hprefix hchange with hsaved | ⟨t, ht, k, hk⟩
  · left
    apply hsaved
  · right
    have hdone : t.rest.isDone = false := by
      rw [hk]
      rfl
    exact ⟨t, ht, hdone⟩

theorem Tracked.file_eq_of_idle (h : f.Tracked program p₀ acts p) (hidle : Idle p) :
  f.file p.shared = f.view p.shared
  := by
  by_contra hne
  obtain ⟨i, t, ht, k, hk⟩ := h.saving (Ne.symm hne)
  have hdone := hidle t (List.mem_of_getElem? ht)
  rw [hk] at hdone
  cases hdone

end File

end Interleaving
