import NexusMainframe.MainFrame.NexusMainFrame

/-!
# Stopping the services

The services are stopped after the loop, the last one first. When the `start` of a service
throws, or an exception that is no `std::exception` leaves the loop, `run` ends without
stopping any, and when one leaves the `stop` of a service, without stopping the ones before
it.
-/

namespace NexusMainframe

namespace NexusMainFrame

/-- `run` has returned or thrown. -/
def State.Ended (s : State) : Prop :=
  s.phase = .returned ∨ s.phase = .threw

/-- The services whose `start` has returned have each been stopped once, the last one
first. -/
def State.StoppedAll (s : State) : Prop :=
  s.stopped = s.started.reverse

/-- The call is one that may throw, because no service before it is left to be stopped, or
its exception is caught. -/
def Contained (n : Nat) (s : State) : Action → Prop
  | .start outcome => outcome ≠ .returned → s.phase = .starting 0
  | .dispatchPending outcome => outcome = .threwOther → n = 0
  | .tick outcome => outcome = .threwOther → n = 0
  | .stopService outcome => outcome = .threwOther → s.phase = .stopping 1
  | _ => True

/-- The services that have been started and stopped, by the phase. -/
def State.Counted (n : Nat) (s : State) : Prop :=
  match s.phase with
  | .idle | .initPaths | .registerBuiltinServices => s.started = [] ∧ s.stopped = []
  | .starting i => i ≤ n ∧ s.started = List.range i ∧ s.stopped = []
  | .looping | .updating _ | .ticking | .sleeping | .shuttingDown =>
      s.started = List.range n ∧ s.stopped = []
  | .stopping k =>
      k ≤ n ∧ s.started = List.range n ∧
        s.stopped = ((List.range n).drop k).reverse
  | .returned => s.started = List.range n ∧ s.stopped = (List.range n).reverse
  | .threw => True

theorem reverse_drop_range {n k : Nat} (h : k < n) :
  ((List.range n).drop (k + 1)).reverse ++ [k] = ((List.range n).drop k).reverse
  := by
  rw [List.drop_eq_getElem_cons (i := k) (by simpa using h), List.getElem_range,
    List.reverse_cons]

theorem counted_step
    {n : Nat} {s t : State} {a : Action} (h : s.Counted n) (hstep : Step n s a t) :
  t.Counted n
  := by
  cases hstep with
  | initPathsThrew | registerThrew | startThrew | dispatchThrew | tickThrew | stopThrew =>
      trivial
  | stop => apply h
  | registerBuiltinServices hphase =>
      simp only [State.Counted, hphase] at h
      use Nat.zero_le n, h.1, h.2
  | start i hphase hi =>
      simp only [State.Counted, hphase] at h
      obtain ⟨-, hstarted, hstopped⟩ := h
      use hi
      rw [hstarted, List.range_succ]
      use rfl, hstopped
  | setRunning hphase =>
      simp only [State.Counted, hphase] at h
      use h.2.1, h.2.2
  | shutdown hphase =>
      simp only [State.Counted, hphase] at h
      use Nat.le_refl n, h.1
      rw [h.2, List.drop_of_length_le (by simp), List.reverse_nil]
  | stopService k outcome hphase =>
      simp only [State.Counted, hphase] at h
      obtain ⟨hk, hstarted, hstopped⟩ := h
      use by omega, hstarted
      rw [hstopped, reverse_drop_range (by omega)]
  | leave hphase =>
      simp only [State.Counted, hphase] at h
      use h.2.1, h.2.2
  | run hphase | initPaths hphase | checkRunning hphase | checkStopped hphase
  | update i outcome hphase | dispatchPending outcome hphase | tick outcome hphase
  | sleep hphase =>
      simp only [State.Counted, hphase] at h
      apply h

/-- What is left of the services when some have been stopped is not all of them. -/
theorem reverse_drop_range_eq_iff {n k : Nat} (h : k < n) :
  ((List.range n).drop k).reverse = (List.range n).reverse ↔ k = 0
  := by
  constructor
  · intro heq
    have hlen := congrArg List.length heq
    simp only [List.length_reverse, List.length_drop, List.length_range] at hlen
    omega
  · rintro rfl
    rfl

/-- Only another thread's `stop` is called when `run` has ended. -/
theorem Step.not_ended
    {n : Nat} {s t : State} {a : Action} (h : Step n s a t) (ha : a ≠ .stop) :
  ¬ s.Ended
  := by
  intro hended
  cases h with
  | stop => exact ha rfl
  | _ => simp_all [State.Ended]

theorem stoppedAll_of_nil {s : State} (h : s.started = [] ∧ s.stopped = []) :
  s.StoppedAll
  := by
  rw [State.StoppedAll, h.1, h.2, List.reverse_nil]

/-- None of the first `i` services has been stopped. -/
theorem stoppedAll_iff_zero {s : State} {i : Nat} (h : s.started = List.range i ∧ s.stopped = []) :
  s.StoppedAll ↔ i = 0
  := by
  rw [State.StoppedAll, h.1, h.2, eq_comm, List.reverse_eq_nil_iff, List.range_eq_nil]

/-- A step leads to an end with all started services stopped just if it is contained. -/
theorem stoppedAll_step_iff
    {n : Nat} {s t : State} {a : Action} (h : s.Counted n) (hstep : Step n s a t) :
  (t.Ended → t.StoppedAll) ↔ (s.Ended → s.StoppedAll) ∧ Contained n s a
  := by
  by_cases hstop : a = .stop
  · subst hstop
    cases hstep
    change (s.Ended → s.StoppedAll) ↔ (s.Ended → s.StoppedAll) ∧ True
    rw [and_true]
  rw [and_iff_right fun hended => (hstep.not_ended hstop hended).elim]
  cases hstep with
  | stop => exact (hstop rfl).elim
  | initPathsThrew outcome hphase | registerThrew outcome hphase =>
      simp only [State.Counted, hphase] at h
      apply iff_of_true _ trivial
      intro _
      apply stoppedAll_of_nil h
  | startThrew i outcome hphase houtcome =>
      simp only [State.Counted, hphase] at h
      have hiff : ({ s with phase := .threw } : State).StoppedAll ↔ i = 0 :=
        stoppedAll_iff_zero h.2
      simp only [State.Ended, or_true, true_imp_iff, hiff, Contained, hphase, houtcome, ne_eq,
        not_false_eq_true, Phase.starting.injEq]
  | dispatchThrew hphase | tickThrew hphase =>
      simp only [State.Counted, hphase] at h
      have hiff : ({ s with phase := .threw } : State).StoppedAll ↔ n = 0 :=
        stoppedAll_iff_zero h
      simp only [State.Ended, or_true, true_imp_iff, hiff, Contained]
  | stopThrew k hphase =>
      simp only [State.Counted, hphase] at h
      obtain ⟨hk, hstarted, hstopped⟩ := h
      simp only [State.Ended, or_true, true_imp_iff, State.StoppedAll, hstarted, hstopped,
        reverse_drop_range hk, reverse_drop_range_eq_iff hk, Contained, hphase,
        Phase.stopping.injEq, Nat.add_eq_right]
  | leave hphase =>
      simp only [State.Counted, hphase] at h
      apply iff_of_true _ trivial
      intro _
      rw [State.StoppedAll, h.2.1, h.2.2, List.drop_zero]
  | _ => simp_all [State.Ended, Contained]

/-- When `run` has ended, the services that were started have each been stopped once, the last
one first, just if every exception that a call has thrown was contained. -/
theorem stoppedAll_iff
    {n : Nat} {s : State} {as : List Action} (h : Lts.run (step n) {} as = some s)
    (hended : s.Ended) :
  s.StoppedAll ↔ Lts.Guarded (step n) (Contained n) {} as
  := by
  have hiff : (s.Ended → s.StoppedAll) ↔ Lts.Guarded (step n) (Contained n) {} as := by
    apply Lts.run_iff_guarded (I := State.Counted n) (P := fun s => s.Ended → s.StoppedAll)
      _ _ _ _ h
    · exact ⟨rfl, rfl⟩
    · intro _
      rfl
    · intro s a t hs ht
      apply counted_step hs (Step.of_step ht)
    · intro s a t hs ht
      apply stoppedAll_step_iff hs (Step.of_step ht)
  rw [← hiff]
  constructor
  · intro hstopped _
    apply hstopped
  · intro hstopped
    apply hstopped hended

/-- Two services; the `stop` of the second one, which is called first, throws a
`std::exception`. -/
theorem stoppedAll_iff_stdException :
  State.StoppedAll { phase := .returned, started := [0, 1], stopped := [1, 0] }
    ↔ Lts.Guarded (step 2) (Contained 2) {}
        [.run, .initPaths .returned, .registerBuiltinServices .returned, .start .returned,
          .start .returned, .setRunning, .stop, .checkRunning, .shutdown, .stopService .threwStd,
          .stopService .returned, .leave]
  := stoppedAll_iff rfl (.inl rfl)

/-- Two services; the `start` of the second one throws, and the first one is not stopped. -/
theorem not_stoppedAll :
  ¬ ∀ (n : Nat) (as : List Action) (s : State), Lts.run (step n) {} as = some s → s.Ended →
      s.StoppedAll
  := by
  intro h
  have hstopped := h 2
    [.run, .initPaths .returned, .registerBuiltinServices .returned, .start .returned,
      .start .threwStd]
    { phase := .threw, started := [0] } rfl (.inr rfl)
  cases hstopped

end NexusMainFrame

end NexusMainframe
