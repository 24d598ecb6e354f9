import NexusMainframe.Lib.Lts

/-!
# The main frame

`run` starts the services, sets the flag `running` and loops while it is set; then it stops
the services. `stop`, called on another thread, clears the flag, and it may be called
between any two steps of `run`. A request to stop that comes before `run` sets the flag is
lost: the loop begins all the same, and does not end.
-/

namespace NexusMainframe

namespace NexusMainFrame

/-- How a call ends: it returns, or throws a `std::exception` or something else. -/
inductive Outcome where
  | returned
  | threwStd
  | threwOther
deriving DecidableEq

/-- Where the thread of `run` is: what it does next. -/
inductive Phase where
  | idle
  | initPaths
  | registerBuiltinServices
  /-- In `startAll`, in front of the service in place `i`. -/
  | starting (i : Nat)
  | looping
  /-- In an iteration, in front of the update of the service in place `i`. -/
  | updating (i : Nat)
  | ticking
  | sleeping
  | shuttingDown
  /-- In `stopAll`, with `k` services still to be stopped. -/
  | stopping (k : Nat)
  | returned
  | threw
deriving DecidableEq

/-- A step of the thread of `run`, with how the call that it makes ends, or the `stop` of
another thread. -/
inductive Action where
  | run
  | initPaths (outcome : Outcome)
  | registerBuiltinServices (outcome : Outcome)
  | start (outcome : Outcome)
  | setRunning
  | checkRunning
  | update (outcome : Outcome)
  | dispatchPending (outcome : Outcome)
  | tick (outcome : Outcome)
  | sleep
  | shutdown
  | stopService (outcome : Outcome)
  | leave
  | stop
deriving DecidableEq

/-- The state of the main frame, with the iterations begun, the services whose `start` has
returned and the services whose `stop` has been called. -/
structure State where
  phase : Phase := .idle
  running : Bool := false
  iterations : Nat := 0
  started : List Nat := []
  stopped : List Nat := []
deriving DecidableEq

/-- The step of a main frame with `n` services. An exception of `update` is caught, whatever
it is; one of `dispatchPending`, `tick` or the `stop` of a service is caught if it is a
`std::exception`; any other ends `run`. -/
def step (n : Nat) (s : State) (a : Action) : Option State :=
  match a, s.phase with
  | .run, .idle => some { s with phase := .initPaths }
  | .initPaths outcome, .initPaths =>
      some { s with phase := if outcome = .returned then .registerBuiltinServices else .threw }
  | .registerBuiltinServices outcome, .registerBuiltinServices =>
      some { s with phase := if outcome = .returned then .starting 0 else .threw }
  | .start outcome, .starting i =>
      if i < n then
        if outcome = .returned then
          some { s with phase := .starting (i + 1), started := s.started ++ [i] }
        else some { s with phase := .threw }
      else none
  | .setRunning, .starting i =>
      if i = n then some { s with phase := .looping, running := true } else none
  | .checkRunning, .looping =>
      if s.running then
        some { s with phase := .updating 0, iterations := s.iterations + 1 }
      else some { s with phase := .shuttingDown }
  | .update _, .updating i =>
      if i < n then some { s with phase := .updating (i + 1) } else none
  | .dispatchPending outcome, .updating i =>
      if i = n then
        some { s with phase := if outcome = .threwOther then .threw else .ticking }
      else none
  | .tick outcome, .ticking =>
      some { s with phase := if outcome = .threwOther then .threw else .sleeping }
  | .sleep, .sleeping => some { s with phase := .looping }
  | .shutdown, .shuttingDown => some { s with phase := .stopping n }
  | .stopService outcome, .stopping (k + 1) =>
      some
        { s with
          phase := if outcome = .threwOther then .threw else .stopping k
          stopped := s.stopped ++ [k] }
  | .leave, .stopping 0 => some { s with phase := .returned }
  | .stop, _ => some { s with running := false }
  | _, _ => none

/-- The steps, each with the state it is taken in. -/
inductive Step (n : Nat) : State → Action → State → Prop where
  | run {s} (h : s.phase = .idle) : Step n s .run { s with phase := .initPaths }
  | initPaths {s} (h : s.phase = .initPaths) :
      Step n s (.initPaths .returned) { s with phase := .registerBuiltinServices }
  | initPathsThrew {s} (outcome : Outcome) (h : s.phase = .initPaths) :
      Step n s (.initPaths outcome) { s with phase := .threw }
  | registerBuiltinServices {s} (h : s.phase = .registerBuiltinServices) :
      Step n s (.registerBuiltinServices .returned) { s with phase := .starting 0 }
  | registerThrew {s} (outcome : Outcome) (h : s.phase = .registerBuiltinServices) :
      Step n s (.registerBuiltinServices outcome) { s with phase := .threw }
  | start {s} (i : Nat) (h : s.phase = .starting i) (hi : i < n) :
      Step n s (.start .returned)
        { s with phase := .starting (i + 1), started := s.started ++ [i] }
  | startThrew {s} (i : Nat) (outcome : Outcome) (h : s.phase = .starting i)
      (houtcome : outcome ≠ .returned) :
      Step n s (.start outcome) { s with phase := .threw }
  | setRunning {s} (h : s.phase = .starting n) :
      Step n s .setRunning { s with phase := .looping, running := true }
  | checkRunning {s} (h : s.phase = .looping) (hrunning : s.running = true) :
      Step n s .checkRunning { s with phase := .updating 0, iterations := s.iterations + 1 }
  | checkStopped {s} (h : s.phase = .looping) :
      Step n s .checkRunning { s with phase := .shuttingDown }
  | update {s} (i : Nat) (outcome : Outcome) (h : s.phase = .updating i) :
      Step n s (.update outcome) { s with phase := .updating (i + 1) }
  | dispatchPending {s} (outcome : Outcome) (h : s.phase = .updating n)
      (houtcome : outcome ≠ .threwOther) :
      Step n s (.dispatchPending outcome) { s with phase := .ticking }
  | dispatchThrew {s} (h : s.phase = .updating n) :
      Step n s (.dispatchPending .threwOther) { s with phase := .threw }
  | tick {s} (outcome : Outcome) (h : s.phase = .ticking) (houtcome : outcome ≠ .threwOther) :
      Step n s (.tick outcome) { s with phase := .sleeping }
  | tickThrew {s} (h : s.phase = .ticking) :
      Step n s (.tick .threwOther) { s with phase := .threw }
  | sleep {s} (h : s.phase = .sleeping) : Step n s .sleep { s with phase := .looping }
  | shutdown {s} (h : s.phase = .shuttingDown) :
      Step n s .shutdown { s with phase := .stopping n }
  | stopService {s} (k : Nat) (outcome : Outcome) (h : s.phase = .stopping (k + 1))
      (houtcome : outcome ≠ .threwOther) :
      Step n s (.stopService outcome)
        { s with phase := .stopping k, stopped := s.stopped ++ [k] }
  | stopThrew {s} (k : Nat) (h : s.phase = .stopping (k + 1)) :
      Step n s (.stopService .threwOther)
        { s with phase := .threw, stopped := s.stopped ++ [k] }
  | leave {s} (h : s.phase = .stopping 0) : Step n s .leave { s with phase := .returned }
  | stop {s} : Step n s .stop { s with running := false }

/-- What `step` does is one of the steps. -/
theorem Step.of_step
    {n : Nat} {s t : State} {a : Action} (h : step n s a = some t) :
  Step n s a t
  := by
  unfold NexusMainFrame.step at h
  split at h
  next hphase =>
    cases h
    apply Step.run hphase
  next outcome hphase =>
    cases h
    split
    next hreturned =>
      rw [hreturned]
      apply Step.initPaths hphase
    next => apply Step.initPathsThrew outcome hphase
  next outcome hphase =>
    cases h
    split
    next hreturned =>
      rw [hreturned]
      apply Step.registerBuiltinServices hphase
    next => apply Step.registerThrew outcome hphase
  next outcome i hphase =>
    split at h
    next hi =>
      split at h
      next hreturned =>
        cases h
        rw [hreturned]
        apply Step.start i hphase hi
      next hthrew =>
        cases h
        apply Step.startThrew i outcome hphase hthrew
    next => cases h
  next i hphase =>
    split at h
    next hi =>
      cases h
      apply Step.setRunning (hi ▸ hphase)
    next => cases h
  next hphase =>
    split at h
    next hrunning =>
      cases h
      apply Step.checkRunning hphase hrunning
    next =>
      cases h
      apply Step.checkStopped hphase
  next outcome i hphase =>
    split at h
    next =>
      cases h
      apply Step.update i outcome hphase
    next => cases h
  next outcome i hphase =>
    split at h
    next hi =>
      cases h
      split
      next hthrew =>
        rw [hthrew]
        apply Step.dispatchThrew (hi ▸ hphase)
      next hcaught => apply Step.dispatchPending outcome (hi ▸ hphase) hcaught
    next => cases h
  next outcome hphase =>
    cases h
    split
    next hthrew =>
      rw [hthrew]
      apply Step.tickThrew hphase
    next hcaught => apply Step.tick outcome hphase hcaught
  next hphase =>
    cases h
    apply Step.sleep hphase
  next hphase =>
    cases h
    apply Step.shutdown hphase
  next outcome k hphase =>
    cases h
    split
    next hthrew =>
      rw [hthrew]
      apply Step.stopThrew k hphase
    next hcaught => apply Step.stopService k outcome hphase hcaught
  next hphase =>
    cases h
    apply Step.leave hphase
  next =>
    cases h
    apply Step.stop
  next => cases h

/-! ### A request to stop -/

/-- `run` has not yet set the flag. -/
def Phase.startingUp : Phase → Bool
  | .idle | .initPaths | .registerBuiltinServices | .starting _ => true
  | _ => false

/-- A `stop` in this state ends the loop: no iteration begins after it, whatever steps
follow. -/
def StopEndsLoop (n : Nat) (s : State) : Prop :=
  ∀ t, step n s .stop = some t → ∀ as u, Lts.run (step n) t as = some u →
    u.iterations = t.iterations

/-- Past the start-up, while the flag is not set, no step begins an iteration or sets it. -/
theorem Step.of_not_running
    {n : Nat} {s t : State} {a : Action} (h : Step n s a t)
    (hphase : s.phase.startingUp = false) (hrunning : s.running = false) :
  t.phase.startingUp = false ∧ t.running = false ∧ t.iterations = s.iterations
  := by
  cases h with
  | run h | initPaths h | initPathsThrew _ h | registerBuiltinServices h | registerThrew _ h
  | start _ h | startThrew _ _ h | setRunning h =>
      rw [h] at hphase
      cases hphase
  | checkRunning _ h =>
      rw [h] at hrunning
      cases hrunning
  | stop => use hphase
  | _ => use rfl, hrunning

/-- Past the start-up, while the flag is not set, no iteration begins any more. -/
theorem iterations_of_not_running
    {n : Nat} {s t : State} {as : List Action} (hphase : s.phase.startingUp = false)
    (hrunning : s.running = false) (h : Lts.run (step n) s as = some t) :
  t.iterations = s.iterations
  := by
  have hinv : t.phase.startingUp = false ∧ t.running = false ∧ t.iterations = s.iterations := by
    apply Lts.run_induction (P := fun _ t => t.phase.startingUp = false ∧ t.running = false ∧
      t.iterations = s.iterations) ⟨hphase, hrunning, rfl⟩ _ h
    rintro _ t a u _ ⟨hphase, hrunning, hiterations⟩ hu
    rw [← hiterations]
    apply (Step.of_step hu).of_not_running hphase hrunning
  apply hinv.2.2

/-- No service is started that is not there. -/
theorem Step.starting_le
    {n : Nat} {s t : State} {a : Action} (h : Step n s a t)
    (hle : ∀ i, s.phase = .starting i → i ≤ n) :
  ∀ i, t.phase = .starting i → i ≤ n
  := by
  intro i hi
  cases h with
  | registerBuiltinServices =>
      obtain rfl := Phase.starting.inj hi
      apply Nat.zero_le
  | start i' _ hlt =>
      obtain rfl := Phase.starting.inj hi
      apply hlt
  | stop => apply hle i hi
  | _ => cases hi

theorem starting_le
    {n : Nat} {s : State} {as : List Action} (h : Lts.run (step n) {} as = some s) {i : Nat}
    (hphase : s.phase = .starting i) :
  i ≤ n
  := by
  have hinv : ∀ i, s.phase = .starting i → i ≤ n := by
    apply Lts.run_induction (P := fun _ s => ∀ i, s.phase = .starting i → i ≤ n) _ _ h
    · simp
    · intro _ s a t _ hs ht
      apply (Step.of_step ht).starting_le hs
  apply hinv i hphase

/-- The services that are left may all start, and then an iteration begins. -/
theorem exists_iteration_of_starting
    {n i : Nat} (hi : i ≤ n) {s : State} (hphase : s.phase = .starting i) :
  ∃ as t, Lts.run (step n) s as = some t ∧ t.iterations = s.iterations + 1
  := by
  induction hk : n - i generalizing i s with
  | zero =>
      obtain rfl : i = n := by omega
      use [.setRunning, .checkRunning],
        { s with phase := .updating 0, running := true, iterations := s.iterations + 1 }
      simp [Lts.run, step, hphase]
  | succ k ih =>
      have hstart : step n s (.start .returned)
          = some { s with phase := .starting (i + 1), started := s.started ++ [i] } := by
        have hlt : i < n := by omega
        simp [step, hphase, hlt]
      obtain ⟨as, t, ht, hiterations⟩ := ih (by omega)
        (s := { s with phase := .starting (i + 1), started := s.started ++ [i] }) rfl (by omega)
      use .start .returned :: as, t
      rw [Lts.run, hstart]
      use ht, hiterations

/-- In front of the setting of the flag, the start-up may go well, and then an iteration
begins. -/
theorem exists_iteration
    {n : Nat} {s : State} (hle : ∀ i, s.phase = .starting i → i ≤ n)
    (hphase : s.phase.startingUp = true) :
  ∃ as t, Lts.run (step n) s as = some t ∧ t.iterations = s.iterations + 1
  := by
  obtain ⟨as, t, ht, hiterations⟩ :=
    exists_iteration_of_starting (Nat.zero_le n) (s := { s with phase := .starting 0 }) rfl
  cases hs : s.phase with
  | idle =>
      use .run :: .initPaths .returned :: .registerBuiltinServices .returned :: as, t
      simp [Lts.run, step, hs, ht, hiterations]
  | initPaths =>
      use .initPaths .returned :: .registerBuiltinServices .returned :: as, t
      simp [Lts.run, step, hs, ht, hiterations]
  | registerBuiltinServices =>
      use .registerBuiltinServices .returned :: as, t
      simp [Lts.run, step, hs, ht, hiterations]
  | starting i =>
      apply exists_iteration_of_starting (hle i hs) hs
  | _ => simp [hs, Phase.startingUp] at hphase

/-- A `stop` ends the loop just if it is called when `run` has set the flag, or when it has
ended. -/
theorem stopEndsLoop_iff
    {n : Nat} {s : State} {as : List Action} (h : Lts.run (step n) {} as = some s) :
  StopEndsLoop n s ↔ s.phase.startingUp = false
  := by
  constructor
  · intro hends
    by_contra hphase
    rw [Bool.not_eq_false] at hphase
    obtain ⟨as, t, ht, hiterations⟩ := exists_iteration
      (s := { s with running := false }) (fun i hi => starting_le h hi) hphase
    have hsame := hends _ rfl as t ht
    omega
  · intro hphase t ht as u hu
    obtain rfl := Option.some.inj ht
    apply iterations_of_not_running (s := { s with running := false }) hphase rfl hu

/-- With one service, `stop` is called when the service has not been started yet. -/
theorem not_stopEndsLoop :
  ¬ ∀ (n : Nat) (as : List Action) (s : State), Lts.run (step n) {} as = some s →
      s.phase ≠ .idle → StopEndsLoop n s
  := by
  intro h
  have hends := h 1 [.run, .initPaths .returned, .registerBuiltinServices .returned]
    { phase := .starting 0 } rfl (by decide)
  have hsame := hends { phase := .starting 0 } rfl [.start .returned, .setRunning, .checkRunning]
    { phase := .updating 0, running := true, iterations := 1, started := [0] } rfl
  exact absurd hsame (by decide)

/-- With one service, `stop` is called in the first iteration. -/
theorem stopEndsLoop_iff_updating :
  StopEndsLoop 1 { phase := .updating 0, running := true, iterations := 1, started := [0] }
    ↔ Phase.startingUp (.updating 0) = false
  := by
  have hrun : Lts.run (step 1) {}
      [.run, .initPaths .returned, .registerBuiltinServices .returned, .start .returned,
        .setRunning, .checkRunning]
      = some { phase := .updating 0, running := true, iterations := 1, started := [0] } := rfl
  apply stopEndsLoop_iff hrun

end NexusMainFrame

end NexusMainframe
