import NexusMainframe.Event.Delivery

/-!
# Removal of listeners

`unsubscribe` and `shutdown` take listeners out of the table, but not out of the copies
that the dispatching thread has made for the event it is processing, so a listener can be
called after its removal has returned. It cannot be in a run that removes no listener
whose copied callback is still to be started.
-/

namespace NexusMainframe

namespace EventBus

variable {κ δ : Type}

/-! ### Removals in a trace -/

/-- The listeners that an observation removes, after the trace `pre`. -/
def Removes (pre : List (Obs κ δ)) : Obs κ δ → Listener κ → Prop
  | .unsubscribed eventName id, l => l ∈ registered pre eventName ∧ l.id = id
  | .shutDown, l => ∃ eventName, l ∈ registered pre eventName
  | _, _ => False

/-- The listeners removed within a trace. -/
def Removed (tr : List (Obs κ δ)) (l : Listener κ) : Prop :=
  ∃ pre o post, tr = pre ++ o :: post ∧ Removes pre o l

/-- No invocation of a listener starts after the call that removed it. -/
def RemovalIsFinal (tr : List (Obs κ δ)) : Prop :=
  ∀ pre o post l, tr = pre ++ o :: post → Removes pre o l → .called l ∉ post

theorem removed_concat {tr : List (Obs κ δ)} {o : Obs κ δ} {l : Listener κ} :
  Removed (tr ++ [o]) l ↔ Removed tr l ∨ Removes tr o l
  := by
  constructor
  · rintro ⟨pre, x, post, htr, hx⟩
    rcases Lts.concat_eq_append_cons.mp htr with ⟨rfl, rfl, rfl⟩ | ⟨post, rfl, rfl⟩
    · right
      apply hx
    · left
      use pre, x, post
  · rintro (⟨pre, x, post, rfl, hx⟩ | ho)
    · use pre, x, post ++ [o]
      simp [hx]
    · use tr, o, []

theorem removalIsFinal_concat
    {tr : List (Obs κ δ)} {o : Obs κ δ} (h : RemovalIsFinal tr)
    (ho : ∀ l, o = .called l → ¬ Removed tr l) :
  RemovalIsFinal (tr ++ [o])
  := by
  intro pre x post l htr hx
  rcases Lts.concat_eq_append_cons.mp htr with ⟨rfl, rfl, rfl⟩ | ⟨post, rfl, rfl⟩
  · simp
  · rw [List.mem_append, List.mem_singleton, not_or]
    use h pre x post l rfl hx
    intro hcall
    apply ho l hcall.symm
    use pre, x, post

/-- A registered listener has been subscribed under its event name. -/
theorem subscribed_of_registered
    {tr : List (Obs κ δ)} {eventName : Bytes} {l : Listener κ}
    (h : l ∈ registered tr eventName) :
  .subscribed eventName l ∈ tr
  := by
  induction tr using List.reverseRec with
  | nil => simp [registered] at h
  | append_singleton tr o ih =>
      rw [registered_concat] at h
      rw [List.mem_append, List.mem_singleton]
      cases o with
      | subscribed other l' =>
          simp only [Obs.register] at h
          split at h
          next heq =>
            subst heq
            rcases List.mem_append.mp h with h | h
            · left
              apply ih h
            · right
              rw [List.mem_singleton.mp h]
          next =>
            left
            apply ih h
      | unsubscribed other id =>
          left
          simp only [Obs.register] at h
          split at h
          next => apply ih (List.mem_of_mem_filter h)
          next => apply ih h
      | shutDown => simp [Obs.register] at h
      | published | began | processed | called | finished | ended =>
          left
          apply ih h

/-- A removed listener has been subscribed. -/
theorem subscribed_of_removed
    {tr : List (Obs κ δ)} {l : Listener κ} (h : Removed tr l) :
  ∃ eventName, .subscribed eventName l ∈ tr
  := by
  obtain ⟨pre, o, post, rfl, ho⟩ := h
  cases o with
  | unsubscribed eventName id =>
      use eventName
      simp [subscribed_of_registered ho.1]
  | shutDown =>
      obtain ⟨eventName, hl⟩ := ho
      use eventName
      simp [subscribed_of_registered hl]
  | subscribed | published | began | processed | called | finished | ended => exact ho.elim

/-! ### Runs that remove no copied listener -/

/-- A step removes no listener with a copied callback still to be started: `unsubscribe`
none that is copied for the event in progress, `shutdown` none at all. -/
def RemovesNoCopy (s : System κ δ) : Act κ δ → Prop
  | .unsubscribe eventName id =>
      match s.dispatcher with
      | .calling event callbacksCopy _ _ =>
          event.name = eventName → ∀ l ∈ callbacksCopy, l.id ≠ id
      | _ => True
  | .shutdown => s.dispatcher.callbacks = []
  | _ => True

instance decidableRemovesNoCopy [DecidableEq κ] :
    ∀ (s : System κ δ) (a : Act κ δ), Decidable (RemovesNoCopy s a)
  | ⟨_, .calling event callbacksCopy _ _, _⟩, .unsubscribe eventName id =>
      inferInstanceAs (Decidable (event.name = eventName → ∀ l ∈ callbacksCopy, l.id ≠ id))
  | ⟨_, .idle, _⟩, .unsubscribe _ _ | ⟨_, .draining _, _⟩, .unsubscribe _ _ => isTrue trivial
  | s, .shutdown => inferInstanceAs (Decidable (s.dispatcher.callbacks = []))
  | _, .subscribe _ _ | _, .publish _ | _, .dispatchPending | _, .process | _, .call
  | _, .finish _ | _, .pop | _, .leave => isTrue trivial

/-- What holds in every state of a run that removes no copied listener. -/
structure Settled (s : System κ δ) : Prop where
  table : TableAgrees s
  serial : ∀ eventName l, .subscribed eventName l ∈ s.trace → l.serial < s.bus.subscriptions
  unique : ∀ n l n' l', .subscribed n l ∈ s.trace → .subscribed n' l' ∈ s.trace →
    l.serial = l'.serial → n = n'
  copies : ∀ event callbacksCopy running temp,
    s.dispatcher = .calling event callbacksCopy running temp →
      ∀ l ∈ callbacksCopy, l ∈ registered s.trace event.name
  kept : ∀ eventName, ∀ l ∈ registered s.trace eventName, ¬ Removed s.trace l
  final : RemovalIsFinal s.trace

namespace Settled

variable {s t : System κ δ} {a : Act κ δ}

theorem init :
  Settled (System.init : System κ δ)
  := by
  constructor
  · intro eventName
    rfl
  · intro eventName l hl
    cases hl
  · intro n l n' l' hl
    cases hl
  · intro event callbacksCopy running temp hd
    cases hd
  · intro eventName l hl
    cases hl
  · intro pre o post l htr
    simp [System.init] at htr

theorem serial_step
    (h : Settled s) (hstep : Step s a t) (eventName : Bytes) (l : Listener κ)
    (hl : .subscribed eventName l ∈ t.trace) :
  l.serial < t.bus.subscriptions
  := by
  have hserial := h.serial eventName l
  cases hstep with
  | subscribe other cb active =>
      simp only [Bus.subscribe, active, Bool.false_eq_true, if_false]
      rcases List.mem_append.mp hl with hl | hl
      · have := hserial hl
        dsimp only at this
        omega
      · obtain ⟨-, rfl⟩ := Obs.subscribed.inj (List.mem_singleton.mp hl)
        simp [Bus.nextListener]
  | unsubscribe other id =>
      have hsame : ∀ b : Bus κ δ, (b.unsubscribe other id).subscriptions = b.subscriptions := by
        intro b
        unfold Bus.unsubscribe
        split
        · rfl
        · dsimp only
          split <;> rfl
      rw [hsame]
      apply hserial (by simpa using hl)
  | publish event active =>
      simp only [Bus.publish, active, Bool.false_eq_true, if_false]
      apply hserial (by simpa using hl)
  | subscribeRefused | publishRefused | dispatchSkipped | pop => apply hserial hl
  | shutdown | dispatchPending | process | call | finish | leave =>
      apply hserial (by simpa using hl)

theorem unique_step
    (h : Settled s) (hstep : Step s a t) (n : Bytes) (l : Listener κ) (n' : Bytes)
    (l' : Listener κ) (hl : .subscribed n l ∈ t.trace) (hl' : .subscribed n' l' ∈ t.trace)
    (heq : l.serial = l'.serial) :
  n = n'
  := by
  have hunique := h.unique n l n' l'
  cases hstep with
  | subscribe other cb active =>
      have hserial := h.serial
      rcases List.mem_append.mp hl with hl | hl <;> rcases List.mem_append.mp hl' with hl' | hl'
      · apply hunique hl hl' heq
      · obtain ⟨-, rfl⟩ := Obs.subscribed.inj (List.mem_singleton.mp hl')
        have := hserial n l hl
        simp only [Bus.nextListener] at heq
        dsimp only at this
        omega
      · obtain ⟨-, rfl⟩ := Obs.subscribed.inj (List.mem_singleton.mp hl)
        have := hserial n' l' hl'
        simp only [Bus.nextListener] at heq
        dsimp only at this
        omega
      · obtain ⟨rfl, -⟩ := Obs.subscribed.inj (List.mem_singleton.mp hl)
        obtain ⟨rfl, -⟩ := Obs.subscribed.inj (List.mem_singleton.mp hl')
        rfl
  | subscribeRefused | publishRefused | dispatchSkipped | pop => apply hunique hl hl' heq
  | unsubscribe | publish | shutdown | dispatchPending | process | call | finish | leave =>
      apply hunique (by simpa using hl) (by simpa using hl') heq

theorem copies_step
    (h : Settled s) (ha : RemovesNoCopy s a) (hstep : Step s a t) (event : Event δ)
    (callbacksCopy : List (Listener κ)) (running : Bool) (temp : List (Event δ))
    (hd : t.dispatcher = .calling event callbacksCopy running temp) :
  ∀ l ∈ callbacksCopy, l ∈ registered t.trace event.name
  := by
  have hcopies := h.copies event
  intro l hl
  cases hstep with
  | subscribe other cb active =>
      have := hcopies _ _ _ hd l hl
      rw [registered_concat, Obs.register]
      split
      · simp [this]
      · apply this
  | unsubscribe other id =>
      have hmem := hcopies _ _ _ hd l hl
      dsimp only at hd
      subst hd
      rw [registered_concat, Obs.register]
      split
      next hname => simp [hmem, ha hname.symm l hl]
      next => apply hmem
  | shutdown =>
      simp only at hd
      simp only [RemovesNoCopy, hd, Dispatcher.callbacks] at ha
      simp [ha] at hl
  | process e temp' =>
      obtain ⟨rfl, rfl, -, -⟩ := Dispatcher.calling.inj hd
      rw [h.table] at hl
      simpa [Obs.register] using hl
  | call e l' ls temp' =>
      obtain ⟨rfl, rfl, -, rfl⟩ := Dispatcher.calling.inj hd
      simpa [Obs.register] using hcopies _ _ _ rfl l (by simp [hl])
  | finish e ls temp' threw =>
      obtain ⟨rfl, rfl, -, rfl⟩ := Dispatcher.calling.inj hd
      simpa [Obs.register] using hcopies _ _ _ rfl l hl
  | publish => simpa [Obs.register] using hcopies _ _ _ hd l hl
  | subscribeRefused | publishRefused => apply hcopies _ _ _ hd l hl
  | dispatchSkipped | dispatchPending | pop | leave => cases hd

theorem kept_step
    (h : Settled s) (hstep : Step s a t) (eventName : Bytes) (l : Listener κ)
    (hl : l ∈ registered t.trace eventName) :
  ¬ Removed t.trace l
  := by
  have hkept := h.kept eventName l
  cases hstep with
  | @subscribe b d tr other cb active =>
      rw [removed_concat, not_or]
      constructor
      · intro hremoved
        rw [registered_concat, Obs.register] at hl
        obtain ⟨n, hn⟩ := subscribed_of_removed hremoved
        have hserial := h.serial n l hn
        have hne : l ≠ b.nextListener cb := by
          rintro rfl
          exact absurd hserial (lt_irrefl _)
        apply hkept _ hremoved
        split at hl
        next => simpa [hne] using hl
        next => apply hl
      · exact id
  | unsubscribe other id =>
      rw [removed_concat, not_or]
      rw [registered_concat, Obs.register] at hl
      split at hl
      next hname =>
        subst hname
        obtain ⟨hl, hid⟩ := List.mem_filter.mp hl
        use hkept hl
        intro hremoves
        simp [hremoves.2] at hid
      next hname =>
        use hkept hl
        intro hremoves
        apply hname
        apply h.unique _ _ _ _ (subscribed_of_registered hremoves.1)
          (subscribed_of_registered hl) rfl
  | shutdown => simp [Obs.register] at hl
  | subscribeRefused | publishRefused | dispatchSkipped | pop => apply hkept hl
  | publish | dispatchPending | process | call | finish | leave =>
      rw [removed_concat, not_or]
      constructor
      · apply hkept (by simpa [Obs.register] using hl)
      · exact id

theorem final_step
    (h : Settled s) (hstep : Step s a t) :
  RemovalIsFinal t.trace
  := by
  have hfinal := h.final
  cases hstep with
  | call event l ls temp =>
      apply removalIsFinal_concat hfinal
      rintro l' ⟨⟩
      apply h.kept event.name
      apply h.copies event _ _ _ rfl
      simp
  | subscribeRefused | publishRefused | dispatchSkipped | pop => apply hfinal
  | subscribe | unsubscribe | publish | shutdown | dispatchPending | process | finish | leave =>
      apply removalIsFinal_concat hfinal
      rintro l' ⟨⟩

/-- A step that removes no copied listener keeps a system settled. -/
theorem step
    (h : Settled s) (ha : RemovesNoCopy s a) (hstep : Step s a t) :
  Settled t
  := by
  constructor
  · apply h.table.step hstep
  · apply h.serial_step hstep
  · apply h.unique_step hstep
  · apply h.copies_step ha hstep
  · apply h.kept_step hstep
  · apply h.final_step hstep

end Settled

/-- In a run that removes no copied listener, removal is final. -/
theorem removalIsFinal
    {as : List (Act κ δ)} {s : System κ δ} (h : Lts.run System.step .init as = some s)
    (hguard : Lts.Guarded System.step RemovesNoCopy .init as) :
  RemovalIsFinal s.trace
  := by
  have hsettled : Settled s := by
    apply Lts.guarded_induction (P := fun _ s => Settled s) Settled.init _ hguard h
    intro _ t a u _ ht ha hstep
    apply ht.step ha (Step.of_step hstep)
  apply hsettled.final

/-- The first listener unsubscribes itself while it runs, and the bus is shut down once
the second has returned. -/
def selfRemovalRun : List (Act Nat Nat) :=
  [.subscribe [1] 10, .subscribe [1] 11, .publish ⟨[1], 0⟩, .dispatchPending, .process,
    .call, .unsubscribe [1] 1, .finish false, .call, .finish false, .pop, .shutdown, .leave]

theorem removalIsFinal_selfRemovalRun :
  ∃ s, Lts.run System.step .init selfRemovalRun = some s ∧ RemovalIsFinal s.trace
  := by
  obtain ⟨s, hs⟩ : ∃ s, Lts.run System.step .init selfRemovalRun = some s := ⟨_, rfl⟩
  use s, hs
  apply removalIsFinal hs
  decide

/-- The first listener unsubscribes the second, which is called all the same. -/
def otherRemovalRun : List (Act Nat Nat) :=
  [.subscribe [1] 10, .subscribe [1] 11, .publish ⟨[1], 0⟩, .dispatchPending, .process,
    .call, .unsubscribe [1] 2, .finish false, .call]

theorem not_removalIsFinal :
  ¬ ∀ (as : List (Act Nat Nat)) (s : System Nat Nat),
      Lts.run System.step .init as = some s → RemovalIsFinal s.trace
  := by
  intro h
  have hfinal := h otherRemovalRun _ rfl
  apply hfinal
    [.subscribed [1] ⟨1, 10, 0⟩, .subscribed [1] ⟨2, 11, 1⟩, .published ⟨[1], 0⟩, .began,
      .processed ⟨[1], 0⟩, .called ⟨1, 10, 0⟩]
    (.unsubscribed [1] 2) [.finished false, .called ⟨2, 11, 1⟩] ⟨2, 11, 1⟩ rfl
  · constructor
    · decide
    · rfl
  · simp

end EventBus

end NexusMainframe
