import NexusMainframe.Event.Delivery
import NexusMainframe.Event.Numbered
import NexusMainframe.Lib.FiniteMap

/-!
# The table of listeners

What callers rely on about the table, over whole runs: an id names one listener as long as the
counter of ids does not wrap around, a name that has no listener has no entry, `unsubscribe`
takes away the listener that the id was returned for and no other, and nothing is left in the
table and in the queue after `shutdown`.
-/

namespace NexusMainframe

namespace EventBus

variable {κ δ : Type}

/-! ### What callers rely on -/

/-- The ids of the listeners are different, under one name and under two. -/
def DistinctIds (b : Bus κ δ) : Prop :=
  (∀ eventName, ((b.listenersOf eventName).map Listener.id).Nodup)
    ∧ ∀ eventName other, eventName ≠ other → ∀ l ∈ b.listenersOf eventName,
      ∀ l' ∈ b.listenersOf other, l.id ≠ l'.id

/-- No name has an empty list of listeners. -/
def NoEmptyList (b : Bus κ δ) : Prop :=
  ∀ eventName, b.listeners.lookup eventName ≠ some []

/-- The listener of a subscription is removed by what a trace has after it. -/
def RemovedAfter (eventName : Bytes) (l : Listener κ) (post : List (Obs κ δ)) : Prop :=
  .unsubscribed eventName l.id ∈ post ∨ .shutDown ∈ post

/-- For each subscription of a trace, `unsubscribe` with the id it gave takes its listener out of
the list of its name, if it has not been removed, and does nothing else: it changes nothing if
the listener has been removed, or under another name. -/
def UnsubscribesOne (s : System κ δ) : Prop :=
  ∀ pre eventName l post, s.trace = pre ++ .subscribed eventName l :: post →
    (RemovedAfter eventName l post → s.bus.unsubscribe eventName l.id = s.bus)
    ∧ (¬ RemovedAfter eventName l post →
      (∃ front back, s.bus.listenersOf eventName = front ++ l :: back
        ∧ (s.bus.unsubscribe eventName l.id).listenersOf eventName = front ++ back)
      ∧ ∀ other ≠ eventName,
        (s.bus.unsubscribe eventName l.id).listenersOf other = s.bus.listenersOf other)
    ∧ ∀ other ≠ eventName, s.bus.unsubscribe other l.id = s.bus

/-- After a shutdown the table and the queue are empty. -/
def EmptyAfterShutdown (s : System κ δ) : Prop :=
  .shutDown ∈ s.trace → s.bus.listeners = ∅ ∧ s.bus.eventQueue = []

/-- The calls of `subscribe` in a run. -/
def subscribeCalls (as : List (Act κ δ)) : Nat :=
  as.countP fun
    | .subscribe _ _ => true
    | _ => false

/-! ### What a step does to the table -/

/-- The observation is of none of the calls that change the table. -/
def Obs.Passes : Obs κ δ → Prop
  | subscribed _ _ | unsubscribed _ _ | shutDown => False
  | _ => True

/-- What a step does to the table and to the queue, and what is observed of it. -/
inductive TableStep (s t : System κ δ) : Prop where
  | subscribe (eventName : Bytes) (cb : κ) (active : s.bus.isShuttingDown = false)
      (bus : t.bus = (s.bus.subscribe eventName cb).2)
      (trace : t.trace = s.trace ++ [.subscribed eventName (s.bus.nextListener cb)])
  | unsubscribe (eventName : Bytes) (id : Int) (bus : t.bus = s.bus.unsubscribe eventName id)
      (trace : t.trace = s.trace ++ [.unsubscribed eventName id])
  | shutdown (bus : t.bus = s.bus.shutdown) (trace : t.trace = s.trace ++ [.shutDown])
  | pass (listeners : t.bus.listeners = s.bus.listeners) (nextId : t.bus.nextId = s.bus.nextId)
      (subscriptions : t.bus.subscriptions = s.bus.subscriptions)
      (down : t.bus.isShuttingDown = s.bus.isShuttingDown)
      (queue : s.bus.isShuttingDown = true → t.bus.eventQueue = s.bus.eventQueue)
      (trace : t.trace = s.trace ∨ ∃ o, t.trace = s.trace ++ [o] ∧ o.Passes)

theorem Step.table
    {s t : System κ δ} {a : Act κ δ} (h : Step s a t) :
  TableStep s t
  := by
  cases h with
  | subscribe eventName cb active => exact .subscribe eventName cb active rfl rfl
  | unsubscribe eventName id => exact .unsubscribe eventName id rfl rfl
  | shutdown => exact .shutdown rfl rfl
  | publish event active =>
      apply TableStep.pass
      · simp [Bus.publish, active]
      · simp [Bus.publish, active]
      · simp [Bus.publish, active]
      · simp
      · intro hdown
        rw [active] at hdown
        cases hdown
      · exact Or.inr ⟨_, rfl, trivial⟩
  | subscribeRefused | publishRefused | dispatchSkipped | pop =>
      exact .pass rfl rfl rfl rfl (fun _ => rfl) (Or.inl rfl)
  | dispatchPending active =>
      refine .pass rfl rfl rfl rfl ?_ (Or.inr ⟨_, rfl, trivial⟩)
      intro hdown
      rw [active] at hdown
      cases hdown
  | process | call | finish | leave =>
      exact .pass rfl rfl rfl rfl (fun _ => rfl) (Or.inr ⟨_, rfl, trivial⟩)

/-! ### The invariant -/

/-- What holds of the table in every state of a run. -/
structure Tabled (s : System κ δ) : Prop where
  full : NoEmptyList s.bus
  nodup : ∀ eventName, (s.bus.listenersOf eventName).Nodup
  nextId_eq : s.bus.nextId = Machine.wrapInt32 (s.bus.subscriptions + 1)
  given : ∀ {eventName l}, .subscribed eventName l ∈ s.trace →
    l.serial < s.bus.subscriptions ∧ l.id = Machine.wrapInt32 (l.serial + 1)
  once : ∀ {eventName l other l'}, .subscribed eventName l ∈ s.trace →
    .subscribed other l' ∈ s.trace → l.serial = l'.serial → eventName = other ∧ l = l'
  source : ∀ {eventName l}, l ∈ s.bus.listenersOf eventName → .subscribed eventName l ∈ s.trace
  kept : ∀ {pre eventName l post}, s.trace = pre ++ .subscribed eventName l :: post →
    (l ∈ s.bus.listenersOf eventName ↔ ¬ RemovedAfter eventName l post)
  down : .shutDown ∈ s.trace → s.bus.isShuttingDown = true
  empty : s.bus.isShuttingDown = true → s.bus.listeners = ∅ ∧ s.bus.eventQueue = []

theorem removedAfter_concat
    {eventName : Bytes} {l : Listener κ} {post : List (Obs κ δ)} {o : Obs κ δ} :
  RemovedAfter eventName l (post ++ [o])
    ↔ RemovedAfter eventName l post ∨ o = .unsubscribed eventName l.id ∨ o = .shutDown
  := by
  simp only [RemovedAfter, List.mem_append, List.mem_singleton, eq_comm (a := o)]
  tauto

theorem Obs.Passes.not_removes
    {o : Obs κ δ} (h : o.Passes) (eventName : Bytes) (l : Listener κ) :
  o ≠ .subscribed eventName l ∧ o ≠ .unsubscribed eventName l.id ∧ o ≠ .shutDown
  := by
  cases o <;> simp_all [Obs.Passes]

namespace Tabled

variable {s t : System κ δ}

theorem init : Tabled (System.init : System κ δ) := by
  constructor
  · intro eventName h
    cases h
  · intro eventName
    apply List.nodup_nil
  · exact (Machine.wrapInt32_of_lt (by decide : 1 < 2 ^ 31)).symm
  · intro eventName l h
    cases h
  · intro eventName l other l' h
    cases h
  · intro eventName l h
    cases h
  · intro pre eventName l post h
    simp [System.init] at h
  · intro h
    cases h
  · intro h
    cases h

/-- The next listener has a serial number that none has been subscribed with. -/
theorem ne_nextListener
    (h : Tabled s) {eventName : Bytes} {l : Listener κ} (hl : .subscribed eventName l ∈ s.trace)
    (cb : κ) :
  l.serial ≠ (s.bus.nextListener cb).serial
  := (h.given hl).1.ne

theorem full_step (h : Tabled s) (hstep : TableStep s t) : NoEmptyList t.bus := by
  intro name hlookup
  cases hstep with
  | subscribe eventName cb active hbus _ =>
      simp only [hbus, Bus.subscribe, active, Bool.false_eq_true, if_false] at hlookup
      rw [FiniteMap.lookup_insert] at hlookup
      split at hlookup
      next => simp at hlookup
      next => apply h.full name hlookup
  | unsubscribe eventName id hbus _ =>
      rw [hbus, Bus.unsubscribe] at hlookup
      cases hvec : s.bus.listeners.lookup eventName with
      | none =>
          rw [hvec] at hlookup
          apply h.full name hlookup
      | some vec =>
          rw [hvec] at hlookup
          dsimp only at hlookup
          split at hlookup
          next =>
            rw [FiniteMap.lookup_erase_eq_some] at hlookup
            apply h.full name hlookup.2
          next hne =>
            rcases FiniteMap.lookup_insert_eq_some.mp hlookup with ⟨-, hnil⟩ | ⟨-, hlookup⟩
            · apply hne hnil.symm
            · apply h.full name hlookup
  | shutdown hbus _ =>
      rw [hbus] at hlookup
      cases hlookup
  | pass listeners _ _ _ _ _ =>
      rw [listeners] at hlookup
      apply h.full name hlookup

theorem nodup_step (h : Tabled s) (hstep : TableStep s t) (name : Bytes) :
  (t.bus.listenersOf name).Nodup
  := by
  cases hstep with
  | subscribe eventName cb active hbus _ =>
      rw [hbus, Bus.listenersOf_subscribe active]
      split
      next =>
        apply List.Nodup.append (h.nodup name) (List.nodup_singleton _)
        intro l hl hnext
        apply h.ne_nextListener (h.source hl) cb
        rw [List.mem_singleton.mp hnext]
      next => apply h.nodup name
  | unsubscribe eventName id hbus _ =>
      rw [hbus, Bus.listenersOf_unsubscribe]
      split
      · apply (h.nodup name).filter
      · apply h.nodup name
  | shutdown hbus _ =>
      rw [hbus, Bus.listenersOf_shutdown]
      apply List.nodup_nil
  | pass listeners _ _ _ _ _ =>
      rw [Bus.listenersOf, listeners]
      apply h.nodup name

theorem nextId_step (h : Tabled s) (hstep : TableStep s t) :
  t.bus.nextId = Machine.wrapInt32 (t.bus.subscriptions + 1)
  := by
  cases hstep with
  | subscribe eventName cb active hbus _ =>
      rw [hbus, Bus.nextId_subscribe active, Bus.subscriptions_subscribe active, h.nextId_eq,
        Machine.wrapInt32_wrapInt32_add, Nat.cast_succ]
  | unsubscribe eventName id hbus _ =>
      rw [hbus, Bus.nextId_unsubscribe, Bus.subscriptions_unsubscribe, h.nextId_eq]
  | shutdown hbus _ =>
      rw [hbus]
      apply h.nextId_eq
  | pass _ nextId subscriptions _ _ _ => rw [nextId, subscriptions, h.nextId_eq]

/-- A subscription that is observed of a step is the next listener's. -/
theorem of_subscribed
    (hstep : TableStep s t) {eventName : Bytes} {l : Listener κ}
    (htrace : t.trace = s.trace ++ [.subscribed eventName l]) :
  ∃ cb, s.bus.isShuttingDown = false ∧ t.bus = (s.bus.subscribe eventName cb).2
    ∧ l = s.bus.nextListener cb
  := by
  cases hstep with
  | subscribe other cb active hbus htrace' =>
      rw [htrace', List.append_cancel_left_eq, List.singleton_inj] at htrace
      obtain ⟨rfl, rfl⟩ := Obs.subscribed.inj htrace
      use cb, active, hbus
  | unsubscribe _ _ _ htrace' | shutdown _ htrace' =>
      rw [htrace', List.append_cancel_left_eq, List.singleton_inj] at htrace
      cases htrace
  | pass _ _ _ _ _ htrace' =>
      rcases htrace' with htrace' | ⟨o, htrace', ho⟩
      · simp [htrace'] at htrace
      · rw [htrace', List.append_cancel_left_eq, List.singleton_inj] at htrace
        exact absurd htrace (ho.not_removes eventName l).1

/-- A step is observed with one observation, or with none and leaves the table. -/
theorem trace_step (hstep : TableStep s t) :
  (t.trace = s.trace ∧ t.bus.listeners = s.bus.listeners) ∨ ∃ o, t.trace = s.trace ++ [o]
  := by
  cases hstep with
  | subscribe _ _ _ _ htrace | unsubscribe _ _ _ htrace | shutdown _ htrace =>
      right
      exact ⟨_, htrace⟩
  | pass listeners _ _ _ _ htrace =>
      rcases htrace with htrace | ⟨o, htrace, -⟩
      · left
        use htrace, listeners
      · right
        use o, htrace

theorem subscribed_step
    (hstep : TableStep s t) {eventName : Bytes} {l : Listener κ}
    (hl : .subscribed eventName l ∈ t.trace) :
  .subscribed eventName l ∈ s.trace ∨ t.trace = s.trace ++ [.subscribed eventName l]
  := by
  rcases trace_step hstep with ⟨htrace, -⟩ | ⟨o, htrace⟩
  · left
    rwa [htrace] at hl
  · rw [htrace, List.mem_append, List.mem_singleton] at hl
    rcases hl with hl | rfl
    · left
      apply hl
    · right
      apply htrace

theorem subscriptions_le (hstep : TableStep s t) :
  s.bus.subscriptions ≤ t.bus.subscriptions
  := by
  cases hstep with
  | subscribe _ _ active hbus _ =>
      rw [hbus, Bus.subscriptions_subscribe active]
      apply Nat.le_succ
  | unsubscribe _ _ hbus _ => rw [hbus, Bus.subscriptions_unsubscribe]
  | shutdown hbus _ => rw [hbus, Bus.shutdown]
  | pass _ _ subscriptions _ _ _ => rw [subscriptions]

theorem given_step
    (h : Tabled s) (hstep : TableStep s t) {eventName : Bytes} {l : Listener κ}
    (hl : .subscribed eventName l ∈ t.trace) :
  l.serial < t.bus.subscriptions ∧ l.id = Machine.wrapInt32 (l.serial + 1)
  := by
  rcases subscribed_step hstep hl with hl | htrace
  · obtain ⟨hlt, hid⟩ := h.given hl
    exact ⟨hlt.trans_le (subscriptions_le hstep), hid⟩
  · obtain ⟨cb, active, hbus, rfl⟩ := of_subscribed hstep htrace
    constructor
    · rw [hbus, Bus.subscriptions_subscribe active]
      apply Nat.lt_succ_self
    · apply h.nextId_eq

theorem once_step
    (h : Tabled s) (hstep : TableStep s t) {eventName other : Bytes} {l l' : Listener κ}
    (hl : .subscribed eventName l ∈ t.trace) (hl' : .subscribed other l' ∈ t.trace)
    (heq : l.serial = l'.serial) :
  eventName = other ∧ l = l'
  := by
  rcases subscribed_step hstep hl with hs | htrace
  · rcases subscribed_step hstep hl' with hs' | htrace'
    · apply h.once hs hs' heq
    · obtain ⟨cb, -, -, rfl⟩ := of_subscribed hstep htrace'
      exact absurd heq (h.ne_nextListener hs cb)
  · rcases subscribed_step hstep hl' with hs' | htrace'
    · obtain ⟨cb, -, -, rfl⟩ := of_subscribed hstep htrace
      exact absurd heq.symm (h.ne_nextListener hs' cb)
    · rw [htrace, List.append_cancel_left_eq, List.singleton_inj] at htrace'
      apply Obs.subscribed.inj htrace'

theorem source_step
    (h : Tabled s) (hstep : TableStep s t) {name : Bytes} {l : Listener κ}
    (hl : l ∈ t.bus.listenersOf name) :
  .subscribed name l ∈ t.trace
  := by
  cases hstep with
  | subscribe eventName cb active hbus htrace =>
      rw [hbus, Bus.mem_listenersOf_subscribe active] at hl
      rw [htrace, List.mem_append, List.mem_singleton]
      rcases hl with hl | ⟨rfl, rfl⟩
      · left
        apply h.source hl
      · right
        rfl
  | unsubscribe eventName id hbus htrace =>
      rw [hbus, Bus.mem_listenersOf_unsubscribe] at hl
      rw [htrace]
      apply List.mem_append_left _ (h.source hl.1)
  | shutdown hbus _ =>
      rw [hbus, Bus.listenersOf_shutdown] at hl
      cases hl
  | pass listeners _ _ _ _ htrace =>
      rw [Bus.listenersOf, listeners] at hl
      rcases htrace with htrace | ⟨o, htrace, -⟩
      · rw [htrace]
        apply h.source hl
      · rw [htrace]
        apply List.mem_append_left _ (h.source hl)

/-- A listener that is there stays just if the step does not remove it. -/
theorem mem_step
    (h : Tabled s) (hstep : TableStep s t) {o : Obs κ δ} (htrace : t.trace = s.trace ++ [o])
    {name : Bytes} {l : Listener κ} (hl : .subscribed name l ∈ s.trace) :
  l ∈ t.bus.listenersOf name
    ↔ l ∈ s.bus.listenersOf name ∧ ¬ (o = .unsubscribed name l.id ∨ o = .shutDown)
  := by
  cases hstep with
  | subscribe eventName cb active hbus htrace' =>
      rw [htrace', List.append_cancel_left_eq, List.singleton_inj] at htrace
      rw [hbus, Bus.mem_listenersOf_subscribe active, ← htrace]
      have hne : l ≠ s.bus.nextListener cb := by
        rintro rfl
        apply h.ne_nextListener hl cb rfl
      simp [hne]
  | unsubscribe eventName id hbus htrace' =>
      rw [htrace', List.append_cancel_left_eq, List.singleton_inj] at htrace
      rw [hbus, Bus.mem_listenersOf_unsubscribe, ← htrace]
      apply and_congr_right'
      simp only [Obs.unsubscribed.injEq, reduceCtorEq, or_false, not_and]
      apply imp_congr_right
      intro _
      rw [ne_comm]
  | shutdown hbus htrace' =>
      rw [htrace', List.append_cancel_left_eq, List.singleton_inj] at htrace
      rw [hbus, Bus.listenersOf_shutdown, ← htrace]
      simp
  | pass listeners _ _ _ _ htrace' =>
      rcases htrace' with htrace' | ⟨o', htrace', ho⟩
      · rw [htrace'] at htrace
        simp at htrace
      · rw [htrace', List.append_cancel_left_eq, List.singleton_inj] at htrace
        subst htrace
        rw [Bus.listenersOf, Bus.listenersOf, listeners]
        simp [ho.not_removes name l]

theorem kept_step
    (h : Tabled s) (hstep : TableStep s t) {pre post : List (Obs κ δ)} {name : Bytes}
    {l : Listener κ} (htrace : t.trace = pre ++ .subscribed name l :: post) :
  l ∈ t.bus.listenersOf name ↔ ¬ RemovedAfter name l post
  := by
  rcases trace_step hstep with ⟨hsame, hlisteners⟩ | ⟨o, ho⟩
  · rw [hsame] at htrace
    rw [Bus.listenersOf, hlisteners]
    apply h.kept htrace
  · rw [ho] at htrace
    rcases Lts.concat_eq_append_cons.mp htrace with ⟨rfl, rfl, rfl⟩ | ⟨post, rfl, htrace'⟩
    · obtain ⟨cb, active, hbus, rfl⟩ := of_subscribed hstep ho
      simp [hbus, Bus.mem_listenersOf_subscribe active, RemovedAfter]
    · have hl : .subscribed name l ∈ s.trace := by simp [htrace']
      rw [h.mem_step hstep ho hl, h.kept htrace', removedAfter_concat, not_or, not_or, not_or]

theorem down_step
    (h : Tabled s) (hstep : TableStep s t) (hdown : .shutDown ∈ t.trace) :
  t.bus.isShuttingDown = true
  := by
  cases hstep with
  | subscribe eventName cb active hbus htrace =>
      rw [hbus, Bus.isShuttingDown_subscribe]
      apply h.down
      simpa [htrace] using hdown
  | unsubscribe eventName id hbus htrace =>
      rw [hbus, Bus.isShuttingDown_unsubscribe]
      apply h.down
      simpa [htrace] using hdown
  | shutdown hbus _ =>
      rw [hbus]
      rfl
  | pass _ _ _ down _ htrace =>
      rw [down]
      apply h.down
      rcases htrace with htrace | ⟨o, htrace, ho⟩
      · rwa [htrace] at hdown
      · rw [htrace, List.mem_append, List.mem_singleton] at hdown
        rcases hdown with hdown | rfl
        · apply hdown
        · cases ho

theorem empty_step
    (h : Tabled s) (hstep : TableStep s t) (hdown : t.bus.isShuttingDown = true) :
  t.bus.listeners = ∅ ∧ t.bus.eventQueue = []
  := by
  cases hstep with
  | subscribe eventName cb active hbus _ =>
      rw [hbus, Bus.isShuttingDown_subscribe, active] at hdown
      cases hdown
  | unsubscribe eventName id hbus _ =>
      rw [hbus, Bus.isShuttingDown_unsubscribe] at hdown
      obtain ⟨hlisteners, hqueue⟩ := h.empty hdown
      have hlookup : s.bus.listeners.lookup eventName = none := by
        rw [hlisteners, Finmap.lookup_empty]
      rw [hbus, Bus.unsubscribe, hlookup]
      exact ⟨hlisteners, hqueue⟩
  | shutdown hbus _ =>
      rw [hbus]
      exact ⟨rfl, rfl⟩
  | pass listeners _ _ down queue _ =>
      rw [down] at hdown
      rw [listeners, queue hdown]
      apply h.empty hdown

theorem step
    (h : Tabled s) (hstep : TableStep s t) :
  Tabled t
  := by
  constructor
  · apply h.full_step hstep
  · apply h.nodup_step hstep
  · apply h.nextId_step hstep
  · intro eventName l hl
    apply h.given_step hstep hl
  · intro eventName l other l' hl hl' heq
    apply h.once_step hstep hl hl' heq
  · intro eventName l hl
    apply h.source_step hstep hl
  · intro pre eventName l post htrace
    apply h.kept_step hstep htrace
  · apply h.down_step hstep
  · apply h.empty_step hstep

end Tabled

/-- A step subscribes at most one listener, and only a call of `subscribe` does. -/
theorem subscriptions_step
    {s t : System κ δ} {a : Act κ δ} (h : Step s a t) :
  t.bus.subscriptions ≤ s.bus.subscriptions + subscribeCalls [a]
  := by
  cases h with
  | subscribe eventName cb active =>
      rw [Bus.subscriptions_subscribe active]
      rfl
  | unsubscribe eventName id =>
      rw [Bus.subscriptions_unsubscribe]
      rfl
  | publish event active => simp [Bus.publish, active]
  | _ => exact Nat.le_add_right _ _

/-- In every state of a run the invariant of the table holds, and no more listeners have been
subscribed than `subscribe` has been called. -/
theorem tabled_of_run
    {as : List (Act κ δ)} {s : System κ δ} (h : Lts.run System.step .init as = some s) :
  Tabled s ∧ s.bus.subscriptions ≤ subscribeCalls as
  := by
  apply Lts.run_induction
    (P := fun as s => Tabled s ∧ s.bus.subscriptions ≤ subscribeCalls as) _ _ h
  · use Tabled.init
    rfl
  · rintro as t a u _ ⟨htabled, hle⟩ hstep
    have hstep := Step.of_step hstep
    use htabled.step hstep.table
    have hcalls : subscribeCalls (as ++ [a]) = subscribeCalls as + subscribeCalls [a] :=
      List.countP_append
    rw [hcalls]
    apply (subscriptions_step hstep).trans (Nat.add_le_add_right hle _)

/-! ### Ids that do not repeat -/

namespace Bus

variable {b : Bus κ δ}

/-- `unsubscribe` changes nothing where no listener of its name has its id. -/
theorem unsubscribe_eq_self
    (hfull : NoEmptyList b) {eventName : Bytes} {id : Int}
    (h : ∀ l ∈ b.listenersOf eventName, l.id ≠ id) :
  b.unsubscribe eventName id = b
  := by
  cases hvec : b.listeners.lookup eventName with
  | none => rw [unsubscribe, hvec]
  | some vec =>
      have hfilter : (vec.filter fun l => l.id ≠ id) = vec := by
        rw [List.filter_eq_self]
        intro l hl
        apply decide_eq_true
        apply h l
        rwa [listenersOf, hvec]
      have hne : vec ≠ [] := by
        rintro rfl
        apply hfull eventName hvec
      rw [unsubscribe, hvec]
      dsimp only
      rw [hfilter, if_neg hne, FiniteMap.insert_of_lookup hvec]

/-- `unsubscribe` takes a listener out of the list of its name, where no other has its id. -/
theorem listenersOf_unsubscribe_of_mem
    {eventName : Bytes} {l : Listener κ}
    (hids : ((b.listenersOf eventName).map Listener.id).Nodup)
    (hl : l ∈ b.listenersOf eventName) :
  ∃ front back, b.listenersOf eventName = front ++ l :: back
    ∧ (b.unsubscribe eventName l.id).listenersOf eventName = front ++ back
  := by
  obtain ⟨front, back, heq⟩ := List.append_of_mem hl
  use front, back, heq
  rw [heq, List.map_append, List.map_cons, List.nodup_middle, List.nodup_cons,
    List.mem_append, not_or] at hids
  obtain ⟨⟨hfront, hback⟩, -⟩ := hids
  have hstays : ∀ ls : List (Listener κ), l.id ∉ ls.map Listener.id →
      (ls.filter fun l' => l'.id ≠ l.id) = ls := by
    intro ls hnone
    rw [List.filter_eq_self]
    intro l' hl'
    apply decide_eq_true
    intro hid
    apply hnone
    rw [← hid]
    apply List.mem_map_of_mem hl'
  rw [listenersOf_unsubscribe, if_pos rfl, heq, List.filter_append, List.filter_cons_of_neg,
    hstays front hfront, hstays back hback]
  simp

end Bus

namespace Tabled

variable {s : System κ δ}

/-- As long as the counter of ids has not wrapped around, subscriptions with one id are one. -/
theorem id_inj
    (h : Tabled s) (hlt : s.bus.subscriptions < 2 ^ 31) {eventName other : Bytes}
    {l l' : Listener κ} (hl : .subscribed eventName l ∈ s.trace)
    (hl' : .subscribed other l' ∈ s.trace) (hid : l.id = l'.id) :
  eventName = other ∧ l = l'
  := by
  obtain ⟨hserial, hid₁⟩ := h.given hl
  obtain ⟨hserial', hid₂⟩ := h.given hl'
  apply h.once hl hl'
  have heq : ((l.serial : Int) + 1) = l'.serial + 1 := by
    apply (Machine.wrapInt32_inj _ _).mp
    · rw [← hid₁, ← hid₂, hid]
    · omega
    · omega
  omega

theorem distinctIds
    (h : Tabled s) (hlt : s.bus.subscriptions < 2 ^ 31) :
  DistinctIds s.bus
  := by
  constructor
  · intro eventName
    apply List.Nodup.map_on _ (h.nodup eventName)
    intro l hl l' hl' hid
    apply (h.id_inj hlt (h.source hl) (h.source hl') hid).2
  · intro eventName other hne l hl l' hl' hid
    apply hne (h.id_inj hlt (h.source hl) (h.source hl') hid).1

theorem unsubscribesOne
    (h : Tabled s) (hlt : s.bus.subscriptions < 2 ^ 31) :
  UnsubscribesOne s
  := by
  intro pre eventName l post htrace
  have hl : .subscribed eventName l ∈ s.trace := by simp [htrace]
  refine ⟨?_, ?_, ?_⟩
  · intro hremoved
    apply Bus.unsubscribe_eq_self h.full
    intro l' hl' hid
    obtain ⟨-, rfl⟩ := h.id_inj hlt (h.source hl') hl hid
    apply (h.kept htrace).mp hl' hremoved
  · intro hkept
    constructor
    · apply Bus.listenersOf_unsubscribe_of_mem ((h.distinctIds hlt).1 eventName)
      apply (h.kept htrace).mpr hkept
    · intro other hne
      rw [Bus.listenersOf_unsubscribe, if_neg hne.symm]
  · intro other hne
    apply Bus.unsubscribe_eq_self h.full
    intro l' hl' hid
    apply hne (h.id_inj hlt (h.source hl') hl hid).1

end Tabled

/-- In a run with fewer calls of `subscribe` than an `int` can count, an id is the id of one
listener for ever: `unsubscribe` removes that listener and no other. No name is left with an
empty list, and nothing is left after a shutdown. -/
theorem listeners_of_run
    {as : List (Act κ δ)} {s : System κ δ} (h : Lts.run System.step .init as = some s)
    (hcalls : subscribeCalls as < 2 ^ 31 - 1) :
  DistinctIds s.bus ∧ NoEmptyList s.bus ∧ UnsubscribesOne s ∧ EmptyAfterShutdown s
  := by
  obtain ⟨htabled, hle⟩ := tabled_of_run h
  have hlt : s.bus.subscriptions < 2 ^ 31 := by omega
  use htabled.distinctIds hlt, htabled.full, htabled.unsubscribesOne hlt
  intro hdown
  apply htabled.empty (htabled.down hdown)

/-- Two subscriptions, of which the first is taken back, and a shutdown. -/
theorem listeners_of_run_two :
  ∃ s : System Unit EventData,
    Lts.run System.step .init
      [.subscribe [97] (), .subscribe [98] (), .unsubscribe [97] 1, .shutdown] = some s
      ∧ DistinctIds s.bus ∧ NoEmptyList s.bus ∧ UnsubscribesOne s ∧ EmptyAfterShutdown s
  := by
  refine ⟨_, rfl, @listeners_of_run Unit EventData
    [.subscribe [97] (), .subscribe [98] (), .unsubscribe [97] 1, .shutdown] _ rfl ?_⟩
  decide

end EventBus

end NexusMainframe
