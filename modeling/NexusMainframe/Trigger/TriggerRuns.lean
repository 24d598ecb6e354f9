import NexusMainframe.Lib.FiniteMap
import NexusMainframe.Trigger.EventTrigger

/-!
# Runs of triggers

The listeners of triggers are those of the triggers that are alive, in all states of a run in
which every subscription that is given up has an id of its own. That is so up to `2 ^ 32 - 2`
subscriptions; the id of the next one is `-1`.
-/

namespace NexusMainframe

open EventBus (Bus Listener)

namespace Triggers

variable {τ κ δ : Type}

section

variable {leftover : Bytes → Bytes} {s u : Triggers τ κ δ} {op : Op τ κ} {v x : Nat}
  {eventName : Bytes} {task : τ} {c : Subscription τ}

theorem Tracks.serial_ne (h : s.Tracks) (hc : s.Holds x c) :
  c.serial ≠ (s.newSubscription eventName task).serial
  := (h.serial_lt ⟨x, hc⟩).ne

theorem representsNew (h : s.Tracks) (eventName : Bytes) (task : τ) :
  Represents (s.bus.subscribe eventName (.task task)).2 (EventTrigger.new s.bus eventName task).1
    (s.newSubscription eventName task)
  where
  bus := rfl
  task := rfl
  eventName := rfl
  eventId l hl hserial := by
    rcases (Bus.mem_listenersOf_subscribe h.numbered.active).mp hl with hl | ⟨-, rfl⟩
    · cases (h.numbered.serial_lt hl).ne hserial
    · rw [EventTrigger.new, Bus.subscribe, h.numbered.active]
      rfl

/-- The trigger is made and the bus has its listener. -/
theorem Tracks.construct (h : s.Tracks) (free : s.triggers v = none) :
  let s' : Triggers τ κ δ := {
    bus := (s.bus.subscribe eventName (.task task)).2
    triggers := Function.update s.triggers v (some (EventTrigger.new s.bus eventName task).1)
    live := Function.update s.live v (some (some (s.newSubscription eventName task))) }
  s'.Tracks ∧ ∀ c, s'.Held c ↔ c = s.newSubscription eventName task ∨ s.Held c
  := by
  intro s'
  have hholds : ∀ {x c}, s'.Holds x c
      ↔ (x = v ∧ c = s.newSubscription eventName task) ∨ (x ≠ v ∧ s.Holds x c) := by
    intro x c
    by_cases hv : x = v
    · subst hv
      simp [s', Holds, eq_comm]
    · simp [s', Holds, hv]
  have hheld : ∀ c, s'.Held c ↔ c = s.newSubscription eventName task ∨ s.Held c := by
    intro c
    constructor
    · rintro ⟨x, hx⟩
      rcases hholds.mp hx with ⟨-, rfl⟩ | ⟨-, hx⟩
      · left
        rfl
      · right
        exact ⟨x, hx⟩
    · rintro (rfl | ⟨x, hx⟩)
      · exact ⟨v, hholds.mpr (.inl ⟨rfl, rfl⟩)⟩
      · refine ⟨x, hholds.mpr (.inr ⟨?_, hx⟩)⟩
        rintro rfl
        apply h.not_holds_of_dead free c hx
  refine ⟨?_, hheld⟩
  constructor
  · apply h.numbered.subscribe
  · intro x
    by_cases hv : x = v
    · subst hv
      simpa [s', Agrees] using representsNew h eventName task
    · simpa [s', hv] using h.agrees_subscribe eventName (.task task) x
  · intro c hc
    rw [Bus.subscriptions_subscribe h.numbered.active]
    rcases (hheld c).mp hc with rfl | hc
    · apply Nat.lt_succ_self
    · apply Nat.lt_succ_of_lt (h.serial_lt hc)
  · intro x x' c c' hc hc' heq
    rcases hholds.mp hc with ⟨rfl, rfl⟩ | ⟨-, hold⟩
    · rcases hholds.mp hc' with ⟨rfl, -⟩ | ⟨-, hold'⟩
      · rfl
      · cases h.serial_ne hold' heq.symm
    · rcases hholds.mp hc' with ⟨rfl, rfl⟩ | ⟨-, hold'⟩
      · cases h.serial_ne hold heq
      · apply h.holds_inj hold hold' heq

theorem Tracks.init :
  (Triggers.init : Triggers τ κ δ).Tracks
  where
  numbered := Bus.Numbered.init
  agrees _ := trivial
  serial_lt := by
    rintro c ⟨v, hv⟩
    cases hv
  holds_inj hc := by cases hc

theorem Tracks.step (h : s.Tracks) (hstep : Triggers.step leftover s op = some u) :
  u.Tracks
  := by
  cases Step.of_step hstep with
  | construct eventName task free => exact (h.construct free).1
  | moveConstruct free ht =>
      apply h.of_moveTo ht
      rintro rfl
      cases free.symm.trans ht
  | selfAssign => exact h
  | moveAssign hne _ ht' => exact (h.of_destroy _).of_moveTo ht' hne
  | destroy => exact (h.of_destroy _).of_forget _
  | subscribe eventName cb => exact h.of_subscribe eventName (.other cb)
  | unsubscribe eventName id => exact h.of_unsubscribe eventName id

/-- Equal subscriptions match the same listeners. -/
theorem Matched.congr
    {b : Bus (Callback τ κ) δ} {H H' : Subscription τ → Prop} (h : ∀ c, H c ↔ H' c) :
  Matched b H ↔ Matched b H'
  := by
  rw [show H = H' from funext fun c => propext (h c)]

/-- The listeners stay exact in a step just if it is unambiguous. -/
theorem Tracks.exact_step_iff
    (h : s.Tracks) (hs : s.Exact) (hstep : Triggers.step leftover s op = some u) :
  u.Exact ↔ s.Unambiguous op
  := by
  rw [exact_iff_matched (h.step hstep)]
  rw [exact_iff_matched h] at hs
  cases Step.of_step hstep with
  | construct eventName task free =>
      rw [Matched.congr (h.construct free).2]
      apply iff_of_true (hs.construct h.numbered.active eventName task) trivial
  | @moveConstruct v w t free ht =>
      have hne : v ≠ w := by
        rintro rfl
        cases free.symm.trans ht
      apply iff_of_true _ trivial
      rw [Matched.congr fun c => held_moveTo hne]
      apply (Matched.congr _).mpr hs
      intro c
      constructor
      · rintro ⟨x, -, hx⟩
        exact ⟨x, hx⟩
      · rintro ⟨x, hx⟩
        refine ⟨x, ?_, hx⟩
        rintro rfl
        apply h.not_holds_of_dead free c hx
  | selfAssign => exact iff_of_true hs fun hne => (hne rfl).elim
  | @moveAssign v w t _ hne ht =>
      have hcond : s.Unambiguous (.moveAssign v w) ↔ Distinguished s.bus t := by
        simp [Unambiguous, hne, ht]
      rw [hcond, ← h.matched_destroy_iff hs ht]
      apply Matched.congr fun c => held_moveTo hne
  | @destroy v t ht =>
      have hcond : s.Unambiguous (.destroy v) ↔ Distinguished s.bus t := by
        simp [Unambiguous, ht]
      rw [hcond, ← h.matched_destroy_iff hs ht]
      apply Matched.congr fun c => held_forget
  | subscribe eventName cb =>
      apply iff_of_true (hs.subscribe h.numbered.active eventName cb) trivial
  | unsubscribe eventName id => exact Matched.unsubscribe_iff h.numbered hs eventName id

theorem exact_init :
  (Triggers.init : Triggers τ κ δ).Exact
  := by
  constructor
  · intro v c hc
    cases hc
  · intro eventName l task hl
    cases hl

/-- In all states of a run the listeners of triggers are those of the live triggers, just if
every subscription that is given up has an id of its own. -/
theorem exact_iff_unambiguous
    {ops : List (Op τ κ)} (h : Lts.run (Triggers.step leftover) init ops = some s) :
  (∀ ops' (u : Triggers τ κ δ), ops' <+: ops →
      Lts.run (Triggers.step leftover) init ops' = some u → u.Exact)
    ↔ Lts.Guarded (Triggers.step leftover) Unambiguous (init : Triggers τ κ δ) ops
  := by
  apply Lts.forall_run_iff_guarded (I := Tracks) Tracks.init exact_init _ _ h
  · intro t op u ht hu
    apply ht.step hu
  · intro t op u ht hexact hu
    apply ht.exact_step_iff hexact hu

end

/-- Triggers on one event that are moved, moved back and destroyed. -/
def movingOps : List (Op Nat Nat) :=
  [.construct 0 [] 7, .construct 1 [] 8, .moveConstruct 2 0, .moveAssign 1 2, .moveAssign 1 1,
    .moveAssign 0 1, .moveAssign 0 2, .subscribe [] 9, .destroy 1, .destroy 0]

theorem exact_iff_unambiguous_movingOps :
  (∀ ops' (u : Triggers Nat Nat Nat), ops' <+: movingOps →
      Lts.run (Triggers.step id) init ops' = some u → u.Exact)
    ↔ Lts.Guarded (Triggers.step id) Unambiguous (init : Triggers Nat Nat Nat) movingOps
  := by
  have hrun : (Lts.run (Triggers.step id) (init : Triggers Nat Nat Nat) movingOps).isSome := by
    decide +kernel
  obtain ⟨s, hs⟩ := Option.isSome_iff_exists.mp hrun
  apply exact_iff_unambiguous hs

/-! ### Few subscriptions -/

/-- Other code does not use the id of a trigger. -/
def LeavesTriggers (s : Triggers τ κ δ) : Op τ κ → Prop
  | .unsubscribe eventName id =>
      ∀ l ∈ s.bus.listenersOf eventName, l.id = id → ∀ task, l.cb ≠ .task task
  | _ => True

section

variable {leftover : Bytes → Bytes} {s u : Triggers τ κ δ} {op : Op τ κ}

theorem subscriptions_le_step
    (h : s.Tracks) (hstep : Triggers.step leftover s op = some u) :
  s.bus.subscriptions ≤ u.bus.subscriptions
  := by
  have hdestroy : ∀ t : EventTrigger τ,
      (t.destroy s.bus).subscriptions = s.bus.subscriptions := by
    intro t
    unfold EventTrigger.destroy
    split
    · apply Bus.subscriptions_unsubscribe
    · rfl
  cases Step.of_step hstep with
  | construct eventName task =>
      rw [Bus.subscriptions_subscribe h.numbered.active]
      apply Nat.le_succ
  | moveConstruct | selfAssign => exact le_refl _
  | moveAssign | destroy => exact (hdestroy _).ge
  | subscribe eventName cb =>
      rw [Bus.subscriptions_subscribe h.numbered.active]
      apply Nat.le_succ
  | unsubscribe eventName id => exact (Bus.subscriptions_unsubscribe _ _ _).ge

theorem wrapInt32_eq_neg_one : Machine.wrapInt32 (2 ^ 32 - 1) = -1 := by decide

/-- The first `2 ^ 32 - 2` ids are different, and none of them is `-1`. -/
theorem Tracks.distinguished_of_lt
    (h : s.Tracks) (hs : s.Exact) (hlt : s.bus.subscriptions < 2 ^ 32 - 1) {v : Nat}
    {t : EventTrigger τ} (ht : s.triggers v = some t) :
  Distinguished s.bus t
  := by
  rw [exact_iff_matched h] at hs
  intro hbus
  have hholds : ∃ c, s.Holds v c := by
    by_contra hnone
    have hfalse := h.bus_eq_false ht fun c hc => hnone ⟨c, hc⟩
    cases hbus.symm.trans hfalse
  obtain ⟨c, hc⟩ := hholds
  have hrepresents := h.represents ht hc
  obtain ⟨own, hown, hserial, -⟩ := hs.listener ⟨v, hc⟩
  have hid := hrepresents.eventId own hown hserial
  have hbound := h.numbered.serial_lt hown
  constructor
  · rw [← hid, h.numbered.id_eq hown]
    rw [← wrapInt32_eq_neg_one, Ne, Machine.wrapInt32_inj (by omega) (by omega)]
    omega
  · intro l hl l' hl' _ _ _ _ hid hid'
    have heq := hid.trans hid'.symm
    have hbound := h.numbered.serial_lt hl
    have hbound' := h.numbered.serial_lt hl'
    rw [h.numbered.id_eq hl, h.numbered.id_eq hl',
      Machine.wrapInt32_inj (by omega) (by omega)] at heq
    apply (h.numbered.serial_inj hl hl' (by omega)).2

theorem Tracks.unambiguous_of_lt
    (h : s.Tracks) (hs : s.Exact) (hlt : s.bus.subscriptions < 2 ^ 32 - 1)
    (hop : s.LeavesTriggers op) :
  s.Unambiguous op
  := by
  cases op with
  | moveAssign v w => exact fun _ t ht => h.distinguished_of_lt hs hlt ht
  | destroy v => exact fun t ht => h.distinguished_of_lt hs hlt ht
  | unsubscribe eventName id => exact hop
  | construct | moveConstruct | subscribe => trivial

/-- Up to `2 ^ 32 - 2` subscriptions, the listeners of triggers are those of the live
triggers. -/
theorem exact_of_subscriptions_lt
    {ops : List (Op τ κ)}
    (hops : Lts.Guarded (Triggers.step leftover) LeavesTriggers (init : Triggers τ κ δ) ops)
    (h : Lts.run (Triggers.step leftover) init ops = some s)
    (hlt : s.bus.subscriptions < 2 ^ 32 - 1) :
  s.Exact
  := by
  have hinv : s.Tracks ∧ (s.bus.subscriptions < 2 ^ 32 - 1 → s.Exact) := by
    apply Lts.guarded_induction
      (P := fun _ s => s.Tracks ∧ (s.bus.subscriptions < 2 ^ 32 - 1 → s.Exact)) _ _ hops h
    · exact ⟨Tracks.init, fun _ => exact_init⟩
    · rintro _ t op u - ⟨ht, hexact⟩ hop hu
      use ht.step hu
      intro hu'
      have hle := subscriptions_le_step ht hu
      have hexact := hexact (by omega)
      apply (ht.exact_step_iff hexact hu).mpr
      apply ht.unambiguous_of_lt hexact (by omega) hop
  apply hinv.2 hlt

end

/-! ### Too many subscriptions -/

/-- A trigger is made and destroyed, so many times. -/
def cycles (n : Nat) : List (Op Unit Unit) :=
  (List.replicate n [.construct 0 [] (), .destroy 0]).flatten

/-- No triggers, after some subscriptions. -/
def quiet (nextId : Int) (n : Nat) : Triggers Unit Unit Unit where
  bus := { Bus.init with nextId := nextId, subscriptions := n }
  triggers := fun _ => none
  live := fun _ => none

/-- The trigger that is made next. -/
def single (nextId : Int) (n : Nat) : Triggers Unit Unit Unit where
  bus := ((quiet nextId n).bus.subscribe [] (.task ())).2
  triggers := Function.update (fun _ => none) 0 (some ⟨true, some (), [], nextId⟩)
  live := Function.update (fun _ => none) 0 (some (some ⟨[], (), n⟩))

theorem step_construct_quiet (nextId : Int) (n : Nat) :
  step id (quiet nextId n) (.construct 0 [] ()) = some (single nextId n)
  := rfl

theorem listenersOf_single (nextId : Int) (n : Nat) :
  (single nextId n).bus.listenersOf [] = [⟨nextId, .task (), n⟩]
  := by
  rw [single, Bus.listenersOf_subscribe rfl]
  rfl

theorem unsubscribe_single (nextId : Int) (n : Nat) :
  (single nextId n).bus.unsubscribe [] nextId
    = (quiet (Machine.wrapInt32 (nextId + 1)) (n + 1)).bus
  := by
  have herase : ∀ ls : List (Listener (Callback Unit Unit)),
      ((∅ : Finmap fun _ : Bytes => List (Listener (Callback Unit Unit))).insert [] ls).erase []
        = ∅ := by
    intro ls
    apply Finmap.ext_lookup
    intro k
    rw [FiniteMap.lookup_erase, FiniteMap.lookup_insert]
    split <;> rfl
  simp [single, quiet, Bus.subscribe, Bus.unsubscribe, Bus.init, Bus.listenersOf,
    Bus.nextListener, herase]

theorem run_cycle (nextId : Int) (n : Nat) :
  Lts.run (step id) (quiet nextId n) [.construct 0 [] (), .destroy 0]
    = some { quiet nextId n with
        bus := EventTrigger.destroy ⟨true, some (), [], nextId⟩ (single nextId n).bus }
  := by
  have htriggers : Function.update (single nextId n).triggers 0 none = fun _ => none := by
    simp [single]
  have hlive : Function.update (single nextId n).live 0 none = fun _ => none := by
    simp [single]
  have htrigger : (single nextId n).triggers 0 = some ⟨true, some (), [], nextId⟩ := rfl
  rw [Lts.run, step_construct_quiet, Option.bind_some, Lts.run, step, htrigger, htriggers, hlive]
  rfl

theorem cycles_succ (n : Nat) :
  cycles (n + 1) = cycles n ++ [.construct 0 [] (), .destroy 0]
  := by
  rw [cycles, List.replicate_succ', List.flatten_concat, ← cycles]

theorem run_cycles {n : Nat} (h : n < 2 ^ 32 - 1) :
  Lts.run (step id) init (cycles n) = some (quiet (Machine.wrapInt32 (n + 1)) n)
  := by
  induction n with
  | zero =>
      have hone : Machine.wrapInt32 ((0 : Nat) + 1) = 1 := by decide
      rw [hone]
      rfl
  | succ n ih =>
      have hne : Machine.wrapInt32 (n + 1) ≠ -1 := by
        rw [← wrapInt32_eq_neg_one, Ne, Machine.wrapInt32_inj (by omega) (by omega)]
        omega
      rw [cycles_succ, Lts.run_append, ih (by omega), Option.bind_some, run_cycle,
        EventTrigger.destroy, if_pos (by simpa using hne), unsubscribe_single,
        Machine.wrapInt32_wrapInt32_add, Nat.cast_succ]
      rfl

/-- The id of the last trigger is `-1`, and its listener stays when it is destroyed. -/
theorem not_exact_cycles :
  ∃ s : Triggers Unit Unit Unit,
    Lts.run (step id) init (cycles (2 ^ 32 - 1)) = some s
      ∧ (∀ v, s.triggers v = none) ∧ s.bus.listenersOf [] = [⟨-1, .task (), 2 ^ 32 - 2⟩]
      ∧ ¬ s.Exact
  := by
  have hcycles : cycles (2 ^ 32 - 1)
      = cycles (2 ^ 32 - 2) ++ [.construct 0 [] (), .destroy 0] := cycles_succ (2 ^ 32 - 2)
  have hlast : Machine.wrapInt32 ((2 ^ 32 - 2 : Nat) + 1) = -1 := by decide
  have hlisteners := listenersOf_single (-1) (2 ^ 32 - 2)
  refine ⟨{ quiet (-1) (2 ^ 32 - 2) with bus := (single (-1) (2 ^ 32 - 2)).bus }, ?_, ?_,
    hlisteners, ?_⟩
  · rw [hcycles, Lts.run_append, run_cycles (by decide), Option.bind_some, hlast, run_cycle,
      EventTrigger.destroy, if_neg (by decide)]
  · intro v
    rfl
  · intro hexact
    have hmem : ⟨-1, .task (), 2 ^ 32 - 2⟩ ∈ (single (-1) (2 ^ 32 - 2)).bus.listenersOf [] := by
      rw [hlisteners]
      apply List.mem_singleton_self
    obtain ⟨v, hv, -⟩ := hexact.belongs [] _ () hmem rfl
    cases hv

end Triggers

end NexusMainframe
