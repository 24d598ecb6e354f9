import NexusMainframe.Event.Numbered

/-!
# Event triggers

A trigger subscribes its task to an event and gives the subscription up when it is destroyed
or assigned to; a move hands the subscription over. `Triggers` has the triggers at their
addresses, on a bus that other code uses as well, and beside each what it stands for: the
subscription that it was made with or that was moved to it.

The ids are an `int` counter, so after `2 ^ 32` subscriptions they repeat, and on the way one
is `-1`, which a trigger takes for no subscription.
-/

namespace NexusMainframe

open EventBus (Bus Listener)

/-- The callbacks on the bus: of triggers, with the task they execute, and of other code. -/
inductive Callback (τ κ : Type) where
  | task (task : τ)
  | other (cb : κ)

/-- A trigger. There is one bus, so of `_bus` only matters whether it is set. -/
structure EventTrigger (τ : Type) where
  bus : Bool
  task : Option τ
  eventName : Bytes
  eventId : Int

namespace EventTrigger

variable {τ κ δ : Type}

/-- The constructor. -/
def new (b : Bus (Callback τ κ) δ) (eventName : Bytes) (task : τ) :
    EventTrigger τ × Bus (Callback τ κ) δ :=
  let (eventId, b) := b.subscribe eventName (.task task)
  (⟨true, some task, eventName, eventId⟩, b)

/-- The bus after the destructor. -/
def destroy (t : EventTrigger τ) (b : Bus (Callback τ κ) δ) : Bus (Callback τ κ) δ :=
  if t.bus ∧ t.eventId ≠ -1 then b.unsubscribe t.eventName t.eventId else b

/-- What a move leaves of a trigger, where it leaves `leftover s` of a string `s`. -/
def movedFrom (leftover : Bytes → Bytes) (t : EventTrigger τ) : EventTrigger τ where
  bus := false
  task := none
  eventName := leftover t.eventName
  eventId := -1

end EventTrigger

/-- A subscription of a trigger: `serial` tells it from all others. -/
structure Subscription (τ : Type) where
  eventName : Bytes
  task : τ
  serial : Nat

/-- The bus, the triggers that are alive, and what they stand for: nothing when they have been
moved from. -/
structure Triggers (τ κ δ : Type) where
  bus : Bus (Callback τ κ) δ
  triggers : Nat → Option (EventTrigger τ)
  live : Nat → Option (Option (Subscription τ))

namespace Triggers

variable {τ κ δ : Type} (leftover : Bytes → Bytes)

/-- No trigger has been constructed. -/
def init : Triggers τ κ δ where
  bus := .init
  triggers := fun _ => none
  live := fun _ => none

/-- What happens to triggers, at addresses, and what other code does with the bus. -/
inductive Op (τ κ : Type) where
  | construct (v : Nat) (eventName : Bytes) (task : τ)
  | moveConstruct (v w : Nat)
  | moveAssign (v w : Nat)
  | destroy (v : Nat)
  | subscribe (eventName : Bytes) (cb : κ)
  | unsubscribe (eventName : Bytes) (id : Int)

/-- What a new trigger stands for. -/
def newSubscription (s : Triggers τ κ δ) (eventName : Bytes) (task : τ) : Subscription τ :=
  ⟨eventName, task, s.bus.subscriptions⟩

/-- The trigger `t` at `w` is moved to `v`. -/
def moveTo (s : Triggers τ κ δ) (v w : Nat) (t : EventTrigger τ) : Triggers τ κ δ :=
  { s with
    triggers :=
      Function.update (Function.update s.triggers v (some t)) w (some (t.movedFrom leftover))
    live := Function.update (Function.update s.live v (s.live w)) w (some none) }

/-- An operation, if the triggers that it is about are alive, and the addresses of new ones
are free. -/
def step (s : Triggers τ κ δ) : Op τ κ → Option (Triggers τ κ δ)
  | .construct v eventName task =>
      match s.triggers v with
      | some _ => none
      | none =>
          some {
            bus := (EventTrigger.new s.bus eventName task).2
            triggers :=
              Function.update s.triggers v (some (EventTrigger.new s.bus eventName task).1)
            live := Function.update s.live v (some (some (s.newSubscription eventName task))) }
  | .moveConstruct v w =>
      match s.triggers v, s.triggers w with
      | none, some t => some (s.moveTo leftover v w t)
      | _, _ => none
  | .moveAssign v w =>
      match s.triggers v, s.triggers w with
      | some t, some t' =>
          if v = w then some s
          else some { s.moveTo leftover v w t' with bus := t.destroy s.bus }
      | _, _ => none
  | .destroy v =>
      match s.triggers v with
      | none => none
      | some t =>
          some {
            bus := t.destroy s.bus
            triggers := Function.update s.triggers v none
            live := Function.update s.live v none }
  | .subscribe eventName cb => some { s with bus := (s.bus.subscribe eventName (.other cb)).2 }
  | .unsubscribe eventName id => some { s with bus := s.bus.unsubscribe eventName id }

/-- The trigger at an address stands for a subscription. -/
def Holds (s : Triggers τ κ δ) (v : Nat) (c : Subscription τ) : Prop :=
  s.live v = some (some c)

/-- A trigger that has not been moved from has one listener on the bus, under its event name,
which calls its task; and every listener of triggers belongs to one of them. -/
structure Exact (s : Triggers τ κ δ) : Prop where
  one : ∀ v c, s.Holds v c →
    ((s.bus.listenersOf c.eventName).filter fun l => l.serial = c.serial).map Listener.cb
      = [.task c.task]
  belongs : ∀ eventName l task, l ∈ s.bus.listenersOf eventName → l.cb = .task task →
    ∃! v, s.Holds v ⟨eventName, task, l.serial⟩

/-- The trigger's id is not `-1`, and no two listeners of triggers have it under its event
name. -/
def Distinguished (b : Bus (Callback τ κ) δ) (t : EventTrigger τ) : Prop :=
  t.bus = true → t.eventId ≠ -1 ∧
    ∀ l ∈ b.listenersOf t.eventName, ∀ l' ∈ b.listenersOf t.eventName,
      ∀ task task', l.cb = .task task → l'.cb = .task task' →
        l.id = t.eventId → l'.id = t.eventId → l = l'

/-- A subscription that is given up has an id of its own: a trigger's is distinguished, and
other code does not use one that a trigger has. -/
def Unambiguous (s : Triggers τ κ δ) : Op τ κ → Prop
  | .destroy v => ∀ t, s.triggers v = some t → Distinguished s.bus t
  | .moveAssign v w => v ≠ w → ∀ t, s.triggers v = some t → Distinguished s.bus t
  | .unsubscribe eventName id =>
      ∀ l ∈ s.bus.listenersOf eventName, l.id = id → ∀ task, l.cb ≠ .task task
  | .construct _ _ _ | .moveConstruct _ _ | .subscribe _ _ => True

/-! ### Listeners and subscriptions -/

section

variable {b : Bus (Callback τ κ) δ} {H : Subscription τ → Prop}

/-- The listener that a subscription has registered. -/
def IsListener (c : Subscription τ) (l : Listener (Callback τ κ)) : Prop :=
  l.serial = c.serial ∧ l.cb = .task c.task

/-- The listeners of triggers are those of the subscriptions in `H`. -/
structure Matched (b : Bus (Callback τ κ) δ) (H : Subscription τ → Prop) : Prop where
  listener : ∀ {c}, H c → ∃ l ∈ b.listenersOf c.eventName, IsListener c l
  subscription : ∀ {eventName l task}, l ∈ b.listenersOf eventName → l.cb = .task task →
    H ⟨eventName, task, l.serial⟩

theorem Matched.construct
    (h : Matched b H) (hactive : b.isShuttingDown = false) (eventName : Bytes) (task : τ) :
  Matched (b.subscribe eventName (.task task)).2
    fun c => c = ⟨eventName, task, b.subscriptions⟩ ∨ H c
  := by
  constructor
  · rintro c (rfl | hc)
    · use b.nextListener (.task task)
      exact ⟨(Bus.mem_listenersOf_subscribe hactive).mpr (.inr ⟨rfl, rfl⟩), rfl, rfl⟩
    · obtain ⟨l, hl, hc⟩ := h.listener hc
      exact ⟨l, (Bus.mem_listenersOf_subscribe hactive).mpr (.inl hl), hc⟩
  · intro other l task' hl hcb
    rcases (Bus.mem_listenersOf_subscribe hactive).mp hl with hl | ⟨rfl, rfl⟩
    · right
      apply h.subscription hl hcb
    · left
      obtain rfl := Callback.task.inj hcb
      rfl

theorem Matched.subscribe
    (h : Matched b H) (hactive : b.isShuttingDown = false) (eventName : Bytes) (cb : κ) :
  Matched (b.subscribe eventName (.other cb)).2 H
  := by
  constructor
  · intro c hc
    obtain ⟨l, hl, hc⟩ := h.listener hc
    exact ⟨l, (Bus.mem_listenersOf_subscribe hactive).mpr (.inl hl), hc⟩
  · intro other l task hl hcb
    rcases (Bus.mem_listenersOf_subscribe hactive).mp hl with hl | ⟨rfl, rfl⟩
    · apply h.subscription hl hcb
    · cases hcb

/-- Other code takes away the listener of a subscription just if it uses its id. -/
theorem Matched.unsubscribe_iff
    (hb : b.Numbered) (h : Matched b H) (eventName : Bytes) (id : Int) :
  Matched (b.unsubscribe eventName id) H
    ↔ ∀ l ∈ b.listenersOf eventName, l.id = id → ∀ task, l.cb ≠ .task task
  := by
  constructor
  · intro h' l hl hid task hcb
    obtain ⟨l', hl', hserial, -⟩ := h'.listener (h.subscription hl hcb)
    obtain ⟨hl', hne⟩ := Bus.mem_listenersOf_unsubscribe.mp hl'
    obtain ⟨-, rfl⟩ := hb.serial_inj hl' hl hserial
    apply hne rfl hid
  · intro hkeeps
    constructor
    · intro c hc
      obtain ⟨l, hl, hserial, hcb⟩ := h.listener hc
      refine ⟨l, Bus.mem_listenersOf_unsubscribe.mpr ⟨hl, ?_⟩, hserial, hcb⟩
      rintro rfl hid
      apply hkeeps l hl hid _ hcb
    · intro other l task hl hcb
      apply h.subscription (Bus.mem_listenersOf_unsubscribe.mp hl).1 hcb

/-- A trigger has the event name and the task of its subscription, and the id of its
listener. -/
structure Represents (b : Bus (Callback τ κ) δ) (t : EventTrigger τ) (c : Subscription τ) :
    Prop where
  bus : t.bus = true
  task : t.task = some c.task
  eventName : t.eventName = c.eventName
  eventId : ∀ l ∈ b.listenersOf c.eventName, l.serial = c.serial → l.id = t.eventId

/-- A subscription is the one of its listener. -/
theorem IsListener.subscription_eq
    {c c' : Subscription τ} {l : Listener (Callback τ κ)} (h : IsListener c l)
    (h' : IsListener c' l) (hname : c'.eventName = c.eventName) :
  c' = c
  := by
  obtain ⟨name, task, serial⟩ := c
  obtain ⟨name', task', serial'⟩ := c'
  obtain rfl := Callback.task.inj (h.2.symm.trans h'.2)
  obtain rfl : name' = name := hname
  obtain rfl : serial' = serial := h'.1.symm.trans h.1
  rfl

/-- When one subscription is given up and no other, only its listener has had the id. -/
theorem Matched.eq_of_unsubscribe
    (hb : b.Numbered) (h : Matched b H) {c : Subscription τ} {own : Listener (Callback τ κ)}
    (hown : own ∈ b.listenersOf c.eventName) (hserial : own.serial = c.serial) {id : Int}
    (h' : Matched (b.unsubscribe c.eventName id) fun c' => H c' ∧ c' ≠ c)
    {l : Listener (Callback τ κ)} (hl : l ∈ b.listenersOf c.eventName) {task : τ}
    (hcb : l.cb = .task task) (hid : l.id = id) :
  l = own
  := by
  by_cases heq : (⟨c.eventName, task, l.serial⟩ : Subscription τ) = c
  · apply (hb.serial_inj hl hown _).2
    rw [hserial, ← heq]
  · obtain ⟨l', hl', hserial', -⟩ := h'.listener ⟨h.subscription hl hcb, heq⟩
    obtain ⟨hl', hkept⟩ := Bus.mem_listenersOf_unsubscribe.mp hl'
    obtain ⟨-, rfl⟩ := hb.serial_inj hl' hl hserial'
    cases hkept rfl hid

/-- One subscription is given up, and no other, when only its listener has the id. -/
theorem Matched.giveUp
    (hb : b.Numbered) (h : Matched b H) {c : Subscription τ} {own : Listener (Callback τ κ)}
    (hown : own ∈ b.listenersOf c.eventName) (howner : IsListener c own)
    (hsame : ∀ l ∈ b.listenersOf c.eventName, ∀ task, l.cb = .task task → l.id = own.id →
      l = own) :
  Matched (b.unsubscribe c.eventName own.id) fun c' => H c' ∧ c' ≠ c
  := by
  constructor
  · rintro c' ⟨hc', hother⟩
    obtain ⟨l, hl, hlistener⟩ := h.listener hc'
    refine ⟨l, Bus.mem_listenersOf_unsubscribe.mpr ⟨hl, ?_⟩, hlistener⟩
    intro hname hid'
    rw [← hname] at hl
    obtain rfl := hsame l hl _ hlistener.2 hid'
    apply hother (howner.subscription_eq hlistener hname.symm)
  · intro other l task hl hcb
    obtain ⟨hmem, hkept⟩ := Bus.mem_listenersOf_unsubscribe.mp hl
    use h.subscription hmem hcb
    rintro rfl
    obtain ⟨-, rfl⟩ := hb.serial_inj hmem hown howner.1.symm
    apply hkept rfl rfl

/-- A trigger that is destroyed gives up its subscription, and no other, just if its id is
distinguished. -/
theorem Matched.destroy_iff
    (hb : b.Numbered) (h : Matched b H) {t : EventTrigger τ} {c : Subscription τ}
    (ht : Represents b t c) (hc : H c) :
  Matched (t.destroy b) (fun c' => H c' ∧ c' ≠ c) ↔ Distinguished b t
  := by
  obtain ⟨own, hown, hserial, hcb⟩ := h.listener hc
  have hid := ht.eventId own hown hserial
  rw [EventTrigger.destroy, Distinguished, ht.bus, ht.eventName]
  constructor
  · intro h' _
    have hne : t.eventId ≠ -1 := by
      intro heq
      rw [if_neg (by simp [heq])] at h'
      apply (h'.subscription hown hcb).2
      rw [hserial]
    use hne
    rw [if_pos ⟨rfl, hne⟩] at h'
    intro l hl l' hl' task task' hcb hcb' hid hid'
    rw [h.eq_of_unsubscribe hb hown hserial h' hl hcb hid,
      h.eq_of_unsubscribe hb hown hserial h' hl' hcb' hid']
  · intro hdist
    obtain ⟨hne, hsame⟩ := hdist rfl
    rw [if_pos ⟨rfl, hne⟩, ← hid]
    apply h.giveUp hb hown ⟨hserial, hcb⟩
    intro l hl task hcb' hid'
    exact hsame l hl own hown _ _ hcb' hcb (hid'.trans hid) hid

end

/-! ### What the triggers stand for -/

/-- A trigger that is alive represents its subscription, and one that has been moved from has
no bus. -/
def Agrees (b : Bus (Callback τ κ) δ) :
    Option (EventTrigger τ) → Option (Option (Subscription τ)) → Prop
  | none, none => True
  | some t, some none => t.bus = false
  | some t, some (some c) => Represents b t c
  | _, _ => False

/-- The subscriptions that triggers stand for. -/
def Held (s : Triggers τ κ δ) (c : Subscription τ) : Prop :=
  ∃ v, s.Holds v c

/-- The triggers agree with what they stand for, each with another subscription that has been
made. -/
structure Tracks (s : Triggers τ κ δ) : Prop where
  numbered : s.bus.Numbered
  agrees : ∀ v, Agrees s.bus (s.triggers v) (s.live v)
  serial_lt : ∀ {c}, s.Held c → c.serial < s.bus.subscriptions
  holds_inj : ∀ {v v' c c'}, s.Holds v c → s.Holds v' c' → c.serial = c'.serial → v = v'

section

variable {s : Triggers τ κ δ}

theorem exact_iff_matched (h : s.Tracks) :
  s.Exact ↔ Matched s.bus s.Held
  := by
  constructor
  · intro hexact
    constructor
    · rintro c ⟨v, hv⟩
      apply h.numbered.map_cb_filter_eq_iff.mp (hexact.one v c hv)
    · intro eventName l task hl hcb
      apply (hexact.belongs eventName l task hl hcb).exists
  · intro hmatched
    constructor
    · intro v c hv
      apply h.numbered.map_cb_filter_eq_iff.mpr (hmatched.listener ⟨v, hv⟩)
    · intro eventName l task hl hcb
      obtain ⟨v, hv⟩ := hmatched.subscription hl hcb
      use v, hv
      intro v' hv'
      apply h.holds_inj hv' hv rfl

theorem Represents.mono
    {b b' : Bus (Callback τ κ) δ} {t : EventTrigger τ} {c : Subscription τ}
    (h : Represents b t c)
    (hb : ∀ l ∈ b'.listenersOf c.eventName, l.serial = c.serial → l ∈ b.listenersOf c.eventName) :
  Represents b' t c
  where
  bus := h.bus
  task := h.task
  eventName := h.eventName
  eventId l hl hserial := h.eventId l (hb l hl hserial) hserial

/-- The bus changes, but no listener of a subscription that is held is new. -/
theorem Agrees.mono
    {b b' : Bus (Callback τ κ) δ} {t : Option (EventTrigger τ)}
    {c : Option (Option (Subscription τ))} (h : Agrees b t c)
    (hb : ∀ c', c = some (some c') → ∀ l ∈ b'.listenersOf c'.eventName, l.serial = c'.serial →
      l ∈ b.listenersOf c'.eventName) :
  Agrees b' t c
  := by
  match t, c with
  | none, none => trivial
  | some t, some none => exact h
  | some t, some (some c) => exact Represents.mono h (hb c rfl)

/-- No listener is new where listeners are taken away. -/
theorem Tracks.agrees_unsubscribe
    (h : s.Tracks) (eventName : Bytes) (id : Int) (v : Nat) :
  Agrees (s.bus.unsubscribe eventName id) (s.triggers v) (s.live v)
  := by
  apply (h.agrees v).mono
  intro c _ l hl _
  apply (Bus.mem_listenersOf_unsubscribe.mp hl).1

/-- The listener of a new subscription has a serial number that no subscription has. -/
theorem Tracks.agrees_subscribe
    (h : s.Tracks) (eventName : Bytes) (cb : Callback τ κ) (v : Nat) :
  Agrees (s.bus.subscribe eventName cb).2 (s.triggers v) (s.live v)
  := by
  apply (h.agrees v).mono
  intro c hc l hl hserial
  rcases (Bus.mem_listenersOf_subscribe h.numbered.active).mp hl with hl | ⟨-, rfl⟩
  · apply hl
  · have hlt := h.serial_lt ⟨v, hc⟩
    rw [← hserial] at hlt
    cases lt_irrefl _ hlt

theorem Tracks.represents
    (h : s.Tracks) {v : Nat} {t : EventTrigger τ} {c : Subscription τ}
    (ht : s.triggers v = some t) (hc : s.Holds v c) :
  Represents s.bus t c
  := by
  have hagrees := h.agrees v
  rw [ht, hc] at hagrees
  exact hagrees

theorem Tracks.bus_eq_false
    (h : s.Tracks) {v : Nat} {t : EventTrigger τ} (ht : s.triggers v = some t)
    (hc : ∀ c, ¬ s.Holds v c) :
  t.bus = false
  := by
  have hagrees := h.agrees v
  rw [ht] at hagrees
  cases hlive : s.live v with
  | none =>
      rw [hlive] at hagrees
      cases hagrees
  | some o =>
      cases o with
      | none =>
          rw [hlive] at hagrees
          exact hagrees
      | some c => cases hc c hlive

theorem Tracks.not_holds_of_dead
    (h : s.Tracks) {v : Nat} (ht : s.triggers v = none) (c : Subscription τ) :
  ¬ s.Holds v c
  := by
  intro hc
  have hagrees := h.agrees v
  rw [ht, hc] at hagrees
  cases hagrees

end

/-! ### Operations -/

/-- The subscriptions that triggers at other addresses stand for. -/
def HeldElsewhere (s : Triggers τ κ δ) (v : Nat) (c : Subscription τ) : Prop :=
  ∃ x, x ≠ v ∧ s.Holds x c

/-- The trigger at an address is gone. -/
def forget (s : Triggers τ κ δ) (v : Nat) : Triggers τ κ δ :=
  { s with
    triggers := Function.update s.triggers v none
    live := Function.update s.live v none }

section

variable {s : Triggers τ κ δ} {leftover : Bytes → Bytes} {v w x : Nat} {t : EventTrigger τ}
  {c : Subscription τ}

theorem holds_moveTo (hne : v ≠ w) :
  (s.moveTo leftover v w t).Holds x c
    ↔ (x = v ∧ s.Holds w c) ∨ (x ≠ v ∧ x ≠ w ∧ s.Holds x c)
  := by
  unfold Holds moveTo
  by_cases hw : x = w
  · subst hw
    simp [hne.symm]
  · by_cases hv : x = v
    · subst hv
      simp [hw]
    · simp [hv, hw]

theorem holds_forget :
  (s.forget v).Holds x c ↔ x ≠ v ∧ s.Holds x c
  := by
  unfold Holds forget
  by_cases hv : x = v
  · subst hv
    simp
  · simp [hv]

theorem held_moveTo (hne : v ≠ w) :
  (s.moveTo leftover v w t).Held c ↔ s.HeldElsewhere v c
  := by
  simp only [Held, holds_moveTo hne]
  constructor
  · rintro ⟨x, ⟨-, hc⟩ | ⟨hv, -, hc⟩⟩
    · exact ⟨w, hne.symm, hc⟩
    · exact ⟨x, hv, hc⟩
  · rintro ⟨x, hv, hc⟩
    by_cases hw : x = w
    · subst hw
      exact ⟨v, .inl ⟨rfl, hc⟩⟩
    · exact ⟨x, .inr ⟨hv, hw, hc⟩⟩

theorem held_forget :
  (s.forget v).Held c ↔ s.HeldElsewhere v c
  := by
  simp only [Held, holds_forget, HeldElsewhere]

namespace Tracks

theorem of_unsubscribe (h : s.Tracks) (eventName : Bytes) (id : Int) :
  Tracks { s with bus := s.bus.unsubscribe eventName id }
  where
  numbered := h.numbered.unsubscribe eventName id
  agrees := h.agrees_unsubscribe eventName id
  serial_lt hc := by
    rw [Bus.subscriptions_unsubscribe]
    apply h.serial_lt hc
  holds_inj := h.holds_inj

theorem of_destroy (h : s.Tracks) (t : EventTrigger τ) :
  Tracks { s with bus := t.destroy s.bus }
  := by
  unfold EventTrigger.destroy
  split
  · apply h.of_unsubscribe
  · apply h

theorem of_subscribe (h : s.Tracks) (eventName : Bytes) (cb : Callback τ κ) :
  Tracks { s with bus := (s.bus.subscribe eventName cb).2 }
  where
  numbered := h.numbered.subscribe eventName cb
  agrees := h.agrees_subscribe eventName cb
  serial_lt hc := by
    rw [Bus.subscriptions_subscribe h.numbered.active]
    apply Nat.lt_succ_of_lt (h.serial_lt hc)
  holds_inj := h.holds_inj

theorem of_forget (h : s.Tracks) (v : Nat) :
  (s.forget v).Tracks
  where
  numbered := h.numbered
  agrees x := by
    unfold forget
    by_cases hv : x = v
    · subst hv
      simp [Agrees]
    · simpa [hv] using h.agrees x
  serial_lt hc := by
    obtain ⟨x, -, hc⟩ := held_forget.mp hc
    apply h.serial_lt ⟨x, hc⟩
  holds_inj hc hc' heq := h.holds_inj (holds_forget.mp hc).2 (holds_forget.mp hc').2 heq

theorem of_moveTo (h : s.Tracks) (ht : s.triggers w = some t) (hne : v ≠ w) :
  (s.moveTo leftover v w t).Tracks
  where
  numbered := h.numbered
  agrees x := by
    unfold moveTo
    by_cases hw : x = w
    · subst hw
      simp [Agrees, EventTrigger.movedFrom]
    · by_cases hv : x = v
      · subst hv
        simpa [hw, ht] using h.agrees w
      · simpa [hv, hw] using h.agrees x
  serial_lt hc := by
    obtain ⟨x, -, hc⟩ := (held_moveTo hne).mp hc
    apply h.serial_lt ⟨x, hc⟩
  holds_inj hc hc' heq := by
    rcases (holds_moveTo hne).mp hc with ⟨rfl, hold⟩ | ⟨-, hw, hold⟩
    · rcases (holds_moveTo hne).mp hc' with ⟨rfl, -⟩ | ⟨-, hw', hold'⟩
      · rfl
      · cases hw' (h.holds_inj hold' hold heq.symm)
    · rcases (holds_moveTo hne).mp hc' with ⟨rfl, hold'⟩ | ⟨-, -, hold'⟩
      · cases hw (h.holds_inj hold hold' heq)
      · apply h.holds_inj hold hold' heq

/-- A trigger that is gone gave up its subscription, and no other, just if its id is
distinguished. -/
theorem matched_destroy_iff
    (h : s.Tracks) (hs : Matched s.bus s.Held) (ht : s.triggers v = some t) :
  Matched (t.destroy s.bus) (s.HeldElsewhere v) ↔ Distinguished s.bus t
  := by
  by_cases hv : ∃ c, s.Holds v c
  · obtain ⟨c, hc⟩ := hv
    have heq : s.HeldElsewhere v = fun c' => s.Held c' ∧ c' ≠ c := by
      funext c'
      apply propext
      constructor
      · rintro ⟨x, hne, hx⟩
        use ⟨x, hx⟩
        rintro rfl
        apply hne (h.holds_inj hx hc rfl)
      · rintro ⟨⟨x, hx⟩, hne⟩
        refine ⟨x, ?_, hx⟩
        rintro rfl
        apply hne
        apply Option.some.inj (Option.some.inj (hx.symm.trans hc))
    rw [heq]
    apply Matched.destroy_iff h.numbered hs (h.represents ht hc) ⟨v, hc⟩
  · have hnone : ∀ c, ¬ s.Holds v c := fun c hc => hv ⟨c, hc⟩
    have hbus := h.bus_eq_false ht hnone
    have heq : s.HeldElsewhere v = s.Held := by
      funext c'
      apply propext
      constructor
      · rintro ⟨x, -, hx⟩
        exact ⟨x, hx⟩
      · rintro ⟨x, hx⟩
        refine ⟨x, ?_, hx⟩
        rintro rfl
        apply hnone c' hx
    rw [heq, EventTrigger.destroy, Distinguished, hbus]
    simpa using hs

end Tracks

end

/-- What each operation comes to. -/
inductive Step (leftover : Bytes → Bytes) (s : Triggers τ κ δ) : Op τ κ → Triggers τ κ δ → Prop
  | construct {v} (eventName : Bytes) (task : τ) (free : s.triggers v = none) :
      Step leftover s (.construct v eventName task) {
        bus := (s.bus.subscribe eventName (.task task)).2
        triggers :=
          Function.update s.triggers v (some (EventTrigger.new s.bus eventName task).1)
        live := Function.update s.live v (some (some (s.newSubscription eventName task))) }
  | moveConstruct {v w t} (free : s.triggers v = none) (ht : s.triggers w = some t) :
      Step leftover s (.moveConstruct v w) (s.moveTo leftover v w t)
  | selfAssign {v t} (ht : s.triggers v = some t) : Step leftover s (.moveAssign v v) s
  | moveAssign {v w t t'} (hne : v ≠ w) (ht : s.triggers v = some t)
      (ht' : s.triggers w = some t') :
      Step leftover s (.moveAssign v w)
        (moveTo leftover { s with bus := t.destroy s.bus } v w t')
  | destroy {v t} (ht : s.triggers v = some t) :
      Step leftover s (.destroy v) (forget { s with bus := t.destroy s.bus } v)
  | subscribe (eventName : Bytes) (cb : κ) :
      Step leftover s (.subscribe eventName cb)
        { s with bus := (s.bus.subscribe eventName (.other cb)).2 }
  | unsubscribe (eventName : Bytes) (id : Int) :
      Step leftover s (.unsubscribe eventName id)
        { s with bus := s.bus.unsubscribe eventName id }

theorem Step.of_step
    {leftover : Bytes → Bytes} {s u : Triggers τ κ δ} {op : Op τ κ}
    (h : step leftover s op = some u) :
  Step leftover s op u
  := by
  cases op with
  | construct v eventName task =>
      simp only [step] at h
      split at h
      next => cases h
      next hfree =>
        obtain rfl := Option.some.inj h
        apply Step.construct eventName task hfree
  | moveConstruct v w =>
      simp only [step] at h
      split at h
      next t hfree ht =>
        obtain rfl := Option.some.inj h
        apply Step.moveConstruct hfree ht
      next => cases h
  | moveAssign v w =>
      simp only [step] at h
      split at h
      next t t' ht ht' =>
        split at h
        next heq =>
          obtain rfl := Option.some.inj h
          subst heq
          apply Step.selfAssign ht
        next hne =>
          obtain rfl := Option.some.inj h
          apply Step.moveAssign hne ht ht'
      next => cases h
  | destroy v =>
      simp only [step] at h
      split at h
      next => cases h
      next t ht =>
        obtain rfl := Option.some.inj h
        apply Step.destroy ht
  | subscribe eventName cb =>
      obtain rfl := Option.some.inj h
      apply Step.subscribe
  | unsubscribe eventName id =>
      obtain rfl := Option.some.inj h
      apply Step.unsubscribe

end Triggers

end NexusMainframe
