import NexusMainframe.Event.EventBus

/-!
# Numbered listeners

The subscriptions of an event bus are numbered, and the ids are the numbers as far as an `int`
goes. On an active bus each listener has a number of its own.
-/

namespace NexusMainframe

open EventBus (Bus Listener)

namespace EventBus.Bus

variable {κ δ : Type} {b : Bus κ δ}

theorem mem_listenersOf_subscribe
    (h : b.isShuttingDown = false) {eventName other : Bytes} {cb : κ} {l : Listener κ} :
  l ∈ (b.subscribe eventName cb).2.listenersOf other
    ↔ l ∈ b.listenersOf other ∨ (eventName = other ∧ l = b.nextListener cb)
  := by
  rw [listenersOf_subscribe h]
  split
  next heq => simp [heq]
  next hne => simp [hne]

theorem mem_listenersOf_unsubscribe {eventName other : Bytes} {id : Int} {l : Listener κ} :
  l ∈ (b.unsubscribe eventName id).listenersOf other
    ↔ l ∈ b.listenersOf other ∧ (eventName = other → l.id ≠ id)
  := by
  rw [listenersOf_unsubscribe]
  split
  next heq => simp [heq]
  next hne => simp [hne]

theorem nextId_subscribe
    (h : b.isShuttingDown = false) (eventName : Bytes) (cb : κ) :
  (b.subscribe eventName cb).2.nextId = Machine.wrapInt32 (b.nextId + 1)
  := by
  rw [subscribe, h]
  rfl

theorem subscriptions_subscribe
    (h : b.isShuttingDown = false) (eventName : Bytes) (cb : κ) :
  (b.subscribe eventName cb).2.subscriptions = b.subscriptions + 1
  := by
  rw [subscribe, h]
  rfl

theorem nextId_unsubscribe (b : Bus κ δ) (eventName : Bytes) (id : Int) :
  (b.unsubscribe eventName id).nextId = b.nextId
  := by
  unfold unsubscribe
  split
  · rfl
  · dsimp only
    split <;> rfl

theorem subscriptions_unsubscribe (b : Bus κ δ) (eventName : Bytes) (id : Int) :
  (b.unsubscribe eventName id).subscriptions = b.subscriptions
  := by
  unfold unsubscribe
  split
  · rfl
  · dsimp only
    split <;> rfl

/-- The bus is active, the serial numbers of its listeners are different and given out, and
the ids count them. -/
structure Numbered (b : Bus κ δ) : Prop where
  active : b.isShuttingDown = false
  nextId_eq : b.nextId = Machine.wrapInt32 (b.subscriptions + 1)
  id_eq : ∀ {eventName l}, l ∈ b.listenersOf eventName → l.id = Machine.wrapInt32 (l.serial + 1)
  nodup : ∀ eventName, (b.listenersOf eventName).Nodup
  serial_lt : ∀ {eventName l}, l ∈ b.listenersOf eventName → l.serial < b.subscriptions
  serial_inj : ∀ {eventName eventName' l l'}, l ∈ b.listenersOf eventName →
    l' ∈ b.listenersOf eventName' → l.serial = l'.serial → eventName = eventName' ∧ l = l'

namespace Numbered

theorem init :
  (Bus.init : Bus κ δ).Numbered
  := by
  have hnone : ∀ eventName, (Bus.init : Bus κ δ).listenersOf eventName = [] := fun _ => rfl
  constructor
  · rfl
  · exact (Machine.wrapInt32_of_lt (by decide : 1 < 2 ^ 31)).symm
  · simp [hnone]
  · simp [hnone]
  · simp [hnone]
  · simp [hnone]

theorem subscribe (h : b.Numbered) (eventName : Bytes) (cb : κ) :
  (b.subscribe eventName cb).2.Numbered
  := by
  have hnew : ∀ {other l}, l ∈ b.listenersOf other → l.serial ≠ (b.nextListener cb).serial :=
    fun hl => (h.serial_lt hl).ne
  constructor
  · rw [isShuttingDown_subscribe]
    apply h.active
  · rw [subscriptions_subscribe h.active, nextId_subscribe h.active, h.nextId_eq,
      Machine.wrapInt32_wrapInt32_add, Nat.cast_succ]
  · intro other l hl
    rcases (mem_listenersOf_subscribe h.active).mp hl with hl | ⟨-, rfl⟩
    · apply h.id_eq hl
    · apply h.nextId_eq
  · intro other
    rw [listenersOf_subscribe h.active]
    split
    next =>
      apply List.Nodup.append (h.nodup other) (List.nodup_singleton _)
      intro l hl hnext
      apply hnew hl
      rw [List.mem_singleton.mp hnext]
    next => apply h.nodup other
  · intro other l hl
    rw [subscriptions_subscribe h.active]
    rcases (mem_listenersOf_subscribe h.active).mp hl with hl | ⟨-, rfl⟩
    · apply Nat.lt_succ_of_lt (h.serial_lt hl)
    · apply Nat.lt_succ_self
  · intro other other' l l' hl hl' heq
    rcases (mem_listenersOf_subscribe h.active).mp hl with hl | ⟨rfl, rfl⟩
    · rcases (mem_listenersOf_subscribe h.active).mp hl' with hl' | ⟨-, rfl⟩
      · apply h.serial_inj hl hl' heq
      · cases hnew hl heq
    · rcases (mem_listenersOf_subscribe h.active).mp hl' with hl' | ⟨rfl, rfl⟩
      · cases hnew hl' heq.symm
      · exact ⟨rfl, rfl⟩

theorem unsubscribe (h : b.Numbered) (eventName : Bytes) (id : Int) :
  (b.unsubscribe eventName id).Numbered
  := by
  constructor
  · rw [isShuttingDown_unsubscribe]
    apply h.active
  · rw [subscriptions_unsubscribe, nextId_unsubscribe]
    apply h.nextId_eq
  · intro other l hl
    apply h.id_eq (mem_listenersOf_unsubscribe.mp hl).1
  · intro other
    rw [listenersOf_unsubscribe]
    split
    · apply (h.nodup other).filter
    · apply h.nodup other
  · intro other l hl
    rw [subscriptions_unsubscribe]
    apply h.serial_lt (mem_listenersOf_unsubscribe.mp hl).1
  · intro other other' l l' hl hl' heq
    apply h.serial_inj (mem_listenersOf_unsubscribe.mp hl).1
      (mem_listenersOf_unsubscribe.mp hl').1 heq

/-- There is one listener with a serial number, if there is any. -/
theorem map_cb_filter_eq_iff (h : b.Numbered) {eventName : Bytes} {serial : Nat} {cb : κ} :
  ((b.listenersOf eventName).filter fun l => l.serial = serial).map Listener.cb = [cb]
    ↔ ∃ l ∈ b.listenersOf eventName, l.serial = serial ∧ l.cb = cb
  := by
  constructor
  · intro hmap
    obtain ⟨l, hfilter, hcb⟩ := List.map_eq_singleton_iff.mp hmap
    have hl := List.mem_filter.mp (hfilter ▸ List.mem_singleton_self l)
    use l, hl.1, of_decide_eq_true hl.2
  · rintro ⟨l, hl, rfl, rfl⟩
    have hfilter : (b.listenersOf eventName).filter (fun l' => l'.serial = l.serial) = [l] := by
      apply List.perm_singleton.mp
      rw [List.perm_ext_iff_of_nodup ((h.nodup eventName).filter _) (List.nodup_singleton l)]
      intro l'
      rw [List.mem_filter, List.mem_singleton]
      constructor
      · rintro ⟨hl', heq⟩
        apply (h.serial_inj hl' hl (of_decide_eq_true heq)).2
      · rintro rfl
        exact ⟨hl, decide_eq_true rfl⟩
    rw [hfilter, List.map_singleton]

end Numbered

end EventBus.Bus

end NexusMainframe
