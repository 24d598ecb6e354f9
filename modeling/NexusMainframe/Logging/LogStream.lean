import NexusMainframe.Lib.Lts
import NexusMainframe.Lib.Numbered
import NexusMainframe.Logging.LogBroadcaster

/-!
# The stream of log entries

Calls of `log` push an entry into the ring buffer, copy the sockets out of the table of
clients, and write to one copy after the other. A client is in the table from the moment it
is accepted; its thread shakes hands, copies the end of the buffer, and writes the entries of
this snapshot. The buffer, the table and the sockets have a lock each or none, so the steps of
all these threads interleave.

An entry is due to a client when it is in the snapshot, or was pushed after the snapshot was
taken. The entries arrive as they are due just if no call writes to a client before its turn.
Clients do not leave in the model, and a call whose entry cannot be serialised takes no step.
-/

namespace NexusMainframe

namespace LogBroadcaster

/-- `BACKFILL_COUNT`. -/
def backfillCount : Nat :=
  100

/-- The end of the buffer that `onClientConnect` copies. -/
def snapshot (b : LogBroadcaster) : List LogEntry :=
  b.buffer.drop
    (if b.buffer.length > backfillCount then b.buffer.length - backfillCount else 0)

end LogBroadcaster

namespace LogStream

/-- An entry with its number, which is not in the code: entries are numbered as they are
pushed. -/
abbrev Numbered := LogEntry × Nat

/-- A call of `log` that has pushed its entry. `copies` are the clients it has still to write
to, once it has copied the table. -/
structure Call where
  entry : LogEntry
  copies : Option (List Nat)
deriving DecidableEq

/-- Where the thread of a client is: before the end of the handshake, behind it, or behind the
copy of the buffer, with the entries of it that it has still to write. `taken` is how many
entries had been pushed when it copied; it is not in the code. -/
inductive Phase where
  | handshaking
  | greeted
  | connected (taken : Nat) (backlog : List Numbered)
deriving DecidableEq

/-- A client, with the entries written to its socket. -/
structure Client where
  phase : Phase
  delivered : List Numbered
deriving DecidableEq

/-- The table has all the clients. The call that has pushed entry `k` is `calls[k]`. -/
structure System where
  broadcaster : LogBroadcaster
  calls : List Call
  clients : List Client

/-- The steps of the calls of `log`, of the accept thread, and of the threads of clients. -/
inductive Act where
  | push (entry : LogEntry)
  | copy (call : Nat)
  | write (call copy : Nat)
  | accept
  | handshake (client : Nat)
  | snapshot (client : Nat)
  | backfill (client : Nat)
deriving DecidableEq

namespace System

/-- Nothing has been logged, and nobody is there. -/
def init : System where
  broadcaster := .init
  calls := []
  clients := []

/-- The entries that have been pushed. -/
def logged (s : System) : List LogEntry :=
  s.calls.map Call.entry

/-- The system with another state of a call. -/
def setCall (s : System) (call : Nat) (x : Call) : System :=
  { s with calls := s.calls.set call x }

/-- The system with another state of a client. -/
def setClient (s : System) (client : Nat) (x : Client) : System :=
  { s with clients := s.clients.set client x }

/-- An entry written to the socket of a client. -/
def deliver (s : System) (client : Nat) (x : Client) (entry : Numbered) : System :=
  s.setClient client { x with delivered := x.delivered ++ [entry] }

/-- The entries of a snapshot, with the numbers of the last ones pushed. -/
def takeSnapshot (s : System) : List Numbered :=
  s.broadcaster.snapshot.zipIdx (s.calls.length - s.broadcaster.snapshot.length)

/-- The calls and the clients go on in any order. -/
def step (s : System) : Act → Option System
  | .push entry =>
      some { s with
        broadcaster := s.broadcaster.push entry
        calls := s.calls ++ [⟨entry, none⟩] }
  | .copy call =>
      match s.calls[call]? with
      | some ⟨entry, none⟩ =>
          some (s.setCall call ⟨entry, some (List.range s.clients.length)⟩)
      | _ => none
  | .write call copy =>
      match s.calls[call]? with
      | some ⟨entry, some copies⟩ =>
          copies[copy]?.bind fun client => s.clients[client]?.map fun x =>
            (s.setCall call ⟨entry, some (copies.eraseIdx copy)⟩).deliver client x (entry, call)
      | _ => none
  | .accept => some { s with clients := s.clients ++ [⟨.handshaking, []⟩] }
  | .handshake client =>
      match s.clients[client]? with
      | some ⟨.handshaking, delivered⟩ => some (s.setClient client ⟨.greeted, delivered⟩)
      | _ => none
  | .snapshot client =>
      match s.clients[client]? with
      | some ⟨.greeted, delivered⟩ =>
          some (s.setClient client ⟨.connected s.calls.length s.takeSnapshot, delivered⟩)
      | _ => none
  | .backfill client =>
      match s.clients[client]? with
      | some ⟨.connected taken (entry :: backlog), delivered⟩ =>
          some (s.deliver client ⟨.connected taken backlog, delivered⟩ entry)
      | _ => none

end System

/-! ### What is due -/

/-- A call has copied the table, and has not to write to a client any more. -/
def Call.Done (call : Call) (client : Nat) : Prop :=
  match call.copies with
  | none => False
  | some copies => client ∉ copies

instance Call.decidableDone : ∀ (call : Call) (client : Nat), Decidable (call.Done client)
  | ⟨_, none⟩, _ => isFalse id
  | ⟨_, some copies⟩, client => inferInstanceAs (Decidable (client ∉ copies))

/-- The last 100 of the entries pushed before a snapshot, and the entries pushed after it. -/
def due (s : System) (taken : Nat) : List Numbered :=
  Numbered.tail s.logged (taken - min LogBroadcaster.backfillCount taken)

/-- What was written to a client, with the rest of its snapshot behind it, is a part of what is
due, from the start of it; and it is all of it when no entry is left to write. Nothing was
written before the snapshot. -/
def Streamed (s : System) (client : Nat) (x : Client) : Prop :=
  match x.phase with
  | .connected taken backlog =>
      x.delivered ++ backlog <+: due s taken ∧
        (backlog = [] → (∀ call ∈ s.calls, call.Done client) → x.delivered = due s taken)
  | _ => x.delivered = []

/-- Every client has got what it is due. -/
def Streams (s : System) : Prop :=
  ∀ (client : Nat) (x : Client), s.clients[client]? = some x → Streamed s client x

/-- It is the turn of the call that has pushed an entry to write to a client: the client has
taken its snapshot, and before that call pushed the entry, it has written all of it, and the
calls that have pushed in between have nothing left to write to the client. -/
def Turn (s : System) (client : Nat) (x : Client) (call : Nat) : Prop :=
  match x.phase with
  | .connected taken backlog =>
      taken ≤ call ∧ backlog = [] ∧
        ∀ other < call, taken ≤ other → ∀ y ∈ s.calls[other]?, y.Done client
  | _ => False

instance decidableTurn (s : System) (client : Nat) : ∀ (x : Client) (call : Nat),
    Decidable (Turn s client x call)
  | ⟨.handshaking, _⟩, _ => isFalse id
  | ⟨.greeted, _⟩, _ => isFalse id
  | ⟨.connected taken backlog, _⟩, call =>
      inferInstanceAs (Decidable (taken ≤ call ∧ backlog = [] ∧
        ∀ other < call, taken ≤ other → ∀ y ∈ s.calls[other]?, y.Done client))

/-- Calls of `log` write to a client when it is their turn. -/
def Orderly (s : System) : Act → Prop
  | .write call copy => ∀ y ∈ s.calls[call]?, ∀ copies ∈ y.copies, ∀ client ∈ copies[copy]?,
      ∀ x ∈ s.clients[client]?, Turn s client x call
  | _ => True

instance decidableOrderly (s : System) : ∀ a : Act, Decidable (Orderly s a)
  | .write call copy =>
      inferInstanceAs (Decidable (∀ y ∈ s.calls[call]?, ∀ copies ∈ y.copies,
        ∀ client ∈ copies[copy]?, ∀ x ∈ s.clients[client]?, Turn s client x call))
  | .push _ | .copy _ | .accept | .handshake _ | .snapshot _ | .backfill _ => isTrue trivial

/-- The steps, each with the state it is taken in. -/
inductive Step : System → Act → System → Prop where
  | push {s} (entry : LogEntry) :
      Step s (.push entry) { s with
        broadcaster := s.broadcaster.push entry
        calls := s.calls ++ [⟨entry, none⟩] }
  | copy {s} (call : Nat) (entry : LogEntry) (h : s.calls[call]? = some ⟨entry, none⟩) :
      Step s (.copy call) (s.setCall call ⟨entry, some (List.range s.clients.length)⟩)
  | write {s} (call copy : Nat) (entry : LogEntry) (copies : List Nat) (client : Nat) (x : Client)
      (h : s.calls[call]? = some ⟨entry, some copies⟩) (h' : copies[copy]? = some client)
      (h'' : s.clients[client]? = some x) :
      Step s (.write call copy)
        ((s.setCall call ⟨entry, some (copies.eraseIdx copy)⟩).deliver client x (entry, call))
  | accept {s} : Step s .accept { s with clients := s.clients ++ [⟨.handshaking, []⟩] }
  | handshake {s} (client : Nat) (delivered : List Numbered)
      (h : s.clients[client]? = some ⟨.handshaking, delivered⟩) :
      Step s (.handshake client) (s.setClient client ⟨.greeted, delivered⟩)
  | snapshot {s} (client : Nat) (delivered : List Numbered)
      (h : s.clients[client]? = some ⟨.greeted, delivered⟩) :
      Step s (.snapshot client)
        (s.setClient client ⟨.connected s.calls.length s.takeSnapshot, delivered⟩)
  | backfill {s} (client taken : Nat) (entry : Numbered) (backlog delivered : List Numbered)
      (h : s.clients[client]? = some ⟨.connected taken (entry :: backlog), delivered⟩) :
      Step s (.backfill client)
        (s.deliver client ⟨.connected taken backlog, delivered⟩ entry)

/-- What `System.step` does is one of the steps. -/
theorem Step.of_step
    {s u : System} {a : Act} (h : s.step a = some u) :
  Step s a u
  := by
  cases a with
  | push entry =>
      obtain rfl := Option.some.inj h
      apply Step.push
  | copy call =>
      simp only [System.step] at h
      split at h
      next entry hcall =>
        obtain rfl := Option.some.inj h
        apply Step.copy call entry hcall
      next => cases h
  | write call copy =>
      simp only [System.step] at h
      split at h
      next entry copies hcall =>
        obtain ⟨client, hclient, h⟩ := Option.bind_eq_some_iff.mp h
        obtain ⟨x, hx, rfl⟩ := Option.map_eq_some_iff.mp h
        apply Step.write call copy entry copies client x hcall hclient hx
      next => cases h
  | accept =>
      obtain rfl := Option.some.inj h
      apply Step.accept
  | handshake client =>
      simp only [System.step] at h
      split at h
      next delivered hclient =>
        obtain rfl := Option.some.inj h
        apply Step.handshake client delivered hclient
      next => cases h
  | snapshot client =>
      simp only [System.step] at h
      split at h
      next delivered hclient =>
        obtain rfl := Option.some.inj h
        apply Step.snapshot client delivered hclient
      next => cases h
  | backfill client =>
      simp only [System.step] at h
      split at h
      next taken entry backlog delivered hclient =>
        obtain rfl := Option.some.inj h
        apply Step.backfill client taken entry backlog delivered hclient
      next => cases h

/-! ### What holds in every run -/

/-- A client in any run: it was written entries that had been pushed; and of the entries pushed
after its snapshot it was written those whose call has nothing left to write to it. -/
structure Sound (s : System) (client : Nat) (x : Client) : Prop where
  pushed : ∀ e ∈ x.delivered, e.2 < s.calls.length
  taken : ∀ taken backlog, x.phase = .connected taken backlog → taken ≤ s.calls.length
  backfill : ∀ taken backlog, x.phase = .connected taken backlog →
    min LogBroadcaster.backfillCount taken ≤ x.delivered.length + backlog.length
      ∧ ∀ e ∈ backlog, e.2 < taken
  live : ∀ taken backlog, x.phase = .connected taken backlog → ∀ (call : Nat) (y : Call),
    taken ≤ call → s.calls[call]? = some y →
      ((∃ e ∈ x.delivered, e.2 = call) ↔ y.Done client)

/-- The buffer has the last 500 entries, and a call writes to a client once. -/
structure Inv (s : System) : Prop where
  buffer : s.broadcaster.buffer = s.logged.rtake LogBroadcaster.bufferMax
  copies : ∀ (call : Nat) (entry : LogEntry) (copies : List Nat),
    s.calls[call]? = some ⟨entry, some copies⟩ → copies.Nodup
  sound : ∀ (client : Nat) (x : Client), s.clients[client]? = some x → Sound s client x

/-- A client goes on as it was where calls have as much left to write to it as before. -/
theorem Sound.of_calls
    {s u : System} {client : Nat} {x : Client} (h : Sound s client x)
    (hlength : s.calls.length ≤ u.calls.length)
    (hdone : ∀ (call : Nat) (y : Call), u.calls[call]? = some y →
      (y.Done client ↔ ∃ y', s.calls[call]? = some y' ∧ y'.Done client)) :
  Sound u client x
  := by
  constructor
  · intro e he
    apply (h.pushed e he).trans_le hlength
  · intro taken backlog hphase
    apply (h.taken taken backlog hphase).trans hlength
  · apply h.backfill
  · intro taken backlog hphase call y hcall hy
    rw [hdone call y hy]
    constructor
    · rintro ⟨e, he, rfl⟩
      obtain ⟨y', hy'⟩ : ∃ y', s.calls[e.2]? = some y' :=
        ⟨_, List.getElem?_eq_getElem (h.pushed e he)⟩
      use y', hy'
      apply (h.live taken backlog hphase e.2 _ hcall hy').mp
      use e
    · rintro ⟨y', hy', hdone⟩
      apply (h.live taken backlog hphase call y' hcall hy').mpr hdone

theorem getElem?_setCall
    {s : System} {call : Nat} {y y' : Call} (hy : s.calls[call]? = some y) (other : Nat) :
  (s.setCall call y').calls[other]? = if call = other then some y' else s.calls[other]?
  := by
  obtain ⟨hlt, -⟩ := List.getElem?_eq_some_iff.mp hy
  rw [System.setCall, List.getElem?_set, if_pos hlt]

theorem getElem?_setClient
    {s : System} {client : Nat} {x x' : Client} (hx : s.clients[client]? = some x) (other : Nat) :
  (s.setClient client x').clients[other]? = if client = other then some x' else s.clients[other]?
  := by
  obtain ⟨hlt, -⟩ := List.getElem?_eq_some_iff.mp hx
  rw [System.setClient, List.getElem?_set, if_pos hlt]

/-- A copy that is written to is taken from the copies, which have it once. -/
theorem mem_eraseIdx_iff
    {copies : List Nat} {copy client : Nat} (hnodup : copies.Nodup)
    (h : copies[copy]? = some client) (other : Nat) :
  other ∈ copies.eraseIdx copy ↔ other ≠ client ∧ other ∈ copies
  := by
  obtain ⟨hlt, rfl⟩ := List.getElem?_eq_some_iff.mp h
  rw [List.mem_eraseIdx_iff_getElem?, List.mem_iff_getElem?]
  constructor
  · rintro ⟨i, hne, hi⟩
    constructor
    · rintro rfl
      apply hne
      apply (List.getElem?_inj (List.getElem?_eq_some_iff.mp hi).1 hnodup).mp
      rw [hi, h]
    · use i
  · rintro ⟨hne, i, hi⟩
    use i
    constructor
    · rintro rfl
      rw [h] at hi
      apply hne (Option.some.inj hi).symm
    · apply hi

/-- What a call still has to write to the other clients stays as it was. -/
theorem done_write
    {s : System} {call copy client other : Nat} {entry : LogEntry} {copies : List Nat}
    (hnodup : copies.Nodup) (hcall : s.calls[call]? = some ⟨entry, some copies⟩)
    (hcopy : copies[copy]? = some client) (hne : other ≠ client) (k : Nat) (y : Call)
    (hy : (s.setCall call ⟨entry, some (copies.eraseIdx copy)⟩).calls[k]? = some y) :
  y.Done other ↔ ∃ y', s.calls[k]? = some y' ∧ y'.Done other
  := by
  rw [getElem?_setCall hcall] at hy
  split at hy
  next hk =>
    subst hk
    obtain rfl := Option.some.inj hy
    simp only [Call.Done, hcall, mem_eraseIdx_iff hnodup hcopy, hne, ne_eq, not_false_eq_true,
      true_and, Option.some.injEq, exists_eq_left']
  next => simp only [hy, Option.some.injEq, exists_eq_left']

theorem number_of_mem_due {s : System} {taken : Nat} {e : Numbered} (h : e ∈ due s taken) :
  e.2 < s.calls.length
  := by
  have hlength : s.logged.length = s.calls.length := List.length_map _
  rw [← hlength]
  have hposition := (Numbered.position_mem_iff (List.prefix_refl (due s taken)) e.2).mp ⟨e, h, rfl⟩
  rw [due, Numbered.length_tail] at hposition
  omega

/-- A client that is written an entry by the call that has pushed it. -/
theorem Sound.write
    {s : System} {call copy client : Nat} {entry : LogEntry} {copies : List Nat} {x : Client}
    (h : Sound s client x) (hnodup : copies.Nodup)
    (hcall : s.calls[call]? = some ⟨entry, some copies⟩) (hcopy : copies[copy]? = some client) :
  Sound ((s.setCall call ⟨entry, some (copies.eraseIdx copy)⟩).deliver client x (entry, call))
    client { x with delivered := x.delivered ++ [(entry, call)] }
  := by
  obtain ⟨hlt, -⟩ := List.getElem?_eq_some_iff.mp hcall
  have hlength : ((s.setCall call ⟨entry, some (copies.eraseIdx copy)⟩).deliver client x
      (entry, call)).calls.length = s.calls.length := by
    simp [System.setCall, System.deliver, System.setClient]
  constructor
  · intro e he
    rw [hlength]
    rcases List.mem_append.mp he with he | he
    · apply h.pushed e he
    · rw [List.mem_singleton.mp he]
      apply hlt
  · intro taken backlog hphase
    rw [hlength]
    apply h.taken taken backlog hphase
  · intro taken backlog hphase
    obtain ⟨hcount, hbacklog⟩ := h.backfill taken backlog hphase
    constructor
    · rw [List.length_append]
      omega
    · apply hbacklog
  · intro taken backlog hphase other y hother hy
    change (s.setCall call _).calls[other]? = _ at hy
    rw [getElem?_setCall hcall] at hy
    split at hy
    next heq =>
      subst heq
      obtain rfl := Option.some.inj hy
      simp [Call.Done, mem_eraseIdx_iff hnodup hcopy]
    next hne =>
      rw [← h.live taken backlog hphase other y hother hy]
      simp [hne]

theorem logged_setCall
    {s : System} {call : Nat} {entry : LogEntry} {copies copies' : Option (List Nat)}
    (hcall : s.calls[call]? = some ⟨entry, copies⟩) :
  (s.setCall call ⟨entry, copies'⟩).logged = s.logged
  := by
  apply List.ext_getElem?
  intro other
  rw [System.logged, List.getElem?_map, getElem?_setCall hcall, System.logged, List.getElem?_map]
  split
  next heq =>
    rw [← heq, hcall]
    rfl
  next => rfl

/-- The end of a list is the same with or without what was cut off in front of it. -/
theorem rtake_concat_rtake {α : Type} (xs : List α) (x : α) (k : Nat) :
  (xs.rtake k ++ [x]).rtake k = (xs ++ [x]).rtake k
  := by
  cases k with
  | zero => simp
  | succ k =>
      rw [List.rtake_concat_succ, List.rtake_concat_succ, List.rtake, List.rtake, List.rtake,
        List.drop_drop, List.length_drop]
      congr 2
      omega

namespace Inv

variable {s u : System} {a : Act}

theorem init :
  Inv System.init
  := by
  constructor
  · rfl
  · intro call entry copies h
    simp [System.init] at h
  · intro client x h
    simp [System.init] at h

/-- A client whose thread goes on. -/
theorem setClient
    (h : Inv s) {client : Nat} {x x' : Client} (hx : s.clients[client]? = some x)
    (hx' : Sound s client x') :
  Inv (s.setClient client x')
  := by
  constructor
  · apply h.buffer
  · apply h.copies
  · intro other y hy
    rw [getElem?_setClient hx] at hy
    split at hy
    next heq =>
      subst heq
      obtain rfl := Option.some.inj hy
      exact ⟨hx'.pushed, hx'.taken, hx'.backfill, hx'.live⟩
    next =>
      have hy := h.sound other y hy
      exact ⟨hy.pushed, hy.taken, hy.backfill, hy.live⟩

theorem push (h : Inv s) (entry : LogEntry) :
  Inv { s with
    broadcaster := s.broadcaster.push entry
    calls := s.calls ++ [⟨entry, none⟩] }
  := by
  constructor
  · rw [LogBroadcaster.buffer_push, h.buffer, rtake_concat_rtake]
    simp only [System.logged, List.map_append, List.map_singleton]
  · intro call entry' copies hcall
    rcases Lts.getElem?_concat_eq_some.mp hcall with hcall | ⟨-, hnew⟩
    · apply h.copies call entry' copies hcall
    · cases hnew
  · intro client x hx
    apply (h.sound client x hx).of_calls
    · simp
    · intro call y hy
      rcases Lts.getElem?_concat_eq_some.mp hy with hy | ⟨rfl, rfl⟩
      · simp [hy]
      · simp [Call.Done]

theorem copy
    (h : Inv s) {call : Nat} {entry : LogEntry} (hcall : s.calls[call]? = some ⟨entry, none⟩) :
  Inv (s.setCall call ⟨entry, some (List.range s.clients.length)⟩)
  := by
  constructor
  · rw [logged_setCall hcall]
    apply h.buffer
  · intro other entry' copies hother
    rw [getElem?_setCall hcall] at hother
    split at hother
    next =>
      cases hother
      apply List.nodup_range
    next => apply h.copies other entry' copies hother
  · intro client x hx
    have hlt : client < s.clients.length := (List.getElem?_eq_some_iff.mp hx).1
    apply (h.sound client x hx).of_calls
    · simp [System.setCall]
    · intro other y hy
      rw [getElem?_setCall hcall] at hy
      split at hy
      next heq =>
        subst heq
        obtain rfl := Option.some.inj hy
        simp [Call.Done, hcall, hlt]
      next => simp [hy]

theorem accept (h : Inv s) :
  Inv { s with clients := s.clients ++ [⟨.handshaking, []⟩] }
  := by
  constructor
  · apply h.buffer
  · apply h.copies
  · intro client x hx
    rcases Lts.getElem?_concat_eq_some.mp hx with hx | ⟨-, rfl⟩
    · have hx := h.sound client x hx
      exact ⟨hx.pushed, hx.taken, hx.backfill, hx.live⟩
    · constructor <;> simp

/-- A client that is written an entry by the call that has pushed it. -/
theorem write
    (h : Inv s) {call copy : Nat} {entry : LogEntry} {copies : List Nat} {client : Nat}
    {x : Client} (hcall : s.calls[call]? = some ⟨entry, some copies⟩)
    (hcopy : copies[copy]? = some client) (hx : s.clients[client]? = some x) :
  Inv ((s.setCall call ⟨entry, some (copies.eraseIdx copy)⟩).deliver client x (entry, call))
  := by
  have hnodup := h.copies call entry copies hcall
  obtain ⟨hlt, -⟩ := List.getElem?_eq_some_iff.mp hcall
  constructor
  · change _ = (s.setCall call ⟨entry, some (copies.eraseIdx copy)⟩).logged.rtake _
    rw [logged_setCall hcall]
    apply h.buffer
  · intro other entry' copies' hother
    change (s.setCall call _).calls[other]? = _ at hother
    rw [getElem?_setCall hcall] at hother
    split at hother
    next =>
      cases hother
      apply hnodup.eraseIdx
    next => apply h.copies other entry' copies' hother
  · intro other y hy
    change ((s.setCall call _).setClient client _).clients[other]? = _ at hy
    rw [getElem?_setClient (s := s.setCall call _) hx] at hy
    split at hy
    next heq =>
      subst heq
      obtain rfl := Option.some.inj hy
      apply (h.sound client x hx).write hnodup hcall hcopy
    next hne =>
      apply (h.sound other y hy).of_calls
      · simp [System.setCall, System.deliver, System.setClient]
      · apply done_write hnodup hcall hcopy
        rintro rfl
        apply hne rfl

/-- A snapshot has the last 100 entries, or all if they are fewer. -/
theorem snapshot_eq (h : Inv s) :
  s.broadcaster.snapshot
    = s.logged.drop (s.calls.length - min LogBroadcaster.backfillCount s.calls.length)
  := by
  have hlength : s.logged.length = s.calls.length := List.length_map _
  have hmax : LogBroadcaster.bufferMax = 500 := rfl
  have hbackfill : LogBroadcaster.backfillCount = 100 := rfl
  have hstart : ∀ n, n - LogBroadcaster.bufferMax
      + (if n - (n - LogBroadcaster.bufferMax) > LogBroadcaster.backfillCount
        then n - (n - LogBroadcaster.bufferMax) - LogBroadcaster.backfillCount else 0)
        = n - min LogBroadcaster.backfillCount n := by
    intro n
    rw [hmax, hbackfill]
    split <;> omega
  rw [LogBroadcaster.snapshot, h.buffer, List.rtake, List.drop_drop, List.length_drop, hlength,
    hstart]

/-- The entries of a snapshot are the ones that are due when it is taken. -/
theorem takeSnapshot_eq (h : Inv s) :
  s.takeSnapshot = due s s.calls.length
  := by
  have hlength : s.broadcaster.snapshot.length
      = min LogBroadcaster.backfillCount s.calls.length := by
    rw [h.snapshot_eq, List.length_drop, System.logged, List.length_map]
    omega
  rw [System.takeSnapshot, hlength, h.snapshot_eq, Numbered.zipIdx_drop, due]

theorem step
    (h : Inv s) (hstep : Step s a u) :
  Inv u
  := by
  cases hstep with
  | push entry => apply h.push
  | copy call entry hcall => apply h.copy hcall
  | write call copy entry copies client x hcall hcopy hx => apply h.write hcall hcopy hx
  | accept => apply h.accept
  | handshake client delivered hx =>
      have hsound := h.sound client _ hx
      apply h.setClient hx
      constructor
      · apply hsound.pushed
      · rintro taken backlog ⟨⟩
      · rintro taken backlog ⟨⟩
      · rintro taken backlog ⟨⟩
  | snapshot client delivered hx =>
      have hsound := h.sound client _ hx
      apply h.setClient hx
      constructor
      · apply hsound.pushed
      · rintro taken backlog ⟨⟩
        apply le_rfl
      · rintro taken backlog ⟨⟩
        rw [h.takeSnapshot_eq]
        constructor
        · rw [due, Numbered.length_tail, System.logged, List.length_map]
          omega
        · intro e he
          apply number_of_mem_due he
      · rintro taken backlog ⟨⟩ call y hcall hy
        obtain ⟨hlt, -⟩ := List.getElem?_eq_some_iff.mp hy
        omega
  | backfill client taken entry backlog delivered hx =>
      have hsound := h.sound client _ hx
      obtain ⟨hcount, hbacklog⟩ := hsound.backfill taken _ rfl
      have hentry := hbacklog entry List.mem_cons_self
      have htaken := hsound.taken taken _ rfl
      apply h.setClient hx
      constructor
      · intro e he
        rcases List.mem_append.mp he with he | he
        · apply hsound.pushed e he
        · rw [List.mem_singleton.mp he]
          omega
      · rintro taken backlog ⟨⟩
        apply htaken
      · rintro taken backlog ⟨⟩
        constructor
        · dsimp only at hcount ⊢
          rw [List.length_append, List.length_singleton]
          rw [List.length_cons] at hcount
          omega
        · intro e he
          apply hbacklog e (List.mem_cons_of_mem entry he)
      · rintro taken backlog ⟨⟩ call y hcall hy
        have hne : entry.2 ≠ call := by omega
        rw [← hsound.live taken _ rfl call y hcall hy]
        simp [hne]

end Inv

/-! ### The order of entries -/

/-- What was written to a client, with the rest of its snapshot behind it, is in order. -/
def InOrder (s : System) (x : Client) : Prop :=
  match x.phase with
  | .connected taken backlog => x.delivered ++ backlog <+: due s taken
  | _ => x.delivered = []

/-- Entries that are in order are all there when none is left to write. -/
theorem streamed_iff_inOrder
    {s : System} {client : Nat} {x : Client} (h : Sound s client x) :
  Streamed s client x ↔ InOrder s x
  := by
  unfold Streamed InOrder
  split
  next taken backlog hphase =>
    constructor
    · intro hstreamed
      apply hstreamed.1
    · intro hprefix
      use hprefix
      rintro rfl hdone
      rw [List.append_nil] at hprefix
      have hlength : s.logged.length = s.calls.length := List.length_map _
      have htaken := h.taken taken [] hphase
      obtain ⟨hcount, -⟩ := h.backfill taken [] hphase
      apply Numbered.eq_tail hprefix
      rw [hlength]
      by_cases hlive : taken < s.calls.length
      · -- the last call has nothing left to write
        obtain ⟨y, hy⟩ : ∃ y, s.calls[s.calls.length - 1]? = some y :=
          ⟨_, List.getElem?_eq_getElem (by omega)⟩
        have hlast := (h.live taken [] hphase (s.calls.length - 1) y (by omega) hy).mpr
          (hdone y (List.mem_of_getElem? hy))
        have hposition := (Numbered.position_mem_iff hprefix _).mp hlast
        omega
      · rw [List.length_nil] at hcount
        omega
  next => rfl

/-- A call may write to a client, whose entries are in order so far, just if it is its turn. -/
theorem inOrder_write_iff
    {s : System} (h : Inv s) {call copy client : Nat} {entry : LogEntry} {copies : List Nat}
    {x : Client} (hcall : s.calls[call]? = some ⟨entry, some copies⟩)
    (hcopy : copies[copy]? = some client) (hx : s.clients[client]? = some x)
    (hinOrder : InOrder s x) :
  InOrder s { x with delivered := x.delivered ++ [(entry, call)] } ↔ Turn s client x call
  := by
  have hsound := h.sound client x hx
  obtain ⟨phase, delivered⟩ := x
  cases phase with
  | handshaking => simp [InOrder, Turn]
  | greeted => simp [InOrder, Turn]
  | connected taken backlog =>
      change delivered ++ backlog <+: due s taken at hinOrder
      change (delivered ++ [(entry, call)]) ++ backlog <+: due s taken
        ↔ taken ≤ call ∧ backlog = [] ∧ _
      have hdelivered := (List.prefix_append delivered backlog).trans hinOrder
      obtain ⟨hcount, -⟩ := hsound.backfill taken backlog rfl
      have hlive := hsound.live taken backlog rfl
      have hposition := Numbered.position_mem_iff hdelivered
      dsimp only at hcount hlive
      constructor
      · intro hwritten
        have hnext := (List.prefix_append _ backlog).trans hwritten
        obtain ⟨-, hcallPosition, -⟩ := Numbered.concat_prefix_iff.mp hnext
        have hbacklog : backlog = [] := Numbered.eq_nil_of_insert_prefix hinOrder hwritten
        subst hbacklog
        rw [List.length_nil] at hcount
        dsimp only at hcallPosition
        refine ⟨by omega, rfl, ?_⟩
        intro other hother htaken y hy
        apply (hlive other y htaken hy).mp
        apply (hposition other).mpr
        omega
      · rintro ⟨htaken, rfl, hothers⟩
        rw [List.length_nil] at hcount
        rw [List.append_nil, due, Numbered.concat_prefix_iff]
        use hdelivered
        have hnotDone : ¬ Call.Done ⟨entry, some copies⟩ client := by
          simpa [Call.Done] using List.mem_of_getElem? hcopy
        have hnot := (hlive call _ htaken hcall).not.mpr hnotDone
        rw [hposition] at hnot
        constructor
        · -- the entry that is due next is of no earlier call
          by_contra hne
          dsimp only at hne
          set next := taken - min LogBroadcaster.backfillCount taken + delivered.length
          obtain ⟨y, hy⟩ : ∃ y, s.calls[next]? = some y := by
            obtain ⟨hlt, -⟩ := List.getElem?_eq_some_iff.mp hcall
            exact ⟨_, List.getElem?_eq_getElem (by omega)⟩
          have hnext := (hlive next y (by omega) hy).mpr
            (hothers next (by omega) (by omega) y hy)
          have := (hposition next).mp hnext
          omega
        · simp [System.logged, hcall]

/-- The entries of every client are in order. -/
def AllInOrder (s : System) : Prop :=
  ∀ (client : Nat) (x : Client), s.clients[client]? = some x → InOrder s x

theorem streams_iff_allInOrder {s : System} (h : Inv s) :
  Streams s ↔ AllInOrder s
  := by
  constructor
  · intro hstreams client x hx
    apply (streamed_iff_inOrder (h.sound client x hx)).mp (hstreams client x hx)
  · intro hinOrder client x hx
    apply (streamed_iff_inOrder (h.sound client x hx)).mpr (hinOrder client x hx)

theorem inOrder_congr {s u : System} (h : u.logged = s.logged) (x : Client) :
  InOrder u x ↔ InOrder s x
  := by
  unfold InOrder due
  rw [h]

/-- An entry that is pushed is due behind the others. -/
theorem InOrder.push
    {s : System} {client : Nat} {x : Client} (h : InOrder s x) (hsound : Sound s client x)
    (broadcaster : LogBroadcaster) (entry : LogEntry) :
  InOrder { s with broadcaster, calls := s.calls ++ [⟨entry, none⟩] } x
  := by
  obtain ⟨phase, delivered⟩ := x
  cases phase with
  | handshaking => apply h
  | greeted => apply h
  | connected taken backlog =>
      have htaken := hsound.taken taken backlog rfl
      have hstart : taken - min LogBroadcaster.backfillCount taken ≤ s.logged.length := by
        rw [System.logged, List.length_map]
        omega
      apply List.IsPrefix.trans h
      simp only [due, System.logged, List.map_append, List.map_singleton]
      rw [System.logged] at hstart
      rw [Numbered.tail_concat hstart]
      apply List.prefix_append

/-- Of a client whose thread goes on, the entries are to be looked at anew. -/
theorem allInOrder_setClient_iff
    {s : System} (h : AllInOrder s) {client : Nat} {x x' : Client}
    (hx : s.clients[client]? = some x) :
  AllInOrder (s.setClient client x') ↔ InOrder s x'
  := by
  constructor
  · intro hall
    apply hall client x'
    rw [getElem?_setClient hx, if_pos rfl]
  · intro hx' other y hy
    rw [getElem?_setClient hx] at hy
    split at hy
    next =>
      obtain rfl := Option.some.inj hy
      apply hx'
    next => apply h other y hy

/-- A step keeps the entries in order just if it is orderly. -/
theorem allInOrder_step_iff
    {s u : System} {a : Act} (h : Inv s) (hinOrder : AllInOrder s) (hstep : Step s a u) :
  AllInOrder u ↔ Orderly s a
  := by
  cases hstep with
  | push entry =>
      simp only [Orderly, iff_true]
      intro client x hx
      apply (hinOrder client x hx).push (h.sound client x hx)
  | copy call entry hcall =>
      simp only [Orderly, iff_true]
      intro client x hx
      rw [inOrder_congr (logged_setCall hcall)]
      apply hinOrder client x hx
  | write call copy entry copies client x hcall hcopy hx =>
      have hset : AllInOrder (s.setCall call ⟨entry, some (copies.eraseIdx copy)⟩) := by
        intro other y hy
        rw [inOrder_congr (logged_setCall hcall)]
        apply hinOrder other y hy
      rw [System.deliver, allInOrder_setClient_iff hset hx, inOrder_congr (logged_setCall hcall),
        inOrder_write_iff h hcall hcopy hx (hinOrder client x hx)]
      simp [Orderly, hcall, hcopy, hx]
  | accept =>
      simp only [Orderly, iff_true]
      intro client x hx
      rcases Lts.getElem?_concat_eq_some.mp hx with hx | ⟨-, rfl⟩
      · apply hinOrder client x hx
      · rfl
  | handshake client delivered hx =>
      simp only [Orderly, iff_true]
      apply (allInOrder_setClient_iff hinOrder hx).mpr
      apply hinOrder client _ hx
  | snapshot client delivered hx =>
      have hnone : delivered = [] := hinOrder client _ hx
      simp only [Orderly, iff_true]
      apply (allInOrder_setClient_iff hinOrder hx).mpr
      change delivered ++ s.takeSnapshot <+: _
      simp [hnone, h.takeSnapshot_eq]
  | backfill client taken entry backlog delivered hx =>
      have hdue : delivered ++ entry :: backlog <+: due s taken := hinOrder client _ hx
      simp only [Orderly, iff_true]
      apply (allInOrder_setClient_iff hinOrder hx).mpr
      change (delivered ++ [entry]) ++ backlog <+: _
      rw [List.append_assoc]
      apply hdue

/-- In all states of a run the entries have been written to the clients as they are due, just
if calls write to clients in their turn. -/
theorem streams_iff
    {as : List Act} {s : System} (h : Lts.run System.step .init as = some s) :
  (∀ bs u, bs <+: as → Lts.run System.step .init bs = some u → Streams u)
    ↔ Lts.Guarded System.step Orderly .init as
  := by
  have hinit : AllInOrder .init := by
    intro client x hx
    simp [System.init] at hx
  apply Lts.forall_run_iff_guarded (I := Inv) Inv.init
  · apply (streams_iff_allInOrder Inv.init).mpr hinit
  · intro t a u ht hstep
    apply ht.step (Step.of_step hstep)
  · intro t a u ht hstreams hstep
    have hu := ht.step (Step.of_step hstep)
    rw [streams_iff_allInOrder ht] at hstreams
    rw [streams_iff_allInOrder hu]
    apply allInOrder_step_iff ht hstreams (Step.of_step hstep)
  · apply h

/-- An entry of the program's start. -/
def started : LogEntry where
  level := Bytes.ofAscii "info"
  source := Bytes.ofAscii "HttpServer"
  message := Bytes.ofAscii "Started"
  timestamp := Bytes.ofAscii "2026-01-12T14:23:01.007Z"

/-- An entry is pushed when a client has taken its snapshot. -/
def live : List Act :=
  [.accept, .handshake 0, .snapshot 0, .push started, .copy 0, .write 0 0]

theorem streams_live :
  Lts.Guarded System.step Orderly .init live ∧
    ∀ bs u, bs <+: live → Lts.run System.step .init bs = some u → Streams u
  := by
  have hguarded : Lts.Guarded System.step Orderly .init live := by decide
  use hguarded
  apply (streams_iff rfl).mpr hguarded

/-- An entry is pushed; a client comes and takes its snapshot, with the entry; and only then
does the call copy the table, with the client. -/
def overlap : List Act :=
  [.push started, .accept, .handshake 0, .snapshot 0, .copy 0, .backfill 0, .write 0 0]

theorem not_streams :
  ¬ ∀ (as : List Act) (s : System), Lts.run System.step .init as = some s → Streams s
  := by
  intro h
  have htwice := h overlap
    { broadcaster := LogBroadcaster.init.push started
      calls := [⟨started, some []⟩]
      clients := [⟨.connected 1 [], [(started, 0), (started, 0)]⟩] } rfl 0 _ rfl
  exact absurd htwice.1 (by decide)

end LogStream

end NexusMainframe
