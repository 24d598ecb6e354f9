import NexusMainframe.Lib.Ownership
import NexusMainframe.Mqtt.Client

/-!
# The life of an MQTT client

A client is connected and disconnected, its receive thread reads what the broker sends until
the connection ends, and at last it is destroyed. `Life` has the client, where its threads are,
and what was done with the sockets that it got.

The client says that it is connected as soon as a socket is, whatever the broker answers. It
closes its socket in every `disconnect`, also when it has closed it before, and a `connect`
forgets the one before.
-/

namespace NexusMainframe

namespace MQTTClient

open Ownership

/-- Where the receive thread is: not started or joined, at the head of its loop, in `recv`, or
at its end. -/
inductive Receiver where
  | none
  | head
  | receiving
  | ended
deriving DecidableEq

/-- Where the calls of the client are: outside; in a `disconnect`, that of the destructor if
`final`, which waits for the threads; behind the destructor; or at the end of the process,
after an assignment to a joinable thread. -/
inductive Phase where
  | idle
  | stopping (final : Bool)
  | destroyed
  | terminated
deriving DecidableEq

/-- A client with its history. The sockets that it got are numbered; `uses` is what it did
with them. `received` is what came on the current connection, if there is one, and `broken`
says that the receive loop has ended on it by itself. -/
structure Life where
  client : MQTTClient
  receiver : Receiver
  phase : Phase
  obtained : Nat
  uses : List (Use Nat)
  received : Option Bytes
  broken : Bool
deriving DecidableEq

namespace Life

/-- A client that has not been connected. -/
def init (clientId : Bytes) : Life where
  client := .init clientId
  receiver := .none
  phase := .idle
  obtained := 0
  uses := []
  received := none
  broken := false

/-- What happens: a call of `connect`, with the results of the system calls in it; the start
and the end of a `disconnect` or of the destructor; and the steps of the receive thread. The
ping thread changes nothing here, and it ends when the client is not running. -/
inductive Act where
  | connect (sock status sent : Int)
  | stop (final : Bool)
  | join
  | loop
  | recv (result : Recv)
deriving DecidableEq

/-- What is done with the socket in a `close`; a negative one is not closed. -/
def closes (s : Life) : List (Use Nat) :=
  if s.client.sock < 0 then [] else [.released (s.obtained - 1)]

/-- `connect`, up to its return or to the end of the process. -/
def connect (s : Life) (sock status sent : Int) : Life :=
  let (result, client, _) := s.client.connect sock status sent
  let s := { s with client := client, received := none, broken := false }
  let s :=
    if sock < 0 then s
    else { s with obtained := s.obtained + 1, uses := s.uses ++ [.acquired s.obtained] }
  match result with
  | none => { s with phase := .terminated, received := some [] }
  | some true => { s with receiver := .head, received := some [] }
  | some false => s

/-- What the receive thread does with a result of `recv`. -/
def receive (s : Life) : Recv → Life
  | .data chunk => { s with receiver := .head, received := s.received.map (· ++ chunk) }
  | .closed =>
      { s with
        client := { s.client with connected := false }
        receiver := .ended
        broken := true }
  | .again => { s with receiver := .head }
  | .error => { s with receiver := .ended, broken := true }

/-- The calls come one after the other; the receive thread goes on in between. -/
def step (s : Life) : Act → Option Life
  | .connect sock status sent =>
      if s.phase = .idle then some (s.connect sock status sent) else none
  | .stop final =>
      if s.phase = .idle then
        some { s with client := { s.client with running := false }, phase := .stopping final }
      else none
  | .join =>
      match s.phase with
      | .stopping final =>
          if s.receiver = .none ∨ s.receiver = .ended then
            some { s with
              client := s.client.disconnect.1
              receiver := .none
              phase := if final then .destroyed else .idle
              uses := s.uses ++ s.closes }
          else none
      | _ => none
  | .loop =>
      if s.receiver = .head ∧ s.phase ≠ .terminated then
        some { s with receiver := if s.client.running then .receiving else .ended }
      else none
  | .recv result =>
      if s.receiver = .receiving ∧ s.phase ≠ .terminated then some (s.receive result) else none

/-! ### Calls of `connect` -/

/-- A call of `connect` before it has a socket. -/
def connecting (s : Life) (client : MQTTClient) : Life :=
  { s with client := client, received := none, broken := false }

/-- A call of `connect` that has got a socket. -/
def obtain' (s : Life) (client : MQTTClient) : Life :=
  { s.connecting client with
    obtained := s.obtained + 1, uses := s.uses ++ [.acquired s.obtained] }

/-- What a call of `connect` comes to. -/
inductive Connects (s : Life) (sock status sent : Int) : Life → Prop where
  | noSocket (hsock : sock < 0) :
      Connects s sock status sent (s.connecting { s.client with sock := sock })
  | refused (hsock : 0 ≤ sock) (hstatus : status < 0) :
      Connects s sock status sent (s.obtain' { s.client with sock := sock })
  | overwritten {client} (hsock : 0 ≤ sock) (hstatus : 0 ≤ status)
      (hthreads : s.client.rxThread = true ∨ s.client.pingThread = true)
      (hconnected : client.connected = true) :
      Connects s sock status sent
        { s.obtain' client with phase := .terminated, received := some [] }
  | connected (hsock : 0 ≤ sock) (hstatus : 0 ≤ status)
      (hthreads : s.client.rxThread = false ∧ s.client.pingThread = false) :
      Connects s sock status sent
        { s.obtain' { s.client with
            connected := true, sock := sock, rxThread := true, pingThread := true,
            running := true } with
          receiver := .head, received := some [] }

theorem connects (s : Life) (sock status sent : Int) :
  Connects s sock status sent (s.connect sock status sent)
  := by
  by_cases hsock : sock < 0
  · have heq : s.connect sock status sent = s.connecting { s.client with sock := sock } := by
      simp [connect, MQTTClient.connect, hsock, connecting]
    rw [heq]
    apply Connects.noSocket hsock
  · by_cases hstatus : status < 0
    · have heq : s.connect sock status sent = s.obtain' { s.client with sock := sock } := by
        simp [connect, MQTTClient.connect, hsock, hstatus, obtain', connecting]
      rw [heq]
      apply Connects.refused (Int.not_lt.mp hsock) hstatus
    · by_cases hthreads : s.client.rxThread = true ∨ s.client.pingThread = true
      · have heq : ∃ client : MQTTClient, client.connected = true ∧ s.connect sock status sent
            = { s.obtain' client with phase := .terminated, received := some [] } := by
          cases hrx : s.client.rxThread with
          | true => simp [connect, MQTTClient.connect, hsock, hstatus, hrx, obtain', connecting]
          | false =>
              have hping : s.client.pingThread = true := by simpa [hrx] using hthreads
              simp [connect, MQTTClient.connect, hsock, hstatus, hrx, hping, obtain', connecting]
        obtain ⟨client, hclient, heq⟩ := heq
        rw [heq]
        apply Connects.overwritten (Int.not_lt.mp hsock) (Int.not_lt.mp hstatus) hthreads hclient
      · rw [not_or, Bool.not_eq_true, Bool.not_eq_true] at hthreads
        have heq : s.connect sock status sent = { s.obtain' { s.client with
            connected := true, sock := sock, rxThread := true, pingThread := true,
            running := true } with receiver := .head, received := some [] } := by
          simp [connect, MQTTClient.connect, hsock, hstatus, hthreads, obtain', connecting]
        rw [heq]
        apply Connects.connected (Int.not_lt.mp hsock) (Int.not_lt.mp hstatus) hthreads

/-- The steps of a life. -/
inductive Step (s : Life) : Act → Life → Prop where
  | connect {sock status sent u} (hphase : s.phase = .idle)
      (hconnects : Connects s sock status sent u) : Step s (.connect sock status sent) u
  | stop {final} (hphase : s.phase = .idle) :
      Step s (.stop final)
        { s with client := { s.client with running := false }, phase := .stopping final }
  | join {final} (hphase : s.phase = .stopping final)
      (hended : s.receiver = .none ∨ s.receiver = .ended) :
      Step s .join
        { s with
          client := s.client.disconnect.1
          receiver := .none
          phase := if final then .destroyed else .idle
          uses := s.uses ++ s.closes }
  | loop (hhead : s.receiver = .head) (halive : s.phase ≠ .terminated) :
      Step s .loop { s with receiver := if s.client.running then .receiving else .ended }
  | recv {result} (hreceiving : s.receiver = .receiving) (halive : s.phase ≠ .terminated) :
      Step s (.recv result) (s.receive result)

theorem Step.of_step
    {s u : Life} {a : Act} (h : s.step a = some u) :
  Step s a u
  := by
  cases a with
  | connect sock status sent =>
      simp only [step] at h
      split at h
      next hphase =>
        obtain rfl := Option.some.inj h
        apply Step.connect hphase (connects s sock status sent)
      next => cases h
  | stop final =>
      simp only [step] at h
      split at h
      next hphase =>
        obtain rfl := Option.some.inj h
        apply Step.stop hphase
      next => cases h
  | join =>
      simp only [step] at h
      split at h
      next final hphase =>
        split at h
        next hended =>
          obtain rfl := Option.some.inj h
          apply Step.join hphase hended
        next => cases h
      next => cases h
  | loop =>
      simp only [step] at h
      split at h
      next hcond =>
        obtain rfl := Option.some.inj h
        apply Step.loop hcond.1 hcond.2
      next => cases h
  | recv result =>
      simp only [step] at h
      split at h
      next hcond =>
        obtain rfl := Option.some.inj h
        apply Step.recv hcond.1 hcond.2
      next => cases h

/-! ### What `isConnected` says -/

/-- The broker has accepted the current connection: what came on it begins with a CONNACK of
return code 0. -/
def Accepted (s : Life) : Prop :=
  ∃ flags rest, s.received = some (0x20 :: 0x02 :: flags :: 0x00 :: rest)

/-- A client that says it is connected has a connection that the broker has accepted, and that
has not ended. -/
def Confirmed (s : Life) : Prop :=
  s.client.isConnected = true → s.Accepted ∧ s.broken = false

/-- No socket comes of the call, or no connection. -/
def Act.Fails : Act → Prop
  | .connect sock status _ => sock < 0 ∨ status < 0
  | _ => True

/-- The connection is given up. -/
def Act.Clears : Act → Prop
  | .join | .recv .closed => True
  | _ => False

/-- A connection has been made and not been given up since. -/
def Made (as : List Act) : Prop :=
  ∃ pre a post, as = pre ++ a :: post ∧ ¬ Act.Fails a ∧ ∀ b ∈ post, ¬ Act.Clears b

section

variable {s u : Life} {clientId : Bytes} {as : List Act}

/-- A client with a new connection says so before anything has come on it. -/
theorem not_confirmed_of_received
    (hconnected : s.client.connected = true) (hreceived : s.received = some []) :
  ¬ s.Confirmed
  := by
  intro hconfirmed
  obtain ⟨⟨flags, rest, heq⟩, -⟩ := hconfirmed hconnected
  cases hreceived.symm.trans heq

theorem not_confirmed_of_connect {a : Act} (ha : ¬ a.Fails) (h : s.step a = some u) :
  ¬ u.Confirmed
  := by
  cases Step.of_step h with
  | connect _ hconnects =>
      rw [Act.Fails, not_or, Int.not_lt, Int.not_lt] at ha
      cases hconnects with
      | noSocket hsock => cases not_lt.mpr ha.1 hsock
      | refused _ hstatus => cases not_lt.mpr ha.2 hstatus
      | overwritten _ _ _ hclient => exact not_confirmed_of_received hclient rfl
      | connected => exact not_confirmed_of_received rfl rfl
  | stop | join | loop | recv => cases ha trivial

/-- The flag is set by a call that does not fail, and cleared by the end of the stream and the
end of a `disconnect`. -/
theorem connected_step_iff {a : Act} (h : s.step a = some u) :
  u.client.connected = true ↔ ¬ a.Fails ∨ (¬ a.Clears ∧ s.client.connected = true)
  := by
  cases Step.of_step h with
  | connect _ hconnects =>
      cases hconnects with
      | noSocket hsock => simp [Act.Fails, Act.Clears, hsock, connecting]
      | refused _ hstatus => simp [Act.Fails, Act.Clears, hstatus, obtain', connecting]
      | overwritten hsock hstatus _ hclient =>
          simp [Act.Fails, hsock, hstatus, obtain', connecting, hclient]
      | connected hsock hstatus => simp [Act.Fails, hsock, hstatus, obtain', connecting]
  | stop | loop => simp [Act.Fails, Act.Clears]
  | join => simp [Act.Fails, Act.Clears, disconnect]
  | @recv result => cases result <;> simp [Act.Fails, Act.Clears, receive]

/-- The client says that it is connected when a connection has been made and since then neither
the end of the stream has come nor a `disconnect` has ended. -/
theorem connected_iff_made
    (h : Lts.run step (init clientId) as = some s) :
  s.client.connected = true ↔ Made as
  := by
  apply Lts.run_induction (P := fun as s => s.client.connected = true ↔ Made as) _ _ h
  · simp [Made, init, MQTTClient.init]
  · intro as t b u _ ht hu
    rw [connected_step_iff hu, ht]
    constructor
    · rintro (hfails | ⟨hclears, pre, a, post, rfl, ha, hpost⟩)
      · exact ⟨as, b, [], rfl, hfails, List.forall_mem_nil _⟩
      · refine ⟨pre, a, post ++ [b], by simp, ha, ?_⟩
        intro b' hb'
        rcases List.mem_append.mp hb' with hb' | hb'
        · apply hpost b' hb'
        · obtain rfl := List.mem_singleton.mp hb'
          apply hclears
    · rintro ⟨pre, a, post, heq, ha, hpost⟩
      rcases Lts.concat_eq_append_cons.mp heq with ⟨-, -, rfl⟩ | ⟨post', rfl, rfl⟩
      · left
        exact ha
      · right
        refine ⟨hpost b (by simp), pre, a, post', rfl, ha, ?_⟩
        intro b' hb'
        apply hpost b' (List.mem_append_left _ hb')

theorem connected_of_fails
    (has : ∀ a ∈ as, a.Fails) (h : Lts.run step (init clientId) as = some s) :
  s.client.connected = false
  := by
  rw [← Bool.not_eq_true, connected_iff_made h]
  rintro ⟨pre, a, post, rfl, ha, -⟩
  apply ha (has a (by simp))

/-- The client is right about its connection in all states of a run just if it never gets
one. -/
theorem confirmed_iff_fails
    (h : Lts.run step (init clientId) as = some s) :
  (∀ bs u, bs <+: as → Lts.run step (init clientId) bs = some u → u.Confirmed)
    ↔ ∀ a ∈ as, a.Fails
  := by
  constructor
  · intro hconfirmed a ha
    by_contra hfails
    obtain ⟨pre, post, rfl⟩ := List.append_of_mem ha
    rw [List.append_cons, Lts.run_append, Option.bind_eq_some_iff] at h
    obtain ⟨u, hu, -⟩ := h
    obtain ⟨t, -, hstep⟩ := Lts.run_concat.mp hu
    apply not_confirmed_of_connect hfails hstep
    apply hconfirmed (pre ++ [a]) u ⟨post, _⟩ hu
    rw [List.append_assoc]
    rfl
  · intro has bs u hbs hu hconnected
    have hfalse := connected_of_fails (fun a ha => has a (hbs.subset ha)) hu
    cases hconnected.symm.trans hfalse

end

/-- Two attempts that fail. -/
def failingActs : List Act :=
  [.connect (-1) 0 0, .connect 3 (-1) 0, .stop true, .join]

theorem confirmed_iff_fails_failingActs :
  (∀ bs u, bs <+: failingActs → Lts.run step (init []) bs = some u → u.Confirmed)
    ↔ ∀ a ∈ failingActs, a.Fails
  := confirmed_iff_fails rfl

/-- A client says that it is connected before the broker has answered, when the broker has
refused the connection, and when the connection has broken. -/
theorem not_confirmed :
  (∃ s, Lts.run step (init []) [.connect 3 0 14] = some s ∧ ¬ s.Confirmed)
    ∧ (∃ s, Lts.run step (init [])
        [.connect 3 0 14, .loop, .recv (.data [0x20, 0x02, 0x00, 0x05])] = some s
      ∧ ¬ s.Confirmed)
    ∧ ∃ s, Lts.run step (init [])
        [.connect 3 0 14, .loop, .recv (.data [0x20, 0x02, 0x00, 0x00]), .loop, .recv .error]
          = some s
      ∧ ¬ s.Confirmed
  := by
  refine ⟨?_, ?_, ?_⟩
  · refine ⟨_, rfl, ?_⟩
    intro hconfirmed
    obtain ⟨⟨flags, rest, heq⟩, -⟩ := hconfirmed rfl
    cases heq
  · refine ⟨_, rfl, ?_⟩
    intro hconfirmed
    obtain ⟨⟨flags, rest, heq⟩, -⟩ := hconfirmed rfl
    cases heq
  · refine ⟨_, rfl, ?_⟩
    intro hconfirmed
    cases (hconfirmed rfl).2

end Life

end MQTTClient

end NexusMainframe
