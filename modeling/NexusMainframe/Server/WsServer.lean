import NexusMainframe.Lib.Lts
import NexusMainframe.Lib.Machine
import Mathlib.Data.List.AList

/-!
# The WebSocket server

The WebSocket server keeps the sockets of its clients in a table under a lock. An accept
thread enters each socket it accepts and starts a thread for it, which shakes hands with
the client, reads its frames, and at the end takes the client out of the table and closes
the socket. `send` and `broadcast` copy sockets out of the table and write to the copies
without the lock, and `stop` closes all the sockets in the table.

A socket is a descriptor, a number that the system may give out again once it is closed.
The model keeps with each copy of a descriptor the connection it was accepted for, and the
trace of a system tells whose descriptor was written to or closed, and which connection
the bytes went to.
-/

namespace NexusMainframe

namespace WsServer

/-- A socket as the code holds it: its descriptor. `conn` numbers the accepted
connections; it is not in the code. -/
structure Sock where
  fd : Nat
  conn : Nat
deriving DecidableEq

/-- Where a client thread is: before the end of the handshake, in the loop that reads
frames, behind it with the socket still to be closed, or at its end. -/
inductive Phase where
  | handshaking
  | serving
  | leaving
  | ended
deriving DecidableEq

/-- A client thread. `greeted` says whether its handshake has succeeded. -/
structure Thread where
  id : Int
  sock : Sock
  phase : Phase
  greeted : Bool
deriving DecidableEq

/-- Where the accept thread is: at the head of its loop, in `accept`, with a socket it has
not entered in the table, or at its end. -/
inductive Acceptor where
  | checking
  | waiting
  | accepted (sock : Sock)
  | stopped
deriving DecidableEq

/-- How far a call of `stop` is. It holds the lock while it closes the sockets of the
table, of which `socks` are left. -/
inductive Stopper where
  | notCalled
  | flagged
  | listenerClosed
  | closing (socks : List Sock)
  | clientsClosed
  | returned
deriving DecidableEq

/-- What is put on a socket: the response of a handshake, whole or in part, a text frame,
or a pong. -/
inductive Out where
  | response (whole : Bool)
  | frame
  | pong
deriving DecidableEq

/-- What a step did: it accepted a connection, put something on a descriptor, which
belongs to the connection `target` if to any, or closed a descriptor. -/
inductive Obs where
  | accepted (sock : Sock)
  | put (sock : Sock) (target : Option Nat) (out : Out)
  | closed (sock : Sock)
deriving DecidableEq

/-- The steps of the accept thread, of the client thread of a connection, of the calls of
`send` and `broadcast`, and of `stop`. -/
inductive Act where
  | check
  | accept (fd : Nat)
  | acceptFail
  | register
  | answer (conn : Nat) (whole : Bool)
  | reject (conn : Nat)
  | pong (conn : Nat)
  | endLoop (conn : Nat)
  | close (conn : Nat)
  | send (id : Int)
  | broadcast
  | write (call copy : Nat)
  | stopFlag
  | stopListener
  | stopClients
  | stopClose (copy : Nat)
  | stopClear
  | stopJoin
deriving DecidableEq

/-- The steps that are taken under the lock of the table. -/
def Act.locks : Act → Bool
  | .register | .close _ | .send _ | .broadcast => true
  | _ => false

/-- The server and the system's descriptors. `calls` are the calls of `send` and
`broadcast`, each with the sockets it has still to write to, and `holder` tells which
connection a descriptor is open for. The thread of connection `k` is `threads[k]`. -/
structure System where
  running : Bool
  acceptor : Acceptor
  nextId : Int
  clients : AList fun _ : Int => Sock
  threads : List Thread
  calls : List (List Sock)
  stopper : Stopper
  holder : Nat → Option Nat
  trace : List Obs

namespace System

/-- A server that has been started. -/
def init : System where
  running := true
  acceptor := .checking
  nextId := 0
  clients := ∅
  threads := []
  calls := []
  stopper := .notCalled
  holder := fun _ => none
  trace := []

/-- The sockets in the table. -/
def socks (s : System) : List Sock :=
  s.clients.entries.map Sigma.snd

/-- Something put on a descriptor. -/
def put (s : System) (sock : Sock) (out : Out) : System :=
  { s with trace := s.trace ++ [.put sock (s.holder sock.fd) out] }

/-- A descriptor closed, whoever it is open for. -/
def closeSock (s : System) (sock : Sock) : System :=
  { s with
    holder := Function.update s.holder sock.fd none
    trace := s.trace ++ [.closed sock] }

/-- Whether `stop` holds the lock of the table. -/
def locked (s : System) : Bool :=
  match s.stopper with
  | .closing _ => true
  | _ => false

/-- The thread of a connection, if it is in the given phase. -/
def threadAt (s : System) (conn : Nat) (phase : Phase) : Option Thread :=
  s.threads[conn]?.filter fun t => t.phase = phase

/-- The thread of a connection replaced. -/
def setThread (s : System) (conn : Nat) (t : Thread) : System :=
  { s with threads := s.threads.set conn t }

/-- What a thread does in one step, if it is there. -/
def act (s : System) : Act → Option System
  | .check =>
      match s.acceptor with
      | .checking => some { s with acceptor := if s.running then .waiting else .stopped }
      | _ => none
  | .accept fd =>
      match s.acceptor with
      | .waiting =>
          if s.holder fd = none then
            some { s with
              acceptor := .accepted ⟨fd, s.threads.length⟩
              holder := Function.update s.holder fd (some s.threads.length)
              trace := s.trace ++ [.accepted ⟨fd, s.threads.length⟩] }
          else none
      | _ => none
  | .acceptFail =>
      match s.acceptor with
      | .waiting => some { s with acceptor := .stopped }
      | _ => none
  | .register =>
      match s.acceptor with
      | .accepted sock =>
          some { s with
            acceptor := .checking
            nextId := Machine.wrapInt32 (s.nextId + 1)
            clients := s.clients.insert s.nextId sock
            threads := s.threads ++ [⟨s.nextId, sock, .handshaking, false⟩] }
      | _ => none
  | .answer conn whole =>
      (s.threadAt conn .handshaking).map fun t =>
        (s.put t.sock (.response whole)).setThread conn
          (if whole then { t with phase := .serving, greeted := true }
          else { t with phase := .leaving })
  | .reject conn =>
      (s.threadAt conn .handshaking).map fun t => s.setThread conn { t with phase := .leaving }
  | .pong conn =>
      (s.threadAt conn .serving).map fun t => s.put t.sock .pong
  | .endLoop conn =>
      (s.threadAt conn .serving).map fun t => s.setThread conn { t with phase := .leaving }
  | .close conn =>
      (s.threadAt conn .leaving).map fun t =>
        ({ s with clients := s.clients.erase t.id }.closeSock t.sock).setThread conn
          { t with phase := .ended }
  | .send id =>
      match s.clients.lookup id with
      | none => some s
      | some sock => some { s with calls := s.calls ++ [[sock]] }
  | .broadcast => some { s with calls := s.calls ++ [s.socks] }
  | .write call copy =>
      s.calls[call]?.bind fun copies =>
        copies[copy]?.map fun sock =>
          { s with calls := s.calls.set call (copies.eraseIdx copy) }.put sock .frame
  | .stopFlag =>
      if s.running then some { s with running := false, stopper := .flagged } else some s
  | .stopListener =>
      match s.stopper with
      | .flagged => some { s with stopper := .listenerClosed }
      | _ => none
  | .stopClients =>
      match s.stopper with
      | .listenerClosed => some { s with stopper := .closing s.socks }
      | _ => none
  | .stopClose copy =>
      match s.stopper with
      | .closing socks =>
          socks[copy]?.map fun sock =>
            { s with stopper := .closing (socks.eraseIdx copy) }.closeSock sock
      | _ => none
  | .stopClear =>
      match s.stopper with
      | .closing [] => some { s with clients := ∅, stopper := .clientsClosed }
      | _ => none
  | .stopJoin =>
      match s.stopper, s.acceptor with
      | .clientsClosed, .stopped => some { s with stopper := .returned }
      | _, _ => none

/-- One step. A thread that needs the lock waits while `stop` holds it. -/
def step (s : System) (a : Act) : Option System :=
  if a.locks && s.locked then none else s.act a

theorem threadAt_eq_some {s : System} {conn : Nat} {phase : Phase} {t : Thread} :
  s.threadAt conn phase = some t ↔ s.threads[conn]? = some t ∧ t.phase = phase
  := by
  simp [threadAt]

/-- A step of the thread of a connection in the given phase. -/
theorem map_threadAt_eq_some
    {s u : System} {conn : Nat} {phase : Phase} {f : Thread → System} :
  (s.threadAt conn phase).map f = some u
    ↔ ∃ t, s.threads[conn]? = some t ∧ t.phase = phase ∧ f t = u
  := by
  simp only [Option.map_eq_some_iff, threadAt_eq_some, and_assoc]

theorem getElem?_setThread
    {s : System} {conn : Nat} {t t' : Thread} (ht : s.threads[conn]? = some t) (other : Nat) :
  (s.setThread conn t').threads[other]? = if conn = other then some t' else s.threads[other]?
  := by
  obtain ⟨hlt, -⟩ := List.getElem?_eq_some_iff.mp ht
  rw [setThread, List.getElem?_set, if_pos hlt]

theorem mem_socks {s : System} {sock : Sock} :
  sock ∈ s.socks ↔ ∃ id, s.clients.lookup id = some sock
  := by
  rw [socks, List.mem_map]
  constructor
  · rintro ⟨⟨id, sock⟩, h, rfl⟩
    use id
    apply AList.mem_lookup_iff.mpr h
  · rintro ⟨id, h⟩
    use ⟨id, sock⟩
    use AList.mem_lookup_iff.mp h

end System

/-- The steps of a system, each with the state it is taken in. -/
inductive Step : System → Act → System → Prop where
  | check {s} (h : s.acceptor = .checking) :
      Step s .check { s with acceptor := if s.running then .waiting else .stopped }
  | accept {s} (fd : Nat) (h : s.acceptor = .waiting) (free : s.holder fd = none) :
      Step s (.accept fd) { s with
        acceptor := .accepted ⟨fd, s.threads.length⟩
        holder := Function.update s.holder fd (some s.threads.length)
        trace := s.trace ++ [.accepted ⟨fd, s.threads.length⟩] }
  | acceptFail {s} (h : s.acceptor = .waiting) :
      Step s .acceptFail { s with acceptor := .stopped }
  | register {s} (sock : Sock) (h : s.acceptor = .accepted sock) :
      Step s .register { s with
        acceptor := .checking
        nextId := Machine.wrapInt32 (s.nextId + 1)
        clients := s.clients.insert s.nextId sock
        threads := s.threads ++ [⟨s.nextId, sock, .handshaking, false⟩] }
  | answer {s} (conn : Nat) (t : Thread) (whole : Bool)
      (h : s.threads[conn]? = some t) (phase : t.phase = .handshaking) :
      Step s (.answer conn whole) ((s.put t.sock (.response whole)).setThread conn
        (if whole then { t with phase := .serving, greeted := true }
        else { t with phase := .leaving }))
  | reject {s} (conn : Nat) (t : Thread) (h : s.threads[conn]? = some t)
      (phase : t.phase = .handshaking) :
      Step s (.reject conn) (s.setThread conn { t with phase := .leaving })
  | pong {s} (conn : Nat) (t : Thread) (h : s.threads[conn]? = some t)
      (phase : t.phase = .serving) :
      Step s (.pong conn) (s.put t.sock .pong)
  | endLoop {s} (conn : Nat) (t : Thread) (h : s.threads[conn]? = some t)
      (phase : t.phase = .serving) :
      Step s (.endLoop conn) (s.setThread conn { t with phase := .leaving })
  | close {s} (conn : Nat) (t : Thread) (h : s.threads[conn]? = some t)
      (phase : t.phase = .leaving) :
      Step s (.close conn)
        (({ s with clients := s.clients.erase t.id }.closeSock t.sock).setThread conn
          { t with phase := .ended })
  | sendMissed {s} (id : Int) (h : s.clients.lookup id = none) : Step s (.send id) s
  | send {s} (id : Int) (sock : Sock) (h : s.clients.lookup id = some sock) :
      Step s (.send id) { s with calls := s.calls ++ [[sock]] }
  | broadcast {s} : Step s .broadcast { s with calls := s.calls ++ [s.socks] }
  | write {s} (call copy : Nat) (copies : List Sock) (sock : Sock)
      (h : s.calls[call]? = some copies) (h' : copies[copy]? = some sock) :
      Step s (.write call copy)
        ({ s with calls := s.calls.set call (copies.eraseIdx copy) }.put sock .frame)
  | stopFlag {s} : Step s .stopFlag { s with running := false, stopper := .flagged }
  | stopAgain {s} : Step s .stopFlag s
  | stopListener {s} : Step s .stopListener { s with stopper := .listenerClosed }
  | stopClients {s} : Step s .stopClients { s with stopper := .closing s.socks }
  | stopClose {s} (copy : Nat) (socks : List Sock) (sock : Sock)
      (h : s.stopper = .closing socks) (h' : socks[copy]? = some sock) :
      Step s (.stopClose copy)
        ({ s with stopper := .closing (socks.eraseIdx copy) }.closeSock sock)
  | stopClear {s} : Step s .stopClear { s with clients := ∅, stopper := .clientsClosed }
  | stopJoin {s} : Step s .stopJoin { s with stopper := .returned }

/-- What `System.step` does is one of the steps. -/
theorem Step.of_step
    {s u : System} {a : Act} (h : s.step a = some u) :
  Step s a u
  := by
  rw [System.step, Option.ite_none_left_eq_some] at h
  obtain ⟨-, h⟩ := h
  cases a with
  | check =>
      simp only [System.act] at h
      split at h
      next hacceptor =>
        obtain rfl := Option.some.inj h
        apply Step.check hacceptor
      next => cases h
  | accept fd =>
      simp only [System.act] at h
      split at h
      next hacceptor =>
        split at h
        next hfree =>
          obtain rfl := Option.some.inj h
          apply Step.accept fd hacceptor hfree
        next => cases h
      next => cases h
  | acceptFail =>
      simp only [System.act] at h
      split at h
      next hacceptor =>
        obtain rfl := Option.some.inj h
        apply Step.acceptFail hacceptor
      next => cases h
  | register =>
      simp only [System.act] at h
      split at h
      next sock hacceptor =>
        obtain rfl := Option.some.inj h
        apply Step.register sock hacceptor
      next => cases h
  | answer conn whole =>
      obtain ⟨t, ht, hphase, rfl⟩ := System.map_threadAt_eq_some.mp h
      apply Step.answer conn t whole ht hphase
  | reject conn =>
      obtain ⟨t, ht, hphase, rfl⟩ := System.map_threadAt_eq_some.mp h
      apply Step.reject conn t ht hphase
  | pong conn =>
      obtain ⟨t, ht, hphase, rfl⟩ := System.map_threadAt_eq_some.mp h
      apply Step.pong conn t ht hphase
  | endLoop conn =>
      obtain ⟨t, ht, hphase, rfl⟩ := System.map_threadAt_eq_some.mp h
      apply Step.endLoop conn t ht hphase
  | close conn =>
      obtain ⟨t, ht, hphase, rfl⟩ := System.map_threadAt_eq_some.mp h
      apply Step.close conn t ht hphase
  | send id =>
      simp only [System.act] at h
      split at h
      next hclient =>
        obtain rfl := Option.some.inj h
        apply Step.sendMissed id hclient
      next sock hclient =>
        obtain rfl := Option.some.inj h
        apply Step.send id sock hclient
  | broadcast =>
      obtain rfl := Option.some.inj h
      apply Step.broadcast
  | write call copy =>
      obtain ⟨copies, hcopies, h⟩ := Option.bind_eq_some_iff.mp h
      obtain ⟨sock, hsock, rfl⟩ := Option.map_eq_some_iff.mp h
      apply Step.write call copy copies sock hcopies hsock
  | stopFlag =>
      simp only [System.act] at h
      split at h
      next =>
        obtain rfl := Option.some.inj h
        apply Step.stopFlag
      next =>
        obtain rfl := Option.some.inj h
        apply Step.stopAgain
  | stopListener =>
      simp only [System.act] at h
      split at h
      next =>
        obtain rfl := Option.some.inj h
        apply Step.stopListener
      next => cases h
  | stopClients =>
      simp only [System.act] at h
      split at h
      next =>
        obtain rfl := Option.some.inj h
        apply Step.stopClients
      next => cases h
  | stopClose copy =>
      simp only [System.act] at h
      split at h
      next socks hstopper =>
        obtain ⟨sock, hsock, rfl⟩ := Option.map_eq_some_iff.mp h
        apply Step.stopClose copy socks sock hstopper hsock
      next => cases h
  | stopClear =>
      simp only [System.act] at h
      split at h
      next =>
        obtain rfl := Option.some.inj h
        apply Step.stopClear
      next => cases h
  | stopJoin =>
      simp only [System.act] at h
      split at h
      next =>
        obtain rfl := Option.some.inj h
        apply Step.stopJoin
      next => cases h

/-! ### The table in every run -/

/-- What every run keeps: connections are numbered as their threads are, and a socket in
the table is that of a thread with its id that has not ended. -/
structure Tabled (s : System) : Prop where
  numbered : ∀ (conn : Nat) (t : Thread), s.threads[conn]? = some t → t.sock.conn = conn
  accepted : ∀ sock, s.acceptor = .accepted sock → sock.conn = s.threads.length
  table : ∀ id sock, s.clients.lookup id = some sock →
    ∃ t, s.threads[sock.conn]? = some t ∧ t.sock = sock ∧ t.id = id ∧ t.phase ≠ .ended

namespace Tabled

variable {s u : System} {a : Act}

theorem init :
  Tabled System.init
  := by
  constructor
  · intro conn t h
    simp [System.init] at h
  · intro sock h
    cases h
  · intro id sock h
    simp [System.init] at h

theorem put
    (h : Tabled s) (sock : Sock) (out : Out) :
  Tabled (s.put sock out)
  := ⟨h.numbered, h.accepted, h.table⟩

/-- A thread that moves on to a phase before its end keeps its place in the table. -/
theorem setThread
    (h : Tabled s) {conn : Nat} {t t' : Thread} (ht : s.threads[conn]? = some t)
    (hid : t'.id = t.id) (hsock : t'.sock = t.sock) (hphase : t'.phase ≠ .ended) :
  Tabled (s.setThread conn t')
  := by
  constructor
  · intro other t'' h'
    rw [System.getElem?_setThread ht] at h'
    split at h'
    next heq =>
      obtain rfl := Option.some.inj h'
      rw [hsock, ← heq]
      apply h.numbered conn t ht
    next => apply h.numbered other t'' h'
  · intro sock hacceptor
    simp only [System.setThread, List.length_set]
    apply h.accepted sock hacceptor
  · intro id sock hclient
    obtain ⟨t'', ht'', hsock'', hid'', hphase''⟩ := h.table id sock hclient
    rw [System.getElem?_setThread ht]
    split
    next heq =>
      rw [← heq, ht] at ht''
      obtain rfl := Option.some.inj ht''
      use t', rfl, hsock.trans hsock'', hid.trans hid'', hphase
    next => use t'', ht'', hsock'', hid'', hphase''

/-- A new thread for the accepted socket has its place in the table. -/
theorem register
    (h : Tabled s) {sock : Sock} (hacceptor : s.acceptor = .accepted sock) :
  Tabled { s with
    acceptor := .checking
    nextId := Machine.wrapInt32 (s.nextId + 1)
    clients := s.clients.insert s.nextId sock
    threads := s.threads ++ [⟨s.nextId, sock, .handshaking, false⟩] }
  := by
  have hconn := h.accepted sock hacceptor
  constructor
  · intro conn t ht
    rcases Lts.getElem?_concat_eq_some.mp ht with ht | ⟨rfl, rfl⟩
    · apply h.numbered conn t ht
    · exact hconn
  · intro sock' hacceptor'
    cases hacceptor'
  · intro id sock' hclient
    by_cases hid : id = s.nextId
    · subst hid
      rw [AList.lookup_insert] at hclient
      obtain rfl := Option.some.inj hclient
      use ⟨s.nextId, sock, .handshaking, false⟩, Lts.getElem?_concat_eq_some.mpr (.inr ⟨hconn, rfl⟩)
      simp
    · rw [AList.lookup_insert_ne hid] at hclient
      obtain ⟨t, ht, hsock, hid', hphase⟩ := h.table id sock' hclient
      use t, Lts.getElem?_concat_eq_some.mpr (.inl ht), hsock, hid', hphase

/-- A thread that closes its socket has taken its id out of the table. -/
theorem close
    (h : Tabled s) {conn : Nat} {t : Thread} (ht : s.threads[conn]? = some t) :
  Tabled (({ s with clients := s.clients.erase t.id }.closeSock t.sock).setThread conn
    { t with phase := .ended })
  := by
  have hclosed : ({ s with clients := s.clients.erase t.id }.closeSock t.sock).threads[conn]?
      = some t := ht
  constructor
  · intro other t' h'
    rw [System.getElem?_setThread hclosed] at h'
    split at h'
    next heq =>
      obtain rfl := Option.some.inj h'
      rw [← heq]
      apply h.numbered conn t ht
    next => apply h.numbered other t' h'
  · intro sock hacceptor
    simp only [System.setThread, System.closeSock, List.length_set]
    apply h.accepted sock hacceptor
  · intro id sock hclient
    change (s.clients.erase t.id).lookup id = some sock at hclient
    have hid : id ≠ t.id := by
      rintro rfl
      simp at hclient
    rw [AList.lookup_erase_ne hid] at hclient
    obtain ⟨t', ht', hsock', hid', hphase'⟩ := h.table id sock hclient
    have hne : conn ≠ sock.conn := by
      rintro rfl
      rw [ht] at ht'
      obtain rfl := Option.some.inj ht'
      apply hid hid'.symm
    rw [System.getElem?_setThread hclosed, if_neg hne]
    use t', ht', hsock', hid', hphase'

theorem step
    (h : Tabled s) (hstep : Step s a u) :
  Tabled u
  := by
  cases hstep with
  | check hacceptor =>
      constructor
      · apply h.numbered
      · intro sock haccepted
        dsimp only at haccepted
        split at haccepted <;> cases haccepted
      · apply h.table
  | accept fd hacceptor hfree =>
      constructor
      · apply h.numbered
      · rintro sock ⟨⟩
        rfl
      · apply h.table
  | acceptFail hacceptor =>
      constructor
      · apply h.numbered
      · rintro sock ⟨⟩
      · apply h.table
  | register sock hacceptor => apply h.register hacceptor
  | answer conn t whole ht hphase =>
      apply (h.put t.sock (.response whole)).setThread ht <;> cases whole <;> simp
  | reject conn t ht hphase => apply h.setThread ht <;> simp
  | pong conn t ht hphase => apply h.put
  | endLoop conn t ht hphase => apply h.setThread ht <;> simp
  | close conn t ht hphase => apply h.close ht
  | sendMissed | stopAgain => apply h
  | send | broadcast | write | stopFlag | stopListener | stopClients | stopClose | stopJoin =>
      exact ⟨h.numbered, h.accepted, h.table⟩
  | stopClear =>
      constructor
      · apply h.numbered
      · apply h.accepted
      · intro id sock hclient
        simp at hclient

end Tabled

theorem tabled_of_run
    {as : List Act} {s : System} (h : Lts.run System.step .init as = some s) :
  Tabled s
  := by
  apply Lts.run_induction (P := fun _ s => Tabled s) Tabled.init _ h
  intro _ t a u _ ht hstep
  apply ht.step (Step.of_step hstep)

end WsServer

end NexusMainframe
