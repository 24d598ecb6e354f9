import NexusMainframe.Lib.Ownership
import NexusMainframe.Server.WsServer

/-!
# Who closes a socket

A client thread closes its socket at its end, and `stop` closes the sockets of all the
clients in the table, whose threads close them once more. `send` and `broadcast` write to
the sockets they have copied, closed or not. In a run that stops a server without clients
only, and closes no socket that a caller still has a copy of, every socket is closed once,
and nothing is put on it afterwards.
-/

namespace NexusMainframe

namespace WsServer

open Ownership

/-- What a step did with a socket. -/
def Obs.use : Obs → Use Sock
  | .accepted sock => .acquired sock
  | .put sock _ _ => .used sock
  | .closed sock => .released sock

/-- What was done with the sockets. -/
def System.uses (s : System) : List (Use Sock) :=
  s.trace.map Obs.use

/-- The accept thread or the client's thread has a socket that it has still to pass on or
to close. -/
def Owned (s : System) (sock : Sock) : Prop :=
  s.acceptor = .accepted sock ∨
  ∃ t, s.threads[sock.conn]? = some t ∧ t.sock = sock ∧ t.phase ≠ .ended

/-- A step that stops a server without clients, or closes a socket that no caller has a
copy of. -/
def Spares (s : System) : Act → Prop
  | .stopClients => s.socks = []
  | .close conn => ∀ copies ∈ s.calls, ∀ sock ∈ copies, sock.conn ≠ conn
  | _ => True

instance decidableSpares (s : System) : ∀ a, Decidable (Spares s a)
  | .stopClients => inferInstanceAs (Decidable (s.socks = []))
  | .close conn =>
      inferInstanceAs (Decidable (∀ copies ∈ s.calls, ∀ sock ∈ copies, sock.conn ≠ conn))
  | .check | .accept _ | .acceptFail | .register | .answer _ _ | .reject _ | .pong _
  | .endLoop _ | .send _ | .broadcast | .write _ _ | .stopFlag | .stopListener
  | .stopClose _ | .stopClear | .stopJoin => isTrue trivial

/-- What holds in every state of a run whose steps `Spares` allows: copies are of sockets
that have an owner, and the sockets are accounted for. -/
structure Owning (s : System) : Prop where
  known : ∀ sock, .acquired sock ∈ s.uses →
    sock.conn < s.threads.length ∨ s.acceptor = .accepted sock
  copies : ∀ copies ∈ s.calls, ∀ sock ∈ copies, Owned s sock
  closing : ∀ socks, s.stopper = .closing socks → socks = []
  accounted : Accounted (Owned s) s.uses

/-- A thread that moves on to a phase before its end keeps its socket. -/
theorem owned_setThread
    {s : System} {conn : Nat} {t t' : Thread} (ht : s.threads[conn]? = some t)
    (hsock : t'.sock = t.sock) (hphase : t.phase ≠ .ended) (hphase' : t'.phase ≠ .ended)
    (sock : Sock) :
  Owned (s.setThread conn t') sock ↔ Owned s sock
  := by
  rw [Owned, Owned, System.getElem?_setThread ht]
  split
  next heq => simp [← heq, ht, hsock, hphase, hphase', System.setThread]
  next => rfl

/-- A thread that ends has no socket any more. -/
theorem owned_ended
    {s : System} (htabled : Tabled s) {conn : Nat} {t : Thread}
    (ht : s.threads[conn]? = some t) (sock : Sock) :
  Owned (s.setThread conn { t with phase := .ended }) sock ↔ Owned s sock ∧ sock ≠ t.sock
  := by
  have hconn := htabled.numbered conn t ht
  obtain ⟨hlt, -⟩ := List.getElem?_eq_some_iff.mp ht
  have haccepted : s.acceptor = .accepted sock → sock ≠ t.sock := by
    rintro hacceptor rfl
    have := htabled.accepted _ hacceptor
    omega
  rw [Owned, Owned, System.getElem?_setThread ht]
  constructor
  · rintro (hacceptor | ⟨t', ht', rfl, hphase'⟩)
    · use .inl hacceptor, haccepted hacceptor
    · split at ht'
      next =>
        rw [← Option.some.inj ht'] at hphase'
        exact absurd rfl hphase'
      next hne =>
        use .inr ⟨t', ht', rfl, hphase'⟩
        intro heq
        rw [heq] at hne
        exact hne hconn.symm
  · rintro ⟨hacceptor | ⟨t', ht', rfl, hphase'⟩, hne⟩
    · exact .inl hacceptor
    · right
      use t'
      rw [if_neg]
      · use ht', rfl
      · rintro rfl
        rw [ht] at ht'
        exact hne (by rw [Option.some.inj ht'])

/-- The socket that is entered in the table passes from the accept thread to a thread of its
own. -/
theorem owned_register
    {s : System} (htabled : Tabled s) {sock : Sock} (hacceptor : s.acceptor = .accepted sock)
    (sock' : Sock) :
  Owned { s with
    acceptor := .checking
    nextId := Machine.wrapInt32 (s.nextId + 1)
    clients := s.clients.insert s.nextId sock
    threads := s.threads ++ [⟨s.nextId, sock, .handshaking, false⟩] } sock' ↔ Owned s sock'
  := by
  have hconn := htabled.accepted sock hacceptor
  rw [Owned, Owned]
  dsimp only
  constructor
  · rintro (h | ⟨t, ht, rfl, hphase⟩)
    · cases h
    · rcases Lts.getElem?_concat_eq_some.mp ht with ht | ⟨-, rfl⟩
      · exact .inr ⟨t, ht, rfl, hphase⟩
      · exact .inl hacceptor
  · rintro (h | ⟨t, ht, rfl, hphase⟩)
    · rw [hacceptor] at h
      obtain rfl := Acceptor.accepted.inj h
      right
      use ⟨s.nextId, sock, .handshaking, false⟩, Lts.getElem?_concat_eq_some.mpr (.inr ⟨hconn, rfl⟩)
      simp
    · exact .inr ⟨t, Lts.getElem?_concat_eq_some.mpr (.inl ht), rfl, hphase⟩

/-- The socket of a thread that has not ended belongs to it. -/
theorem Tabled.owned_thread
    {s : System} (h : Tabled s) {conn : Nat} {t : Thread} (ht : s.threads[conn]? = some t)
    (hphase : t.phase ≠ .ended) :
  Owned s t.sock
  := by
  right
  use t
  rw [h.numbered conn t ht]
  use ht, rfl

/-- A socket in the table belongs to the thread of its client. -/
theorem Tabled.owned
    {s : System} (h : Tabled s) {sock : Sock} (hsock : sock ∈ s.socks) :
  Owned s sock
  := by
  obtain ⟨id, hid⟩ := System.mem_socks.mp hsock
  obtain ⟨t, ht, hsock, -, hphase⟩ := h.table id sock hid
  exact .inr ⟨t, ht, hsock, hphase⟩

namespace Owning

variable {s u : System} {a : Act}

theorem init :
  Owning System.init
  := by
  constructor
  · intro sock h
    cases h
  · intro copies h
    cases h
  · intro socks h
    cases h
  · apply Accounted.nil
    rintro sock (h | ⟨t, ht, -⟩)
    · cases h
    · simp [System.init] at ht

/-- Something is put on a socket that has an owner. -/
theorem put
    (h : Owning s) {sock : Sock} (hsock : Owned s sock) (out : Out) :
  Owning (s.put sock out)
  := by
  have huses : (s.put sock out).uses = s.uses ++ [.used sock] := by
    simp [System.put, System.uses, Obs.use]
  constructor
  · intro sock' hsock'
    rw [huses] at hsock'
    apply h.known sock' (by simpa using hsock')
  · apply h.copies
  · apply h.closing
  · rw [huses]
    apply h.accounted.use hsock

/-- A thread moves on to a phase before its end. -/
theorem setThread
    (h : Owning s) {conn : Nat} {t t' : Thread} (ht : s.threads[conn]? = some t)
    (hsock : t'.sock = t.sock) (hphase : t.phase ≠ .ended) (hphase' : t'.phase ≠ .ended) :
  Owning (s.setThread conn t')
  := by
  have hsame := owned_setThread ht hsock hphase hphase'
  constructor
  · intro sock hknown
    simp only [System.setThread, List.length_set]
    apply h.known sock hknown
  · intro copies hcopies sock hmem
    rw [hsame]
    apply h.copies copies hcopies sock hmem
  · apply h.closing
  · apply h.accounted.congr hsame

/-- A thread closes its socket, of which no caller has a copy. -/
theorem close
    (h : Owning s) (htabled : Tabled s) {conn : Nat} {t : Thread}
    (ht : s.threads[conn]? = some t) (hphase : t.phase ≠ .ended)
    (hspares : Spares s (.close conn)) :
  Owning (({ s with clients := s.clients.erase t.id }.closeSock t.sock).setThread conn
    { t with phase := .ended })
  := by
  have hconn := htabled.numbered conn t ht
  have huses : (({ s with clients := s.clients.erase t.id }.closeSock t.sock).setThread conn
      { t with phase := .ended }).uses = s.uses ++ [.released t.sock] := by
    simp [System.setThread, System.closeSock, System.uses, Obs.use]
  have hended : ∀ sock, Owned (({ s with clients := s.clients.erase t.id }.closeSock
      t.sock).setThread conn { t with phase := .ended }) sock ↔ Owned s sock ∧ sock ≠ t.sock :=
    owned_ended htabled ht
  constructor
  · intro sock hknown
    rw [huses] at hknown
    simp only [System.setThread, System.closeSock, List.length_set]
    apply h.known sock (by simpa using hknown)
  · intro copies hcopies sock hmem
    rw [hended]
    use h.copies copies hcopies sock hmem
    rintro rfl
    apply hspares copies hcopies _ hmem hconn
  · apply h.closing
  · rw [huses]
    apply Accounted.congr _ hended
    apply h.accounted.release (htabled.owned_thread ht hphase)

/-- A socket is accepted. -/
theorem accept
    (h : Owning s) (hacceptor : s.acceptor = .waiting) (fd : Nat) :
  Owning { s with
    acceptor := .accepted ⟨fd, s.threads.length⟩
    holder := Function.update s.holder fd (some s.threads.length)
    trace := s.trace ++ [.accepted ⟨fd, s.threads.length⟩] }
  := by
  have howned : ∀ sock, Owned { s with
      acceptor := .accepted ⟨fd, s.threads.length⟩
      holder := Function.update s.holder fd (some s.threads.length)
      trace := s.trace ++ [.accepted ⟨fd, s.threads.length⟩] } sock
      ↔ Owned s sock ∨ sock = ⟨fd, s.threads.length⟩ := by
    intro sock
    simp only [Owned, hacceptor, Acceptor.accepted.injEq, reduceCtorEq, false_or]
    rw [or_comm, eq_comm]
  constructor
  · intro sock hknown
    simp only [System.uses, List.map_append, List.mem_append] at hknown
    rcases hknown with hknown | hknown
    · rcases h.known sock hknown with hlt | haccepted
      · exact .inl hlt
      · rw [hacceptor] at haccepted
        cases haccepted
    · right
      simp only [List.map_cons, List.map_nil, Obs.use, List.mem_singleton,
        Use.acquired.injEq] at hknown
      rw [hknown]
  · intro copies hcopies sock hmem
    rw [howned]
    exact .inl (h.copies copies hcopies sock hmem)
  · apply h.closing
  · apply Accounted.congr _ howned
    simp only [System.uses, List.map_append, List.map_cons, List.map_nil, Obs.use]
    apply h.accounted.acquire
    intro hknown
    rcases h.known _ hknown with hlt | haccepted
    · exact absurd hlt (lt_irrefl _)
    · rw [hacceptor] at haccepted
      cases haccepted

theorem register
    (h : Owning s) (htabled : Tabled s) {sock : Sock} (hacceptor : s.acceptor = .accepted sock) :
  Owning { s with
    acceptor := .checking
    nextId := Machine.wrapInt32 (s.nextId + 1)
    clients := s.clients.insert s.nextId sock
    threads := s.threads ++ [⟨s.nextId, sock, .handshaking, false⟩] }
  := by
  have hconn := htabled.accepted sock hacceptor
  have hsame := owned_register htabled hacceptor
  constructor
  · intro sock' hknown
    left
    simp only [List.length_append, List.length_singleton]
    rcases h.known sock' hknown with hlt | haccepted
    · omega
    · rw [hacceptor] at haccepted
      obtain rfl := Acceptor.accepted.inj haccepted
      omega
  · intro copies hcopies sock' hmem
    rw [hsame]
    apply h.copies copies hcopies sock' hmem
  · apply h.closing
  · apply h.accounted.congr hsame

/-- Callers copy sockets that have an owner, or let go of copies. -/
theorem calls
    (h : Owning s) {calls : List (List Sock)}
    (hcalls : ∀ copies ∈ calls, ∀ sock ∈ copies, Owned s sock) :
  Owning { s with calls := calls }
  := by
  constructor
  · apply h.known
  · apply hcalls
  · apply h.closing
  · apply h.accounted

/-- Sockets that have an owner are copied for a call. -/
theorem call
    (h : Owning s) {socks : List Sock} (hsocks : ∀ sock ∈ socks, Owned s sock) :
  Owning { s with calls := s.calls ++ [socks] }
  := by
  apply h.calls
  intro copies hcopies sock hmem
  rcases List.mem_append.mp hcopies with hcopies | hcopies
  · apply h.copies copies hcopies sock hmem
  · obtain rfl := List.mem_singleton.mp hcopies
    apply hsocks sock hmem

/-- `stop` moves on without closing a socket. -/
theorem stopper
    (h : Owning s) {running : Bool} {clients : AList fun _ : Int => Sock} {stopper : Stopper}
    (hclosing : ∀ socks, stopper = .closing socks → socks = []) :
  Owning { s with running := running, clients := clients, stopper := stopper }
  := by
  constructor
  · apply h.known
  · apply h.copies
  · apply hclosing
  · apply h.accounted

/-- The accept thread moves on without a socket. -/
theorem acceptor
    (h : Owning s) (hacceptor : ∀ sock, s.acceptor ≠ .accepted sock) {acceptor : Acceptor}
    (hacceptor' : ∀ sock, acceptor ≠ .accepted sock) :
  Owning { s with acceptor := acceptor }
  := by
  have hsame : ∀ sock, Owned { s with acceptor := acceptor } sock ↔ Owned s sock := by
    intro sock
    simp [Owned, hacceptor, hacceptor']
  constructor
  · intro sock hknown
    left
    apply (h.known sock hknown).resolve_right (hacceptor sock)
  · intro copies hcopies sock hmem
    rw [hsame]
    apply h.copies copies hcopies sock hmem
  · apply h.closing
  · apply h.accounted.congr hsame

/-- A step keeps the sockets accounted for if `Spares` allows it. -/
theorem step
    (h : Owning s) (htabled : Tabled s) (ha : Spares s a) (hstep : Step s a u) :
  Owning u
  := by
  cases hstep with
  | check hacceptor =>
      apply h.acceptor
      · simp [hacceptor]
      · intro sock
        split <;> simp
  | accept fd hacceptor hfree => apply h.accept hacceptor
  | acceptFail hacceptor => apply h.acceptor <;> simp [hacceptor]
  | register sock hacceptor => apply h.register htabled hacceptor
  | answer conn t whole ht hphase =>
      have howned : Owned s t.sock := htabled.owned_thread ht (by simp [hphase])
      apply (h.put howned _).setThread ht
      · cases whole <;> rfl
      · simp [hphase]
      · cases whole <;> simp
  | reject conn t ht hphase => apply h.setThread ht <;> simp [hphase]
  | pong conn t ht hphase =>
      apply h.put
      apply htabled.owned_thread ht
      simp [hphase]
  | endLoop conn t ht hphase => apply h.setThread ht <;> simp [hphase]
  | close conn t ht hphase => apply h.close htabled ht (by simp [hphase]) ha
  | sendMissed | stopAgain => exact h
  | send id sock hclient =>
      apply h.call
      intro sock' hmem
      obtain rfl := List.mem_singleton.mp hmem
      apply htabled.owned (System.mem_socks.mpr ⟨id, hclient⟩)
  | broadcast =>
      apply h.call
      intro sock hmem
      apply htabled.owned hmem
  | write call copy copies sock hcopies hsock =>
      have hcall := List.mem_of_getElem? hcopies
      apply (h.put (h.copies copies hcall sock (List.mem_of_getElem? hsock)) .frame).calls
      intro copies' hcopies' sock' hmem
      rcases List.mem_or_eq_of_mem_set hcopies' with hcopies' | rfl
      · apply h.copies copies' hcopies' sock' hmem
      · apply h.copies copies hcall sock' (List.mem_of_mem_eraseIdx hmem)
  | stopFlag | stopListener | stopClear | stopJoin =>
      apply h.stopper
      rintro socks ⟨⟩
  | stopClients =>
      apply h.stopper
      rintro socks ⟨⟩
      exact ha
  | stopClose copy socks sock hstopper hsock =>
      rw [h.closing socks hstopper] at hsock
      cases hsock

end Owning

/-- In a run that stops a server without clients only, and closes no socket that a caller
has a copy of, every socket accepted is closed once, by its owner, and nothing is put on it
afterwards. -/
theorem closedOnce
    {as : List Act} {s : System} (h : Lts.run System.step .init as = some s)
    (hguard : Lts.Guarded System.step Spares .init as) :
  ReleasedOnce (Owned s) s.uses ∧ NoUseAfterRelease s.uses
  := by
  have howning : Owning s := by
    apply Lts.guarded_induction (P := fun _ s => Owning s) Owning.init _ hguard h
    intro _ t a u ht howning ha hstep
    apply howning.step (tabled_of_run ht) ha (Step.of_step hstep)
  constructor
  · apply howning.accounted.once
  · apply howning.accounted.final

/-- A client comes and goes, is written to in between, and the server is stopped after it
has gone. -/
def orderlyRun : List Act :=
  [.check, .accept 5, .register, .answer 0 true, .broadcast, .write 0 0, .endLoop 0, .close 0,
    .check, .stopFlag, .stopListener, .stopClients, .stopClear, .acceptFail, .stopJoin]

theorem closedOnce_orderlyRun :
  ∃ s, Lts.run System.step .init orderlyRun = some s ∧
    ReleasedOnce (Owned s) s.uses ∧ NoUseAfterRelease s.uses
  := by
  obtain ⟨s, hs⟩ : ∃ s, Lts.run System.step .init orderlyRun = some s := ⟨_, rfl⟩
  use s, hs
  apply closedOnce hs
  decide

/-- The server is stopped with a client in the table, whose thread closes its socket
again. -/
def stoppedRun : List Act :=
  [.check, .accept 5, .register, .answer 0 true, .stopFlag, .stopListener, .stopClients,
    .stopClose 0, .stopClear, .endLoop 0, .close 0]

/-- A client leaves while a broadcast has still to write to it. -/
def staleRun : List Act :=
  [.check, .accept 5, .register, .answer 0 true, .broadcast, .endLoop 0, .close 0, .write 0 0]

theorem not_closedOnce :
  (¬ ∀ (as : List Act) (s : System),
      Lts.run System.step .init as = some s → ReleasedOnce (Owned s) s.uses) ∧
  ¬ ∀ (as : List Act) (s : System),
      Lts.run System.step .init as = some s → NoUseAfterRelease s.uses
  := by
  constructor
  · intro h
    have honce := h stoppedRun _ rfl ⟨5, 0⟩ (by decide)
    have hcount : ([.acquired ⟨5, 0⟩, .used ⟨5, 0⟩, .released ⟨5, 0⟩, .released ⟨5, 0⟩] :
      List (Use Sock)).count (.released ⟨5, 0⟩) = 2 := rfl
    rcases honce with ⟨-, hzero⟩ | ⟨-, hone⟩
    · cases hcount.symm.trans hzero
    · cases hcount.symm.trans hone
  · intro h
    have hfinal := h staleRun _ rfl [.acquired ⟨5, 0⟩, .used ⟨5, 0⟩] ⟨5, 0⟩ [.used ⟨5, 0⟩] rfl
    simp at hfinal

end WsServer

end NexusMainframe
