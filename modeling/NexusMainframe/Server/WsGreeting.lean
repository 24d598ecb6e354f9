import NexusMainframe.Server.WsServer

/-!
# The handshake comes first

The accept thread enters a client in the table before the client's thread has shaken hands
with it, so `send` and `broadcast` can write a frame ahead of the response, and a
descriptor that is given out again can be written to by those who hold a copy of it from
before. In a run that copies greeted clients only, and is given no descriptor that is still
held, the first thing put on a connection is the response of its own handshake.
-/

namespace NexusMainframe

namespace WsServer

/-! ### What is put on a connection -/

/-- What was put on a connection, each with the connection it was meant for. -/
def sentOn (tr : List Obs) (conn : Nat) : List (Nat × Out) :=
  tr.filterMap fun
    | .put sock target out => if target = some conn then some (sock.conn, out) else none
    | _ => none

/-- The first thing put on a connection is the response of its own successful handshake,
and a frame is written only to a socket whose handshake has succeeded before. -/
def GreetedFirst (tr : List Obs) : Prop :=
  (∀ conn, ∀ first ∈ (sentOn tr conn).head?, first = (conn, .response true)) ∧
  ∀ pre sock target post, tr = pre ++ .put sock target .frame :: post →
    ∃ target', .put sock target' (.response true) ∈ pre

theorem sentOn_put {tr : List Obs} {sock : Sock} {target : Option Nat} {out : Out} {conn : Nat} :
  sentOn (tr ++ [.put sock target out]) conn
    = sentOn tr conn ++ if target = some conn then [(sock.conn, out)] else []
  := by
  rw [sentOn, List.filterMap_append, ← sentOn]
  split
  next h => simp [h]
  next h => simp [h]

@[simp]
theorem sentOn_accepted {tr : List Obs} {sock : Sock} {conn : Nat} :
  sentOn (tr ++ [.accepted sock]) conn = sentOn tr conn
  := by
  simp [sentOn]

@[simp]
theorem sentOn_closed {tr : List Obs} {sock : Sock} {conn : Nat} :
  sentOn (tr ++ [.closed sock]) conn = sentOn tr conn
  := by
  simp [sentOn]

/-- What the trace of a run shows of the sockets `G` whose handshakes have succeeded.
Nothing was put on a connection before, and its response comes first unless its descriptor
was closed by then. -/
structure Opened (G : Sock → Prop) (holder : Nat → Option Nat) (tr : List Obs) : Prop where
  silent : ∀ conn, (∀ sock, G sock → sock.conn ≠ conn) → sentOn tr conn = []
  heads : ∀ sock, G sock →
    (sentOn tr sock.conn).head? = some (sock.conn, .response true) ∨
    sentOn tr sock.conn = [] ∧ holder sock.fd ≠ some sock.conn
  answered : ∀ sock, G sock → ∃ target, .put sock target (.response true) ∈ tr
  frames : ∀ pre sock target post, tr = pre ++ .put sock target .frame :: post →
    ∃ target', .put sock target' (.response true) ∈ pre

namespace Opened

variable {G : Sock → Prop} {holder : Nat → Option Nat} {tr : List Obs}

theorem nil
    (hG : ∀ sock, ¬ G sock) :
  Opened G holder []
  := by
  constructor
  · intro conn h
    rfl
  · intro sock hsock
    exact absurd hsock (hG sock)
  · intro sock hsock
    exact absurd hsock (hG sock)
  · intro pre sock target post h
    simp at h

theorem responseFirst
    (h : Opened G holder tr) :
  GreetedFirst tr
  := by
  constructor
  · intro conn first hfirst
    by_cases hsock : ∃ sock, G sock ∧ sock.conn = conn
    · obtain ⟨sock, hG, rfl⟩ := hsock
      rcases h.heads sock hG with hhead | ⟨hnil, -⟩
      · rw [hhead] at hfirst
        exact (Option.some.inj hfirst).symm
      · simp [hnil] at hfirst
    · rw [h.silent conn (fun sock hG hconn => hsock ⟨sock, hG, hconn⟩)] at hfirst
      cases hfirst
  · apply h.frames

theorem congr
    (h : Opened G holder tr) {G' : Sock → Prop} (hG : ∀ sock, G' sock ↔ G sock) :
  Opened G' holder tr
  := by
  obtain rfl : G' = G := funext fun sock => propext (hG sock)
  exact h

/-- The trace grows by something that puts nothing on a socket, and no connection of `G`
gets a descriptor. -/
theorem quiet
    (h : Opened G holder tr) {holder' : Nat → Option Nat} {o : Obs}
    (ho : ∀ conn, sentOn (tr ++ [o]) conn = sentOn tr conn)
    (hframe : ∀ sock target, o ≠ .put sock target .frame)
    (hholder : ∀ sock, G sock → holder' sock.fd = some sock.conn →
      holder sock.fd = some sock.conn) :
  Opened G holder' (tr ++ [o])
  := by
  constructor
  · intro conn hconn
    rw [ho]
    apply h.silent conn hconn
  · intro sock hsock
    rw [ho]
    rcases h.heads sock hsock with hhead | ⟨hnil, hne⟩
    · exact .inl hhead
    · right
      use hnil
      intro hconn
      apply hne (hholder sock hsock hconn)
  · intro sock hsock
    obtain ⟨target, hmem⟩ := h.answered sock hsock
    use target
    apply List.mem_append_left _ hmem
  · intro pre sock target post htr
    rcases Lts.concat_eq_append_cons.mp htr with ⟨-, -, hobs⟩ | ⟨post, rfl, hpre⟩
    · exact absurd hobs.symm (hframe sock target)
    · apply h.frames pre sock target post hpre

/-- Something is put on a socket of `G` whose descriptor is open for its own connection if
for any. -/
theorem put
    (h : Opened G holder tr) {sock : Sock} (hsock : G sock)
    (hunique : ∀ sock', G sock' → sock'.conn = sock.conn → sock' = sock)
    (hheld : ∀ conn, holder sock.fd = some conn → conn = sock.conn) (out : Out) :
  Opened G holder (tr ++ [.put sock (holder sock.fd) out])
  := by
  constructor
  · intro conn hconn
    rw [sentOn_put, h.silent conn hconn, List.nil_append, if_neg]
    intro htarget
    exact hconn sock hsock (hheld conn htarget).symm
  · intro sock' hsock'
    rw [sentOn_put]
    rcases h.heads sock' hsock' with hhead | ⟨hnil, hne⟩
    · left
      rw [List.head?_append, hhead, Option.some_or]
    · right
      rw [if_neg, List.append_nil]
      · use hnil, hne
      · intro htarget
        obtain rfl := hunique sock' hsock' (hheld _ htarget)
        exact hne htarget
  · intro sock' hsock'
    obtain ⟨target, hmem⟩ := h.answered sock' hsock'
    use target
    apply List.mem_append_left _ hmem
  · intro pre sock' target post htr
    rcases Lts.concat_eq_append_cons.mp htr with ⟨rfl, rfl, hobs⟩ | ⟨post, rfl, hpre⟩
    · obtain ⟨rfl, -, -⟩ := Obs.put.inj hobs
      apply h.answered _ hsock
    · apply h.frames pre sock' target post hpre

/-- The whole response is put on a socket of a connection that is not among those of `G`. -/
theorem greet
    (h : Opened G holder tr) {sock : Sock} (hnew : ∀ sock', G sock' → sock'.conn ≠ sock.conn)
    (hheld : ∀ conn, holder sock.fd = some conn → conn = sock.conn) :
  Opened (fun sock' => G sock' ∨ sock' = sock) holder
    (tr ++ [.put sock (holder sock.fd) (.response true)])
  := by
  constructor
  · intro conn hconn
    rw [sentOn_put, h.silent conn fun sock' hsock' => hconn sock' (.inl hsock'),
      List.nil_append, if_neg]
    intro htarget
    exact hconn sock (.inr rfl) (hheld conn htarget).symm
  · rintro sock' (hsock' | rfl)
    · rw [sentOn_put, if_neg, List.append_nil]
      · apply h.heads sock' hsock'
      · intro htarget
        exact hnew sock' hsock' (hheld _ htarget)
    · rw [sentOn_put, h.silent _ hnew, List.nil_append]
      split
      next => exact .inl rfl
      next hne => exact .inr ⟨rfl, hne⟩
  · rintro sock' (hsock' | rfl)
    · obtain ⟨target, hmem⟩ := h.answered sock' hsock'
      use target
      apply List.mem_append_left _ hmem
    · use holder sock'.fd
      apply List.mem_append_right _ (List.mem_singleton_self _)
  · intro pre sock' target post htr
    rcases Lts.concat_eq_append_cons.mp htr with ⟨-, -, hobs⟩ | ⟨post, rfl, hpre⟩
    · cases hobs
    · apply h.frames pre sock' target post hpre

end Opened

/-! ### Who holds a descriptor -/

/-- The handshake of a socket has succeeded. -/
def System.greeted (s : System) (sock : Sock) : Bool :=
  s.threads[sock.conn]?.any Thread.greeted

/-- The sockets that a thread of the server or a caller of `send` or `broadcast` may still
use. -/
inductive Holds (s : System) : Sock → Prop where
  | acceptor {sock : Sock} (h : s.acceptor = .accepted sock) : Holds s sock
  | thread {t : Thread} (h : t ∈ s.threads) (phase : t.phase ≠ .ended) : Holds s t.sock
  | call {copies : List Sock} {sock : Sock} (h : copies ∈ s.calls) (h' : sock ∈ copies) :
      Holds s sock

/-- What is held depends on the threads and the calls alone. -/
theorem Holds.of_eq
    {s u : System} {sock : Sock} (h : Holds u sock) (hacceptor : u.acceptor = s.acceptor)
    (hthreads : u.threads = s.threads) (hcalls : u.calls = s.calls) :
  Holds s sock
  := by
  cases h with
  | acceptor h => exact .acceptor (hacceptor ▸ h)
  | thread h phase => exact .thread (hthreads ▸ h) phase
  | call h h' => exact .call (hcalls ▸ h) h'

/-- A step that copies greeted clients only, is given no descriptor that a client thread or
a call still holds, and puts a response on its socket as a whole. -/
def Greets (s : System) : Act → Prop
  | .accept fd =>
      (∀ t ∈ s.threads, t.phase ≠ .ended → t.sock.fd ≠ fd) ∧
      ∀ copies ∈ s.calls, ∀ sock ∈ copies, sock.fd ≠ fd
  | .answer _ whole => whole = true
  | .send id => ∀ sock ∈ s.clients.lookup id, s.greeted sock = true
  | .broadcast => ∀ sock ∈ s.socks, s.greeted sock = true
  | _ => True

instance decidableGreets (s : System) : ∀ a, Decidable (Greets s a)
  | .accept fd =>
      inferInstanceAs (Decidable ((∀ t ∈ s.threads, t.phase ≠ .ended → t.sock.fd ≠ fd) ∧
        ∀ copies ∈ s.calls, ∀ sock ∈ copies, sock.fd ≠ fd))
  | .answer _ whole => inferInstanceAs (Decidable (whole = true))
  | .send id =>
      inferInstanceAs (Decidable (∀ sock ∈ s.clients.lookup id, s.greeted sock = true))
  | .broadcast => inferInstanceAs (Decidable (∀ sock ∈ s.socks, s.greeted sock = true))
  | .check | .acceptFail | .register | .reject _ | .pong _ | .endLoop _ | .close _
  | .write _ _ | .stopFlag | .stopListener | .stopClients | .stopClose _ | .stopClear
  | .stopJoin => isTrue trivial

/-! ### Runs that copy greeted clients only -/

/-- A thread has shaken hands with the client of a socket. -/
def Greeted (s : System) (sock : Sock) : Prop :=
  ∃ t, s.threads[sock.conn]? = some t ∧ t.sock = sock ∧ t.greeted = true

theorem Greeted.unique
    {s : System} {sock sock' : Sock} (h : Greeted s sock) (h' : Greeted s sock')
    (hconn : sock'.conn = sock.conn) :
  sock' = sock
  := by
  obtain ⟨t, ht, rfl, -⟩ := h
  obtain ⟨t', ht', rfl, -⟩ := h'
  rw [hconn, ht] at ht'
  rw [Option.some.inj ht']

/-- A thread replaced: its socket is greeted if the new thread says so, the others are as
before. -/
theorem greeted_setThread
    {s : System} {conn : Nat} {t t' : Thread} (ht : s.threads[conn]? = some t)
    (hsock : t'.sock = t.sock) {sock : Sock} :
  Greeted (s.setThread conn t') sock
    ↔ if conn = sock.conn then t.sock = sock ∧ t'.greeted = true else Greeted s sock
  := by
  rw [Greeted, System.getElem?_setThread ht]
  split
  · simp [hsock]
  · rfl

/-- The socket of a thread that has not shaken hands is the only one of its connection. -/
theorem Tabled.conn_ne_of_greeted
    {s : System} (h : Tabled s) {conn : Nat} {t : Thread} (ht : s.threads[conn]? = some t)
    (hnot : t.greeted = false) {sock : Sock} (hsock : Greeted s sock) :
  sock.conn ≠ t.sock.conn
  := by
  intro heq
  obtain ⟨t', ht', -, hgreeted⟩ := hsock
  rw [heq, h.numbered conn t ht, ht] at ht'
  obtain rfl := Option.some.inj ht'
  rw [hnot] at hgreeted
  cases hgreeted

/-- A thread that shakes hands adds its socket to those that are greeted. -/
theorem greeted_greet
    {s : System} (h : Tabled s) {conn : Nat} {t t' : Thread} (ht : s.threads[conn]? = some t)
    (hnot : t.greeted = false) (hsock : t'.sock = t.sock) (hgreeted : t'.greeted = true)
    (sock : Sock) :
  Greeted (s.setThread conn t') sock ↔ Greeted s sock ∨ sock = t.sock
  := by
  have hconn := h.numbered conn t ht
  rw [greeted_setThread ht hsock]
  split
  next heq =>
    simp only [hgreeted, and_true]
    constructor
    · rintro rfl
      exact .inr rfl
    · rintro (hsock' | rfl)
      · exact absurd (heq.symm.trans hconn.symm) (h.conn_ne_of_greeted ht hnot hsock')
      · rfl
  next hne =>
    constructor
    · exact .inl
    · rintro (hsock' | rfl)
      · exact hsock'
      · exact absurd hconn.symm hne

/-- What holds in every state of a run whose steps `Greets` allows: copies are of greeted
sockets, and a descriptor that is held is open for its own connection if for any. -/
structure Greeting (s : System) : Prop where
  shaking : ∀ (conn : Nat) (t : Thread), s.threads[conn]? = some t →
    t.phase = .handshaking → t.greeted = false
  serving : ∀ (conn : Nat) (t : Thread), s.threads[conn]? = some t →
    t.phase = .serving → t.greeted = true
  copies : ∀ copies ∈ s.calls, ∀ sock ∈ copies, Greeted s sock
  held : ∀ sock conn, Holds s sock → s.holder sock.fd = some conn → conn = sock.conn
  opened : Opened (Greeted s) s.holder s.trace

namespace Greeting

variable {s u : System} {a : Act}

theorem init :
  Greeting System.init
  := by
  constructor
  · intro conn t h
    simp [System.init] at h
  · intro conn t h
    simp [System.init] at h
  · intro copies h
    cases h
  · intro sock conn h hholder
    cases hholder
  · apply Opened.nil
    rintro sock ⟨t, h, -⟩
    simp [System.init] at h

/-- The accept thread and the calls let go of sockets, or copy greeted ones that are held
already. -/
theorem of_holds
    (h : Greeting s) {acceptor : Acceptor} {calls : List (List Sock)}
    (hholds : ∀ sock, Holds { s with acceptor := acceptor, calls := calls } sock → Holds s sock)
    (hcopies : ∀ copies ∈ calls, ∀ sock ∈ copies, Greeted s sock) :
  Greeting { s with acceptor := acceptor, calls := calls }
  := by
  constructor
  · apply h.shaking
  · apply h.serving
  · apply hcopies
  · intro sock conn hsock
    apply h.held sock conn (hholds sock hsock)
  · apply h.opened

/-- The accept thread moves on without a socket. -/
theorem acceptor
    (h : Greeting s) {acceptor : Acceptor} (hacceptor : ∀ sock, acceptor ≠ .accepted sock) :
  Greeting { s with acceptor := acceptor }
  := by
  apply h.of_holds
  · intro sock hsock
    cases hsock with
    | acceptor haccepted => exact absurd haccepted (hacceptor sock)
    | thread h phase => exact .thread h phase
    | call h h' => exact .call h h'
  · apply h.copies

/-- The table and `stop` decide nothing about the sockets that are held. -/
theorem of_table
    (h : Greeting s) {running : Bool} {clients : AList fun _ : Int => Sock} {stopper : Stopper} :
  Greeting { s with running := running, clients := clients, stopper := stopper }
  := by
  constructor
  · apply h.shaking
  · apply h.serving
  · apply h.copies
  · intro sock conn hsock
    apply h.held sock conn (hsock.of_eq rfl rfl rfl)
  · apply h.opened

/-- Something other than a response is put on a greeted socket that is held. -/
theorem put
    (h : Greeting s) {sock : Sock} (hheld : Holds s sock) (hgreeted : Greeted s sock) (out : Out) :
  Greeting (s.put sock out)
  := by
  constructor
  · apply h.shaking
  · apply h.serving
  · apply h.copies
  · intro sock' conn hsock
    apply h.held sock' conn (hsock.of_eq rfl rfl rfl)
  · apply h.opened.put hgreeted
    · intro sock' hsock'
      apply hgreeted.unique hsock'
    · intro conn
      apply h.held sock conn hheld

/-- A descriptor is closed. -/
theorem closeSock
    (h : Greeting s) (sock : Sock) :
  Greeting (s.closeSock sock)
  := by
  have hholder : ∀ fd conn, (s.closeSock sock).holder fd = some conn → s.holder fd = some conn := by
    intro fd conn
    simp only [System.closeSock, Function.update_apply]
    split
    · rintro ⟨⟩
    · exact id
  constructor
  · apply h.shaking
  · apply h.serving
  · apply h.copies
  · intro sock' conn hsock hconn
    apply h.held sock' conn (hsock.of_eq rfl rfl rfl) (hholder _ _ hconn)
  · apply h.opened.quiet
    · simp
    · rintro sock' target ⟨⟩
    · intro sock' hsock'
      apply hholder

/-- What is held once a thread is replaced that has not ended. -/
theorem holds_setThread
    {conn : Nat} {t t' : Thread} (ht : s.threads[conn]? = some t) (hended : t.phase ≠ .ended)
    (hsock : t'.sock = t.sock) {sock : Sock} (h : Holds (s.setThread conn t') sock) :
  Holds s sock
  := by
  cases h with
  | acceptor h => exact .acceptor h
  | thread h phase =>
      rcases List.mem_or_eq_of_mem_set h with h | rfl
      · exact .thread h phase
      · rw [hsock]
        exact .thread (List.mem_of_getElem? ht) hended
  | call h h' => exact .call h h'

/-- A thread moves on to its end, greeted or not as before. -/
theorem setThread
    (h : Greeting s) {conn : Nat} {t t' : Thread} (ht : s.threads[conn]? = some t)
    (hended : t.phase ≠ .ended) (hsock : t'.sock = t.sock) (hgreeted : t'.greeted = t.greeted)
    (hshaking : t'.phase ≠ .handshaking) (hserving : t'.phase ≠ .serving) :
  Greeting (s.setThread conn t')
  := by
  have hsame : ∀ sock, Greeted (s.setThread conn t') sock ↔ Greeted s sock := by
    intro sock
    rw [greeted_setThread ht hsock]
    split
    next heq =>
      rw [Greeted, ← heq, ht, hgreeted]
      simp
    next => rfl
  constructor
  · intro other t'' h' hphase
    rw [System.getElem?_setThread ht] at h'
    split at h'
    next =>
      obtain rfl := Option.some.inj h'
      exact absurd hphase hshaking
    next => apply h.shaking other t'' h' hphase
  · intro other t'' h' hphase
    rw [System.getElem?_setThread ht] at h'
    split at h'
    next =>
      obtain rfl := Option.some.inj h'
      exact absurd hphase hserving
    next => apply h.serving other t'' h' hphase
  · intro copies hcopies sock hmem
    rw [hsame]
    apply h.copies copies hcopies sock hmem
  · intro sock conn' hheld
    apply h.held sock conn' (holds_setThread ht hended hsock hheld)
  · apply h.opened.congr hsame

/-- A thread puts the whole response on its socket. -/
theorem answer
    (h : Greeting s) (htabled : Tabled s) {conn : Nat} {t : Thread}
    (ht : s.threads[conn]? = some t) (hphase : t.phase = .handshaking) :
  Greeting ((s.put t.sock (.response true)).setThread conn
    { t with phase := .serving, greeted := true })
  := by
  have hnot := h.shaking conn t ht hphase
  have hended : t.phase ≠ .ended := by simp [hphase]
  have hheld : Holds s t.sock := .thread (List.mem_of_getElem? ht) hended
  have hput : (s.put t.sock (.response true)).threads[conn]? = some t := ht
  have hsame : { t with phase := .serving, greeted := true }.sock = t.sock := rfl
  have hgreeted := greeted_greet (htabled.put t.sock (.response true)) hput hnot hsame rfl
  constructor
  · intro other t' h' hphase'
    rw [System.getElem?_setThread hput] at h'
    split at h'
    next =>
      obtain rfl := Option.some.inj h'
      cases hphase'
    next => apply h.shaking other t' h' hphase'
  · intro other t' h' hphase'
    rw [System.getElem?_setThread hput] at h'
    split at h'
    next => rw [← Option.some.inj h']
    next => apply h.serving other t' h' hphase'
  · intro copies hcopies sock hmem
    rw [hgreeted]
    exact .inl (h.copies copies hcopies sock hmem)
  · intro sock conn' hsock
    apply h.held sock conn'
    have hsock' := holds_setThread hput hended hsame hsock
    exact hsock'.of_eq rfl rfl rfl
  · have hnew : ∀ sock, Greeted s sock → sock.conn ≠ t.sock.conn := by
      intro sock
      apply htabled.conn_ne_of_greeted ht hnot
    apply (h.opened.greet hnew _).congr hgreeted
    intro conn'
    apply h.held t.sock conn' hheld

/-- A socket is accepted on a descriptor that nobody holds any more. -/
theorem accept
    (h : Greeting s) {fd : Nat} (hgreets : Greets s (.accept fd)) :
  Greeting { s with
    acceptor := .accepted ⟨fd, s.threads.length⟩
    holder := Function.update s.holder fd (some s.threads.length)
    trace := s.trace ++ [.accepted ⟨fd, s.threads.length⟩] }
  := by
  obtain ⟨hthreads, hcalls⟩ := hgreets
  constructor
  · apply h.shaking
  · apply h.serving
  · apply h.copies
  · intro sock conn hsock hholder
    have hother : sock.fd ≠ fd → Holds s sock → conn = sock.conn := by
      intro hne hheld
      apply h.held sock conn hheld
      simpa [Function.update_of_ne hne] using hholder
    cases hsock with
    | acceptor h =>
        obtain rfl := Acceptor.accepted.inj h
        simpa using hholder.symm
    | thread h phase => apply hother (hthreads _ h phase) (.thread h phase)
    | call h h' => apply hother (hcalls _ h _ h') (.call h h')
  · apply h.opened.quiet
    · simp
    · rintro sock target ⟨⟩
    · intro sock hsock hholder
      -- the new connection has a number of its own
      obtain ⟨t, ht, -⟩ := hsock
      obtain ⟨hlt, -⟩ := List.getElem?_eq_some_iff.mp ht
      simp only [Function.update_apply] at hholder
      split at hholder
      next =>
        have := Option.some.inj hholder
        omega
      next => exact hholder

/-- The accepted socket gets a thread of its own. -/
theorem register
    (h : Greeting s) {sock : Sock} (hacceptor : s.acceptor = .accepted sock) :
  Greeting { s with
    acceptor := .checking
    nextId := Machine.wrapInt32 (s.nextId + 1)
    clients := s.clients.insert s.nextId sock
    threads := s.threads ++ [⟨s.nextId, sock, .handshaking, false⟩] }
  := by
  constructor
  · intro conn t ht hphase
    rcases Lts.getElem?_concat_eq_some.mp ht with ht | ⟨-, rfl⟩
    · apply h.shaking conn t ht hphase
    · rfl
  · intro conn t ht hphase
    rcases Lts.getElem?_concat_eq_some.mp ht with ht | ⟨-, rfl⟩
    · apply h.serving conn t ht hphase
    · cases hphase
  · intro copies hcopies sock' hmem
    obtain ⟨t, ht, hsock, hgreeted⟩ := h.copies copies hcopies sock' hmem
    use t, Lts.getElem?_concat_eq_some.mpr (.inl ht), hsock
  · intro sock' conn hsock'
    apply h.held sock' conn
    cases hsock' with
    | acceptor h => cases h
    | thread h phase =>
        rcases List.mem_append.mp h with h | h
        · exact .thread h phase
        · rw [List.mem_singleton.mp h]
          exact .acceptor hacceptor
    | call h h' => exact .call h h'
  · apply h.opened.congr
    intro sock'
    constructor
    · rintro ⟨t, ht, hsock, hgreeted⟩
      rcases Lts.getElem?_concat_eq_some.mp ht with ht | ⟨-, rfl⟩
      · use t
      · cases hgreeted
    · rintro ⟨t, ht, hsock, hgreeted⟩
      use t, Lts.getElem?_concat_eq_some.mpr (.inl ht), hsock

/-- Sockets in the table that are greeted are copied for a call. -/
theorem call
    (h : Greeting s) (htabled : Tabled s) {socks : List Sock}
    (hsocks : ∀ sock ∈ socks, sock ∈ s.socks ∧ s.greeted sock = true) :
  Greeting { s with calls := s.calls ++ [socks] }
  := by
  have hsocks' : ∀ sock ∈ socks, Holds s sock ∧ Greeted s sock := by
    intro sock hsock
    obtain ⟨hmem, hgreeted⟩ := hsocks sock hsock
    obtain ⟨id, hid⟩ := System.mem_socks.mp hmem
    obtain ⟨t, ht, rfl, -, hphase⟩ := htabled.table id sock hid
    rw [System.greeted, ht, Option.any_some] at hgreeted
    exact ⟨.thread (List.mem_of_getElem? ht) hphase, t, ht, rfl, hgreeted⟩
  apply h.of_holds
  · intro sock hsock
    cases hsock with
    | acceptor h => exact .acceptor h
    | thread h phase => exact .thread h phase
    | call hcopies hmem =>
        rcases List.mem_append.mp hcopies with hcopies | hcopies
        · exact .call hcopies hmem
        · obtain rfl := List.mem_singleton.mp hcopies
          exact (hsocks' _ hmem).1
  · intro copies hcopies sock hmem
    rcases List.mem_append.mp hcopies with hcopies | hcopies
    · apply h.copies copies hcopies sock hmem
    · obtain rfl := List.mem_singleton.mp hcopies
      exact (hsocks' sock hmem).2

/-- The step of a caller that writes one of its copies. -/
theorem write
    (h : Greeting s) {call copy : Nat} {copies : List Sock} {sock : Sock}
    (hcopies : s.calls[call]? = some copies) (hsock : copies[copy]? = some sock) :
  Greeting ({ s with calls := s.calls.set call (copies.eraseIdx copy) }.put sock .frame)
  := by
  have hcall := List.mem_of_getElem? hcopies
  have hmem := List.mem_of_getElem? hsock
  have hleft : ∀ copies' ∈ s.calls.set call (copies.eraseIdx copy), ∀ sock' ∈ copies',
      ∃ copies ∈ s.calls, sock' ∈ copies := by
    intro copies' hcopies' sock' hsock'
    rcases List.mem_or_eq_of_mem_set hcopies' with hcopies' | rfl
    · use copies'
    · use copies, hcall
      apply List.mem_of_mem_eraseIdx hsock'
  apply (h.put (.call hcall hmem) (h.copies copies hcall sock hmem) .frame).of_holds
  · intro sock' hsock'
    cases hsock' with
    | acceptor h => exact .acceptor h
    | thread h phase => exact .thread h phase
    | call hcopies' hsock' =>
        obtain ⟨copies, hcopies, hmem⟩ := hleft _ hcopies' _ hsock'
        exact .call hcopies hmem
  · intro copies' hcopies' sock' hsock'
    obtain ⟨copies, hcopies, hmem⟩ := hleft copies' hcopies' sock' hsock'
    apply h.copies copies hcopies sock' hmem

/-- A step keeps the greeting if `Greets` allows it. -/
theorem step
    (h : Greeting s) (htabled : Tabled s) (ha : Greets s a) (hstep : Step s a u) :
  Greeting u
  := by
  cases hstep with
  | check hacceptor =>
      apply h.acceptor
      intro sock
      split <;> simp
  | accept fd hacceptor hfree => apply h.accept ha
  | acceptFail hacceptor =>
      apply h.acceptor
      simp
  | register sock hacceptor => apply h.register hacceptor
  | answer conn t whole ht hphase =>
      obtain rfl : whole = true := ha
      apply h.answer htabled ht hphase
  | reject conn t ht hphase => apply h.setThread ht <;> simp [hphase]
  | pong conn t ht hphase =>
      apply h.put
      · apply Holds.thread (List.mem_of_getElem? ht)
        simp [hphase]
      · use t
        rw [htabled.numbered conn t ht]
        use ht, rfl
        apply h.serving conn t ht hphase
  | endLoop conn t ht hphase => apply h.setThread ht <;> simp [hphase]
  | close conn t ht hphase =>
      have herase : Greeting { s with clients := s.clients.erase t.id } := h.of_table
      apply (herase.closeSock t.sock).setThread ht <;> simp [hphase]
  | sendMissed | stopAgain => exact h
  | send id sock hclient =>
      apply h.call htabled
      intro sock' hsock'
      obtain rfl := List.mem_singleton.mp hsock'
      use System.mem_socks.mpr ⟨id, hclient⟩
      apply ha sock' hclient
  | broadcast =>
      apply h.call htabled
      intro sock hsock
      use hsock, ha sock hsock
  | write call copy copies sock hcopies hsock => apply h.write hcopies hsock
  | stopFlag | stopListener | stopClients | stopClear | stopJoin => exact h.of_table
  | stopClose copy socks sock hstopper hsock =>
      apply closeSock
      exact h.of_table

end Greeting

/-- In a run that copies greeted clients only, and is given no descriptor that is still
held, the handshake comes first. -/
theorem greetedFirst
    {as : List Act} {s : System} (h : Lts.run System.step .init as = some s)
    (hguard : Lts.Guarded System.step Greets .init as) :
  GreetedFirst s.trace
  := by
  have hgreeting : Greeting s := by
    apply Lts.guarded_induction (P := fun _ s => Greeting s) Greeting.init _ hguard h
    intro _ t a u ht hgreeting ha hstep
    apply hgreeting.step (tabled_of_run ht) ha (Step.of_step hstep)
  apply hgreeting.opened.responseFirst

/-- A client is greeted and broadcast to, and its descriptor is given out again once it is
closed. -/
def greetedRun : List Act :=
  [.check, .accept 5, .register, .check, .answer 0 true, .broadcast, .pong 0, .write 0 0,
    .endLoop 0, .close 0, .accept 5, .register, .answer 1 true, .send 1, .write 1 0]

theorem greetedFirst_greetedRun :
  ∃ s, Lts.run System.step .init greetedRun = some s ∧ GreetedFirst s.trace
  := by
  obtain ⟨s, hs⟩ : ∃ s, Lts.run System.step .init greetedRun = some s := ⟨_, rfl⟩
  use s, hs
  apply greetedFirst hs
  decide

/-- A client is broadcast to before its thread has shaken hands with it. -/
def hastyRun : List Act :=
  [.check, .accept 5, .register, .broadcast, .write 0 0]

theorem not_greetedFirst :
  ¬ ∀ (as : List Act) (s : System),
      Lts.run System.step .init as = some s → GreetedFirst s.trace
  := by
  intro h
  have hfirst := (h hastyRun _ rfl).1 0 (0, .frame) rfl
  cases hfirst

end WsServer

end NexusMainframe
