import NexusMainframe.Chromecast.CastChannel
import NexusMainframe.Lib.Ownership

/-!
# What a TLS socket owns

`connect` obtains the addresses of the host, a socket, an `SSL_CTX` and an `SSL`, one after
the other, and any of its calls may fail when some of them are there already. Whatever
calls are made on the object, one at a time, and wherever they fail: what was obtained is
held by the object or has been released once, and nothing works with it afterwards.
-/

namespace NexusMainframe

namespace TlsSocket

open Ownership

/-! ### The ledger -/

/-- What the system and the TLS library hand out. -/
inductive Kind where
  | addrinfo
  | socket
  | context
  | ssl
deriving DecidableEq

/-- What is obtained has a number. -/
structure Resource where
  kind : Kind
  number : Nat
deriving DecidableEq

/-- How many resources were obtained, and what was done with them. -/
structure Ledger where
  obtained : Nat := 0
  uses : List (Use Resource) := []
deriving DecidableEq

namespace Ledger

/-- One more is obtained, under the next number. -/
def acquire (l : Ledger) (kind : Kind) : Nat × Ledger :=
  (l.obtained, ⟨l.obtained + 1, l.uses ++ [.acquired ⟨kind, l.obtained⟩]⟩)

/-- A call works with a resource. -/
def use (l : Ledger) (r : Resource) : Ledger :=
  { l with uses := l.uses ++ [.used r] }

/-- A call that works with all of these. -/
def useAll (l : Ledger) (rs : List Resource) : Ledger :=
  rs.foldl use l

/-- A resource is given back. -/
def release (l : Ledger) (r : Resource) : Ledger :=
  { l with uses := l.uses ++ [.released r] }

/-- All that was obtained is owned by somebody, or has been released once. -/
structure Owns (l : Ledger) (owned : List Resource) : Prop where
  nodup : owned.Nodup
  accounted : Accounted (· ∈ owned) l.uses
  obtained : ∀ r, .acquired r ∈ l.uses → r.number < l.obtained

variable {l : Ledger} {owned : List Resource}

theorem Owns.init :
  Owns {} []
  where
  nodup := List.nodup_nil
  accounted := Accounted.nil fun r => List.not_mem_nil
  obtained r hr := by cases hr

theorem Owns.acquire (h : l.Owns owned) (kind : Kind) :
  (l.acquire kind).2.Owns (⟨kind, (l.acquire kind).1⟩ :: owned)
  := by
  have hnew : .acquired ⟨kind, l.obtained⟩ ∉ l.uses := by
    intro hr
    apply lt_irrefl _ (h.obtained _ hr)
  constructor
  · apply List.nodup_cons.mpr ⟨_, h.nodup⟩
    intro hr
    apply hnew (h.accounted.owned _ hr)
  · apply (h.accounted.acquire hnew).congr
    intro r
    rw [List.mem_cons, Ledger.acquire, or_comm]
  · intro r hr
    simp only [Ledger.acquire, List.mem_append, List.mem_singleton, Use.acquired.injEq] at hr ⊢
    rcases hr with hr | rfl
    · apply (h.obtained r hr).trans (Nat.lt_succ_self _)
    · apply Nat.lt_succ_self

theorem Owns.use (h : l.Owns owned) {r : Resource} (hr : r ∈ owned) :
  (l.use r).Owns owned
  where
  nodup := h.nodup
  accounted := h.accounted.use hr
  obtained r hr := h.obtained r (by simpa [Ledger.use] using hr)

theorem Owns.useAll (h : l.Owns owned) {rs : List Resource} (hrs : ∀ r ∈ rs, r ∈ owned) :
  (l.useAll rs).Owns owned
  := by
  induction rs generalizing l with
  | nil => exact h
  | cons r rs ih =>
      apply ih (h.use (hrs r List.mem_cons_self))
      intro r' hr'
      apply hrs r' (List.mem_cons_of_mem r hr')

theorem Owns.release (h : l.Owns owned) {r : Resource} (hr : r ∈ owned) :
  (l.release r).Owns (owned.erase r)
  where
  nodup := h.nodup.erase r
  accounted := by
    apply (h.accounted.release hr).congr
    intro r'
    rw [h.nodup.mem_erase_iff, and_comm]
  obtained r hr := h.obtained r (by simpa [Ledger.release] using hr)

theorem Owns.release_head {r : Resource} (h : l.Owns (r :: owned)) :
  (l.release r).Owns owned
  := by
  have hrelease := h.release List.mem_cons_self
  rwa [List.erase_cons_head] at hrelease

theorem Owns.release_second {q r : Resource} (h : l.Owns (q :: r :: owned)) (hne : q ≠ r) :
  (l.release r).Owns (q :: owned)
  := by
  have hrelease := h.release (List.mem_cons_of_mem q List.mem_cons_self)
  rwa [List.erase_cons_tail (by simpa using hne), List.erase_cons_head] at hrelease

end Ledger

/-! ### The calls -/

/-- The fields of `Impl`, a null pointer or a negative socket being `none`. -/
structure Impl where
  sock : Option Nat := none
  ctx : Option Nat := none
  ssl : Option Nat := none
deriving DecidableEq

/-- What the fields name. -/
def Impl.held (impl : Impl) : List Resource :=
  impl.ssl.toList.map (⟨.ssl, ·⟩) ++
    (impl.ctx.toList.map (⟨.context, ·⟩) ++ impl.sock.toList.map (⟨.socket, ·⟩))

/-- The socket with what was done through it. -/
structure State where
  connected : Bool := false
  impl : Impl := {}
  ledger : Ledger := {}
  destroyed : Bool := false
deriving DecidableEq

/-- The calls in `connect` that may fail. -/
inductive Call where
  | getaddrinfo
  | socket
  | connect
  | sslCtxNew
  | sslNew
  | sslConnect
deriving DecidableEq

namespace State

/-- `SSL_shutdown` works with the connection as a whole. -/
def disconnect (s : State) : State :=
  let l :=
    match s.impl.ssl with
    | some n => (s.ledger.useAll s.impl.held).release ⟨.ssl, n⟩
    | none => s.ledger
  let l :=
    match s.impl.ctx with
    | some n => l.release ⟨.context, n⟩
    | none => l
  let l :=
    match s.impl.sock with
    | some n => l.release ⟨.socket, n⟩
    | none => l
  { s with connected := false, impl := {}, ledger := l }

/-- The part of `connect` up to the TCP connection, where the call `failing` fails, if any:
the socket. -/
def connectTcp (l : Ledger) (failing : Option Call) : Option Nat × Ledger :=
  if failing = some .getaddrinfo then (none, l)
  else
    let (res, l) := l.acquire .addrinfo
    let l := l.use ⟨.addrinfo, res⟩
    if failing = some .socket then (none, l.release ⟨.addrinfo, res⟩)
    else
      let (sock, l) := l.acquire .socket
      let l := l.useAll [⟨.socket, sock⟩, ⟨.addrinfo, res⟩]
      if failing = some .connect then
        (none, (l.release ⟨.socket, sock⟩).release ⟨.addrinfo, res⟩)
      else (some sock, l.release ⟨.addrinfo, res⟩)

/-- The part of `connect` from the TCP connection on. -/
def handshake (l : Ledger) (sock : Nat) (failing : Option Call) : Option Impl × Ledger :=
  if failing = some .sslCtxNew then (none, l.release ⟨.socket, sock⟩)
  else
    let (ctx, l) := l.acquire .context
    -- The mode of verification is set, and `SSL_new` is called.
    let l := (l.use ⟨.context, ctx⟩).use ⟨.context, ctx⟩
    if failing = some .sslNew then (none, (l.release ⟨.context, ctx⟩).release ⟨.socket, sock⟩)
    else
      let (ssl, l) := l.acquire .ssl
      -- The socket and the name of the host are set, and `SSL_connect` is called.
      let l := (l.useAll [⟨.ssl, ssl⟩, ⟨.socket, sock⟩]).use ⟨.ssl, ssl⟩
      let l := l.useAll [⟨.ssl, ssl⟩, ⟨.context, ctx⟩, ⟨.socket, sock⟩]
      if failing = some .sslConnect then
        (none, ((l.release ⟨.ssl, ssl⟩).release ⟨.context, ctx⟩).release ⟨.socket, sock⟩)
      else (some ⟨some sock, some ctx, some ssl⟩, l)

/-- `connect`, which gives up what a connection before had; `failing` is the call that fails. -/
def connect (s : State) (failing : Option Call) : Bool × State :=
  let s := s.disconnect
  match connectTcp s.ledger failing with
  | (none, l) => (false, { s with ledger := l })
  | (some sock, l) =>
      match handshake l sock failing with
      | (none, l) => (false, { s with ledger := l })
      | (some impl, l) => (true, { s with connected := true, impl := impl, ledger := l })

/-- The loop of `sendAll` and of `recvAll`, with `missing` bytes to go, where `SSL_write` or
`SSL_read` returns `results` one after the other. -/
def transfer (s : State) : Nat → List Int → Bool × State
  | 0, _ => (true, s)
  | _ + 1, [] => (false, { s with connected := false })
  | missing + 1, n :: results =>
      let s := { s with ledger := s.ledger.useAll s.impl.held }
      if n ≤ 0 then (false, { s with connected := false })
      else transfer s (missing + 1 - n.toNat) results

/-- `sendAll` or `recvAll` of `size` bytes. -/
def io (s : State) (size : Nat) (results : List Int) : Bool × State :=
  if s.connected = false ∨ s.impl.ssl = none then (false, s) else s.transfer size results

end State

/-- The loop goes as the one over the data does. -/
theorem transfer_eq_sendAll (s : State) (data : Bytes) (results : List Int) :
  (s.transfer data.length results).1 = (sendAll data results).1
  := by
  induction results generalizing s data with
  | nil => cases data <;> rfl
  | cons n results ih =>
      cases data with
      | nil => rfl
      | cons b data =>
          rw [List.length_cons, State.transfer, sendAll]
          split
          next => rfl
          next =>
            rw [← List.length_cons (a := b), ← List.length_drop, ih]

/-! ### Runs -/

/-- The calls of the object, up to its destructor. -/
inductive Act where
  | connect (failing : Option Call)
  | disconnect
  | io (size : Nat) (results : List Int)
  | destroy
deriving DecidableEq

/-- Nothing is called after the destructor. -/
def step (s : State) (a : Act) : Option State :=
  if s.destroyed then none
  else
    match a with
    | .connect failing => some (s.connect failing).2
    | .disconnect => some s.disconnect
    | .io size results => some (s.io size results).2
    | .destroy => some { s.disconnect with destroyed := true }

/-- The object holds nothing or a connection, and the latter while it is connected. -/
structure Inv (s : State) : Prop where
  owns : s.ledger.Owns s.impl.held
  whole : s.impl = {} ∧ s.connected = false ∨
    ∃ sock ctx ssl, s.impl = ⟨some sock, some ctx, some ssl⟩
  destroyed : s.destroyed = true → s.impl = {}

variable {s t : State}

theorem Inv.init :
  Inv {}
  where
  owns := Ledger.Owns.init
  whole := .inl ⟨rfl, rfl⟩
  destroyed := nofun

/-- `disconnect` releases what the object holds. -/
theorem Inv.owns_disconnect (h : Inv s) :
  s.disconnect.ledger.Owns []
  := by
  obtain ⟨howns, hwhole, -⟩ := h
  rcases hwhole with ⟨himpl, -⟩ | ⟨sock, ctx, ssl, himpl⟩
  · rw [himpl] at howns
    simpa [State.disconnect, himpl, Impl.held] using howns
  · have hheld : s.impl.held = [⟨.ssl, ssl⟩, ⟨.context, ctx⟩, ⟨.socket, sock⟩] := by
      rw [himpl]
      rfl
    have hused : (s.ledger.useAll s.impl.held).Owns s.impl.held := howns.useAll fun r hr => hr
    rw [hheld] at hused
    simp only [State.disconnect, himpl]
    rw [himpl] at hheld
    rw [hheld]
    exact hused.release_head.release_head.release_head

theorem Inv.disconnect (h : Inv s) :
  Inv s.disconnect
  where
  owns := h.owns_disconnect
  whole := .inl ⟨rfl, rfl⟩
  destroyed _ := rfl

/-- The TCP connection leaves the socket, or nothing. -/
theorem owns_connectTcp {l : Ledger} (h : l.Owns []) (failing : Option Call) :
  (State.connectTcp l failing).2.Owns
    ((State.connectTcp l failing).1.toList.map (⟨.socket, ·⟩))
  := by
  have hres := (h.acquire .addrinfo).use List.mem_cons_self
  have hsock := (hres.acquire .socket).useAll fun r hr => hr
  unfold State.connectTcp
  split
  next => exact h
  next =>
    dsimp only
    split
    next => exact hres.release_head
    next =>
      split
      next => exact hsock.release_head.release_head
      next => exact hsock.release_second (by simp)

/-- The handshake leaves the connection, or nothing. -/
theorem owns_handshake
    {l : Ledger} {sock : Nat} (h : l.Owns [⟨.socket, sock⟩]) (failing : Option Call) :
  (State.handshake l sock failing).2.Owns
    (((State.handshake l sock failing).1.map Impl.held).getD [])
  := by
  have hctx := ((h.acquire .context).use List.mem_cons_self).use List.mem_cons_self
  have hset := ((hctx.acquire .ssl).use List.mem_cons_self).use (r := ⟨.socket, sock⟩) (by simp)
  have hssl := (hset.use List.mem_cons_self).useAll fun r hr => hr
  unfold State.handshake
  split
  next => exact h.release_head
  next =>
    dsimp only
    split
    next => exact hctx.release_head.release_head
    next =>
      split
      next => exact hssl.release_head.release_head.release_head
      next => exact hssl

/-- The handshake fills the fields together. -/
theorem handshake_eq_some
    {l : Ledger} {sock : Nat} {failing : Option Call} {impl : Impl}
    (h : (State.handshake l sock failing).1 = some impl) :
  ∃ ctx ssl, impl = ⟨some sock, some ctx, some ssl⟩
  := by
  unfold State.handshake at h
  split at h
  next => cases h
  next =>
    dsimp only at h
    split at h
    next => cases h
    next =>
      split at h
      next => cases h
      next => exact ⟨_, _, (Option.some.inj h).symm⟩

theorem Inv.connect (h : Inv s) (hs : s.destroyed = false) (failing : Option Call) :
  Inv (s.connect failing).2
  := by
  have htcp := owns_connectTcp h.owns_disconnect failing
  unfold State.connect
  dsimp only
  split
  next l hl =>
    rw [hl] at htcp
    exact ⟨htcp, .inl ⟨rfl, rfl⟩, fun _ => rfl⟩
  next sock l hl =>
    rw [hl] at htcp
    have hhandshake := owns_handshake htcp failing
    split
    next l' hl' =>
      rw [hl'] at hhandshake
      exact ⟨hhandshake, .inl ⟨rfl, rfl⟩, fun _ => rfl⟩
    next impl l' hl' =>
      obtain ⟨ctx, ssl, himpl⟩ := handshake_eq_some (congrArg Prod.fst hl')
      rw [hl'] at hhandshake
      constructor
      · exact hhandshake
      · right
        use sock, ctx, ssl, himpl
      · intro hdestroyed
        cases hdestroyed.symm.trans hs

/-- An object that holds a connection works with it. -/
theorem Inv.use_held
    (h : Inv s) (hssl : s.impl.ssl ≠ none) (connected : Bool) :
  Inv { s with connected := connected, ledger := s.ledger.useAll s.impl.held }
  where
  owns := h.owns.useAll fun r hr => hr
  whole := by
    right
    apply h.whole.resolve_left
    rintro ⟨himpl, -⟩
    apply hssl
    rw [himpl]
  destroyed := h.destroyed

theorem Inv.transfer
    (h : Inv s) (hssl : s.impl.ssl ≠ none) (size : Nat) (results : List Int) :
  Inv (s.transfer size results).2
  := by
  fun_induction State.transfer s size results with
  | case1 s results => exact h
  | case2 s missing =>
      exact ⟨h.owns, (h.use_held hssl false).whole, h.destroyed⟩
  | case3 s missing n results _ hn => exact h.use_held hssl false
  | case4 s missing n results _ hn ih =>
      apply ih
      · exact h.use_held hssl s.connected
      · exact hssl

theorem Inv.step (h : Inv s) {a : Act} (hstep : step s a = some t) :
  Inv t
  := by
  unfold TlsSocket.step at hstep
  split at hstep
  next => cases hstep
  next hs =>
    have hs := Bool.eq_false_iff.mpr hs
    cases a with
    | connect failing =>
        obtain rfl := Option.some.inj hstep
        exact h.connect hs failing
    | disconnect =>
        obtain rfl := Option.some.inj hstep
        exact h.disconnect
    | io size results =>
        obtain rfl := Option.some.inj hstep
        unfold State.io
        split
        next => exact h
        next hssl => exact h.transfer (fun hnone => hssl (.inr hnone)) size results
    | destroy =>
        obtain rfl := Option.some.inj hstep
        exact ⟨h.disconnect.owns, .inl ⟨rfl, rfl⟩, fun _ => rfl⟩

theorem Inv.of_run {acts : List Act} (h : Lts.run TlsSocket.step {} acts = some s) :
  Inv s
  := by
  apply Lts.run_induction (P := fun _ s => Inv s) Inv.init _ h
  intro _ t a u _ ht hu
  exact ht.step hu

/-- Whatever is called on the object, and wherever the calls fail: all that was obtained is
held in the fields and not released, or has been released once; nothing works with it after
that; and once the object is destroyed all of it has been released. -/
theorem released_once
    {acts : List Act} (h : Lts.run step {} acts = some s) :
  Accounted (· ∈ s.impl.held) s.ledger.uses
    ∧ (s.connected = true → ∃ sock ctx ssl, s.impl = ⟨some sock, some ctx, some ssl⟩)
    ∧ (s.destroyed = true → ∀ r, .acquired r ∈ s.ledger.uses →
      s.ledger.uses.count (.released r) = 1)
  := by
  have hinv := Inv.of_run h
  constructor
  · exact hinv.owns.accounted
  constructor
  · intro hconnected
    apply hinv.whole.resolve_left
    rintro ⟨-, hfalse⟩
    cases hconnected.symm.trans hfalse
  · intro hdestroyed r hr
    rcases hinv.owns.accounted.once r hr with ⟨hheld, -⟩ | ⟨-, hcount⟩
    · rw [hinv.destroyed hdestroyed] at hheld
      cases hheld
    · exact hcount

/-- A handshake fails, the next one succeeds, and the peer goes away in the middle of a
message. -/
theorem released_once_handshake :
  ∃ s, Lts.run step {} [.connect (some .sslConnect), .connect none, .io 3 [2, 0], .destroy]
      = some s
    ∧ ∀ r, .acquired r ∈ s.ledger.uses → s.ledger.uses.count (.released r) = 1
  := by
  have hrun : Lts.run step {} [.connect (some .sslConnect), .connect none, .io 3 [2, 0], .destroy]
      = some _ := rfl
  exact ⟨_, hrun, (released_once hrun).2.2 rfl⟩

end TlsSocket

end NexusMainframe
