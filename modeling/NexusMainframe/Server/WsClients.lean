import NexusMainframe.Server.WsServer

/-!
# The clients of the WebSocket server

The services see of the WebSocket server its table of clients: which connection an id stands for.
`ClientTable` is that table with its counter, and every step of the server either leaves it alone
or is one of its three operations.
-/

namespace NexusMainframe

namespace WsServer

/-- The id that the client of a connection gets: an `int` that is counted up. -/
def clientId (conn : Nat) : Int :=
  Machine.wrapInt32 conn

/-- The first `2 ^ 32` connections have different ids. -/
theorem clientId_inj {conn conn' : Nat} (h : conn < 2 ^ 32) (h' : conn' < 2 ^ 32) :
  clientId conn = clientId conn' ↔ conn = conn'
  := by
  rw [clientId, clientId, Machine.wrapInt32_inj (by omega) (by omega), Nat.cast_inj]

/-- The connection of each client, the id of the next client, and how many connections have been
entered. -/
@[ext]
structure ClientTable where
  conn : Int → Option Nat
  nextId : Int
  entered : Nat

namespace ClientTable

/-- Nobody has come yet. -/
def init : ClientTable where
  conn := fun _ => none
  nextId := 0
  entered := 0

/-- The accept thread enters a connection, over that of another client if the ids have wrapped. -/
def enter (t : ClientTable) : ClientTable where
  conn := Function.update t.conn t.nextId (some t.entered)
  nextId := Machine.wrapInt32 (t.nextId + 1)
  entered := t.entered + 1

/-- The thread of a client takes it out. -/
def drop (t : ClientTable) (id : Int) : ClientTable where
  conn := Function.update t.conn id none
  nextId := t.nextId
  entered := t.entered

/-- `stop` takes all of them out. -/
def clear (t : ClientTable) : ClientTable where
  conn := fun _ => none
  nextId := t.nextId
  entered := t.entered

/-- What a step of the server may do to the table. -/
inductive Moves (t : ClientTable) : ClientTable → Prop where
  | stay : Moves t t
  | enter : Moves t t.enter
  | drop (id : Int) : Moves t (t.drop id)
  | clear : Moves t t.clear

/-- The ids in the table are those of connections that have been entered. -/
structure Numbered (t : ClientTable) : Prop where
  nextId : t.nextId = clientId t.entered
  conn : ∀ {id conn}, t.conn id = some conn → id = clientId conn ∧ conn < t.entered

variable {t : ClientTable}

@[simp]
theorem conn_enter (t : ClientTable) (id : Int) :
  t.enter.conn id = if id = t.nextId then some t.entered else t.conn id
  := Function.update_apply t.conn t.nextId (some t.entered) id

@[simp]
theorem conn_drop (t : ClientTable) (id id' : Int) :
  (t.drop id).conn id' = if id' = id then none else t.conn id'
  := Function.update_apply t.conn id none id'

theorem numbered_init :
  Numbered init
  := by
  constructor
  · exact (Machine.wrapInt32_of_lt (by decide)).symm
  · rintro id conn ⟨⟩

theorem Numbered.enter (h : Numbered t) :
  Numbered t.enter
  := by
  constructor
  · rw [ClientTable.enter, h.nextId, clientId, clientId, Machine.wrapInt32_wrapInt32_add,
      Nat.cast_succ]
  · intro id conn hid
    rw [conn_enter] at hid
    split at hid
    next heq =>
      cases hid
      exact ⟨heq.trans h.nextId, Nat.lt_succ_self t.entered⟩
    next =>
      obtain ⟨hid, hlt⟩ := h.conn hid
      exact ⟨hid, Nat.lt_succ_of_lt hlt⟩

theorem Numbered.drop (h : Numbered t) (id : Int) :
  Numbered (t.drop id)
  := by
  use h.nextId
  intro id' conn hid
  rw [conn_drop] at hid
  split at hid
  next => cases hid
  next => exact h.conn hid

theorem Numbered.clear (h : Numbered t) :
  Numbered t.clear
  := by
  use h.nextId
  rintro id conn ⟨⟩

theorem Numbered.moves {t' : ClientTable} (h : Numbered t) (hmoves : t.Moves t') :
  Numbered t'
  := by
  cases hmoves with
  | stay => apply h
  | enter => apply h.enter
  | drop id => apply h.drop id
  | clear => apply h.clear

end ClientTable

/-- The table of the server as the services see it. -/
def System.clientTable (s : System) : ClientTable where
  conn := fun id => (s.clients.lookup id).map Sock.conn
  nextId := s.nextId
  entered := s.threads.length

theorem clientTable_init :
  System.clientTable .init = .init
  := rfl

/-- The phases of the threads are not in the table. -/
theorem clientTable_setThread (s : System) (conn : Nat) (t : Thread) :
  (s.setThread conn t).clientTable = s.clientTable
  := by
  ext1
  · rfl
  · rfl
  · apply List.length_set

/-- A step of the server is a step of the table. -/
theorem moves_of_step
    {s u : System} {a : Act} (h : Tabled s) (hstep : Step s a u) :
  s.clientTable.Moves u.clientTable
  := by
  cases hstep with
  | register sock hacceptor =>
      have henter : System.clientTable { s with
          acceptor := .checking
          nextId := Machine.wrapInt32 (s.nextId + 1)
          clients := s.clients.insert s.nextId sock
          threads := s.threads ++ [⟨s.nextId, sock, .handshaking, false⟩] }
          = s.clientTable.enter := by
        ext1
        · funext id
          rw [ClientTable.conn_enter]
          by_cases hid : id = s.nextId <;>
            simp [System.clientTable, hid, h.accepted sock hacceptor]
        · rfl
        · apply List.length_append
      rw [henter]
      apply ClientTable.Moves.enter
  | close conn t ht hphase =>
      have hdrop : System.clientTable { s with clients := s.clients.erase t.id }
          = s.clientTable.drop t.id := by
        ext1
        · funext id
          rw [ClientTable.conn_drop]
          by_cases hid : id = t.id <;> simp [System.clientTable, hid, AList.lookup_erase_ne]
        · rfl
        · rfl
      rw [clientTable_setThread]
      apply hdrop ▸ ClientTable.Moves.drop t.id
  | stopClear => exact ClientTable.Moves.clear
  | answer | reject | endLoop =>
      rw [clientTable_setThread]
      apply ClientTable.Moves.stay
  | _ => exact ClientTable.Moves.stay

/-- In every run the ids in the table of the server are those of its connections. -/
theorem numbered_of_run
    {as : List Act} {s : System} (h : Lts.run System.step .init as = some s) :
  s.clientTable.Numbered
  := by
  suffices hboth : Tabled s ∧ s.clientTable.Numbered from hboth.2
  apply Lts.run_induction (P := fun _ s => Tabled s ∧ s.clientTable.Numbered) _ _ h
  · rw [clientTable_init]
    exact ⟨Tabled.init, ClientTable.numbered_init⟩
  · rintro _ t a u _ ⟨htabled, hnumbered⟩ hstep
    use htabled.step (Step.of_step hstep)
    apply hnumbered.moves (moves_of_step htabled (Step.of_step hstep))

end WsServer

end NexusMainframe
