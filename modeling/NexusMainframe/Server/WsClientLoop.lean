import NexusMainframe.Server.WsFrame

/-!
# The loop of a client's thread

After the handshake the thread of a client reads frames until one closes the connection,
and passes every payload that is not empty to the message handler. `readFrame` returns the
payload of a frame whatever its opcode and its FIN bit are, apart from a close and a ping,
so the loop takes every fragment of a message, and the payload of a pong, for a message of
its own. A ping is answered by an empty pong.
-/

namespace NexusMainframe

namespace WsServer

open Stream

/-- What the loop does for a client: it calls the message handler, or `readFrame` sends
bytes. -/
inductive Event where
  | message (payload : Bytes)
  | sent (bytes : Bytes)
deriving DecidableEq

/-- What the loop does about one result of `readFrame`. -/
def events (payload sent : Bytes) : List Event :=
  (if sent = [] then [] else [.sent sent]) ++ (if payload = [] then [] else [.message payload])

/-! ### Progress -/

theorem recvAll_bytes_length_le
    {s t : Socket} {n : Nat} {bs : Bytes} (h : recvAll s n = some (bs, t)) :
  t.bytes.length ≤ s.bytes.length
  := by
  have hlen := congrArg List.length (recvAll_length h).2
  rw [List.length_append] at hlen
  omega

theorem readLength_bytes_length_le
    {s t : Socket} {plen n : Nat} (h : readLength plen s = some (n, t)) :
  t.bytes.length ≤ s.bytes.length
  := by
  have hext : ∀ k, ((recvAll s k).map fun p => (shiftIn p.1, p.2)) = some (n, t) →
      t.bytes.length ≤ s.bytes.length := by
    intro k hk
    obtain ⟨⟨e, u⟩, hread, heq⟩ := Option.map_eq_some_iff.mp hk
    obtain ⟨-, rfl⟩ := Prod.mk.inj heq
    apply recvAll_bytes_length_le hread
  unfold readLength at h
  split at h
  next => apply hext 2 h
  next =>
    split at h
    next => apply hext 8 h
    next =>
      obtain ⟨-, rfl⟩ := Prod.mk.inj (Option.some.inj h)
      apply le_refl

theorem readMask_bytes_length_le
    {s t : Socket} {masked : Bool} {mask : Bytes} (h : readMask masked s = some (mask, t)) :
  t.bytes.length ≤ s.bytes.length
  := by
  unfold readMask at h
  split at h
  next => apply recvAll_bytes_length_le h
  next =>
    obtain ⟨-, rfl⟩ := Prod.mk.inj (Option.some.inj h)
    apply le_refl

/-- A header takes at least its first two bytes. -/
theorem readHeader_bytes_length_lt
    {s t : Socket} {hd : Header} (h : readHeader s = some (hd, t)) :
  t.bytes.length < s.bytes.length
  := by
  obtain ⟨⟨hdr, u⟩, hhdr, hrest⟩ := Option.bind_eq_some_iff.mp h
  obtain ⟨⟨plen, v⟩, hplen, hmask⟩ := Option.bind_eq_some_iff.mp hrest
  obtain ⟨⟨mask, w⟩, hread, heq⟩ := Option.map_eq_some_iff.mp hmask
  obtain ⟨-, rfl⟩ := Prod.mk.inj heq
  obtain ⟨hlen, hbytes⟩ := recvAll_length hhdr
  have hu := congrArg List.length hbytes
  have hv := readLength_bytes_length_le hplen
  have hw := readMask_bytes_length_le hread
  rw [List.length_append, hlen] at hu
  dsimp only at hv hw ⊢
  omega

theorem readFrame_bytes_length_lt
    {s t : Socket} {payload sent : Bytes} (h : readFrame s = .returned payload sent t) :
  t.bytes.length < s.bytes.length
  := by
  obtain ⟨hd, u, body, hheader, hbody, -⟩ := readFrame_eq_returned h
  have hu := readHeader_bytes_length_lt hheader
  have ht := recvAll_bytes_length_le hbody
  omega

/-! ### The loop -/

/-- The `while` loop of `clientLoop` on a running server with a message handler. -/
def clientLoop (s : Socket) : List Event :=
  match _h : readFrame s with
  | .closed => []
  | .threw => []
  | .returned payload sent t => events payload sent ++ clientLoop t
termination_by s.bytes.length
decreasing_by apply readFrame_bytes_length_lt _h

/-- The payloads passed to the message handler. -/
def messages (es : List Event) : List Bytes :=
  es.filterMap fun
    | .message payload => some payload
    | .sent _ => none

/-- The frames sent. -/
def answers (es : List Event) : List Bytes :=
  es.filterMap fun
    | .message _ => none
    | .sent bytes => some bytes

@[simp]
theorem messages_append (es es' : List Event) :
  messages (es ++ es') = messages es ++ messages es'
  := List.filterMap_append

@[simp]
theorem answers_append (es es' : List Event) :
  answers (es ++ es') = answers es ++ answers es'
  := List.filterMap_append

theorem messages_events (payload sent : Bytes) :
  messages (events payload sent) = [payload].filter (· ≠ [])
  := by
  unfold events messages
  split <;> split <;> simp_all

theorem answers_events (payload sent : Bytes) :
  answers (events payload sent) = [sent].filter (· ≠ [])
  := by
  unfold events answers
  split <;> split <;> simp_all

theorem clientLoop_returned
    {s t : Socket} {payload sent : Bytes} (h : readFrame s = .returned payload sent t) :
  clientLoop s = events payload sent ++ clientLoop t
  := by
  rw [clientLoop]
  split
  next h' => cases h.symm.trans h'
  next h' => cases h.symm.trans h'
  next h' =>
    obtain ⟨rfl, rfl, rfl⟩ := FrameRead.returned.inj (h.symm.trans h')
    rfl

theorem clientLoop_threw {s : Socket} (h : readFrame s = .threw) :
  clientLoop s = []
  := by
  rw [clientLoop]
  split
  next => rfl
  next => rfl
  next h' => cases h.symm.trans h'

theorem clientLoop_closed {s : Socket} (h : readFrame s = .closed) :
  clientLoop s = []
  := by
  rw [clientLoop]
  split
  next => rfl
  next => rfl
  next h' => cases h.symm.trans h'

/-- The loop ends with the stream. -/
theorem clientLoop_end {s : Socket} (h : s.bytes = []) :
  clientLoop s = []
  := by
  apply clientLoop_closed
  apply readFrame_short (f := WebSocket.Frame.text none [])
  · decide
  · rw [h]
    apply List.nil_prefix
  · rw [h]
    decide

/-- No message of `2 ^ 32` bytes or more is passed on. -/
theorem length_lt_of_mem_messages
    {s : Socket} {payload : Bytes} (h : payload ∈ messages (clientLoop s)) :
  payload.length < 2 ^ 32
  := by
  induction s using clientLoop.induct with
  | case1 s hread =>
      rw [clientLoop_closed hread] at h
      simp [messages] at h
  | case2 s hread =>
      rw [clientLoop_threw hread] at h
      simp [messages] at h
  | case3 s payload' sent t hread ih =>
      rw [clientLoop_returned hread, messages_append, messages_events] at h
      rcases List.mem_append.mp h with h | h
      · rw [List.eq_of_mem_singleton (List.mem_of_mem_filter h)]
        apply length_lt_of_readFrame hread
      · apply ih h

/-! ### Frames in front of the stream -/

/-- What the loop does about a frame that does not close the connection. -/
def frameEvents (f : WebSocket.Frame) : List Event :=
  if f.opcode = 0x9 then events [] [0x8A, 0x00] else events f.payload []

/-- Frames that do not close the connection are dealt with one after the other. -/
theorem clientLoop_frames
    {fs : List WebSocket.Frame} (hlt : ∀ f ∈ fs, f.payload.length < 2 ^ 32)
    (hopen : ∀ f ∈ fs, f.opcode ≠ 0x8) {s : Socket} {rest : Bytes}
    (hs : s.bytes = fs.flatMap WebSocket.Frame.encode ++ rest) :
  ∃ t, t.bytes = rest ∧ clientLoop s = fs.flatMap frameEvents ++ clientLoop t
  := by
  induction fs generalizing s with
  | nil =>
      use s, hs
      rfl
  | cons f fs ih =>
      obtain ⟨hf, hfs⟩ := List.forall_mem_cons.mp hlt
      obtain ⟨hf8, hfs8⟩ := List.forall_mem_cons.mp hopen
      rw [List.flatMap_cons, List.append_assoc] at hs
      obtain ⟨u, hu, hread⟩ := readFrame_whole hf hs
      obtain ⟨t, ht, hloop⟩ := ih hfs hfs8 hu
      have hfirst : clientLoop s = frameEvents f ++ clientLoop u := by
        rw [if_neg hf8] at hread
        unfold frameEvents
        split at hread
        next hping => rw [if_pos hping, clientLoop_returned hread]
        next hping => rw [if_neg hping, clientLoop_returned hread]
      use t, ht
      rw [hfirst, hloop, List.flatMap_cons, List.append_assoc]

/-- The frames that are not pings give their payloads to the message handler. -/
theorem messages_flatMap_frameEvents (fs : List WebSocket.Frame) :
  messages (fs.flatMap frameEvents)
    = (fs.filter fun f => f.opcode ≠ 0x9 ∧ f.payload ≠ []).map WebSocket.Frame.payload
  := by
  induction fs with
  | nil => rfl
  | cons f fs ih =>
      rw [List.flatMap_cons, messages_append, ih, frameEvents, List.filter_cons]
      by_cases hping : f.opcode = 0x9
      · simp [hping, messages_events]
      · by_cases hpayload : f.payload = [] <;> simp [hping, hpayload, messages_events]

/-- Every ping is answered, by one and the same frame. -/
theorem answers_flatMap_frameEvents (fs : List WebSocket.Frame) :
  answers (fs.flatMap frameEvents)
    = (fs.filter fun f => f.opcode = 0x9).map fun _ => [0x8A, 0x00]
  := by
  induction fs with
  | nil => rfl
  | cons f fs ih =>
      rw [List.flatMap_cons, answers_append, ih, frameEvents, List.filter_cons]
      by_cases hping : f.opcode = 0x9 <;> simp [hping, answers_events]

end WsServer

end NexusMainframe
