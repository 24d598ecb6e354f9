import NexusMainframe.Server.WsClientLoop
import Mathlib.Data.List.TakeWhile

/-!
# Control frames

A client sends unfragmented text, ping, pong and close frames. The server stops at the
first close. It passes the payload of a pong to the message handler as it does the payload
of a text, and it answers a ping by a pong without a payload, whatever the payload of the
ping was. So the frames are dealt with as the protocol says just if the pings and the pongs
before the first close have no payload, and the texts are shorter than `2 ^ 32` bytes.
-/

namespace NexusMainframe

namespace WsServer

open Stream

/-- The kinds of frames that a client sends. -/
inductive Kind where
  | text
  | ping
  | pong
  | close
deriving DecidableEq

/-- The opcode of a kind. -/
def Kind.opcode : Kind → Fin 16
  | .text => 0x1
  | .ping => 0x9
  | .pong => 0xA
  | .close => 0x8

/-- An unfragmented frame of a client, of at most 125 bytes if it is a control frame. -/
structure ClientFrame where
  kind : Kind
  mask : Option WebSocket.Key
  payload : Bytes
  short : kind ≠ .text → payload.length ≤ 125

namespace ClientFrame

/-- The frame as the client sends it. -/
def frame (f : ClientFrame) : WebSocket.Frame :=
  ⟨true, f.kind.opcode, f.mask, f.payload⟩

/-- The bytes of a list of frames. -/
def stream (fs : List ClientFrame) : Bytes :=
  fs.flatMap fun f => f.frame.encode

/-- The frames in front of the first close. -/
def beforeClose (fs : List ClientFrame) : List ClientFrame :=
  fs.takeWhile fun f => f.kind ≠ .close

/-- The frames of a kind. -/
def ofKind (kind : Kind) (fs : List ClientFrame) : List ClientFrame :=
  fs.filter fun f => f.kind = kind

/-- The texts that are to be passed to the message handler. -/
def texts (fs : List ClientFrame) : List Bytes :=
  ((ofKind .text (beforeClose fs)).map payload).filter (· ≠ [])

/-- The pongs that are to be sent, each with the payload of its ping. -/
def pongs (fs : List ClientFrame) : List Bytes :=
  (ofKind .ping (beforeClose fs)).map fun f =>
    (WebSocket.Frame.mk true 0xA none f.payload).encode

/-- The server passes on the texts and answers the pings in front of the first close,
however the stream is cut. -/
def Classified (fs : List ClientFrame) : Prop :=
  ∀ s : Socket, s.bytes = stream fs →
    messages (clientLoop s) = texts fs ∧ answers (clientLoop s) = pongs fs

/-- The frames in front of the first close are all of the frames, or a close follows. -/
theorem stream_eq (fs : List ClientFrame) :
  stream fs = stream (beforeClose fs) ∨
    ∃ (f : ClientFrame) (rest : Bytes),
      f.kind = .close ∧ stream fs = stream (beforeClose fs) ++ f.frame.encode ++ rest
  := by
  induction fs with
  | nil =>
      left
      rfl
  | cons f fs ih =>
      by_cases hf : f.kind = .close
      · right
        use f, stream fs, hf
        simp [beforeClose, stream, hf]
      · have hbefore : beforeClose (f :: fs) = f :: beforeClose fs := by
          simp [beforeClose, hf]
        have hcons : ∀ gs, stream (f :: gs) = f.frame.encode ++ stream gs := by
          intro gs
          rfl
        rw [hbefore, hcons, hcons]
        rcases ih with ih | ⟨g, rest, hg, ih⟩
        · left
          rw [ih]
        · right
          use g, rest, hg
          rw [ih, List.append_assoc, List.append_assoc, List.append_assoc]

theorem opcode_frame (f : ClientFrame) :
  f.frame.opcode = f.kind.opcode
  := rfl

theorem kind_of_mem_beforeClose {fs : List ClientFrame} {f : ClientFrame} (h : f ∈ beforeClose fs) :
  f.kind ≠ .close
  := by
  simpa using List.mem_takeWhile_imp h

/-- What the loop comes to, when the texts in front of the first close are shorter than
`2 ^ 32` bytes. -/
theorem clientLoop_eq
    {fs : List ClientFrame}
    (h : ∀ f ∈ beforeClose fs, f.kind = .text → f.payload.length < 2 ^ 32) {s : Socket}
    (hs : s.bytes = stream fs) :
  clientLoop s = ((beforeClose fs).map frame).flatMap frameEvents
  := by
  have hlt : ∀ f ∈ (beforeClose fs).map frame, f.payload.length < 2 ^ 32 := by
    intro f hf
    obtain ⟨g, hg, rfl⟩ := List.mem_map.mp hf
    by_cases hkind : g.kind = .text
    · apply h g hg hkind
    · exact (g.short hkind).trans_lt (by decide)
  have hopen : ∀ f ∈ (beforeClose fs).map frame, f.opcode ≠ 0x8 := by
    intro f hf
    obtain ⟨g, hg, rfl⟩ := List.mem_map.mp hf
    have hkind := kind_of_mem_beforeClose hg
    rw [opcode_frame]
    cases hk : g.kind with
    | close => exact (hkind hk).elim
    | text => decide
    | ping => decide
    | pong => decide
  have hstream : stream (beforeClose fs)
      = ((beforeClose fs).map frame).flatMap WebSocket.Frame.encode := by
    rw [stream, List.flatMap_map]
  rcases stream_eq fs with hall | ⟨f, rest, hclose, hfirst⟩
  · rw [hall, hstream, ← List.append_nil (List.flatMap _ _)] at hs
    obtain ⟨t, ht, hloop⟩ := clientLoop_frames hlt hopen hs
    rw [hloop, clientLoop_end ht, List.append_nil]
  · rw [hfirst, hstream, List.append_assoc] at hs
    obtain ⟨t, ht, hloop⟩ := clientLoop_frames hlt hopen hs
    have hshort : f.frame.payload.length < 2 ^ 32 :=
      (f.short (by rw [hclose]; decide)).trans_lt (by decide)
    obtain ⟨u, -, hread⟩ := readFrame_whole hshort ht
    rw [opcode_frame, hclose, if_pos (by rfl)] at hread
    rw [hloop, clientLoop_closed hread, List.append_nil]

theorem opcode_eq_ping (kind : Kind) :
  kind.opcode = 0x9 ↔ kind = .ping
  := by
  cases kind <;> decide

/-- The payloads passed on are those of the texts and of the pongs. -/
theorem messages_frames
    {fs : List ClientFrame} (hopen : ∀ f ∈ fs, f.kind ≠ .close) :
  messages ((fs.map frame).flatMap frameEvents)
    = (fs.filter fun f => (f.kind = .text ∨ f.kind = .pong) ∧ f.payload ≠ []).map payload
  := by
  rw [messages_flatMap_frameEvents, List.filter_map, List.map_map]
  congr 1
  apply List.filter_congr
  intro f hf
  have hkind : f.kind ≠ .ping ↔ f.kind = .text ∨ f.kind = .pong := by
    have := hopen f hf
    cases hk : f.kind <;> simp_all
  simp only [Function.comp_apply, opcode_frame, ne_eq, opcode_eq_ping, ← hkind]
  rfl

/-- Every ping is answered by a pong without a payload. -/
theorem answers_frames (fs : List ClientFrame) :
  answers ((fs.map frame).flatMap frameEvents) = (ofKind .ping fs).map fun _ => [0x8A, 0x00]
  := by
  rw [answers_flatMap_frameEvents, List.filter_map, List.map_map, ofKind]
  simp only [Function.comp_def, opcode_frame, opcode_eq_ping]

/-- Only the texts are passed on just if no pong has a payload. -/
theorem messages_eq_texts_iff (fs : List ClientFrame) :
  messages (((beforeClose fs).map frame).flatMap frameEvents) = texts fs
    ↔ ∀ f ∈ beforeClose fs, f.kind = .pong → f.payload = []
  := by
  have htexts : texts fs
      = ((beforeClose fs).filter fun f => f.kind = .text ∧ f.payload ≠ []).map payload := by
    rw [texts, ofKind, List.filter_map, List.filter_filter]
    congr 1
    apply List.filter_congr
    intro f _
    simp [Bool.and_comm]
  rw [messages_frames fun f hf => kind_of_mem_beforeClose hf, htexts]
  constructor
  · intro heq f hf hpong
    by_contra hpayload
    have hsub : ((beforeClose fs).filter fun f => f.kind = .text ∧ f.payload ≠ []).Sublist
        ((beforeClose fs).filter fun f =>
          (f.kind = .text ∨ f.kind = .pong) ∧ f.payload ≠ []) := by
      apply List.monotone_filter_right
      intro g hg
      simp only [decide_eq_true_eq] at hg ⊢
      use Or.inl hg.1, hg.2
    have hlen := congrArg List.length heq
    rw [List.length_map, List.length_map] at hlen
    have hmem : f ∈ (beforeClose fs).filter fun f => f.kind = .text ∧ f.payload ≠ [] := by
      rw [hsub.eq_of_length hlen.symm]
      simp [hf, hpong, hpayload]
    simp [hpong] at hmem
  · intro hpongs
    congr 1
    apply List.filter_congr
    intro f hf
    by_cases hpong : f.kind = .pong
    · simp [hpong, hpongs f hf hpong]
    · simp [hpong]

/-- The pings are answered as they should be just if no ping has a payload. -/
theorem answers_eq_pongs_iff (fs : List ClientFrame) :
  answers (((beforeClose fs).map frame).flatMap frameEvents) = pongs fs
    ↔ ∀ f ∈ beforeClose fs, f.kind = .ping → f.payload = []
  := by
  have hpong : ∀ payload : Bytes,
      [0x8A, 0x00] = (WebSocket.Frame.mk true 0xA none payload).encode ↔ payload = [] := by
    intro payload
    constructor
    · intro heq
      have hlen := congrArg List.length heq
      rw [WebSocket.Frame.encode, WebSocket.Frame.header, List.length_append, List.length_append,
        WebSocket.Frame.length_body] at hlen
      apply List.length_eq_zero_iff.mp
      simp only [List.length_cons, List.length_nil] at hlen
      omega
    · rintro rfl
      decide
  rw [answers_frames, pongs, List.map_inj_left]
  simp only [hpong, ofKind, List.mem_filter, decide_eq_true_eq, and_imp]

/-- A text that is passed on is shorter than `2 ^ 32` bytes. -/
theorem lt_of_messages
    {fs : List ClientFrame} {s : Socket} (h : messages (clientLoop s) = texts fs) :
  ∀ f ∈ beforeClose fs, f.kind = .text → f.payload.length < 2 ^ 32
  := by
  intro f hf hkind
  by_cases hpayload : f.payload = []
  · rw [hpayload]
    decide
  · apply length_lt_of_mem_messages
    rw [h]
    simp only [texts, ofKind, List.mem_filter, List.mem_map, decide_eq_true_eq]
    exact ⟨⟨f, ⟨hf, hkind⟩, rfl⟩, hpayload⟩

theorem of_classified
    {fs : List ClientFrame} (h : Classified fs) {f : ClientFrame} (hf : f ∈ beforeClose fs) :
  (f.kind = .text → f.payload.length < 2 ^ 32) ∧ (f.kind = .ping → f.payload = []) ∧
    (f.kind = .pong → f.payload = [])
  := by
  have hs := Socket.bytes_bytewise (stream fs)
  obtain ⟨hmessages, hanswers⟩ := h _ hs
  have hlt := lt_of_messages hmessages
  rw [clientLoop_eq hlt hs] at hmessages hanswers
  use hlt f hf, (answers_eq_pongs_iff fs).mp hanswers f hf
  apply (messages_eq_texts_iff fs).mp hmessages f hf

/-- A ping that carries `hi` is answered by a pong that does not. -/
theorem not_classified :
  ¬ Classified
    [{ kind := .ping, mask := some ⟨[0x37, 0xFA, 0x21, 0x3D], rfl⟩, payload := Bytes.ofAscii "hi",
       short := by decide }]
  := by
  intro h
  have hpayload := (of_classified h (List.mem_cons_self)).2.1 rfl
  exact absurd hpayload (by decide)

/-- The frames are dealt with as the protocol says just if, in front of the first close, the
texts are shorter than `2 ^ 32` bytes and the pings and pongs have no payload. -/
theorem classified_iff (fs : List ClientFrame) :
  Classified fs ↔ ∀ f ∈ beforeClose fs,
    (f.kind = .text → f.payload.length < 2 ^ 32) ∧ (f.kind = .ping → f.payload = []) ∧
      (f.kind = .pong → f.payload = [])
  := by
  constructor
  · intro h f hf
    apply of_classified h hf
  · intro h s hs
    rw [clientLoop_eq (fun f hf => (h f hf).1) hs]
    use (messages_eq_texts_iff fs).mpr fun f hf => (h f hf).2.2
    apply (answers_eq_pongs_iff fs).mpr fun f hf => (h f hf).2.1

end ClientFrame

end WsServer

end NexusMainframe
