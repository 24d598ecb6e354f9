import NexusMainframe.Server.WsClientLoop

/-!
# Fragmented messages

A fragmented text message is a text frame without the FIN bit, continuation frames without
it, and a continuation frame with it. The server has no state between two frames and never
looks at the FIN bit: it passes every fragment that is not empty to the message handler as
a message. So the message arrives as one just if at most one of its fragments is not empty.
-/

namespace NexusMainframe

namespace WsServer

open Stream

/-- A part of a message, with the masking key of its frame. -/
structure Fragment where
  mask : Option WebSocket.Key
  payload : Bytes

/-- A text message in two fragments or more. -/
structure Fragmented where
  first : Fragment
  middle : List Fragment
  last : Fragment

namespace Fragmented

/-- The fragments in the order in which they are sent. -/
def fragments (m : Fragmented) : List Fragment :=
  m.first :: m.middle ++ [m.last]

/-- The frames of a fragmented message. -/
def frames (m : Fragmented) : List WebSocket.Frame :=
  ⟨false, 0x1, m.first.mask, m.first.payload⟩
    :: m.middle.map (fun f => ⟨false, 0x0, f.mask, f.payload⟩)
    ++ [⟨true, 0x0, m.last.mask, m.last.payload⟩]

/-- The text of a fragmented message. -/
def payload (m : Fragmented) : Bytes :=
  m.fragments.flatMap Fragment.payload

/-- The message handler is called for a message in front of a stream once, with the whole
text, or not at all when that is empty, before what follows is dealt with. -/
def CalledOnce (m : Fragmented) : Prop :=
  ∀ (s : Socket) (rest : Bytes), s.bytes = m.frames.flatMap WebSocket.Frame.encode ++ rest →
    ∃ t : Socket, t.bytes = rest ∧
      messages (clientLoop s)
        = (if m.payload = [] then [] else [m.payload]) ++ messages (clientLoop t)

theorem payloads_frames (m : Fragmented) :
  m.frames.map WebSocket.Frame.payload = m.fragments.map Fragment.payload
  := by
  simp [frames, fragments, Function.comp_def]

/-- The frames of a message are text and continuation frames. -/
theorem opcode_frames (m : Fragmented) :
  ∀ f ∈ m.frames, f.opcode = 0x0 ∨ f.opcode = 0x1
  := by
  intro f hf
  simp only [frames, List.cons_append, List.mem_cons, List.mem_append, List.mem_map,
    List.not_mem_nil, or_false] at hf
  rcases hf with rfl | ⟨g, -, rfl⟩ | rfl
  · right
    rfl
  · left
    rfl
  · left
    rfl

/-- Fragments below `2 ^ 32` bytes reach the message handler one by one, without the empty
ones. -/
theorem messages_clientLoop
    {m : Fragmented} (h : ∀ f ∈ m.fragments, f.payload.length < 2 ^ 32) {s : Socket}
    {rest : Bytes} (hs : s.bytes = m.frames.flatMap WebSocket.Frame.encode ++ rest) :
  ∃ t : Socket, t.bytes = rest ∧
    messages (clientLoop s)
      = (m.fragments.map Fragment.payload).filter (· ≠ []) ++ messages (clientLoop t)
  := by
  have hlt : ∀ f ∈ m.frames, f.payload.length < 2 ^ 32 := by
    intro f hf
    have hmem : f.payload ∈ m.fragments.map Fragment.payload := by
      rw [← m.payloads_frames]
      apply List.mem_map_of_mem hf
    obtain ⟨g, hg, heq⟩ := List.mem_map.mp hmem
    rw [← heq]
    apply h g hg
  have hopen : ∀ f ∈ m.frames, f.opcode ≠ 0x8 := by
    intro f hf
    rcases m.opcode_frames f hf with hop | hop <;> rw [hop] <;> decide
  obtain ⟨t, ht, hloop⟩ := clientLoop_frames hlt hopen hs
  have hfilter : (m.frames.filter fun f => f.opcode ≠ 0x9 ∧ f.payload ≠ [])
      = m.frames.filter ((· ≠ []) ∘ WebSocket.Frame.payload) := by
    apply List.filter_congr
    intro f hf
    have hping : f.opcode ≠ 0x9 := by
      rcases m.opcode_frames f hf with hop | hop <;> rw [hop] <;> decide
    simp [hping]
  use t, ht
  rw [hloop, messages_append, messages_flatMap_frameEvents, hfilter, ← m.payloads_frames,
    List.filter_map]

end Fragmented

/-! ### Joining the fragments -/

/-- The parts of a text that are not empty are the text itself just if there is at most one
of them. -/
theorem filter_eq_flatten_iff (parts : List Bytes) :
  parts.filter (· ≠ []) = (if parts.flatten = [] then [] else [parts.flatten])
    ↔ (parts.filter (· ≠ [])).length ≤ 1
  := by
  have hflatten : (parts.filter (· ≠ [])).flatten = parts.flatten := by
    induction parts with
    | nil => rfl
    | cons part parts ih => by_cases hpart : part = [] <;> simp [hpart] at ih ⊢ <;> apply ih
  have hne : ∀ part ∈ parts.filter (· ≠ []), part ≠ [] := by
    intro part hpart
    simpa using List.of_mem_filter hpart
  rw [← hflatten]
  generalize parts.filter (· ≠ []) = kept at hne
  rcases kept with _ | ⟨part, _ | ⟨part', rest⟩⟩
  · simp
  · simp [hne part (by simp)]
  · have hpart := hne part (by simp)
    simp [hpart]

namespace Fragmented

/-- A message that reaches the message handler as one has fragments below `2 ^ 32` bytes. -/
theorem lt_of_calledOnce {m : Fragmented} (h : m.CalledOnce) :
  ∀ f ∈ m.fragments, f.payload.length < 2 ^ 32
  := by
  intro f hf
  have hle : f.payload.length ≤ m.payload.length :=
    (List.sublist_flatten_of_mem (List.mem_map_of_mem hf)).length_le
  obtain ⟨t, -, hcalled⟩ :=
    h (Socket.bytewise (m.frames.flatMap WebSocket.Frame.encode)) [] (by simp)
  apply hle.trans_lt
  by_cases hm : m.payload = []
  · rw [hm]
    decide
  · rw [if_neg hm] at hcalled
    apply length_lt_of_mem_messages
    rw [hcalled]
    simp

/-- A message with fragments below `2 ^ 32` bytes reaches the message handler as one just if
at most one of them is not empty. -/
theorem calledOnce_iff_of_lt
    {m : Fragmented} (h : ∀ f ∈ m.fragments, f.payload.length < 2 ^ 32) :
  m.CalledOnce ↔ (m.fragments.filter (·.payload ≠ [])).length ≤ 1
  := by
  have hcount : (m.fragments.filter (·.payload ≠ [])).length
      = ((m.fragments.map Fragment.payload).filter (· ≠ [])).length := by
    rw [List.filter_map, List.length_map]
    rfl
  have hpayload : m.payload = (m.fragments.map Fragment.payload).flatten :=
    List.flatMap_def
  rw [hcount, ← filter_eq_flatten_iff, ← hpayload]
  constructor
  · intro hcalled
    have hs : (Socket.bytewise (m.frames.flatMap WebSocket.Frame.encode)).bytes
        = m.frames.flatMap WebSocket.Frame.encode ++ [] := by simp
    obtain ⟨t, ht, honce⟩ := hcalled _ [] hs
    obtain ⟨u, hu, hpassed⟩ := messages_clientLoop h hs
    rw [honce, clientLoop_end ht, clientLoop_end hu] at hpassed
    simpa [messages] using hpassed.symm
  · intro hparts s rest hs
    rw [← hparts]
    apply messages_clientLoop h hs

/-- A fragmented message reaches the message handler as one just if its fragments are
shorter than `2 ^ 32` bytes and at most one of them is not empty. -/
theorem calledOnce_iff (m : Fragmented) :
  m.CalledOnce ↔ (∀ f ∈ m.fragments, f.payload.length < 2 ^ 32) ∧
    (m.fragments.filter (·.payload ≠ [])).length ≤ 1
  := by
  constructor
  · intro h
    have hlt := lt_of_calledOnce h
    use hlt, (calledOnce_iff_of_lt hlt).mp h
  · rintro ⟨hlt, hparts⟩
    apply (calledOnce_iff_of_lt hlt).mpr hparts

/-- The text `hello` in the fragments `he` and `llo` is passed on as two messages. -/
theorem not_calledOnce :
  ¬ CalledOnce
    { first := ⟨some ⟨[0x37, 0xFA, 0x21, 0x3D], rfl⟩, Bytes.ofAscii "he"⟩
      middle := []
      last := ⟨some ⟨[0x0A, 0x0B, 0x0C, 0x0D], rfl⟩, Bytes.ofAscii "llo"⟩ }
  := by
  intro h
  have hparts := (calledOnce_iff_of_lt (lt_of_calledOnce h)).mp h
  exact absurd hparts (by decide)

end Fragmented

end WsServer

end NexusMainframe
