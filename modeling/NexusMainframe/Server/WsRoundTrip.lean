import NexusMainframe.Server.WsFrame

/-!
# Reading frames back

A stream of text frames, unmasked as `writeFrame` assembles them or masked with any key, is
read back by successive calls of `readFrame` however it is cut into chunks, when every
payload is shorter than `2 ^ 32` bytes. No call ever returns a longer payload.
-/

namespace NexusMainframe

namespace WsServer

open Stream

/-- A text frame on the wire: as `writeFrame` assembles it, or masked with a key. -/
def wire (f : Option WebSocket.Key × Bytes) : Bytes :=
  match f.1 with
  | none => frame f.2
  | some key => (WebSocket.Frame.text (some key) f.2).encode

/-- Successive calls of `readFrame` return the payloads of a list of frames, however the
stream is cut, and use it up; and when the stream ends within one of the frames, the call
that reads it finds the connection closed. -/
structure ReadsBack (fs : List (Option WebSocket.Key × Bytes)) : Prop where
  whole : ∀ s : Socket, s.bytes = fs.flatMap wire →
    ∃ t, readFrames fs.length s = some (fs.map Prod.snd, t) ∧ t.bytes = []
  cut : ∀ gs f hs, fs = gs ++ f :: hs → ∀ start, start <+: wire f → start ≠ wire f →
    ∀ s : Socket, s.bytes = gs.flatMap wire ++ start →
      ∃ t, readFrames gs.length s = some (gs.map Prod.snd, t) ∧ readFrame t = .closed

theorem wire_eq_encode (f : Option WebSocket.Key × Bytes) :
  wire f = (WebSocket.Frame.text f.1 f.2).encode
  := by
  obtain ⟨_ | key, payload⟩ := f
  · apply frame_eq_encode
  · rfl

/-! ### Payloads below `2 ^ 32` bytes -/

/-- The frames in front of a stream are read back one after the other. -/
theorem readFrames_whole
    {fs : List (Option WebSocket.Key × Bytes)} (h : ∀ f ∈ fs, f.2.length < 2 ^ 32)
    {s : Socket} {rest : Bytes} (hs : s.bytes = fs.flatMap wire ++ rest) :
  ∃ t, readFrames fs.length s = some (fs.map Prod.snd, t) ∧ t.bytes = rest
  := by
  induction fs generalizing s with
  | nil =>
      use s, rfl
      apply hs
  | cons f fs ih =>
      rw [List.flatMap_cons, List.append_assoc, wire_eq_encode] at hs
      obtain ⟨u, hu, hread⟩ :=
        readFrame_whole (f := WebSocket.Frame.text f.1 f.2) (h f (by simp)) hs
      have hopcode : (WebSocket.Frame.text f.1 f.2).opcode = 1 := rfl
      rw [hopcode, if_neg (by decide), if_neg (by decide)] at hread
      obtain ⟨t, hreads, ht⟩ := ih (fun g hg => h g (by simp [hg])) hu
      use t
      constructor
      · simp only [List.length_cons, readFrames, hread, hreads, Option.map_some, List.map_cons,
          WebSocket.Frame.text]
      · apply ht

theorem readsBack_of_lt
    {fs : List (Option WebSocket.Key × Bytes)} (h : ∀ f ∈ fs, f.2.length < 2 ^ 32) :
  ReadsBack fs
  := by
  constructor
  · intro s hs
    apply readFrames_whole h
    rw [List.append_nil, hs]
  · rintro gs f hs rfl start hstart hne s hbytes
    obtain ⟨t, hreads, rfl⟩ := readFrames_whole (fun g hg => h g (by simp [hg])) hbytes
    rw [wire_eq_encode] at hstart hne
    use t, hreads
    apply readFrame_short (f := WebSocket.Frame.text f.1 f.2) (h f (by simp)) hstart hne

/-! ### Longer payloads -/

theorem length_lt_of_readFrames
    {k : Nat} {s t : Socket} {payloads : List Bytes}
    (h : readFrames k s = some (payloads, t)) :
  ∀ payload ∈ payloads, payload.length < 2 ^ 32
  := by
  induction k generalizing s payloads with
  | zero =>
      obtain ⟨rfl, -⟩ := Prod.mk.inj (Option.some.inj h)
      simp
  | succ k ih =>
      rw [readFrames] at h
      split at h
      next payload sent u hread =>
        obtain ⟨⟨ps, v⟩, hps, heq⟩ := Option.map_eq_some_iff.mp h
        obtain ⟨rfl, rfl⟩ := Prod.mk.inj heq
        intro p hp
        rcases List.mem_cons.mp hp with rfl | hp
        · apply length_lt_of_readFrame hread
        · apply ih hps p hp
      next => cases h
      next => cases h

theorem lt_of_readsBack
    {fs : List (Option WebSocket.Key × Bytes)} (h : ReadsBack fs) :
  ∀ f ∈ fs, f.2.length < 2 ^ 32
  := by
  intro f hf
  obtain ⟨t, hreads, -⟩ := h.whole (Socket.bytewise (fs.flatMap wire)) (by simp)
  apply length_lt_of_readFrames hreads
  apply List.mem_map_of_mem hf

/-- A list of frames is read back just if every payload is shorter than `2 ^ 32` bytes. -/
theorem readsBack_iff (fs : List (Option WebSocket.Key × Bytes)) :
  ReadsBack fs ↔ ∀ f ∈ fs, f.2.length < 2 ^ 32
  := by
  constructor
  · apply lt_of_readsBack
  · apply readsBack_of_lt

/-- A payload of `2 ^ 32` bytes is not read back. -/
theorem not_readsBack :
  ¬ ∀ fs : List (Option WebSocket.Key × Bytes), ReadsBack fs
  := by
  intro h
  have hlt := lt_of_readsBack (h [(none, List.replicate (2 ^ 32) 0)]) _ (List.mem_singleton_self _)
  rw [List.length_replicate] at hlt
  apply lt_irrefl _ hlt

end WsServer

end NexusMainframe
