import NexusMainframe.Lib.FrameHead
import NexusMainframe.Server.WsClientLoop

/-!
# Lengths that a client announces

`readFrame` makes a vector of the length that a frame's head announces before any of the payload
has arrived, and a string of the payload behind it. Either throws when the memory is not there,
and the vector throws for a length above its `max_size` whatever the memory is. So the calls of
the loop on a stream all end without an exception exactly when every head that the loop comes to
announces a length that can be allocated.
-/

namespace NexusMainframe

namespace WsServer

open Stream
open WebSocket (Head WholeFrame)

/-! ### Reading a head -/

/-- What `readHeader` makes of a head. -/
def headerOfHead (h : Head) : Header where
  opcode := h.opcode
  masked := decide (h.second &&& 0x80 ≠ 0)
  plen := h.length
  mask := if h.second &&& 0x80 ≠ 0 then h.key else [0, 0, 0, 0]

theorem takes_extended (h : Head) :
  Takes (readLength (h.second &&& 0x7F).toNat) h.extended h.length
  := by
  have hlong : ∀ k, 0 < k → k < 2 ^ 32 → h.extended.length = k →
      Takes (fun s => (recvAll s k).map fun p => (shiftIn p.1, p.2)) h.extended h.length := by
    intro k hpos hk hlen
    have hread := (takes_recvAll h.extended (by omega)).map shiftIn
    have hne : h.extended ≠ [] := by
      rw [← List.length_pos_iff, hlen]
      apply hpos
    rw [hlen, shiftIn_eq] at hread
    rw [Head.length, if_neg hne]
    apply hread
  have hlen := h.length_extended
  split at hlen
  next h126 =>
    rw [h126]
    apply hlong 2 (by decide) (by decide) hlen
  next h126 =>
    split at hlen
    next h127 =>
      rw [h127]
      apply hlong 8 (by decide) (by decide) hlen
    next h127 =>
      have hnil := List.eq_nil_of_length_eq_zero hlen
      have hread : readLength (h.second &&& 0x7F).toNat
          = fun s => some ((h.second &&& 0x7F).toNat, s) := by
        funext s
        rw [readLength, if_neg h126, if_neg h127]
      rw [hread, hnil, Head.length, if_pos hnil]
      apply Takes.pure

theorem takes_key (h : Head) :
  Takes (readMask (decide (h.second &&& 0x80 ≠ 0))) h.key (headerOfHead h).mask
  := by
  have hlen := h.length_key
  unfold headerOfHead readMask
  split at hlen
  next hmasked =>
    have hread := takes_recvAll h.key (by rw [hlen]; decide)
    rw [hlen] at hread
    simp only [hmasked, decide_true, if_true, ne_eq, not_false_eq_true]
    apply hread
  next hmasked =>
    rw [List.eq_nil_of_length_eq_zero hlen]
    simp only [hmasked, decide_false, if_false, Bool.false_eq_true]
    apply Takes.pure

/-- A head is read, in whichever form its length is written. -/
theorem takes_head (h : Head) :
  Takes readHeader h.bytes (headerOfHead h)
  := by
  have hbytes := takes_recvAll [h.first, h.second] (by simp)
  apply hbytes.bind readHeaderRest
  have hmask := (takes_key h).map fun mask =>
    (⟨h.opcode, decide (h.second &&& 0x80 ≠ 0), h.length, mask⟩ : Header)
  apply (takes_extended h).bind
    (fun plen s => (readMask (decide (h.second &&& 0x80 ≠ 0)) s).map fun mask =>
      ((⟨h.opcode, decide (h.second &&& 0x80 ≠ 0), plen, mask.1⟩ : Header), mask.2)) hmask

theorem readLength_eq_some
    {s t : Socket} {plen n : Nat} (h : readLength plen s = some (n, t)) :
  ∃ e : Bytes, e.length = (if plen = 126 then 2 else if plen = 127 then 8 else 0)
    ∧ s.bytes = e ++ t.bytes ∧ n = if e = [] then plen else Bytes.ofBigEndian e
  := by
  have hlong : ∀ k, 0 < k → (recvAll s k).map (fun p => (shiftIn p.1, p.2)) = some (n, t) →
      ∃ e : Bytes, e.length = k ∧ s.bytes = e ++ t.bytes
        ∧ n = if e = [] then plen else Bytes.ofBigEndian e := by
    intro k hk hmap
    obtain ⟨⟨e, u⟩, hread, heq⟩ := Option.map_eq_some_iff.mp hmap
    obtain ⟨rfl, rfl⟩ := Prod.mk.inj heq
    obtain ⟨hlen, hbytes⟩ := recvAll_length hread
    have hne : e ≠ [] := by
      rw [← List.length_pos_iff, hlen]
      apply hk
    use e, hlen, hbytes.symm
    rw [shiftIn_eq, if_neg hne]
  unfold readLength at h
  split at h
  next h126 =>
    rw [if_pos h126]
    apply hlong 2 (by decide) h
  next h126 =>
    rw [if_neg h126]
    split at h
    next h127 =>
      rw [if_pos h127]
      apply hlong 8 (by decide) h
    next h127 =>
      obtain ⟨rfl, rfl⟩ := Prod.mk.inj (Option.some.inj h)
      rw [if_neg h127]
      use []
      simp

theorem readMask_eq_some
    {s t : Socket} {masked : Bool} {mask : Bytes} (h : readMask masked s = some (mask, t)) :
  ∃ key : Bytes, key.length = (if masked then 4 else 0) ∧ s.bytes = key ++ t.bytes
    ∧ mask = if masked then key else [0, 0, 0, 0]
  := by
  unfold readMask at h
  split at h
  next hmasked =>
    obtain ⟨hlen, hbytes⟩ := recvAll_length h
    use mask
    simp [hmasked, hlen, hbytes]
  next hmasked =>
    obtain ⟨rfl, rfl⟩ := Prod.mk.inj (Option.some.inj h)
    use []
    simp [hmasked]

/-- What is read for a header is a head. -/
theorem exists_head {s t : Socket} {hd : Header} (h : readHeader s = some (hd, t)) :
  ∃ head : Head, headerOfHead head = hd ∧ s.bytes = head.bytes ++ t.bytes
  := by
  obtain ⟨⟨hdr, u⟩, hhdr, hrest⟩ := Option.bind_eq_some_iff.mp h
  obtain ⟨⟨plen, v⟩, hplen, hmask⟩ := Option.bind_eq_some_iff.mp hrest
  obtain ⟨⟨mask, w⟩, hread, heq⟩ := Option.map_eq_some_iff.mp hmask
  obtain ⟨rfl, rfl⟩ := Prod.mk.inj heq
  obtain ⟨hlen, hbytes⟩ := recvAll_length hhdr
  obtain ⟨first, second, rfl⟩ := List.length_eq_two.mp hlen
  obtain ⟨e, hlength_e, hu, rfl⟩ := readLength_eq_some hplen
  obtain ⟨key, hlength_key, hv, rfl⟩ := readMask_eq_some hread
  use ⟨first, second, e, key, hlength_e, by simpa using hlength_key⟩
  constructor
  · simp [headerOfHead, Head.opcode, Head.length]
  · dsimp only at hu hv hbytes
    rw [← hbytes, hu, hv]
    simp [Head.bytes]

/-! ### Memory -/

/-- The vectors and the strings, by their lengths, for which memory is there. -/
structure Memory where
  vector : Nat → Bool
  string : Nat → Bool
  vector_zero : vector 0 = true
  string_zero : string 0 = true

/-- Memory for whatever is asked for. -/
def Memory.all : Memory :=
  ⟨fun _ => true, fun _ => true, rfl, rfl⟩

/-- The vector with the payload, when its masking is undone. -/
def unmask (h : Header) (payload : Bytes) : Bytes :=
  if h.masked then WebSocket.applyMask h.mask payload else payload

/-- What `readFrame` does when it has received the payload. -/
def finishFrame (memory : Memory) (h : Header) (payload : Bytes) (s : Socket) : FrameRead :=
  if h.opcode = 0x8 then .closed
  else if h.opcode = 0x9 then .returned [] [0x8A, 0x00] s
  else if memory.string (unmask h payload).length = false then .threw
  else .returned (unmask h payload) [] s

/-- `readFrame`, with the memory that there is during the call. -/
def readFrameIn (memory : Memory) (s : Socket) : FrameRead :=
  match readHeader s with
  | none => .closed
  | some (h, s) =>
      if h.plen > maxSize ∨ memory.vector h.plen = false then .threw
      else
        match recvAll s h.plen with
        | none => .closed
        | some (payload, s) => finishFrame memory h payload s

/-- Without a lack of memory the calls are those of `readFrame`. -/
theorem readFrameIn_all (s : Socket) :
  readFrameIn Memory.all s = readFrame s
  := by
  simp only [readFrameIn, finishFrame, readFrame, Memory.all, Bool.true_eq_false, or_false,
    if_false]
  rfl

theorem length_unmask (h : Header) (payload : Bytes) :
  (unmask h payload).length = payload.length
  := by
  unfold unmask
  split
  · apply WebSocket.length_applyMask
  · rfl

/-- The calls of `readFrame` that the loop makes on a stream, by their number, with what the
calls before have left of it. -/
inductive Calls (memory : Nat → Memory) (s : Socket) : Nat → Socket → Prop
  | first : Calls memory s 0 s
  | next {k : Nat} {t u : Socket} {payload sent : Bytes} (calls : Calls memory s k t)
      (returned : readFrameIn (memory k) t = .returned payload sent u) :
      Calls memory s (k + 1) u

/-! ### Lengths that can be allocated -/

/-- The vector for the payload of a head can be made. -/
def HeadFits (memory : Memory) (h : Head) : Prop :=
  h.length ≤ maxSize ∧ memory.vector h.length = true

/-- The string for the payload of a frame can be made, if one is made: of a close and of a ping
the payload is dropped, and a payload of `2 ^ 32` bytes or more is never received. -/
def BodyFits (memory : Memory) (f : WholeFrame) : Prop :=
  f.head.length < 2 ^ 32 → f.head.opcode ≠ 0x8 → f.head.opcode ≠ 0x9 →
    memory.string f.head.length = true

/-- The frames in front of a stream whose payloads the loop receives without closing. -/
def Received (fs : List WholeFrame) : Prop :=
  ∀ f ∈ fs, f.head.length < 2 ^ 32 ∧ f.head.opcode ≠ 0x8

/-- Behind any frames that the loop receives, every head of the stream announces a length that
can be allocated, and the payload of every frame fits a string. -/
structure Allocatable (memory : Nat → Memory) (bytes : Bytes) : Prop where
  head : ∀ (fs : List WholeFrame) (h : Head) (rest : Bytes), Received fs →
    bytes = fs.flatMap WholeFrame.bytes ++ (h.bytes ++ rest) → HeadFits (memory fs.length) h
  body : ∀ (fs : List WholeFrame) (f : WholeFrame) (rest : Bytes), Received fs →
    bytes = fs.flatMap WholeFrame.bytes ++ (f.bytes ++ rest) → BodyFits (memory fs.length) f

/-! ### One call -/

theorem finishFrame_eq_threw {memory : Memory} {h : Header} {payload : Bytes} {s : Socket} :
  finishFrame memory h payload s = .threw
    ↔ h.opcode ≠ 0x8 ∧ h.opcode ≠ 0x9 ∧ memory.string payload.length = false
  := by
  unfold finishFrame
  rw [length_unmask]
  split_ifs <;> simp_all

theorem finishFrame_eq_returned
    {memory : Memory} {h : Header} {payload payload' sent : Bytes} {s t : Socket}
    (hread : finishFrame memory h payload s = .returned payload' sent t) :
  h.opcode ≠ 0x8 ∧ t = s
  := by
  unfold finishFrame at hread
  split_ifs at hread with hclose hping hstring
  · use hclose
    exact (FrameRead.returned.inj hread).2.2.symm
  · use hclose
    exact (FrameRead.returned.inj hread).2.2.symm

theorem exists_of_ne_threw
    {memory : Memory} {h : Header} {payload : Bytes} {s : Socket} (hclose : h.opcode ≠ 0x8)
    (hnot : finishFrame memory h payload s ≠ .threw) :
  ∃ payload' sent, finishFrame memory h payload s = .returned payload' sent s
  := by
  unfold finishFrame at hnot ⊢
  rw [if_neg hclose] at hnot ⊢
  split_ifs at hnot ⊢ with hping hstring
  · use [], [0x8A, 0x00]
  · exact (hnot rfl).elim
  · use unmask h payload, []

/-- A payload that has been received is shorter than `2 ^ 32` bytes. -/
theorem length_lt_of_recvAll
    {s t : Socket} {n : Nat} {bs : Bytes} (h : recvAll s n = some (bs, t)) :
  n < 2 ^ 32
  := by
  by_contra hge
  rw [recvAll_of_ge (by omega)] at h
  cases h

/-- A call that throws has come to a head, or to a frame, for which the memory is not there. -/
theorem of_threw
    {memory : Memory} {s : Socket} (h : readFrameIn memory s = .threw) :
  (∃ head rest, s.bytes = head.bytes ++ rest ∧ ¬ HeadFits memory head)
    ∨ ∃ f rest, s.bytes = WholeFrame.bytes f ++ rest ∧ ¬ BodyFits memory f
  := by
  unfold readFrameIn at h
  split at h
  next => cases h
  next hd t hheader =>
    obtain ⟨head, rfl, hbytes⟩ := exists_head hheader
    split at h
    next hsize =>
      left
      use head, t.bytes, hbytes
      rintro ⟨hmax, hvector⟩
      rcases hsize with hsize | hsize
      · exact absurd hmax (Nat.not_le.mpr hsize)
      · exact Bool.false_ne_true (hsize.symm.trans hvector)
    next =>
      split at h
      next => cases h
      next body u hbody =>
        obtain ⟨hlen, hrest⟩ := recvAll_length hbody
        obtain ⟨hclose, hping, hstring⟩ := finishFrame_eq_threw.mp h
        right
        use ⟨head, body, hlen⟩, u.bytes
        constructor
        · rw [hbytes, ← hrest, WholeFrame.bytes, List.append_assoc]
        · intro hfits
          have hfits := hfits (length_lt_of_recvAll hbody) hclose hping
          rw [hlen] at hstring
          exact Bool.false_ne_true (hstring.symm.trans hfits)

/-- A call that returns has received a frame. -/
theorem of_returned
    {memory : Memory} {s t : Socket} {payload sent : Bytes}
    (h : readFrameIn memory s = .returned payload sent t) :
  ∃ f : WholeFrame, Received [f] ∧ s.bytes = f.bytes ++ t.bytes
  := by
  unfold readFrameIn at h
  split at h
  next => cases h
  next hd u hheader =>
    obtain ⟨head, rfl, hbytes⟩ := exists_head hheader
    split at h
    next => cases h
    next =>
      split at h
      next => cases h
      next body v hbody =>
        obtain ⟨hlen, hrest⟩ := recvAll_length hbody
        obtain ⟨hclose, rfl⟩ := finishFrame_eq_returned h
        use ⟨head, body, hlen⟩
        constructor
        · intro f hf
          rw [List.mem_singleton.mp hf]
          use length_lt_of_recvAll hbody
          apply hclose
        · rw [hbytes, ← hrest, WholeFrame.bytes, List.append_assoc]

theorem headFits_iff {memory : Memory} {h : Head} :
  HeadFits memory h
    ↔ ¬ ((headerOfHead h).plen > maxSize ∨ memory.vector (headerOfHead h).plen = false)
  := by
  simp [HeadFits, headerOfHead]

/-- A call that comes to a head for which there is no memory throws. -/
theorem threw_of_head
    {memory : Memory} {s : Socket} {h : Head} {rest : Bytes} (hs : s.bytes = h.bytes ++ rest)
    (hfits : ¬ HeadFits memory h) :
  readFrameIn memory s = .threw
  := by
  obtain ⟨t, hheader, -⟩ := (takes_head h).whole s rest hs
  have hsize := not_not.mp (mt headFits_iff.mpr hfits)
  rw [readFrameIn, hheader]
  dsimp only
  rw [if_pos hsize]

/-- What a call does that comes to a whole frame for whose head there is memory. -/
theorem readFrameIn_whole
    {memory : Memory} {s : Socket} {f : WholeFrame} {rest : Bytes}
    (hs : s.bytes = f.bytes ++ rest) (hfits : HeadFits memory f.head)
    (hlt : f.head.length < 2 ^ 32) :
  ∃ t, t.bytes = rest ∧ readFrameIn memory s = finishFrame memory (headerOfHead f.head) f.body t
  := by
  rw [WholeFrame.bytes, List.append_assoc] at hs
  obtain ⟨u, hheader, hu⟩ := (takes_head f.head).whole s _ hs
  obtain ⟨t, hbody, ht⟩ := (takes_recvAll f.body (by rw [f.length_body]; apply hlt)).whole u rest hu
  have hsize := headFits_iff.mp hfits
  have hplen : (headerOfHead f.head).plen = f.body.length := f.length_body.symm
  use t, ht
  rw [readFrameIn, hheader]
  dsimp only
  rw [if_neg hsize, hplen, hbody]

/-- A call that comes to a frame for whose payload there is no memory throws. -/
theorem threw_of_body
    {memory : Memory} {s : Socket} {f : WholeFrame} {rest : Bytes}
    (hs : s.bytes = f.bytes ++ rest) (hfits : ¬ BodyFits memory f) :
  readFrameIn memory s = .threw
  := by
  by_cases hhead : HeadFits memory f.head
  · unfold BodyFits at hfits
    push Not at hfits
    obtain ⟨hlt, hclose, hping, hstring⟩ := hfits
    obtain ⟨t, -, hread⟩ := readFrameIn_whole hs hhead hlt
    rw [hread]
    apply finishFrame_eq_threw.mpr
    use hclose, hping
    rw [f.length_body]
    simpa using hstring
  · rw [WholeFrame.bytes, List.append_assoc] at hs
    apply threw_of_head hs hhead

/-! ### The calls of the loop -/

variable {memory : Nat → Memory} {s : Socket}

/-- The calls so far have received one frame each. -/
theorem Calls.received {k : Nat} {t : Socket} (h : Calls memory s k t) :
  ∃ fs : List WholeFrame, fs.length = k ∧ Received fs
    ∧ s.bytes = fs.flatMap WholeFrame.bytes ++ t.bytes
  := by
  induction h with
  | first =>
      use []
      simp [Received]
  | next _ hreturned ih =>
      obtain ⟨fs, rfl, hfs, hs⟩ := ih
      obtain ⟨f, hf, ht⟩ := of_returned hreturned
      use fs ++ [f]
      constructor
      · simp
      · constructor
        · intro g hg
          rcases List.mem_append.mp hg with hg | hg
          · apply hfs g hg
          · apply hf g hg
        · rw [hs, ht]
          simp

/-- Behind frames that the loop receives there is a call, when none before it throws. -/
theorem calls_of_received
    (hsafe : ∀ k t, Calls memory s k t → readFrameIn (memory k) t ≠ .threw)
    {fs : List WholeFrame} (hfs : Received fs) {rest : Bytes}
    (hs : s.bytes = fs.flatMap WholeFrame.bytes ++ rest) :
  ∃ t, Calls memory s fs.length t ∧ t.bytes = rest
  := by
  induction fs using List.reverseRec generalizing rest with
  | nil => use s, .first, hs
  | append_singleton fs f ih =>
      have hf := hfs f (by simp)
      rw [List.flatMap_append, List.flatMap_singleton, List.append_assoc] at hs
      obtain ⟨t, hcalls, ht⟩ := ih (fun g hg => hfs g (by simp [hg])) hs
      have hhead : HeadFits (memory fs.length) f.head := by
        by_contra hno
        have hbytes := ht
        rw [WholeFrame.bytes, List.append_assoc] at hbytes
        apply hsafe _ t hcalls (threw_of_head hbytes hno)
      obtain ⟨u, hu, hread⟩ := readFrameIn_whole ht hhead hf.1
      have hnot := hsafe _ t hcalls
      rw [hread] at hnot
      obtain ⟨payload, sent, hfinish⟩ := exists_of_ne_threw hf.2 hnot
      use u
      constructor
      · rw [List.length_append, List.length_singleton]
        apply hcalls.next (hread.trans hfinish)
      · apply hu

/-- The calls of the loop on a stream all end without an exception exactly when the lengths that
it announces can be allocated. -/
theorem calls_isSafe_iff (memory : Nat → Memory) (s : Socket) :
  (∀ k t, Calls memory s k t → readFrameIn (memory k) t = .closed
      ∨ ∃ payload sent u, readFrameIn (memory k) t = .returned payload sent u)
    ↔ Allocatable memory s.bytes
  := by
  constructor
  · intro h
    have hsafe : ∀ k t, Calls memory s k t → readFrameIn (memory k) t ≠ .threw := by
      intro k t hcalls hthrew
      rcases h k t hcalls with hclosed | ⟨payload, sent, u, hreturned⟩
      · cases hthrew.symm.trans hclosed
      · cases hthrew.symm.trans hreturned
    constructor
    · intro fs head rest hfs hs
      obtain ⟨t, hcalls, ht⟩ := calls_of_received hsafe hfs hs
      by_contra hno
      apply hsafe _ t hcalls (threw_of_head ht hno)
    · intro fs f rest hfs hs
      obtain ⟨t, hcalls, ht⟩ := calls_of_received hsafe hfs hs
      by_contra hno
      apply hsafe _ t hcalls (threw_of_body ht hno)
  · intro h k t hcalls
    obtain ⟨fs, rfl, hfs, hs⟩ := hcalls.received
    cases hread : readFrameIn (memory fs.length) t with
    | closed =>
        left
        rfl
    | threw =>
        rcases of_threw hread with ⟨head, rest, ht, hno⟩ | ⟨f, rest, ht, hno⟩
        · rw [ht] at hs
          exact (hno (h.head fs head rest hfs hs)).elim
        · rw [ht] at hs
          exact (hno (h.body fs f rest hfs hs)).elim
    | returned payload sent u =>
        right
        use payload, sent, u

/-- The head of a text frame of `2 ^ 63` bytes. -/
def endlessHead : Head where
  first := 0x81
  second := 0x7F
  extended := [0x80, 0, 0, 0, 0, 0, 0, 0]
  key := []
  length_extended := rfl
  length_key := rfl

/-- Ten bytes from a client make the first call throw, whatever the memory is. -/
theorem readFrameIn_endless :
  ∃ s : Socket, s.bytes = [0x81, 0x7F, 0x80, 0, 0, 0, 0, 0, 0, 0]
    ∧ ¬ ∀ k t, Calls (fun _ => Memory.all) s k t →
      readFrameIn Memory.all t = .closed
        ∨ ∃ payload sent u, readFrameIn Memory.all t = .returned payload sent u
  := by
  use Socket.bytewise endlessHead.bytes
  have hlong : ¬ HeadFits Memory.all endlessHead := by
    rintro ⟨hmax, -⟩
    revert hmax
    decide
  have hthrew : readFrameIn Memory.all (Socket.bytewise endlessHead.bytes) = .threw := by
    apply threw_of_head _ hlong
    · use []
    · simp
  constructor
  · simp [endlessHead, Head.bytes]
  · intro h
    rcases h 0 _ .first with hclosed | ⟨payload, sent, u, hreturned⟩
    · cases hthrew.symm.trans hclosed
    · cases hthrew.symm.trans hreturned

end WsServer

end NexusMainframe
