import NexusMainframe.Lib.Machine
import NexusMainframe.Lib.Stream
import NexusMainframe.Lib.WebSocket

/-!
# WebSocket frames of the server

The server reads the frames of a client with `readFrame`, over `recvAll`, and writes its
own with `writeFrame`. `recvAll` passes the number of bytes still missing through an
`int`, so it cannot fill a buffer of `2 ^ 32` bytes or more: when exactly `2 ^ 32` bytes
are missing it asks `recv` for none, which answers as a closed connection does.
-/

namespace NexusMainframe

namespace WsServer

open Stream

/-! ### Receiving -/

/-- The bytes asked for when `n` bytes are missing. -/
def recvCount (n : Nat) : Nat :=
  Machine.toSize (Machine.wrapInt32 n)

/-- Fills a buffer of `n` bytes, or fails when `recv` returns nothing. -/
def recvAll (s : Socket) (n : Nat) : Option (Bytes × Socket) :=
  if n = 0 then some ([], s)
  else if (s.recv (recvCount n)).1 = [] then none
  else
    (recvAll (s.recv (recvCount n)).2 (n - (s.recv (recvCount n)).1.length)).map fun p =>
      ((s.recv (recvCount n)).1 ++ p.1, p.2)
termination_by n
decreasing_by
  have := List.length_pos_iff.mpr ‹¬ (s.recv (recvCount n)).1 = []›
  omega

/-- `recv` never gets more than is missing, although the count passed to it may be more. -/
theorem recv_length_le_missing (s : Socket) (n : Nat) :
  (s.recv (recvCount n)).1.length ≤ n
  := (s.recv_length_le _).trans (Machine.min_toSize_wrapInt32_le n (by decide))

theorem recvAll_eq_fill (s : Socket) (n : Nat) :
  recvAll s n = fill (fun s n => s.recv (recvCount n)) s n
  := by
  induction n using Nat.strong_induction_on generalizing s with
  | h n ih =>
      rw [recvAll, fill]
      split
      next => rfl
      next hn =>
        split
        next => rfl
        next hne =>
          have hpos := List.length_pos_iff.mpr hne
          rw [ih _ (by omega)]

/-- A call of `recv` gets on when fewer than `2 ^ 32` bytes are missing. -/
theorem receives :
  Receives (fun s n => s.recv (recvCount n)) (2 ^ 32)
  := by
  constructor
  · intro s n
    apply s.recv_append
  · intro s n
    apply recv_length_le_missing
  · intro s n hpos hn hnil
    rw [Socket.recv_eq_nil, recvCount, Machine.toSize_wrapInt32_eq_zero, Nat.mod_eq_of_lt hn]
      at hnil
    apply hnil.resolve_left
    omega

theorem recvAll_length
    {s t : Socket} {n : Nat} {bs : Bytes} (h : recvAll s n = some (bs, t)) :
  bs.length = n ∧ bs ++ t.bytes = s.bytes
  := by
  rw [recvAll_eq_fill] at h
  apply receives.fill_length h

/-- A buffer of `2 ^ 32` bytes or more is never filled: what is missing comes down to
`2 ^ 32` bytes, and no further. -/
theorem recvAll_of_ge
    {s : Socket} {n : Nat} (hn : 2 ^ 32 ≤ n) :
  recvAll s n = none
  := by
  induction n using Nat.strong_induction_on generalizing s with
  | h n ih =>
      rw [recvAll, if_neg (by omega)]
      split
      next => rfl
      next hne =>
        obtain ⟨k, rfl⟩ := Nat.exists_eq_add_of_le hn
        have hpos := List.length_pos_iff.mpr hne
        have hle := recv_length_le_missing s k
        have hcount : recvCount (2 ^ 32 + k) = recvCount k := Machine.toSize_wrapInt32_add k
        rw [hcount] at hpos ⊢
        rw [ih _ (by omega) (by omega), Option.map_none]

/-- `recvAll` takes a field shorter than `2 ^ 32` bytes. -/
theorem takes_recvAll
    (field : Bytes) (h : field.length < 2 ^ 32) :
  Takes (fun s => recvAll s field.length) field field
  := by
  simp only [recvAll_eq_fill]
  apply receives.takes_fill field h

/-! ### Reading a frame -/

/-- The number that the bytes of an extended length make, shifted in one by one. -/
def shiftIn (e : Bytes) : Nat :=
  e.foldl (fun plen b => (plen <<< 8) ||| b.toNat) 0

/-- The payload length: the short one, or the extended one that it announces. -/
def readLength (plen : Nat) (s : Socket) : Option (Nat × Socket) :=
  if plen = 126 then (recvAll s 2).map fun p => (shiftIn p.1, p.2)
  else if plen = 127 then (recvAll s 8).map fun p => (shiftIn p.1, p.2)
  else some (plen, s)

/-- The masking key of a masked frame, and zeros otherwise. -/
def readMask (masked : Bool) (s : Socket) : Option (Bytes × Socket) :=
  if masked then recvAll s 4 else some ([0, 0, 0, 0], s)

/-- What goes before the payload of a frame. -/
structure Header where
  opcode : UInt8
  masked : Bool
  plen : Nat
  mask : Bytes
deriving DecidableEq

/-- Reads the rest of a header that begins with the bytes `hdr`. -/
def readHeaderRest (hdr : Bytes) (s : Socket) : Option (Header × Socket) :=
  let opcode := hdr.getD 0 0 &&& 0x0F
  let masked := decide (hdr.getD 1 0 &&& 0x80 ≠ 0)
  (readLength (hdr.getD 1 0 &&& 0x7F).toNat s).bind fun plen =>
    (readMask masked plen.2).map fun mask => (⟨opcode, masked, plen.1, mask.1⟩, mask.2)

/-- The part of `readFrame` up to the payload. -/
def readHeader (s : Socket) : Option (Header × Socket) :=
  (recvAll s 2).bind fun hdr => readHeaderRest hdr.1 hdr.2

/-- What a call of `readFrame` comes to: `closed` is set; the constructor of the payload
vector throws; or a payload is returned, some bytes sent and the rest of the stream
left. -/
inductive FrameRead where
  | closed
  | threw
  | returned (payload sent : Bytes) (rest : Socket)

/-- The `max_size` of a vector of bytes. -/
def maxSize : Nat :=
  2 ^ 63 - 1

/-- `readFrame`. -/
def readFrame (s : Socket) : FrameRead :=
  match readHeader s with
  | none => .closed
  | some (h, s) =>
      if h.plen > maxSize then .threw
      else
        match recvAll s h.plen with
        | none => .closed
        | some (payload, s) =>
            let payload := if h.masked then WebSocket.applyMask h.mask payload else payload
            if h.opcode = 0x8 then .closed
            else if h.opcode = 0x9 then .returned [] [0x8A, 0x00] s
            else .returned payload [] s

/-- What a returned payload says about the read: a header was read, and then the payload. -/
theorem readFrame_eq_returned
    {s t : Socket} {payload sent : Bytes} (h : readFrame s = .returned payload sent t) :
  ∃ hd u body, readHeader s = some (hd, u) ∧ recvAll u hd.plen = some (body, t) ∧
    payload.length ≤ body.length
  := by
  unfold readFrame at h
  split at h
  next => cases h
  next hd u hheader =>
    split at h
    next => cases h
    next =>
      split at h
      next => cases h
      next body v hbody =>
        use hd, u, body, hheader
        dsimp only at h
        split at h
        next => cases h
        next =>
          split at h
          next =>
            obtain ⟨rfl, -, rfl⟩ := FrameRead.returned.inj h
            use hbody
            apply Nat.zero_le
          next =>
            obtain ⟨rfl, -, rfl⟩ := FrameRead.returned.inj h
            use hbody
            split
            · rw [WebSocket.length_applyMask]
            · apply le_refl

/-- A payload that is returned is shorter than `2 ^ 32` bytes. -/
theorem length_lt_of_readFrame
    {s t : Socket} {payload sent : Bytes} (h : readFrame s = .returned payload sent t) :
  payload.length < 2 ^ 32
  := by
  obtain ⟨hd, u, body, -, hbody, hle⟩ := readFrame_eq_returned h
  have hlen := (recvAll_length hbody).1
  have hlt : hd.plen < 2 ^ 32 := by
    by_contra hge
    rw [recvAll_of_ge (by omega)] at hbody
    cases hbody
  omega

/-- The payloads that `k` successive calls of `readFrame` return, and what they leave, if
none of them closes or throws. -/
def readFrames : Nat → Socket → Option (List Bytes × Socket)
  | 0, s => some ([], s)
  | k + 1, s =>
      match readFrame s with
      | .returned payload _ s => (readFrames k s).map fun p => (payload :: p.1, p.2)
      | .closed => none
      | .threw => none

/-- What `writeFrame` hands to `send`. -/
def frame (payload : Bytes) : Bytes :=
  let len := payload.length
  0x81 ::
    (if len < 126 then [UInt8.ofNat len]
      else if len < 65536 then [126, UInt8.ofNat (len >>> 8), UInt8.ofNat len]
      else 127 :: (List.range 8).reverse.map fun i => UInt8.ofNat (len >>> (i * 8)))
    ++ payload

/-- `writeFrame` assembles an unmasked text frame. -/
theorem frame_eq_encode (payload : Bytes) :
  frame payload = (WebSocket.Frame.text none payload).encode
  := by
  have hbig : (List.range 8).reverse.map (fun i => UInt8.ofNat (payload.length >>> (i * 8)))
      = Bytes.bigEndian 8 payload.length := by
    simp only [Bytes.bigEndian, Nat.mul_comm]
  have htwo : [UInt8.ofNat (payload.length >>> 8), UInt8.ofNat payload.length]
      = Bytes.bigEndian 2 payload.length := by
    rw [Bytes.bigEndian_succ, Bytes.bigEndian_succ]
    rfl
  have hfirst : WebSocket.Frame.firstByte true 1 = 0x81 := rfl
  rw [frame, hbig, htwo]
  by_cases h : payload.length < 126
  · simp [h, WebSocket.Frame.encode, WebSocket.Frame.header, WebSocket.Frame.body,
      WebSocket.Frame.text, WebSocket.Frame.longLength, WebSocket.Frame.shortLength,
      WebSocket.Frame.keyBytes, WebSocket.Frame.secondByte, hfirst]
  · by_cases h' : payload.length < 65536 <;>
      simp [h, h', WebSocket.Frame.encode, WebSocket.Frame.header, WebSocket.Frame.body,
        WebSocket.Frame.text, WebSocket.Frame.longLength, WebSocket.Frame.shortLength,
        WebSocket.Frame.keyBytes, WebSocket.Frame.secondByte, hfirst]

/-! ### Reading back -/

theorem shiftIn_eq (e : Bytes) :
  shiftIn e = Bytes.ofBigEndian e
  := by
  induction e using List.reverseRec with
  | nil => rfl
  | append_singleton e b ih =>
      have hor := Nat.shiftLeft_add_eq_or_of_lt b.toNat_lt (shiftIn e)
      rw [Bytes.ofBigEndian_append_singleton, ← ih]
      calc shiftIn (e ++ [b]) = (shiftIn e <<< 8) ||| b.toNat := by simp [shiftIn]
        _ = shiftIn e * 256 + b.toNat := by rw [← hor, Nat.shiftLeft_eq]

theorem takes_readLength
    {n : Nat} (h : n < 2 ^ 64) :
  Takes (readLength (WebSocket.Frame.shortLength n)) (WebSocket.Frame.longLength n) n
  := by
  have hlong : ∀ k, k < 2 ^ 32 → n < 256 ^ k →
      Takes (fun s => (recvAll s k).map fun p => (shiftIn p.1, p.2)) (Bytes.bigEndian k n) n := by
    intro k hk hn
    have hread := takes_recvAll (Bytes.bigEndian k n)
      (by rw [Bytes.length_bigEndian]; apply hk)
    have hmap := hread.map shiftIn
    rw [shiftIn_eq, Bytes.ofBigEndian_bigEndian, Nat.mod_eq_of_lt hn,
      Bytes.length_bigEndian] at hmap
    apply hmap
  rw [WebSocket.Frame.shortLength, WebSocket.Frame.longLength]
  split
  next hn =>
    have hread : readLength n = fun s => some (n, s) := by
      funext s
      rw [readLength, if_neg (by omega), if_neg (by omega)]
    dsimp only
    rw [hread]
    apply Takes.pure
  next hn =>
    split
    next hn' => apply hlong 2 (by decide) (by omega)
    next => apply hlong 8 (by decide) (by omega)

theorem takes_readMask (mask : Option WebSocket.Key) :
  Takes (readMask mask.isSome) (WebSocket.Frame.keyBytes mask)
    (match mask with
      | none => [0, 0, 0, 0]
      | some key => key.bytes)
  := by
  cases mask with
  | none => apply Takes.pure
  | some key =>
      have h := takes_recvAll key.bytes (by rw [key.length_bytes]; decide)
      rw [key.length_bytes] at h
      apply h

/-- What `readHeader` finds in front of a frame. -/
def headerOf (f : WebSocket.Frame) : Header where
  opcode := UInt8.ofNat f.opcode
  masked := f.mask.isSome
  plen := f.payload.length
  mask := match f.mask with
    | none => [0, 0, 0, 0]
    | some key => key.bytes

theorem takes_readHeader
    {f : WebSocket.Frame} (h : f.payload.length < 2 ^ 64) :
  Takes readHeader f.header (headerOf f)
  := by
  have hbytes := takes_recvAll
    [WebSocket.Frame.firstByte f.fin f.opcode,
      WebSocket.Frame.secondByte f.mask.isSome (WebSocket.Frame.shortLength f.payload.length)]
    (by simp)
  apply hbytes.bind readHeaderRest
  have hmask := (takes_readMask f.mask).map fun mask =>
    (⟨UInt8.ofNat f.opcode, f.mask.isSome, f.payload.length, mask⟩ : Header)
  have hlength := (takes_readLength h).bind
    (fun plen s => (readMask f.mask.isSome s).map fun mask =>
      ((⟨UInt8.ofNat f.opcode, f.mask.isSome, plen, mask.1⟩ : Header), mask.2)) hmask
  have hmasked : decide (WebSocket.Frame.secondByte f.mask.isSome
      (WebSocket.Frame.shortLength f.payload.length) &&& 0x80 ≠ 0) = f.mask.isSome := by
    rw [Bool.eq_iff_iff, decide_eq_true_iff, WebSocket.Frame.secondByte_and_mask]
  unfold readHeaderRest
  simp only [List.getD_cons_zero, List.getD_cons_succ, WebSocket.Frame.firstByte_and, hmasked,
    WebSocket.Frame.secondByte_and_length]
  apply hlength

/-- A frame of fewer than `2 ^ 32` bytes of payload is read off the front of a stream. -/
theorem readFrame_whole
    {f : WebSocket.Frame} (h : f.payload.length < 2 ^ 32) {s : Socket} {rest : Bytes}
    (hs : s.bytes = f.encode ++ rest) :
  ∃ t, t.bytes = rest ∧
    readFrame s =
      if f.opcode = 0x8 then .closed
      else if f.opcode = 0x9 then .returned [] [0x8A, 0x00] t
      else .returned f.payload [] t
  := by
  rw [WebSocket.Frame.encode, List.append_assoc] at hs
  obtain ⟨u, hheader, hu⟩ := (takes_readHeader (by omega)).whole s _ hs
  obtain ⟨t, hbody, ht⟩ :=
    (takes_recvAll f.body (by rw [f.length_body]; apply h)).whole u rest hu
  rw [f.length_body] at hbody
  have hplen : (headerOf f).plen = f.payload.length := rfl
  have hsize : ¬ f.payload.length > maxSize := by
    rw [maxSize]
    omega
  have hpayload : (if (headerOf f).masked then WebSocket.applyMask (headerOf f).mask f.body
      else f.body) = f.payload := by
    cases hm : f.mask <;> simp [headerOf, WebSocket.Frame.body, hm]
  have hclose : (headerOf f).opcode = 0x8 ↔ f.opcode = 0x8 :=
    WebSocket.Frame.ofNat_opcode_eq f.opcode 8
  have hping : (headerOf f).opcode = 0x9 ↔ f.opcode = 0x9 :=
    WebSocket.Frame.ofNat_opcode_eq f.opcode 9
  use t, ht
  simp only [readFrame, hheader, hplen, if_neg hsize, hbody, hpayload, hclose, hping]

/-- A stream that ends within such a frame is found closed. -/
theorem readFrame_short
    {f : WebSocket.Frame} (h : f.payload.length < 2 ^ 32) {s : Socket}
    (hs : s.bytes <+: f.encode) (hne : s.bytes ≠ f.encode) :
  readFrame s = .closed
  := by
  by_cases hpre : f.header <+: s.bytes
  · obtain ⟨rest, hrest⟩ := hpre
    obtain ⟨u, hheader, rfl⟩ := (takes_readHeader (by omega)).whole s rest hrest.symm
    rw [← hrest, WebSocket.Frame.encode] at hs hne
    have hbody := (takes_recvAll f.body (by rw [f.length_body]; apply h)).short u
      ((List.prefix_append_right_inj f.header).mp hs) (fun heq => hne (by rw [heq]))
    rw [f.length_body] at hbody
    have hplen : (headerOf f).plen = f.payload.length := rfl
    have hsize : ¬ f.payload.length > maxSize := by
      rw [maxSize]
      omega
    simp only [readFrame, hheader, hplen, if_neg hsize, hbody]
  · have hheader := List.prefix_or_prefix_of_prefix hs (List.prefix_append f.header f.body)
    have hread := (takes_readHeader (by omega)).short s (hheader.resolve_right hpre) (by
      rintro heq
      apply hpre
      rw [heq])
    rw [readFrame, hread]

end WsServer

end NexusMainframe
