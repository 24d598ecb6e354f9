import NexusMainframe.Chromecast.CastProto
import NexusMainframe.Lib.Stream

/-!
# The packets of a cast channel

A packet is the encoding of a message behind its length in four bytes. `send` writes one
packet, in as many pieces as `SSL_write` accepts, and `readMessage` reads one, from however
many pieces `SSL_read` delivers. Messages of at most 1,000,000 bytes are read back.
-/

namespace NexusMainframe

namespace TlsSocket

open Stream

/-- `SSL_read` on a stream, which fails when it is asked for no bytes or a negative number,
and at the end of the stream: no bytes are returned then. -/
def sslRead (s : Socket) (num : Int) : Bytes × Socket :=
  if num ≤ 0 then ([], s) else s.recv num.toNat

/-- The call of `SSL_read` when `missing` bytes of a buffer are missing. -/
def readMissing (s : Socket) (missing : Nat) : Bytes × Socket :=
  sslRead s (Machine.wrapInt32 missing)

/-- Fills a buffer of `size` bytes, or fails when `SSL_read` does. -/
def recvAll (s : Socket) (size : Nat) : Option (Bytes × Socket) :=
  fill readMissing s size

/-- The loop of `sendAll`, where `SSL_write` returns `results` one after the other: whether
all of the data is sent, and what is written. -/
def sendAll : Bytes → List Int → Bool × Bytes
  | [], _ => (true, [])
  | _ :: _, [] => (false, [])
  | b :: data, n :: results =>
      if n ≤ 0 then (false, [])
      else
        let rest := sendAll ((b :: data).drop n.toNat) results
        (rest.1, (b :: data).take n.toNat ++ rest.2)

theorem readMissing_append (s : Socket) (missing : Nat) :
  (readMissing s missing).1 ++ (readMissing s missing).2.bytes = s.bytes
  := by
  unfold readMissing sslRead
  split
  · rfl
  · apply s.recv_append

theorem readMissing_length_le (s : Socket) (missing : Nat) :
  (readMissing s missing).1.length ≤ missing
  := by
  unfold readMissing sslRead
  split
  next => simp
  next =>
    calc (s.recv _).1.length ≤ min _ Socket.maxCount := s.recv_length_le _
      _ ≤ (Machine.wrapInt32 missing).toNat := Nat.min_le_left _ _
      _ ≤ missing := Machine.toNat_wrapInt32_le missing

/-- `SSL_read` gets on when fewer than `2 ^ 31` bytes are missing. -/
theorem readMissing_eq_nil
    {s : Socket} {missing : Nat} (hpos : 0 < missing) (hlt : missing < 2 ^ 31)
    (hnil : (readMissing s missing).1 = []) :
  s.bytes = []
  := by
  rw [readMissing, sslRead, Machine.wrapInt32_of_lt hlt, if_neg (by omega), Int.toNat_natCast,
    Socket.recv_eq_nil] at hnil
  apply hnil.resolve_left
  omega

theorem receives :
  Receives readMissing (2 ^ 31) where
  append := readMissing_append
  length_le := readMissing_length_le
  progress := fun _ _ => readMissing_eq_nil

/-- `recvAll` takes a field shorter than `2 ^ 31` bytes. -/
theorem takes_recvAll
    (field : Bytes) (h : field.length < 2 ^ 31) :
  Takes (fun s => recvAll s field.length) field field
  := receives.takes_fill field h

/-- `sendAll` that succeeds has written the data. -/
theorem sendAll_eq_true
    {data : Bytes} {results : List Int} (h : (sendAll data results).1 = true) :
  (sendAll data results).2 = data
  := by
  induction results generalizing data with
  | nil =>
      cases data with
      | nil => rfl
      | cons b data => cases h
  | cons n results ih =>
      cases data with
      | nil => rfl
      | cons b data =>
          rw [sendAll] at h ⊢
          split at h
          next => cases h
          next hn =>
            rw [if_neg hn]
            dsimp only at h ⊢
            rw [ih h, List.take_append_drop]

/-- `SSL_write` may accept all of the data at once. -/
theorem sendAll_whole {data : Bytes} (hne : data ≠ []) :
  sendAll data [(data.length : Int)] = (true, data)
  := by
  cases data with
  | nil => cases hne rfl
  | cons b data =>
      rw [sendAll, if_neg (by rw [List.length_cons]; omega), Int.toNat_natCast, List.drop_length,
        List.take_length]
      simp [sendAll]

end TlsSocket

namespace CastChannel

open Stream CastProto

/-! ### Packets -/

/-- `MAX_MESSAGE_SIZE`. -/
def maxMessageSize : UInt32 :=
  1000000

/-- The header of a packet. -/
def header (len : UInt32) : Bytes :=
  [((len >>> 24) &&& 0xFF).toUInt8, ((len >>> 16) &&& 0xFF).toUInt8,
    ((len >>> 8) &&& 0xFF).toUInt8, (len &&& 0xFF).toUInt8]

/-- What `send` hands to the socket. -/
def packet (msg : CastMessage) : Bytes :=
  let body := encodeCastMessage msg
  header (UInt32.ofNat body.length) ++ body

/-- `send`, where `SSL_write` returns `results`: what it returns, and what is written. -/
def send (msg : CastMessage) (results : List Int) : Bool × Bytes :=
  TlsSocket.sendAll (packet msg) results

/-- The length in a header. -/
def headerLength (hdr : Bytes) : UInt32 :=
  ((hdr.getD 0 0).toUInt32 <<< 24) ||| ((hdr.getD 1 0).toUInt32 <<< 16)
    ||| ((hdr.getD 2 0).toUInt32 <<< 8) ||| (hdr.getD 3 0).toUInt32

/-- What a call of `readMessage` comes to: it returns `false`, it throws, or it delivers a
message and leaves the rest of the stream. -/
inductive MessageRead where
  | failed
  | threw
  | delivered (msg : CastMessage) (rest : Socket)

/-- `recvMessage`: a header of four bytes, and as many bytes as it announces, decoded. -/
def readMessage (s : Socket) : MessageRead :=
  match TlsSocket.recvAll s 4 with
  | none => .failed
  | some (hdr, s) =>
      let len := headerLength hdr
      if len = 0 ∨ len > maxMessageSize then .failed
      else
        match TlsSocket.recvAll s len.toNat with
        | none => .failed
        | some (body, s) =>
            match decodeCastMessage body with
            | .error .nullopt => .failed
            | .error .lengthError => .threw
            | .ok msg => .delivered msg s

/-- The messages that `k` successive calls of `readMessage` deliver, and what they leave,
if all of them deliver one. -/
def readMessages : Nat → Socket → Option (List CastMessage × Socket)
  | 0, s => some ([], s)
  | k + 1, s =>
      match readMessage s with
      | .delivered msg s => (readMessages k s).map fun p => (msg :: p.1, p.2)
      | .failed => none
      | .threw => none

/-! ### The header -/

theorem length_header (len : UInt32) :
  (header len).length = 4
  := rfl

theorem header_eq (len : UInt32) :
  header len = Bytes.bigEndian 4 len.toNat
  := by
  have hbyte : ∀ v : UInt32, (v &&& 0xFF).toUInt8 = UInt8.ofNat v.toNat := by
    intro v
    have hand : v.toNat &&& (0xFF : UInt32).toNat = v.toNat % 2 ^ 8 :=
      Nat.and_two_pow_sub_one_eq_mod v.toNat 8
    apply UInt8.toNat_inj.mp
    rw [UInt32.toNat_toUInt8, UInt32.toNat_and, hand, UInt8.toNat_ofNat']
    omega
  rw [header, hbyte, hbyte, hbyte, hbyte]
  rfl

/-- The bytes of the header are shifted together. -/
theorem toNat_headerLength (a b c d : UInt8) :
  (headerLength [a, b, c, d]).toNat = Bytes.ofBigEndian [a, b, c, d]
  := by
  have ha := a.toNat_lt
  have hb := b.toNat_lt
  have hc := c.toNat_lt
  have hd := d.toNat_lt
  have hshift : ∀ (v : UInt8) (i : Nat), i ≤ 24 →
      (v.toUInt32 <<< UInt32.ofNat i).toNat = v.toNat <<< i := by
    intro v i hi
    have hlt := v.toNat_lt
    have hv : v.toUInt32 = UInt32.ofNat v.toNat := by
      apply UInt32.toNat_inj.mp
      rw [UInt8.toNat_toUInt32, UInt32.toNat_ofNat']
      omega
    have hpow : 2 ^ i ≤ 2 ^ 24 := Nat.pow_le_pow_right (by decide) hi
    rw [hv, ← UInt32.ofNat_shiftLeft _ _ (by omega), UInt32.toNat_ofNat', Nat.mod_eq_of_lt]
    rw [Nat.shiftLeft_eq]
    calc v.toNat * 2 ^ i ≤ 255 * 2 ^ 24 := Nat.mul_le_mul (Nat.le_of_lt_succ hlt) hpow
      _ < 2 ^ 32 := by decide
  have h24 : (a.toUInt32 <<< 24).toNat = a.toNat <<< 24 := hshift a 24 (by decide)
  have h16 : (b.toUInt32 <<< 16).toNat = b.toNat <<< 16 := hshift b 16 (by decide)
  have h8 : (c.toUInt32 <<< 8).toNat = c.toNat <<< 8 := hshift c 8 (by decide)
  calc (headerLength [a, b, c, d]).toNat
      = ((a.toNat <<< 24 ||| b.toNat <<< 16) ||| c.toNat <<< 8) ||| d.toNat := by
        rw [← h24, ← h16, ← h8]
        rfl
    _ = a.toNat <<< 24 + (b.toNat <<< 16 + (c.toNat <<< 8 + d.toNat)) := by
        rw [Nat.or_assoc, Nat.or_assoc, ← Nat.shiftLeft_add_eq_or_of_lt hd,
          ← Nat.shiftLeft_add_eq_or_of_lt (i := 16), ← Nat.shiftLeft_add_eq_or_of_lt (i := 24)]
        · rw [Nat.shiftLeft_eq, Nat.shiftLeft_eq]
          omega
        · rw [Nat.shiftLeft_eq]
          omega
    _ = Bytes.ofBigEndian [a, b, c, d] := by
        simp only [Bytes.ofBigEndian, List.foldl, Nat.shiftLeft_eq]
        omega

/-- The length is read back from the header. -/
theorem headerLength_header (len : UInt32) :
  headerLength (header len) = len
  := by
  apply UInt32.toNat_inj.mp
  rw [header, toNat_headerLength, ← header, header_eq, Bytes.ofBigEndian_bigEndian,
    Nat.mod_eq_of_lt]
  exact len.toNat_lt.trans_le (by decide)

/-! ### Reading the packets back -/

theorem headerLength_packet
    {msg : CastMessage} (h : (encodeCastMessage msg).length ≤ 1000000) :
  (UInt32.ofNat (encodeCastMessage msg).length).toNat = (encodeCastMessage msg).length
  := by
  rw [UInt32.toNat_ofNat']
  omega

/-- The size of the message passes the check. -/
theorem not_rejected
    {msg : CastMessage} (h : (encodeCastMessage msg).length ≤ 1000000) :
  ¬ (UInt32.ofNat (encodeCastMessage msg).length = 0
    ∨ UInt32.ofNat (encodeCastMessage msg).length > maxMessageSize)
  := by
  have hpos := List.length_pos_iff.mpr (encodeCastMessage_ne_nil msg)
  rw [← UInt32.toNat_inj, gt_iff_lt, UInt32.lt_iff_toNat_lt, headerLength_packet h]
  change ¬ (_ = 0 ∨ 1000000 < _)
  omega

/-- A packet is read off the front of a stream. -/
theorem readMessage_whole
    {msg : CastMessage} (h : (encodeCastMessage msg).length ≤ 1000000) {s : Socket}
    {rest : Bytes} (hs : s.bytes = packet msg ++ rest) :
  ∃ t, readMessage s = .delivered msg t ∧ t.bytes = rest
  := by
  rw [packet, List.append_assoc] at hs
  obtain ⟨u, hheader, hu⟩ :=
    (TlsSocket.takes_recvAll (header _) (by rw [length_header]; decide)).whole s _ hs
  obtain ⟨t, hbody, ht⟩ :=
    (TlsSocket.takes_recvAll (encodeCastMessage msg) (by omega)).whole u rest hu
  rw [length_header] at hheader
  have hdecode : decodeCastMessage (encodeCastMessage msg) = .ok msg :=
    decodeCastMessage_encode (by omega)
  use t
  constructor
  · simp only [readMessage, hheader, headerLength_header, if_neg (not_rejected h),
      headerLength_packet h, hbody, hdecode]
  · apply ht

/-- A stream that ends within a packet delivers no message of it. -/
theorem readMessage_short
    {msg : CastMessage} (h : (encodeCastMessage msg).length ≤ 1000000) {s : Socket}
    (hs : s.bytes <+: packet msg) (hne : s.bytes ≠ packet msg) :
  readMessage s = .failed
  := by
  rw [packet] at hs hne
  have hheader := TlsSocket.takes_recvAll (header (UInt32.ofNat (encodeCastMessage msg).length))
    (by rw [length_header]; decide)
  have hbody := TlsSocket.takes_recvAll (encodeCastMessage msg) (by omega)
  by_cases hpre : header (UInt32.ofNat (encodeCastMessage msg).length) <+: s.bytes
  · obtain ⟨rest, hrest⟩ := hpre
    obtain ⟨u, hread, rfl⟩ := hheader.whole s rest hrest.symm
    rw [← hrest] at hs hne
    have hshort := hbody.short u ((List.prefix_append_right_inj _).mp hs)
      (fun heq => hne (by rw [heq]))
    rw [length_header] at hread
    simp only [readMessage, hread, headerLength_header, if_neg (not_rejected h),
      headerLength_packet h, hshort]
  · have hcut := List.prefix_or_prefix_of_prefix hs (List.prefix_append _ _)
    have hshort := hheader.short s (hcut.resolve_right hpre) (by
      intro heq
      apply hpre
      rw [heq])
    rw [length_header] at hshort
    rw [readMessage, hshort]

/-- The packets in front of a stream are read back one after the other. -/
theorem readMessages_whole
    {msgs : List CastMessage} (h : ∀ msg ∈ msgs, (encodeCastMessage msg).length ≤ 1000000)
    {s : Socket} {rest : Bytes} (hs : s.bytes = msgs.flatMap packet ++ rest) :
  ∃ t, readMessages msgs.length s = some (msgs, t) ∧ t.bytes = rest
  := by
  induction msgs generalizing s with
  | nil =>
      use s, rfl
      apply hs
  | cons msg msgs ih =>
      obtain ⟨hmsg, hmsgs⟩ := List.forall_mem_cons.mp h
      rw [List.flatMap_cons, List.append_assoc] at hs
      obtain ⟨u, hread, hu⟩ := readMessage_whole hmsg hs
      obtain ⟨t, hreads, ht⟩ := ih hmsgs hu
      use t
      constructor
      · simp only [List.length_cons, readMessages, hread, hreads, Option.map_some]
      · apply ht

/-- What successful sends of the messages write, one after the other. -/
def Written : List CastMessage → Bytes → Prop
  | [], stream => stream = []
  | msg :: msgs, stream =>
      ∃ results rest, (send msg results).1 = true ∧ stream = (send msg results).2 ++ rest ∧
        Written msgs rest

theorem Written.eq_packets
    {msgs : List CastMessage} {stream : Bytes} (h : Written msgs stream) :
  stream = msgs.flatMap packet
  := by
  induction msgs generalizing stream with
  | nil => apply h
  | cons msg msgs ih =>
      obtain ⟨results, rest, hsent, rfl, hrest⟩ := h
      rw [send, TlsSocket.sendAll_eq_true hsent, ih hrest]
      rfl

/-- The packets themselves are written by successful sends. -/
theorem written_packets (msgs : List CastMessage) :
  Written msgs (msgs.flatMap packet)
  := by
  induction msgs with
  | nil => rfl
  | cons msg msgs ih =>
      have hne : packet msg ≠ [] := by
        simp [packet, header]
      have hsend : send msg [((packet msg).length : Int)] = (true, packet msg) :=
        TlsSocket.sendAll_whole hne
      use [((packet msg).length : Int)], msgs.flatMap packet
      rw [hsend]
      use rfl, rfl

/-- A stream of packets that ends early ends within one of them. -/
theorem exists_cut
    {msgs : List CastMessage} {bs : Bytes} (h : bs <+: msgs.flatMap packet)
    (hne : bs ≠ msgs.flatMap packet) :
  ∃ before msg after start, msgs = before ++ msg :: after ∧
    bs = before.flatMap packet ++ start ∧ start <+: packet msg ∧ start ≠ packet msg
  := by
  induction msgs generalizing bs with
  | nil => exact (hne (List.prefix_nil.mp h)).elim
  | cons msg msgs ih =>
      rw [List.flatMap_cons] at h hne
      by_cases hpre : packet msg <+: bs
      · obtain ⟨rest, rfl⟩ := hpre
        obtain ⟨before, msg', after, start, rfl, rfl, hstart⟩ :=
          ih ((List.prefix_append_right_inj _).mp h) (fun heq => hne (by rw [heq]))
        use msg :: before, msg', after, start, rfl
        rw [List.flatMap_cons, List.append_assoc]
        use rfl, hstart.1, hstart.2
      · have hcut := List.prefix_or_prefix_of_prefix h (List.prefix_append _ _)
        use [], msg, msgs, bs, rfl, rfl, hcut.resolve_right hpre
        rintro rfl
        apply hpre (List.prefix_refl _)

/-- The messages can be sent; successive calls of `readMessage` deliver what was sent, however
the stream is cut, and use it up; and when the stream ends early, they deliver the messages
whose packets are whole, and the call that reads the packet that is not fails. -/
structure ReadsBack (msgs : List CastMessage) : Prop where
  sent : Written msgs (msgs.flatMap packet)
  whole : ∀ stream, Written msgs stream → ∀ s : Socket, s.bytes = stream →
    ∃ t, readMessages msgs.length s = some (msgs, t) ∧ t.bytes = []
  cut : ∀ stream, Written msgs stream → ∀ s : Socket, s.bytes <+: stream → s.bytes ≠ stream →
    ∃ before msg after start t, msgs = before ++ msg :: after ∧
      s.bytes = before.flatMap packet ++ start ∧ start <+: packet msg ∧ start ≠ packet msg ∧
      readMessages before.length s = some (before, t) ∧ readMessage t = .failed

/-- All messages that were sent are read back. -/
theorem readMessages_written
    {msgs : List CastMessage} (h : ∀ msg ∈ msgs, (encodeCastMessage msg).length ≤ 1000000)
    {stream : Bytes} (hwritten : Written msgs stream) {s : Socket} (hs : s.bytes = stream) :
  ∃ t, readMessages msgs.length s = some (msgs, t) ∧ t.bytes = []
  := by
  apply readMessages_whole h
  rw [hs, hwritten.eq_packets, List.append_nil]

/-- Messages of at most 1,000,000 bytes are read back. -/
theorem readsBack
    {msgs : List CastMessage} (h : ∀ msg ∈ msgs, (encodeCastMessage msg).length ≤ 1000000) :
  ReadsBack msgs
  := by
  constructor
  · apply written_packets
  · intro stream hwritten s hs
    apply readMessages_written h hwritten hs
  · intro stream hwritten s hs hne
    rw [hwritten.eq_packets] at hs hne
    obtain ⟨before, msg, after, start, rfl, hbytes, hstart, hshort⟩ := exists_cut hs hne
    obtain ⟨t, hreads, rfl⟩ := readMessages_whole (fun m hm => h m (by simp [hm])) hbytes
    use before, msg, after, t.bytes, t, rfl, hbytes, hstart, hshort, hreads
    apply readMessage_short (h msg (by simp)) hstart hshort

/-- The messages at the start of a connection. -/
def connectPing : List CastMessage :=
  [{ sourceId := Bytes.ofAscii "sender-0"
     destinationId := Bytes.ofAscii "receiver-0"
     namespaceUri := Bytes.ofAscii "urn:x-cast:com.google.cast.tp.connection"
     payloadUtf8 := Bytes.ofAscii "\x7b\"type\":\"CONNECT\"\x7d" },
    { sourceId := Bytes.ofAscii "sender-0"
      destinationId := Bytes.ofAscii "receiver-0"
      namespaceUri := Bytes.ofAscii "urn:x-cast:com.google.cast.tp.heartbeat"
      payloadUtf8 := Bytes.ofAscii "\x7b\"type\":\"PING\"\x7d" }]

/-- Two messages are sent, and read back from a stream that comes byte by byte. -/
theorem readsBack_connectPing :
  ReadsBack connectPing
    ∧ ∃ stream, Written connectPing stream
      ∧ ∃ t, readMessages 2 (.bytewise stream) = some (connectPing, t) ∧ t.bytes = []
  := by
  have hsize : ∀ msg ∈ connectPing, (encodeCastMessage msg).length ≤ 1000000 := by
    decide +kernel
  have hreads := readsBack hsize
  refine ⟨hreads, _, hreads.sent, ?_⟩
  apply hreads.whole _ hreads.sent
  apply Socket.bytes_bytewise

end CastChannel

end NexusMainframe
