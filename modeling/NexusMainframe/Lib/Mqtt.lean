import NexusMainframe.Lib.Varint

/-!
# MQTT 3.1.1 control packets

The control packets of MQTT 3.1.1 that a session at QoS 0 exchanges, their encoding and
their decoder. A packet is a type byte, the Remaining Length as a base-128 integer of at
most four bytes, and a body of that many bytes; strings and binary data inside the body
are preceded by a two-byte big-endian length.

`Mqtt.decode_encode` says that the decoder reads an encoded packet back and leaves what
follows it.
-/

namespace Mqtt

/-! ### Fields -/

/-- A length-prefixed string. -/
def string (s : Bytes) : Bytes :=
  Bytes.bigEndian 2 s.length ++ s

/-- The two-byte number in front of a byte string, and what follows it. -/
def takeNumber : Bytes → Option (Nat × Bytes)
  | hi :: lo :: rest => some (Bytes.ofBigEndian [hi, lo], rest)
  | _ => none

/-- The length-prefixed string in front of a byte string, and what follows it. -/
def takeString (bs : Bytes) : Option (Bytes × Bytes) := do
  let (n, rest) ← takeNumber bs
  if n ≤ rest.length then some (rest.take n, rest.drop n) else none

/-- The first `k` length-prefixed strings of a byte string, and what follows them. -/
def takeStrings : Nat → Bytes → Option (List Bytes × Bytes)
  | 0, bs => some ([], bs)
  | k + 1, bs => do
      let (s, rest) ← takeString bs
      let (ss, rest) ← takeStrings k rest
      some (s :: ss, rest)

theorem takeNumber_bigEndian
    {n : Nat} (h : n < 65536) (rest : Bytes) :
  takeNumber (Bytes.bigEndian 2 n ++ rest) = some (n, rest)
  := by
  have hn := Bytes.ofBigEndian_bigEndian 2 n
  simp only [Bytes.bigEndian_succ] at hn ⊢
  simp only [List.cons_append, takeNumber]
  simp only [Bytes.bigEndian, List.range_zero, List.reverse_nil, List.map_nil,
    List.nil_append] at hn ⊢
  rw [hn, Nat.mod_eq_of_lt (by omega)]

theorem takeString_string
    {s : Bytes} (h : s.length < 65536) (rest : Bytes) :
  takeString (string s ++ rest) = some (s, rest)
  := by
  rw [takeString, string, List.append_assoc, takeNumber_bigEndian h]
  simp

theorem takeStrings_flatMap
    {ss : List Bytes} (h : ∀ s ∈ ss, s.length < 65536) (rest : Bytes) :
  takeStrings ss.length (ss.flatMap string ++ rest) = some (ss, rest)
  := by
  induction ss with
  | nil => rfl
  | cons s ss ih =>
      have hs := h s (by simp)
      have hss := ih (fun t ht => h t (by simp [ht]))
      simp [takeStrings, takeString_string hs, hss]

/-- The two bytes of a length, and the string. -/
theorem string_eq (s : Bytes) :
  string s = UInt8.ofNat (s.length >>> 8) :: UInt8.ofNat s.length :: s
  := by
  rw [string, Bytes.bigEndian_succ, Bytes.bigEndian_succ]
  rfl

theorem ofBigEndian_length {s : Bytes} (h : s.length < 65536) :
  Bytes.ofBigEndian [UInt8.ofNat (s.length >>> 8), UInt8.ofNat s.length] = s.length
  := by
  have hnumber := Bytes.ofBigEndian_bigEndian 2 s.length
  rwa [Bytes.bigEndian_succ, Bytes.bigEndian_succ, Nat.mod_eq_of_lt (by omega)] at hnumber

theorem eq_of_takeNumber
    {bs rest : Bytes} {n : Nat} (h : takeNumber bs = some (n, rest)) :
  bs = Bytes.bigEndian 2 n ++ rest
  := by
  match bs with
  | [] => simp [takeNumber] at h
  | [_] => simp [takeNumber] at h
  | hi :: lo :: bs =>
      obtain ⟨rfl, rfl⟩ := Prod.mk.inj (Option.some.inj h)
      have hnum := Bytes.bigEndian_ofBigEndian [hi, lo]
      simp only [List.length_cons, List.length_nil] at hnum
      rw [hnum]
      rfl

theorem eq_of_takeString
    {bs s rest : Bytes} (h : takeString bs = some (s, rest)) :
  bs = string s ++ rest
  := by
  obtain ⟨⟨n, r⟩, hn, h⟩ := Option.bind_eq_some_iff.mp h
  dsimp only at h
  split at h
  next hle =>
    obtain ⟨rfl, rfl⟩ := Prod.mk.inj (Option.some.inj h)
    rw [eq_of_takeNumber hn, string, List.length_take, Nat.min_eq_left hle, List.append_assoc,
      List.take_append_drop]
  next => cases h

theorem eq_of_takeStrings
    {k : Nat} {bs rest : Bytes} {ss : List Bytes} (h : takeStrings k bs = some (ss, rest)) :
  bs = ss.flatMap string ++ rest
  := by
  induction k generalizing bs ss with
  | zero =>
      obtain ⟨rfl, rfl⟩ := Prod.mk.inj (Option.some.inj h)
      rfl
  | succ k ih =>
      obtain ⟨⟨s, r⟩, hs, h⟩ := Option.bind_eq_some_iff.mp h
      obtain ⟨⟨ss', r'⟩, hss, h⟩ := Option.bind_eq_some_iff.mp h
      obtain ⟨rfl, rfl⟩ := Prod.mk.inj (Option.some.inj h)
      rw [eq_of_takeString hs, ih hss, List.flatMap_cons, List.append_assoc]

/-! ### Packets -/

/-- A control packet. `fields` are the strings that follow the client identifier of a
CONNECT, as its flags announce them: will topic and message, user name, password. -/
inductive Packet where
  | connect (flags : UInt8) (keepAlive : Nat) (clientId : Bytes) (fields : List Bytes)
  | connack (sessionPresent : Bool) (returnCode : UInt8)
  | publish (retain : Bool) (topic payload : Bytes)
  | subscribe (packetId : Nat) (filters : List (Bytes × UInt8))
  | suback (packetId : Nat) (returnCodes : Bytes)
  | pingreq
  | pingresp
deriving DecidableEq

/-- The number of strings that the flags of a CONNECT announce. -/
def fieldCount (flags : UInt8) : Nat :=
  (if flags &&& 0x04 = 0 then 0 else 2) + (if flags &&& 0x80 = 0 then 0 else 1)
    + (if flags &&& 0x40 = 0 then 0 else 1)

/-- The protocol name and level in front of a CONNECT. -/
def protocol : Bytes :=
  string (Bytes.ofAscii "MQTT") ++ [0x04]

/-- A topic filter with the QoS asked for. -/
def filter (f : Bytes × UInt8) : Bytes :=
  string f.1 ++ [f.2]

namespace Packet

/-- The type byte. -/
def typeByte : Packet → UInt8
  | connect .. => 0x10
  | connack .. => 0x20
  | publish retain .. => if retain then 0x31 else 0x30
  | subscribe .. => 0x82
  | suback .. => 0x90
  | pingreq => 0xC0
  | pingresp => 0xD0

/-- What follows the Remaining Length. -/
def body : Packet → Bytes
  | connect flags keepAlive clientId fields =>
      protocol ++ flags :: Bytes.bigEndian 2 keepAlive ++ string clientId
        ++ fields.flatMap string
  | connack sessionPresent returnCode => [if sessionPresent then 1 else 0, returnCode]
  | publish _ topic payload => string topic ++ payload
  | subscribe packetId filters => Bytes.bigEndian 2 packetId ++ filters.flatMap filter
  | suback packetId returnCodes => Bytes.bigEndian 2 packetId ++ returnCodes
  | pingreq => []
  | pingresp => []

/-- The bytes of a packet. -/
def encode (p : Packet) : Bytes :=
  p.typeByte :: Varint.encode 4 p.body.length ++ p.body

/-- The packets whose fields fit the sizes of their encodings. -/
def Encodable (p : Packet) : Prop :=
  p.body.length < 128 ^ 4 ∧
    match p with
    | connect flags keepAlive clientId fields =>
        flags &&& 0x01 = 0 ∧ keepAlive < 65536 ∧ clientId.length < 65536
          ∧ fields.length = fieldCount flags ∧ ∀ s ∈ fields, s.length < 65536
    | publish _ topic _ => topic.length < 65536
    | subscribe packetId filters => packetId < 65536 ∧ ∀ f ∈ filters, f.1.length < 65536
    | suback packetId _ => packetId < 65536
    | _ => True

theorem length_body_publish (retain : Bool) (topic payload : Bytes) :
  (publish retain topic payload).body.length = 2 + topic.length + payload.length
  := by
  simp [body, string]
  omega

theorem typeByte_publish (retain : Bool) (topic payload : Bytes) :
  (publish retain topic payload).typeByte.toNat >>> 4 = 3
  := by
  cases retain <;> simp [typeByte]

end Packet

/-! ### Decoding -/

/-- The topic filters a byte string consists of; `k` bounds their number. -/
def decodeFilters : Nat → Bytes → Option (List (Bytes × UInt8))
  | _, [] => some []
  | 0, _ => none
  | k + 1, bs => do
      let (s, rest) ← takeString bs
      match rest with
      | [] => none
      | qos :: rest =>
          let fs ← decodeFilters k rest
          some ((s, qos) :: fs)

/-- The CONNECT that a body consists of. -/
def decodeConnect (bs : Bytes) : Option Packet := do
  let (name, rest) ← takeString bs
  match rest with
  | level :: flags :: rest =>
      if name = Bytes.ofAscii "MQTT" ∧ level = 0x04 ∧ flags &&& 0x01 = 0 then do
        let (keepAlive, rest) ← takeNumber rest
        let (clientId, rest) ← takeString rest
        let (fields, rest) ← takeStrings (fieldCount flags) rest
        if rest = [] then some (.connect flags keepAlive clientId fields) else none
      else none
  | _ => none

/-- The packet that a type byte and a body make. -/
def decodeBody (typeByte : UInt8) (bs : Bytes) : Option Packet :=
  match typeByte with
  | 0x10 => decodeConnect bs
  | 0x20 =>
      match bs with
      | [0, returnCode] => some (.connack false returnCode)
      | [1, returnCode] => some (.connack true returnCode)
      | _ => none
  | 0x30 => (takeString bs).map fun p => .publish false p.1 p.2
  | 0x31 => (takeString bs).map fun p => .publish true p.1 p.2
  | 0x82 => do
      let (packetId, rest) ← takeNumber bs
      let filters ← decodeFilters rest.length rest
      some (.subscribe packetId filters)
  | 0x90 => (takeNumber bs).map fun p => .suback p.1 p.2
  | 0xC0 => if bs = [] then some .pingreq else none
  | 0xD0 => if bs = [] then some .pingresp else none
  | _ => none

/-- The packet in front of a byte string, and what follows it. -/
def decode : Bytes → Option (Packet × Bytes)
  | [] => none
  | typeByte :: bs => do
      let (n, rest) ← Varint.decode 4 bs
      if n ≤ rest.length then do
        let p ← decodeBody typeByte (rest.take n)
        some (p, rest.drop n)
      else none

theorem decodeFilters_flatMap
    {k : Nat} {fs : List (Bytes × UInt8)} (h : ∀ f ∈ fs, f.1.length < 65536)
    (hk : (fs.flatMap filter).length ≤ k) :
  decodeFilters k (fs.flatMap filter) = some fs
  := by
  induction fs generalizing k with
  | nil => cases k <;> rfl
  | cons f fs ih =>
      obtain ⟨s, qos⟩ := f
      have hs : s.length < 65536 := h (s, qos) (by simp)
      have hne : (List.flatMap filter ((s, qos) :: fs))
          = string s ++ qos :: fs.flatMap filter := by
        simp [filter]
      rw [hne] at hk ⊢
      cases k with
      | zero => simp at hk
      | succ k =>
          have hrest := ih (k := k) (fun t ht => h t (by simp [ht]))
            (by simp only [List.length_append, List.length_cons] at hk; omega)
          rw [decodeFilters]
          · simp [takeString_string hs, hrest]
          · simp [string]

theorem decodeConnect_body
    {flags : UInt8} {keepAlive : Nat} {clientId : Bytes} {fields : List Bytes}
    (h : (Packet.connect flags keepAlive clientId fields).Encodable) :
  decodeConnect (Packet.connect flags keepAlive clientId fields).body
    = some (.connect flags keepAlive clientId fields)
  := by
  obtain ⟨-, hflags, hkeep, hid, hcount, hfields⟩ := h
  have hname : (Bytes.ofAscii "MQTT").length < 65536 := by decide
  have hstrings := takeStrings_flatMap hfields []
  rw [List.append_nil, hcount] at hstrings
  simp [Packet.body, protocol, decodeConnect, takeString_string hname, hflags,
    takeNumber_bigEndian hkeep, takeString_string hid, hstrings]

theorem decodeBody_body
    {p : Packet} (h : p.Encodable) :
  decodeBody p.typeByte p.body = some p
  := by
  cases p with
  | connect flags keepAlive clientId fields => apply decodeConnect_body h
  | connack sessionPresent returnCode => cases sessionPresent <;> rfl
  | publish retain topic payload =>
      have ht := takeString_string h.2 payload
      cases retain <;> simp [Packet.typeByte, Packet.body, decodeBody, ht]
  | subscribe packetId filters =>
      obtain ⟨-, hid, hfs⟩ := h
      simp [Packet.typeByte, Packet.body, decodeBody, takeNumber_bigEndian hid,
        decodeFilters_flatMap hfs]
  | suback packetId returnCodes =>
      simp [Packet.typeByte, Packet.body, decodeBody, takeNumber_bigEndian h.2]
  | pingreq => rfl
  | pingresp => rfl

theorem eq_of_decodeFilters
    {k : Nat} {bs : Bytes} {fs : List (Bytes × UInt8)} (h : decodeFilters k bs = some fs) :
  fs.flatMap filter = bs
  := by
  induction k generalizing bs fs with
  | zero =>
      cases bs with
      | nil =>
          obtain rfl := Option.some.inj h
          rfl
      | cons b bs => cases h
  | succ k ih =>
      cases bs with
      | nil =>
          obtain rfl := Option.some.inj h
          rfl
      | cons b bs =>
          obtain ⟨⟨s, rest⟩, hs, h⟩ := Option.bind_eq_some_iff.mp h
          cases rest with
          | nil => cases h
          | cons qos rest =>
              obtain ⟨fs', hfs, h⟩ := Option.bind_eq_some_iff.mp h
              obtain rfl := Option.some.inj h
              rw [eq_of_takeString hs, List.flatMap_cons, ih hfs, filter]
              simp

theorem eq_of_decodeConnect
    {bs : Bytes} {p : Packet} (h : decodeConnect bs = some p) :
  p.body = bs
  := by
  obtain ⟨⟨name, rest⟩, hname, h⟩ := Option.bind_eq_some_iff.mp h
  match rest with
  | [] => cases h
  | [_] => cases h
  | level :: flags :: rest =>
      dsimp only at h
      split at h
      next hif =>
        obtain ⟨rfl, rfl, -⟩ := hif
        obtain ⟨⟨keepAlive, r₁⟩, hkeep, h⟩ := Option.bind_eq_some_iff.mp h
        obtain ⟨⟨clientId, r₂⟩, hid, h⟩ := Option.bind_eq_some_iff.mp h
        obtain ⟨⟨fields, r₃⟩, hfields, h⟩ := Option.bind_eq_some_iff.mp h
        dsimp only at h
        split at h
        next hend =>
          obtain rfl := Option.some.inj h
          have hid : takeString r₁ = some (clientId, r₂) := hid
          have hfields : takeStrings (fieldCount flags) r₂ = some (fields, r₃) := hfields
          rw [eq_of_takeString hname, eq_of_takeNumber hkeep, eq_of_takeString hid,
            eq_of_takeStrings hfields, hend]
          simp [Packet.body, protocol]
        next => cases h
      next => cases h

/-- A body that is decoded is the body of its packet. -/
theorem eq_of_decodeBody
    {typeByte : UInt8} {bs : Bytes} {p : Packet} (h : decodeBody typeByte bs = some p) :
  p.body = bs
  := by
  unfold decodeBody at h
  split at h
  · apply eq_of_decodeConnect h
  · split at h
    · obtain rfl := Option.some.inj h
      rfl
    · obtain rfl := Option.some.inj h
      rfl
    · cases h
  · obtain ⟨⟨topic, payload⟩, hs, rfl⟩ := Option.map_eq_some_iff.mp h
    rw [eq_of_takeString hs]
    rfl
  · obtain ⟨⟨topic, payload⟩, hs, rfl⟩ := Option.map_eq_some_iff.mp h
    rw [eq_of_takeString hs]
    rfl
  · obtain ⟨⟨packetId, rest⟩, hid, h⟩ := Option.bind_eq_some_iff.mp h
    obtain ⟨fs, hfs, h⟩ := Option.bind_eq_some_iff.mp h
    obtain rfl := Option.some.inj h
    rw [eq_of_takeNumber hid, Packet.body, eq_of_decodeFilters hfs]
  · obtain ⟨⟨packetId, returnCodes⟩, hid, rfl⟩ := Option.map_eq_some_iff.mp h
    rw [eq_of_takeNumber hid]
    rfl
  · split at h
    next hempty =>
      obtain rfl := Option.some.inj h
      apply hempty.symm
    next => cases h
  · split at h
    next hempty =>
      obtain rfl := Option.some.inj h
      apply hempty.symm
    next => cases h
  · cases h

/-- The decoder reads an encoded packet back and leaves what follows it. -/
theorem decode_encode
    {p : Packet} (h : p.Encodable) (rest : Bytes) :
  decode (p.encode ++ rest) = some (p, rest)
  := by
  have hlen := Varint.decode_encode h.1 (p.body ++ rest)
  simp [Packet.encode, decode, hlen, decodeBody_body h]

/-- The packets that a byte string consists of; `k` bounds their number. -/
def decodeAll : Nat → Bytes → Option (List Packet)
  | _, [] => some []
  | 0, _ => none
  | k + 1, bs => do
      let (p, rest) ← decode bs
      let ps ← decodeAll k rest
      some (p :: ps)

/-- The decoder reads packets back that follow each other. -/
theorem decodeAll_flatMap_encode
    {k : Nat} {ps : List Packet} (h : ∀ p ∈ ps, p.Encodable)
    (hk : (ps.flatMap Packet.encode).length ≤ k) :
  decodeAll k (ps.flatMap Packet.encode) = some ps
  := by
  induction ps generalizing k with
  | nil => cases k <;> rfl
  | cons p ps ih =>
      obtain ⟨hp, hps⟩ := List.forall_mem_cons.mp h
      rw [List.flatMap_cons] at hk ⊢
      have hpos : 0 < p.encode.length := by simp [Packet.encode]
      cases k with
      | zero =>
          rw [List.length_append] at hk
          omega
      | succ k =>
          have hrest := ih (k := k) hps (by rw [List.length_append] at hk; omega)
          rw [decodeAll]
          · simp [decode_encode hp, hrest]
          · simp [Packet.encode]

/-- A packet whose first length byte is below 128 takes exactly that many more bytes. -/
theorem decode_short
    {typeByte b : UInt8} (hb : b.toNat < 128) {bs : Bytes} {p : Packet}
    (h : decode (typeByte :: b :: bs) = some (p, [])) :
  bs.length = b.toNat
  := by
  simp only [decode, Varint.decode_cons_of_lt 3 hb, Option.bind_eq_bind, Option.bind_some] at h
  split at h
  next hle =>
    obtain ⟨q, -, hq⟩ := Option.bind_eq_some_iff.mp h
    obtain ⟨-, hdrop⟩ := Prod.mk.inj (Option.some.inj hq)
    have := List.drop_eq_nil_iff.mp hdrop
    omega
  next => simp at h

/-- A packet whose first length byte is 128 or more has a body shorter than what follows
that byte. -/
theorem decode_long
    {typeByte b : UInt8} (hb : 128 ≤ b.toNat) {bs rest : Bytes} {p : Packet}
    (h : decode (typeByte :: b :: bs) = some (p, rest)) :
  p.body.length < bs.length
  := by
  obtain ⟨⟨n, r⟩, hn, h⟩ := Option.bind_eq_some_iff.mp h
  have hr := Varint.decode_cons_length_lt hb hn
  simp only at h
  split at h
  next hle =>
    obtain ⟨q, hq, hp⟩ := Option.bind_eq_some_iff.mp h
    obtain ⟨rfl, -⟩ := Prod.mk.inj (Option.some.inj hp)
    rw [eq_of_decodeBody hq, List.length_take]
    omega
  next => simp at h

end Mqtt
