import NexusMainframe.Lib.RequestHead
import NexusMainframe.Server.WsDigest
import NexusMainframe.Server.WsHandshake

/-!
# The key header in the grammar of requests

`handshake` searches the bytes of a request for the name of the key header. In the grammar of
requests the header is a field whose name is this one in any case, and its value goes without
the blanks around it. Search and grammar agree on a request exactly when what stands behind the
first occurrence of the name is that value, or the name and the field are both not there.
-/

namespace NexusMainframe

namespace WsServer

open Stream (Cutting Socket)
open WebSocket (Field RequestHead crlf)

/-- The name in `keyText`. -/
def keyName : Bytes :=
  Bytes.ofAscii "Sec-WebSocket-Key"

theorem keyText_eq :
  keyText = keyName ++ [0x3A]
  := by decide

theorem keyName_token :
  keyName.all WebSocket.isTokenChar = true
  := by decide

/-- The text behind its spaces. -/
def skipSpaces (bs : Bytes) : Bytes :=
  bs.dropWhile fun b => b = 0x20

/-! ### Line by line -/

/-- The key that ends with a line is what stands behind the name in it. -/
theorem key_line {line : Bytes} (hline : 0x0D ∉ line) (rest : Bytes) :
  key (line ++ crlf ++ rest)
    = ((Bytes.behind keyText line).map skipSpaces).or (key rest)
  := by
  have hne : keyText ≠ [] := by decide
  have hcr : 0x0D ∉ keyText := by decide
  have hlf : 0x0A ∉ keyText := by decide
  have hkey : ∀ bs, key bs = (Bytes.behind keyText bs).bind fun p =>
      (Bytes.find crlf (skipSpaces p)).map Prod.fst := by
    intro bs
    unfold key Bytes.behind
    rw [Option.bind_map]
    rfl
  have hsearch : Bytes.behind keyText (line ++ crlf ++ rest)
      = ((Bytes.behind keyText line).map (· ++ (crlf ++ rest))).or (Bytes.behind keyText rest) := by
    have hsplit : line ++ crlf ++ rest = line ++ 0x0D :: ([] ++ 0x0A :: rest) := by
      simp [crlf]
    rw [hsplit, Bytes.behind_append_cons hne hcr, Bytes.behind_append_cons hne hlf,
      Bytes.behind_nil hne]
    rfl
  rw [hkey, hkey, hsearch]
  cases hbehind : Bytes.behind keyText line with
  | none => simp
  | some p =>
      have hp : 0x0D ∉ skipSpaces p := by
        obtain ⟨q, hq, rfl⟩ := Option.map_eq_some_iff.mp hbehind
        intro hmem
        apply hline
        rw [Bytes.eq_of_find hq]
        have := (List.dropWhile_suffix _).subset hmem
        simp [this]
      have hskip : skipSpaces (p ++ (crlf ++ rest)) = skipSpaces p ++ (crlf ++ rest) := by
        have hspace : (fun b : UInt8 => decide (b = 0x20)) 0x0D = false := by decide
        apply dropWhile_append_cons hspace
      have hfind := Bytes.find_of_notMem (t := [0x0A]) hp rest
      rw [Option.map_some, Option.some_or, Option.bind_some, Option.map_some, Option.some_or,
        hskip, crlf, hfind]
      rfl

theorem notMem_line (f : Field) :
  0x0D ∉ f.name ++ 0x3A :: f.value
  := by
  have hname :=
    WebSocket.notMem_of_all f.name_token (by decide : WebSocket.isTokenChar 0x0D = false)
  have hvalue := WebSocket.notMem_of_all f.value_text
    (by decide : WebSocket.isValueChar 0x0D = false)
  simp [hname, hvalue]

theorem key_fields (fields : List Field) :
  key (fields.flatMap Field.bytes ++ crlf)
    = (fields.findSome? (Field.behindText keyName)).map skipSpaces
  := by
  induction fields with
  | nil => decide
  | cons f fields ih =>
      have hsplit : (f :: fields).flatMap Field.bytes ++ crlf
          = (f.name ++ 0x3A :: f.value) ++ crlf ++ (fields.flatMap Field.bytes ++ crlf) := by
        simp [Field.bytes]
      rw [hsplit, key_line (notMem_line f), ih, keyText_eq, f.behind_line keyName_token,
        List.findSome?_cons]
      cases f.behindText keyName <;> rfl

/-- The key that is found in a request, in the grammar's terms. -/
theorem key_bytes (r : RequestHead) :
  key r.bytes = (r.behindText keyName).map skipSpaces
  := by
  have hline : 0x0D ∉ r.requestLine := by
    have hmethod := WebSocket.notMem_of_all r.method_token
      (by decide : WebSocket.isTokenChar 0x0D = false)
    have htarget := WebSocket.notMem_of_all r.target_text
      (by decide : WebSocket.isTargetChar 0x0D = false)
    have hversion : 0x0D ∉ Bytes.ofAscii "HTTP/1.1" := by decide
    simp [RequestHead.requestLine, hmethod, htarget, hversion]
  rw [RequestHead.bytes, key_line hline, key_fields, keyText_eq, r.behind_line keyName_token,
    ← Option.map_or]
  rfl

/-! ### The answer -/

/-- The name of the field is that of the key header, in any case. -/
def IsKey (f : Field) : Prop :=
  f.hasName "sec-websocket-key" = true

/-- Two keys have the same answer. -/
def SameDigest (k k' : Bytes) : Prop :=
  Digest.sha1 (k ++ Bytes.ofAscii "258EAFA5-E914-47DA-95CA-C5AB0DC85B11")
    = Digest.sha1 (k' ++ Bytes.ofAscii "258EAFA5-E914-47DA-95CA-C5AB0DC85B11")

theorem base64Encode_inj {a b : Bytes} :
  Digest.base64Encode a = Digest.base64Encode b ↔ a = b
  := by
  constructor
  · intro h
    rw [← Base64.encode_eq, ← Base64.encode_eq] at h
    have hdecode := congrArg Base64.decode h
    rw [Base64.decode_encode, Base64.decode_encode] at hdecode
    exact Option.some.inj hdecode
  · intro h
    rw [h]

theorem response_inj {k k' : Bytes} :
  response k = response k' ↔ SameDigest k k'
  := by
  unfold response
  rw [List.append_cancel_right_eq, List.append_cancel_right_eq, List.append_cancel_left_eq]
  apply base64Encode_inj

theorem length_response (k : Bytes) :
  (response k).length = 129
  := by
  have hdigest : ∀ data, (Digest.sha1 data).length = 20 := by
    intro data
    simp [Digest.sha1]
  have haccept : (acceptText k).length = 28 := by
    rw [acceptText, ← Base64.encode_eq, Base64.length_encode, hdigest]
  simp only [response, List.length_append, haccept]
  decide

/-- The request in one piece. -/
theorem whole {r : RequestHead} (hlen : r.bytes.length ≤ 4095) :
  Cutting 4095 r.bytes [r.bytes]
  := by
  apply Cutting.singleton _ hlen
  simp [RequestHead.bytes, crlf]

/-- A request in one piece is answered with the key that is found, when `::send` sends all of
the response. -/
theorem handshake_one {r : RequestHead} (hlen : r.bytes.length ≤ 4095) :
  handshake (fun bs => bs.length) (delivering (whole hlen))
    = match r.behindText keyName with
      | none => (false, none)
      | some text => (true, some (response (skipSpaces text)))
  := by
  have hne := (whole hlen).nonempty r.bytes (List.mem_singleton_self _)
  rw [handshake, recv_delivering (whole hlen), if_neg hne, key_bytes]
  cases r.behindText keyName with
  | none => rfl
  | some text =>
      have hsent := Machine.wrapInt32_of_lt (by rw [length_response]; decide :
        (response (skipSpaces text)).length < 2 ^ 31)
      simp [hsent]

/-- The handshake answers as the grammar says: with the value of the key header, when there is
one, and not at all when there is none. -/
def AnswersHeader (r : RequestHead) (answer : Bool × Option Bytes) : Prop :=
  (∃ f ∈ r.fields, IsKey f ∧ answer = (true, some (response (WebSocket.trim f.value))))
    ∨ (∀ f ∈ r.fields, ¬ IsKey f) ∧ answer = (false, none)

/-- The first occurrence of the name, as the server spells it, is in front of the value of the
key header, or of a text with the same answer; or neither the name nor the header is there. -/
def FindsHeader (r : RequestHead) : Prop :=
  match r.behindText keyName with
  | none => ∀ f ∈ r.fields, ¬ IsKey f
  | some text => ∃ f ∈ r.fields, IsKey f ∧ SameDigest (skipSpaces text) (WebSocket.trim f.value)

theorem handshake_answersHeader_iff (r : RequestHead) (hlen : r.bytes.length ≤ 4095) :
  AnswersHeader r (handshake (fun bs => bs.length) (delivering (whole hlen))) ↔ FindsHeader r
  := by
  rw [handshake_one hlen]
  unfold AnswersHeader FindsHeader
  cases hbehind : r.behindText keyName with
  | none => simp
  | some text => simp [response_inj]

theorem handshake_answersHeader_upgrade :
  ∃ hlen : upgrade.head.bytes.length ≤ 4095,
    AnswersHeader upgrade.head
      (handshake (fun bs => bs.length) (delivering (whole hlen)))
  := by
  have hlen : upgrade.head.bytes.length ≤ 4095 := by decide +kernel
  have hbehind : upgrade.head.behindText keyName
      = some (Bytes.ofAscii " dGhlIHNhbXBsZSBub25jZQ==") := by decide +kernel
  have hfinds : FindsHeader upgrade.head := by
    unfold FindsHeader
    rw [hbehind]
    use Field.ofAscii "Sec-WebSocket-Key" " dGhlIHNhbXBsZSBub25jZQ=="
    use by simp [upgrade, WebSocket.UpgradeRequest.head]
    constructor
    · unfold IsKey
      decide +kernel
    · have htrim : skipSpaces (Bytes.ofAscii " dGhlIHNhbXBsZSBub25jZQ==")
          = WebSocket.trim (Bytes.ofAscii " dGhlIHNhbXBsZSBub25jZQ==") := by decide +kernel
      rw [SameDigest, htrim]
      rfl
  use hlen
  exact (handshake_answersHeader_iff upgrade.head hlen).mpr hfinds

/-- A request that has the header in lower case is refused. -/
theorem not_answersHeader_upgradeLower :
  ∃ hlen : upgradeLower.head.bytes.length ≤ 4095,
    ¬ AnswersHeader upgradeLower.head
      (handshake (fun bs => bs.length) (delivering (whole hlen)))
  := by
  have hlen : upgradeLower.head.bytes.length ≤ 4095 := by decide +kernel
  have hbehind : upgradeLower.head.behindText keyName = none := by decide +kernel
  use hlen
  rw [handshake_one hlen, hbehind]
  rintro (⟨f, -, -, hanswer⟩ | ⟨hnone, -⟩)
  · cases hanswer
  · apply hnone (Field.ofAscii "sec-websocket-key" " dGhlIHNhbXBsZSBub25jZQ==")
    · simp [upgradeLower, WebSocket.UpgradeRequest.head]
    · unfold IsKey
      decide +kernel

end WsServer

end NexusMainframe
