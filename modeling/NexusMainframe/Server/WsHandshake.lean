import NexusMainframe.Lib.Machine
import NexusMainframe.Lib.Search
import NexusMainframe.Lib.Stream
import NexusMainframe.Lib.UpgradeRequest

/-!
# The WebSocket handshake

`handshake` takes what one call of `recv` returns for the whole request. It looks for the key
in it and answers when it finds one with the end of its line. So a request that would be
answered in one piece is refused when its first piece ends in front of that.
-/

namespace NexusMainframe

namespace WsServer

open Stream (Cutting Socket)
open WebSocket (Field UpgradeRequest crlf)

/-- The name of the header, as the server looks for it. -/
def keyText : Bytes :=
  Bytes.ofAscii "Sec-WebSocket-Key:"

/-- The key in a request. -/
def key (req : Bytes) : Option Bytes :=
  (Bytes.find keyText req).bind fun p =>
    (Bytes.find crlf (p.2.dropWhile fun b => b = 0x20)).map Prod.fst

/-- The text in the response that proves the key was read. -/
def acceptText (key : Bytes) : Bytes :=
  Digest.base64Encode
    (Digest.sha1 (key ++ Bytes.ofAscii "258EAFA5-E914-47DA-95CA-C5AB0DC85B11"))

/-- The response of `handshake`. -/
def response (key : Bytes) : Bytes :=
  Bytes.ofAscii "HTTP/1.1 101 Switching Protocols" ++ crlf
    ++ Bytes.ofAscii "Upgrade: websocket" ++ crlf
    ++ Bytes.ofAscii "Connection: Upgrade" ++ crlf
    ++ Bytes.ofAscii "Sec-WebSocket-Accept: " ++ acceptText key ++ crlf
    ++ crlf

/-- The result of `handshake` and the response that it sends, if it sends one, where `send`
tells what `::send` returns for some bytes. -/
def handshake (send : Bytes → Int) (s : Socket) : Bool × Option Bytes :=
  let req := (s.recv 4095).1
  if req = [] then (false, none)
  else
    match key req with
    | none => (false, none)
    | some k => (send (response k) = Machine.wrapInt32 (response k).length, some (response k))

/-! ### Requests that are answered -/

/-- The name of the key header stands in the request, and behind it the end of a line. -/
def Answerable (req : Bytes) : Prop :=
  ∃ before between behind, req = before ++ keyText ++ between ++ crlf ++ behind

theorem dropWhile_append_cons
    {p : UInt8 → Bool} {b : UInt8} (hb : p b = false) (xs ys : Bytes) :
  (xs ++ b :: ys).dropWhile p = xs.dropWhile p ++ b :: ys
  := by
  induction xs with
  | nil => simp [hb]
  | cons x xs ih =>
      rw [List.cons_append, List.dropWhile_cons, List.dropWhile_cons, ih]
      split <;> rfl

/-- The first name and the first end of a line behind it are found, whatever stands between. -/
theorem key_isSome_iff {req : Bytes} :
  (key req).isSome ↔ Answerable req
  := by
  constructor
  · intro h
    obtain ⟨k, hk⟩ := Option.isSome_iff_exists.mp h
    obtain ⟨p, hp, hmap⟩ := Option.bind_eq_some_iff.mp hk
    obtain ⟨q, hq, -⟩ := Option.map_eq_some_iff.mp hmap
    have hline := Bytes.eq_of_find hq
    have hreq := Bytes.eq_of_find hp
    have hsplit : p.2 = p.2.takeWhile (fun b => b = 0x20) ++ (q.1 ++ crlf ++ q.2) := by
      rw [← hline, List.takeWhile_append_dropWhile]
    use p.1, p.2.takeWhile (fun b => b = 0x20) ++ q.1, q.2
    calc req = p.1 ++ keyText ++ p.2 := hreq
      _ = p.1 ++ keyText ++ (p.2.takeWhile (fun b => b = 0x20) ++ (q.1 ++ crlf ++ q.2)) :=
        congrArg _ hsplit
      _ = _ := by simp
  · rintro ⟨before, between, behind, rfl⟩
    obtain ⟨p, hp, rest, hrest⟩ :=
      Bytes.exists_find_of_append keyText before (between ++ crlf ++ behind)
    have hdrop : p.2.dropWhile (fun b => b = 0x20)
        = (rest ++ between).dropWhile (fun b => b = 0x20) ++ crlf ++ behind := by
      have hspace : (fun b : UInt8 => decide (b = 0x20)) 0x0D = false := by decide
      have heq : p.2 = (rest ++ between) ++ 0x0D :: (0x0A :: behind) := by
        rw [← hrest]
        simp [crlf]
      rw [heq, dropWhile_append_cons hspace]
      simp [crlf]
    obtain ⟨q, hq, -⟩ := Bytes.exists_find_of_append crlf
      ((rest ++ between).dropWhile fun b => b = 0x20) behind
    have hreq : before ++ keyText ++ between ++ crlf ++ behind
        = before ++ keyText ++ (between ++ crlf ++ behind) := by
      simp
    rw [hreq, key, hp, Option.bind_some, hdrop, hq]
    rfl

theorem Answerable.of_prefix
    {req req' : Bytes} (h : Answerable req) (hfront : req <+: req') :
  Answerable req'
  := by
  obtain ⟨before, between, behind, rfl⟩ := h
  obtain ⟨rest, rfl⟩ := hfront
  use before, between, behind ++ rest
  simp

theorem not_answerable_singleton (b : UInt8) :
  ¬ Answerable [b]
  := by
  rintro ⟨before, between, behind, heq⟩
  have hlen := congrArg List.length heq
  have htext : keyText.length = 18 := rfl
  simp only [List.length_append, htext, List.length_singleton] at hlen
  omega

/-! ### Cutting a request -/

/-- The socket that delivers some chunks. -/
def delivering {limit : Nat} {bs : Bytes} {chunks : List Bytes}
    (h : Cutting limit bs chunks) : Socket :=
  ⟨chunks, h.nonempty⟩

/-- However `recv` cuts the request, the handshake has the same result and response. -/
def CutIndependent (send : Bytes → Int) (req : Bytes) : Prop :=
  ∀ chunks chunks' (h : Cutting 4095 req chunks) (h' : Cutting 4095 req chunks'),
    handshake send (delivering h) = handshake send (delivering h')

section

variable {send : Bytes → Int} {req : Bytes}

/-- The handshake sees the first chunk. -/
theorem recv_delivering
    {chunk : Bytes} {chunks : List Bytes} (h : Cutting 4095 req (chunk :: chunks)) :
  ((delivering h).recv 4095).1 = chunk
  := by
  have hle := h.bounded chunk List.mem_cons_self
  have hmax : min 4095 Socket.maxCount = 4095 := rfl
  rw [delivering, Socket.recv, dif_neg (by omega)]

theorem handshake_of_not_answerable_head
    {chunk : Bytes} {chunks : List Bytes} (hchunk : ¬ Answerable chunk)
    (h : Cutting 4095 req (chunk :: chunks)) :
  handshake send (delivering h) = (false, none)
  := by
  have hnone : key chunk = none := by
    rw [← Option.not_isSome_iff_eq_none, key_isSome_iff]
    exact hchunk
  rw [handshake, recv_delivering h, hnone, ite_self]

/-- No piece of a request that is not answerable is answered. -/
theorem handshake_of_not_answerable
    (hreq : ¬ Answerable req) {chunks : List Bytes} (h : Cutting 4095 req chunks) :
  handshake send (delivering h) = (false, none)
  := by
  cases chunks with
  | nil => rfl
  | cons chunk chunks =>
      apply handshake_of_not_answerable_head
      intro hchunk
      apply hreq (hchunk.of_prefix _)
      rw [← h.flatten]
      apply List.prefix_append

/-- A request that is answerable is answered when it comes in one piece. -/
theorem handshake_whole
    (hreq : Answerable req) (h : Cutting 4095 req [req]) :
  (handshake send (delivering h)).2 ≠ none
  := by
  obtain ⟨k, hk⟩ := Option.isSome_iff_exists.mp (key_isSome_iff.mpr hreq)
  have hne := h.nonempty req (List.mem_singleton_self req)
  rw [handshake, recv_delivering h, if_neg hne, hk]
  simp

theorem ne_nil_of_answerable (h : Answerable req) :
  req ≠ []
  := by
  obtain ⟨before, between, behind, rfl⟩ := h
  simp [keyText, Bytes.ofAscii]

variable (send)

/-- The cutting matters just for the requests that are answerable. -/
theorem cutIndependent_iff_not_answerable (hlen : req.length ≤ 4095) :
  CutIndependent send req ↔ ¬ Answerable req
  := by
  constructor
  · intro hsame hreq
    obtain ⟨b, bs, rfl⟩ := List.exists_cons_of_ne_nil (ne_nil_of_answerable hreq)
    have hwhole : Cutting 4095 (b :: bs) [b :: bs] :=
      Cutting.singleton (List.cons_ne_nil b bs) hlen
    have hbytes : Cutting 4095 (b :: bs) ([b] :: bs.map fun b => [b]) :=
      Cutting.bytewise (by decide) (b :: bs)
    have hanswered : (handshake send (delivering hwhole)).2 ≠ none :=
      handshake_whole hreq hwhole
    apply hanswered
    rw [hsame _ _ hwhole hbytes,
      handshake_of_not_answerable_head (not_answerable_singleton b) hbytes]
  · intro hreq chunks chunks' h h'
    rw [handshake_of_not_answerable hreq h, handshake_of_not_answerable hreq h']

/-! ### Upgrade requests -/

/-- The name has no end of a line in it. So none can begin in it. -/
theorem crlf_suffix_of_append
    {before rest : Bytes} (h : crlf <:+ before ++ keyText ++ rest) :
  crlf <:+ rest
  := by
  obtain ⟨front, hfront⟩ := h
  have hreverse := congrArg List.reverse hfront
  match rest with
  | [] => simp [keyText, crlf, Bytes.ofAscii] at hreverse
  | [_] => simp [keyText, crlf, Bytes.ofAscii] at hreverse
  | _ :: _ :: _ =>
      apply List.suffix_of_suffix_length_le ⟨front, hfront⟩ (List.suffix_append _ _)
      simp [crlf]

/-- A request ends with the end of a line, which is behind the name. -/
theorem answerable_iff_infix (r : UpgradeRequest) :
  Answerable r.bytes ↔ keyText <:+: r.bytes
  := by
  constructor
  · rintro ⟨before, between, behind, heq⟩
    use before, between ++ crlf ++ behind
    rw [heq]
    simp
  · rintro ⟨before, rest, heq⟩
    have hrest : crlf <:+ rest := by
      apply crlf_suffix_of_append
      rw [heq]
      apply r.crlf_suffix
    obtain ⟨between, rfl⟩ := hrest
    use before, between, []
    rw [← heq]
    simp

/-- **However a request for an upgrade is cut, it has the same answer just when the name of
the key header does not stand in it as the server spells it.** Such a request is refused. -/
theorem handshake_cutIndependent_iff
    (r : UpgradeRequest) (hlen : r.bytes.length ≤ 4095) :
  CutIndependent send r.bytes ↔ ¬ keyText <:+: r.bytes
  := by
  rw [cutIndependent_iff_not_answerable send hlen, answerable_iff_infix]

end

/-! ### Two requests -/

/-- A request with the key of the protocol's own example. -/
def upgrade : UpgradeRequest where
  target := Bytes.ofAscii "/"
  fields :=
    [Field.ofAscii "Host" " nexus",
      Field.ofAscii "Upgrade" " websocket",
      Field.ofAscii "Connection" " Upgrade",
      Field.ofAscii "Sec-WebSocket-Key" " dGhlIHNhbXBsZSBub25jZQ==",
      Field.ofAscii "Sec-WebSocket-Version" " 13"]
  target_ne_nil := by decide
  target_text := by decide
  host := ⟨_, rfl⟩
  upgrade := ⟨Field.ofAscii "Upgrade" " websocket", by simp, by decide, by decide⟩
  connection := ⟨Field.ofAscii "Connection" " Upgrade", by simp, by decide, by decide⟩
  version := ⟨_, rfl, by decide⟩
  key := ⟨_, rfl, Bytes.ofAscii "the sample nonce", by decide, by decide⟩

/-- The same request from a client that writes the names in lower case. -/
def upgradeLower : UpgradeRequest where
  target := Bytes.ofAscii "/"
  fields :=
    [Field.ofAscii "host" " nexus",
      Field.ofAscii "upgrade" " websocket",
      Field.ofAscii "connection" " Upgrade",
      Field.ofAscii "sec-websocket-key" " dGhlIHNhbXBsZSBub25jZQ==",
      Field.ofAscii "sec-websocket-version" " 13"]
  target_ne_nil := by decide
  target_text := by decide
  host := ⟨_, rfl⟩
  upgrade := ⟨Field.ofAscii "upgrade" " websocket", by simp, by decide, by decide⟩
  connection := ⟨Field.ofAscii "connection" " Upgrade", by simp, by decide, by decide⟩
  version := ⟨_, rfl, by decide⟩
  key := ⟨_, rfl, Bytes.ofAscii "the sample nonce", by decide, by decide⟩

theorem not_cutIndependent_upgrade :
  upgrade.bytes.length ≤ 4095 ∧ ¬ CutIndependent (fun bs => bs.length) upgrade.bytes
  := by
  have hlen : upgrade.bytes.length ≤ 4095 := by decide +kernel
  use hlen
  rw [cutIndependent_iff_not_answerable _ hlen, not_not, answerable_iff_infix]
  decide +kernel

theorem handshake_cutIndependent_iff_upgradeLower :
  upgradeLower.bytes.length ≤ 4095
    ∧ (CutIndependent (fun bs => bs.length) upgradeLower.bytes
      ↔ ¬ keyText <:+: upgradeLower.bytes)
    ∧ ¬ keyText <:+: upgradeLower.bytes
  := by
  have hlen : upgradeLower.bytes.length ≤ 4095 := by decide +kernel
  exact ⟨hlen, handshake_cutIndependent_iff _ upgradeLower hlen, by decide +kernel⟩

end WsServer

end NexusMainframe
