import NexusMainframe.Lib.Search
import NexusMainframe.Lib.UpgradeRequest

/-!
# Heads of requests

The head of an HTTP request: a request line, header fields, and an empty line. A text that ends
in a colon can stand in it in the target, at the end of a name in front of its colon, or in a
value, and nowhere else.
-/

namespace WebSocket

open Bytes (behind)

/-- A request line and fields, each of the characters that it may have. -/
structure RequestHead where
  method : Bytes
  target : Bytes
  fields : List Field
  method_ne_nil : method ≠ []
  target_ne_nil : target ≠ []
  method_token : method.all isTokenChar = true
  target_text : target.all isTargetChar = true

namespace RequestHead

/-- The first line, without its end. -/
def requestLine (r : RequestHead) : Bytes :=
  r.method ++ 0x20 :: (r.target ++ 0x20 :: Bytes.ofAscii "HTTP/1.1")

/-- The head as it is sent, up to the empty line. -/
def bytes (r : RequestHead) : Bytes :=
  r.requestLine ++ crlf ++ (r.fields.flatMap Field.bytes ++ crlf)

end RequestHead

/-- The head of a request for an upgrade. -/
def UpgradeRequest.head (r : UpgradeRequest) : RequestHead where
  method := Bytes.ofAscii "GET"
  target := r.target
  fields := r.fields
  method_ne_nil := by decide
  target_ne_nil := r.target_ne_nil
  method_token := by decide
  target_text := r.target_text

/-! ### Searching a head -/

/-- What stands behind the first occurrence of a text and a colon in a field, with the text at
the end of its name or with both in its value. -/
def Field.behindText (text : Bytes) (f : Field) : Option Bytes :=
  if text <:+ f.name then some f.value else behind (text ++ [0x3A]) f.value

/-- What stands behind the first occurrence of a text and a colon in a head, in its line. -/
def RequestHead.behindText (text : Bytes) (r : RequestHead) : Option Bytes :=
  ((behind (text ++ [0x3A]) r.target).map (· ++ 0x20 :: Bytes.ofAscii "HTTP/1.1")).or
    (r.fields.findSome? (Field.behindText text))

theorem notMem_of_all {p : UInt8 → Bool} {bs : Bytes} (h : bs.all p = true) {b : UInt8}
    (hb : p b = false) :
  b ∉ bs
  := by
  intro hmem
  have := List.all_eq_true.mp h b hmem
  rw [hb] at this
  cases this

section

variable {text : Bytes} (htext : text.all isTokenChar = true)

include htext

theorem notMem_text {b : UInt8} (hb : isTokenChar b = false) (hcolon : b ≠ 0x3A) :
  b ∉ text ++ [0x3A]
  := by
  simp [notMem_of_all htext hb, hcolon]

theorem Field.behind_line (f : Field) :
  behind (text ++ [0x3A]) (f.name ++ 0x3A :: f.value) = f.behindText text
  := by
  have hcolon : isTokenChar 0x3A = false := by decide
  apply Bytes.behind_concat (notMem_of_all htext hcolon) (notMem_of_all f.name_token hcolon)

theorem RequestHead.behind_line (r : RequestHead) :
  behind (text ++ [0x3A]) r.requestLine
    = (behind (text ++ [0x3A]) r.target).map (· ++ 0x20 :: Bytes.ofAscii "HTTP/1.1")
  := by
  have hne : text ++ [0x3A] ≠ [] := by simp
  have hspace := notMem_text htext (b := 0x20) (by decide) (by decide)
  have hcolon : (0x3A : UInt8) ∈ text ++ [0x3A] := by simp
  have hmethod := Bytes.behind_eq_none_of_notMem hcolon
    (notMem_of_all r.method_token (by decide : isTokenChar 0x3A = false))
  have hversion := Bytes.behind_eq_none_of_notMem hcolon
    (by decide : 0x3A ∉ Bytes.ofAscii "HTTP/1.1")
  rw [requestLine, Bytes.behind_append_cons hne hspace, Bytes.behind_append_cons hne hspace,
    hmethod, hversion]
  simp

end

end WebSocket
