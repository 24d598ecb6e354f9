import NexusMainframe.Lib.Digest

/-!
# Upgrade requests

The request that opens a WebSocket connection: an HTTP request line and header fields, each
with the end of its line, and an empty line. The names of the fields and the words in the
values of `Upgrade` and `Connection` are read in either case.
-/

namespace WebSocket

/-- The end of a line. -/
def crlf : Bytes :=
  [0x0D, 0x0A]

/-- The characters of a field name. -/
def isTokenChar (b : UInt8) : Bool :=
  let c := b.toNat
  (0x30 ≤ c && c ≤ 0x39) || (0x41 ≤ c && c ≤ 0x5A) || (0x61 ≤ c && c ≤ 0x7A)
    || c ∈ [0x21, 0x23, 0x24, 0x25, 0x26, 0x27, 0x2A, 0x2B, 0x2D, 0x2E, 0x5E, 0x5F, 0x60, 0x7C,
      0x7E]

/-- The characters of a request target. -/
def isTargetChar (b : UInt8) : Bool :=
  0x21 ≤ b.toNat && b.toNat ≤ 0x7E && b.toNat != 0x23

/-- The characters of a field value: a tab, a space, and what is visible or not ASCII. -/
def isValueChar (b : UInt8) : Bool :=
  b.toNat == 0x09 || (0x20 ≤ b.toNat && b.toNat != 0x7F)

/-- A letter in lower case. -/
def lower (b : UInt8) : UInt8 :=
  if 0x41 ≤ b.toNat && b.toNat ≤ 0x5A then b + 0x20 else b

/-- A space or a tab. -/
def isBlank (b : UInt8) : Bool :=
  b.toNat == 0x20 || b.toNat == 0x09

/-- A text without the blanks around it. -/
def trim (bs : Bytes) : Bytes :=
  ((bs.dropWhile isBlank).reverse.dropWhile isBlank).reverse

/-- A header field, each part of the characters that it may have. -/
structure Field where
  name : Bytes
  value : Bytes
  name_ne_nil : name ≠ []
  name_token : name.all isTokenChar = true
  value_text : value.all isValueChar = true

namespace Field

/-- The line of a field. -/
def bytes (f : Field) : Bytes :=
  f.name ++ [0x3A] ++ f.value ++ crlf

/-- A field with texts of ASCII characters. -/
def ofAscii (name value : String)
    (hne : Bytes.ofAscii name ≠ [] := by decide)
    (hname : (Bytes.ofAscii name).all isTokenChar = true := by decide)
    (hvalue : (Bytes.ofAscii value).all isValueChar = true := by decide) : Field :=
  ⟨Bytes.ofAscii name, Bytes.ofAscii value, hne, hname, hvalue⟩

/-- The name of a field, which is given in lower case here, is read in either case. -/
def hasName (name : String) (f : Field) : Bool :=
  f.name.map lower == Bytes.ofAscii name

/-- The words of a value, with commas between them, in lower case. -/
def words (f : Field) : List Bytes :=
  (f.value.splitOn 0x2C).map fun w => (trim w).map lower

end Field

/-- A request as it may open a connection: one key of sixteen bytes and one version among its
fields, and an upgrade asked for. -/
structure UpgradeRequest where
  target : Bytes
  fields : List Field
  target_ne_nil : target ≠ []
  target_text : target.all isTargetChar = true
  host : ∃ f, fields.filter (Field.hasName "host") = [f]
  upgrade : ∃ f ∈ fields, f.hasName "upgrade" ∧ Bytes.ofAscii "websocket" ∈ f.words
  connection : ∃ f ∈ fields, f.hasName "connection" ∧ Bytes.ofAscii "upgrade" ∈ f.words
  version :
    ∃ f, fields.filter (Field.hasName "sec-websocket-version") = [f]
      ∧ trim f.value = Bytes.ofAscii "13"
  key :
    ∃ f, fields.filter (Field.hasName "sec-websocket-key") = [f]
      ∧ ∃ nonce : Bytes, nonce.length = 16 ∧ trim f.value = Digest.base64Encode nonce

namespace UpgradeRequest

/-- The request as it is sent. -/
def bytes (r : UpgradeRequest) : Bytes :=
  Bytes.ofAscii "GET " ++ r.target ++ Bytes.ofAscii " HTTP/1.1" ++ crlf
    ++ r.fields.flatMap Field.bytes ++ crlf

theorem crlf_suffix (r : UpgradeRequest) :
  crlf <:+ r.bytes
  := by
  apply List.suffix_append

end UpgradeRequest

end WebSocket
