import NexusMainframe.Lib.Bytes
import Mathlib.Data.UInt

/-!
# SHA-1 and Base64

The SHA-1 digest of a byte string, over 32-bit words, and the Base64 form of a byte string.
-/

namespace Digest

/-! ### SHA-1 -/

/-- A word rotated to the left. -/
def rotl (v n : UInt32) : UInt32 :=
  (v <<< n) ||| (v >>> (32 - n))

/-- The five words of a digest. -/
structure Words where
  a : UInt32
  b : UInt32
  c : UInt32
  d : UInt32
  e : UInt32

/-- The words at the start. -/
def Words.init : Words where
  a := 0x67452301
  b := 0xEFCDAB89
  c := 0x98BADCFE
  d := 0x10325476
  e := 0xC3D2E1F0

/-- The data with a one bit, zeros, and its length in bits behind it, up to a multiple of 64
bytes. -/
def pad (data : Bytes) : Bytes :=
  data ++ [0x80] ++ List.replicate ((119 - data.length % 64) % 64) 0
    ++ Bytes.bigEndian 8 (data.length * 8)

/-- The word in the four bytes from an index on. -/
def wordAt (m : Bytes) (i : Nat) : UInt32 :=
  ((m.getD i 0).toUInt32 <<< 24) ||| ((m.getD (i + 1) 0).toUInt32 <<< 16)
    ||| ((m.getD (i + 2) 0).toUInt32 <<< 8) ||| (m.getD (i + 3) 0).toUInt32

/-- The 80 words of a block: 16 of the block itself, and each of the others from four before
it. -/
def schedule (block : Bytes) : List UInt32 :=
  (List.range 64).foldl
    (fun w j => w ++ [rotl (w.getD (j + 13) 0 ^^^ w.getD (j + 8) 0 ^^^ w.getD (j + 2) 0
      ^^^ w.getD j 0) 1])
    ((List.range 16).map fun j => wordAt block (j * 4))

/-- One round, with the word of it. -/
def round (h : Words) (j : Nat) (w : UInt32) : Words :=
  let (f, k) : UInt32 × UInt32 :=
    if j < 20 then ((h.b &&& h.c) ||| (~~~h.b &&& h.d), 0x5A827999)
    else if j < 40 then (h.b ^^^ h.c ^^^ h.d, 0x6ED9EBA1)
    else if j < 60 then ((h.b &&& h.c) ||| (h.b &&& h.d) ||| (h.c &&& h.d), 0x8F1BBCDC)
    else (h.b ^^^ h.c ^^^ h.d, 0xCA62C1D6)
  ⟨rotl h.a 5 + f + h.e + k + w, h.a, rotl h.b 30, h.c, h.d⟩

/-- The words after a block. -/
def addBlock (h : Words) (block : Bytes) : Words :=
  let h' := (schedule block).zipIdx.foldl (fun h p => round h p.2 p.1) h
  ⟨h.a + h'.a, h.b + h'.b, h.c + h'.c, h.d + h'.d, h.e + h'.e⟩

/-- The digest of a byte string, of 20 bytes. -/
def sha1 (data : Bytes) : Bytes :=
  let m := pad data
  let h := (List.range (m.length / 64)).foldl
    (fun h i => addBlock h ((m.drop (i * 64)).take 64)) Words.init
  [h.a, h.b, h.c, h.d, h.e].flatMap fun w => Bytes.bigEndian 4 w.toNat

/-! ### Base64 -/

/-- The character of six bits of a number, from a bit on. -/
def base64Char (v shift : UInt32) : UInt8 :=
  (Bytes.ofAscii
    "ABCDEFGHIJKLMNOPQRSTUVWXYZabcdefghijklmnopqrstuvwxyz0123456789+/").getD
    ((v >>> shift) &&& 63).toNat 0

/-- Three bytes make four characters; behind the last `=` stands for those that are missing. -/
def base64Encode : Bytes → Bytes
  | [] => []
  | [a] =>
      let v := a.toUInt32 <<< 16
      [base64Char v 18, base64Char v 12, 0x3D, 0x3D]
  | [a, b] =>
      let v := (a.toUInt32 <<< 16) ||| (b.toUInt32 <<< 8)
      [base64Char v 18, base64Char v 12, base64Char v 6, 0x3D]
  | a :: b :: c :: rest =>
      let v := (a.toUInt32 <<< 16) ||| (b.toUInt32 <<< 8) ||| c.toUInt32
      [base64Char v 18, base64Char v 12, base64Char v 6, base64Char v 0] ++ base64Encode rest

/-- The answer to the key of the protocol's own example. -/
example :
  base64Encode (sha1 (Bytes.ofAscii
    "dGhlIHNhbXBsZSBub25jZQ==258EAFA5-E914-47DA-95CA-C5AB0DC85B11"))
    = Bytes.ofAscii "s3pPLMBiTxaQ9kYGzzhZRbK+xOo="
  := by decide +kernel

end Digest
