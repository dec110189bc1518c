import ScriptedMaze.Text.Surrogate

/-!
# Encodings

A text comes as bytes, and the bytes do not say how they are to be read. They may
begin with a byte order mark, which is not part of the text and tells the encoding
(`Encoding.ofMark?`). Without one, a text that begins with two ASCII characters
shows it all the same: where a character takes two or four bytes, all but one of
them are zero, and which ones they are tells the width and the order
(`Encoding.ofZeros`).

`Text.decode` gives the letters of a text. Half of a surrogate pair may stand by
itself in any encoding. UTF-8 has no place for one, but three bytes that would spell
it are taken for it (`halfOfBytes?`).
-/

namespace ScriptedMaze.Text

/-- Which byte of a number comes first. -/
inductive ByteOrder where
  | bigFirst
  | littleFirst
deriving DecidableEq, Repr

/-- The ways to read bytes as text. -/
inductive Encoding where
  | utf8
  | utf16 (order : ByteOrder)
  | utf32 (order : ByteOrder)
deriving DecidableEq, Repr

namespace ByteOrder

/-- The number that bytes hold. -/
def value : ByteOrder → List UInt8 → Nat
  | bigFirst, bytes => bytes.foldl (fun n b => 256 * n + b.toNat) 0
  | littleFirst, bytes => bytes.foldr (fun b n => 256 * n + b.toNat) 0

/-- The numbers of two bytes each, if none is left over. -/
def pairs (o : ByteOrder) : List UInt8 → Option (List Nat)
  | [] => some []
  | a :: b :: r => (o.pairs r).map (o.value [a, b] :: ·)
  | [_] => none

/-- The numbers of four bytes each, if none is left over. -/
def quadruples (o : ByteOrder) : List UInt8 → Option (List Nat)
  | [] => some []
  | a :: b :: c :: d :: r => (o.quadruples r).map (o.value [a, b, c, d] :: ·)
  | _ => none

end ByteOrder

namespace Encoding

/-- The encoding that a byte order mark shows, and the bytes after the mark. -/
def ofMark? : List UInt8 → Option (Encoding × List UInt8)
  | 0xFF :: 0xFE :: 0 :: 0 :: r => some (.utf32 .littleFirst, r)
  | 0 :: 0 :: 0xFE :: 0xFF :: r => some (.utf32 .bigFirst, r)
  | 0xFF :: 0xFE :: r => some (.utf16 .littleFirst, r)
  | 0xFE :: 0xFF :: r => some (.utf16 .bigFirst, r)
  | 0xEF :: 0xBB :: 0xBF :: r => some (.utf8, r)
  | _ => none

/-- The encoding of a text, by the zeros among its first four bytes, or among its
two bytes if there are no more. -/
def ofZeros : List UInt8 → Encoding
  | 0 :: 0 :: _ :: _ :: _ => .utf32 .bigFirst
  | 0 :: _ :: _ :: _ :: _ => .utf16 .bigFirst
  | _ :: 0 :: 0 :: 0 :: _ => .utf32 .littleFirst
  | _ :: 0 :: _ :: _ :: _ => .utf16 .littleFirst
  | [0, _] => .utf16 .bigFirst
  | [_, 0] => .utf16 .littleFirst
  | _ => .utf8

/-- The encoding that bytes show, and the bytes of the text itself. -/
def ofBytes (bytes : List UInt8) : Encoding × List UInt8 :=
  (ofMark? bytes).getD (ofZeros bytes, bytes)

end Encoding

/-- The half of a pair that three bytes would be in UTF-8, by its code point. -/
def halfOfBytes? (a b c : UInt8) : Option Nat :=
  if a = 0xED ∧ 0xA0 ≤ b ∧ b ≤ 0xBF ∧ 0x80 ≤ c ∧ c ≤ 0xBF then
    some (0xD000 + 64 * (b.toNat - 0x80) + (c.toNat - 0x80))
  else none

/-- The letters of bytes in UTF-8; `seen` are the bytes since the last half, the
latest first. -/
def utf8Letters (seen : List UInt8) : List UInt8 → Option (List Letter)
  | a :: b :: c :: r =>
    match halfOfBytes? a b c with
    | some n => do
      let front ← String.fromUTF8? ⟨seen.reverse.toArray⟩
      return letters front ++ .half n :: (← utf8Letters [] r)
    | none => utf8Letters (a :: seen) (b :: c :: r)
  | last => (String.fromUTF8? ⟨(seen.reverse ++ last).toArray⟩).map letters

/-- The letters of a text, if the bytes are one. -/
def decode (bytes : ByteArray) : Option (List Letter) :=
  match Encoding.ofBytes bytes.toList with
  | (.utf8, bytes) => utf8Letters [] bytes
  | (.utf16 order, bytes) =>
    (order.pairs bytes).map fun units => (joinUnits units).map .ofCode
  | (.utf32 order, bytes) =>
    ((order.quadruples bytes).filter fun codes => codes.all (· < 0x110000)).map
      fun codes => codes.map .ofCode

end ScriptedMaze.Text
