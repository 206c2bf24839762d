/-!
# Code points of a byte string

Text is read in byte groups. A byte below `0x80` stands alone; any other byte leads a group of
three, whatever the two bytes after it are, and its low bits and theirs fold into one 16-bit code
point. Two-byte and four-byte sequences are not recognised: their leads take three bytes as well.
When the bytes run out inside a group, the missing ones count as zero.

## Main definitions

* `CodePoints.Group`: one group, with the bytes it was read from.
* `CodePoints.groups`: the groups of a byte string, from left to right.
* `CodePoints.decode`: one code point per group.
-/

namespace BitmapText

namespace CodePoints

/-- A run of bytes that yields one code point. -/
inductive Group where
  /-- A byte below `0x80`. -/
  | single (byte : UInt8)
  /-- A lead byte and the two bytes after it. -/
  | triple (lead second third : UInt8)
  /-- A lead byte at the end of the text, with the one byte that follows it, if any. -/
  | cut (lead : UInt8) (second : Option UInt8)
deriving Repr, DecidableEq

/-- Five bits of the lead and six of each byte after it, cut to 16 bits. -/
def foldBytes (lead second third : UInt8) : Nat :=
  (lead.toNat % 32 * 4096 + second.toNat % 64 * 64 + third.toNat % 64) % 65536

namespace Group

def bytes : Group → List UInt8
  | single b => [b]
  | triple lead second third => [lead, second, third]
  | cut lead second => lead :: second.toList

def codePoint : Group → Nat
  | single b => b.toNat
  | triple lead second third => foldBytes lead second third
  | cut lead second => foldBytes lead (second.getD 0) 0

end Group

def groups : List UInt8 → List Group
  | [] => []
  | lead :: rest =>
    if lead < 0x80 then .single lead :: groups rest
    else match rest with
      | second :: third :: rest => .triple lead second third :: groups rest
      | [second] => [.cut lead (some second)]
      | [] => [.cut lead none]

/-- The code points of a byte string, one for each group. -/
def decode (bytes : List UInt8) : List Nat :=
  (groups bytes).map Group.codePoint

/-- The code points of a text, read from its UTF-8 bytes. -/
def ofText (text : String) : List Nat :=
  decode text.toUTF8.data.toList

end CodePoints

end BitmapText
