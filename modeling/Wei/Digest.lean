/-!
The digest of a text: FNV-1a over the bytes of its UTF-8 form, in 64 bits.
-/

namespace Wei.Digest

/-- The digest of no bytes. -/
def offsetBasis : UInt64 := 0xcbf29ce484222325

/-- What the digest is multiplied with after each byte. -/
def prime : UInt64 := 0x100000001b3

/-- Takes one byte into a digest. -/
def step (digest : UInt64) (byte : UInt8) : UInt64 := (digest ^^^ byte.toUInt64) * prime

/-- The digest of a sequence of bytes. -/
def ofBytes (bytes : List UInt8) : UInt64 := bytes.foldl step offsetBasis

/-- The digest of a text. -/
def ofText (s : String) : UInt64 := ofBytes s.toUTF8.toList

end Wei.Digest
