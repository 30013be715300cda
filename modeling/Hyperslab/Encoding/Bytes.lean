/-!
# Bytes, and whole numbers in them

Numbers stand with their lowest byte first.  The checksum is the remainder of a text of bits, taken
as a polynomial, by the polynomial of degree 32 that archives use.
-/
namespace Hyperslab
namespace Encoding

abbrev Bytes := List UInt8

/-- The lowest `width` bytes of a number. -/
def little : Nat → Nat → Bytes
  | 0, _ => []
  | width + 1, n => UInt8.ofNat n :: little width (n / 256)

/-- The number that bytes stand for. -/
def ofLittle : Bytes → Nat
  | [] => 0
  | b :: rest => b.toNat + 256 * ofLittle rest

/-- The number in the `width` bytes from a place on. -/
def number (bs : Bytes) (place width : Nat) : Nat := ofLittle ((bs.drop place).take width)

/-- The bytes of a text of characters below 256. -/
def ofChars (cs : List Char) : Bytes := cs.map fun c => UInt8.ofNat c.toNat

def toChars (bs : Bytes) : List Char := bs.map fun b => Char.ofNat b.toNat

/-- Divides a remainder by the polynomial, `count` bits further. -/
def reduce : Nat → Nat → Nat
  | 0, r => r
  | count + 1, r => reduce count (if r % 2 = 1 then (r / 2) ^^^ 0xEDB88320 else r / 2)

/-- The checksum of bytes, with every bit turned before and after. -/
def checksum (bs : Bytes) : Nat :=
  (bs.foldl (fun r b => reduce 8 (r ^^^ b.toNat)) 0xFFFFFFFF) ^^^ 0xFFFFFFFF

end Encoding
end Hyperslab
