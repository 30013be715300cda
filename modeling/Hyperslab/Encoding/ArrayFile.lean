import Hyperslab.Encoding.Bytes
import Hyperslab.Files
import Hyperslab.ShapeText

/-!
# Array files as bytes

A mark and a version stand before a header, a line of text that names the element type, the order of
the elements and the shape.  The elements follow in the order in which they are stored.
-/
namespace Hyperslab
namespace Encoding

namespace ElementCode

/-- The letter and the number of bytes that an element type is written with. -/
def name : ElementType → String
  | .boolean => "|b1"
  | .signed .w8 => "|i1"
  | .unsigned .w8 => "|u1"
  | .signed w => s!"<i{w.bits / 8}"
  | .unsigned w => s!"<u{w.bits / 8}"
  | .float32 => "<f4"
  | .float64 => "<f8"
  | .other => "|O"

/-- The element type that a name means, apart from the mark for the order of bytes. -/
def ofName? (cs : List Char) : Option ElementType :=
  ElementType.all.find? fun t => t != .other && (name t).toList.drop 1 == cs.drop 1

def bytes (t : ElementType) (code : Int) : Bytes :=
  little t.itemSize (code % (Number.twoTo (8 * t.itemSize) : Int)).toNat

def ofBytes (t : ElementType) (bs : Bytes) : Int := t.wrap (ofLittle bs)

end ElementCode

namespace ArrayFile

/-- The mark at the start, before the two bytes of the version. -/
def mark : Bytes := 0x93 :: ofChars "NUMPY".toList

def headerText (a : StoredArray) : List Char :=
  let l := a.literal
  ("\x7b'descr': '" ++ ElementCode.name l.type ++ "', 'fortran_order': " ++
    (if a.columnMajor then "True" else "False") ++ ", 'shape': " ++
    tupleText (l.shape.map toString) ++ ", \x7d").toList

/-- The header with blanks and a line feed behind it, so that the elements start at a multiple of
64 bytes. -/
def header (a : StoredArray) : Bytes :=
  let text := headerText a
  let blanks := (64 - (10 + text.length + 1) % 64) % 64
  ofChars (text ++ List.replicate blanks ' ' ++ ['\n'])

/-- The codes of the elements in the order in which they are stored. -/
def storedCodes (a : StoredArray) : List Int :=
  match a.toView {} with
  | .ok v s => (s.buffers[v.buffer]?.getD #[]).toList
  | .error _ _ => []

def encode (a : StoredArray) : Bytes :=
  let h := header a
  mark ++ [1, 0] ++ little 2 h.length ++ h ++
    (storedCodes a).flatMap (ElementCode.bytes a.literal.type)

/-! ## Reading -/

/-- What follows the first occurrence of a text. -/
def after? (key : List Char) : List Char → Option (List Char)
  | [] => none
  | c :: rest =>
    if key.isPrefixOf (c :: rest) then some ((c :: rest).drop key.length) else after? key rest

/-- What stands between the first two quotes. -/
def quoted (cs : List Char) : List Char :=
  let q := Text.singleQuote
  ((cs.dropWhile (· != q)).drop 1).takeWhile (· != q)

/-- Cuts bytes into `count` pieces of `width` bytes. -/
def pieces (width : Nat) : Nat → Bytes → List Bytes
  | 0, _ => []
  | count + 1, bs => bs.take width :: pieces width count (bs.drop width)

/-- The array of elements in the order in which they are stored. -/
def ofStored (t : ElementType) (s : Shape) (columnMajor : Bool) (codes : List Int) : StoredArray :=
  let l : Layout := if columnMajor then .columnMajor s else .rowMajor s
  let cells := codes.toArray
  ⟨⟨t, s, l.places.map fun p => cells[p.toNat]?.getD 0⟩, columnMajor⟩

def decode (bs : Bytes) : Option StoredArray := do
  if !mark.isPrefixOf bs then none
  let wide := number bs 6 1 ≠ 1
  let start := if wide then 12 else 10
  let length := number bs 8 (if wide then 4 else 2)
  let text := toChars ((bs.drop start).take length)
  let descr := quoted (← after? "'descr':".toList text)
  let t ← ElementCode.ofName? descr
  let order ← after? "'fortran_order':".toList text
  let shape ← after? "'shape':".toList text
  let dims ← ShapeText.numbers? (((shape.dropWhile (· != '(')).drop 1).takeWhile (· != ')'))
  let s : Shape := dims.map Int.toNat
  let columnMajor := "True".toList.isPrefixOf (order.dropWhile (· == ' '))
  let big := descr.head? = some '>'
  let cells := pieces t.itemSize s.size (bs.drop (start + length))
  return ofStored t s columnMajor
    (cells.map fun p => ElementCode.ofBytes t (if big then p.reverse else p))

end ArrayFile
end Encoding
end Hyperslab
