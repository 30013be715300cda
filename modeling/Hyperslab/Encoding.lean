import Hyperslab.Encoding.Archive
import Hyperslab.Encoding.ArrayFile

/-!
# Files as bytes

What a file holds is told by the mark at its start; a file without a mark is a text.
-/
namespace Hyperslab
namespace FileContent

open Encoding

def arraySuffix : String := ".npy"

def toBytes : FileContent → Bytes
  | text s => s.toUTF8.toList
  | array a => ArrayFile.encode a
  | archive members =>
    Archive.encode (members.map fun m => (m.1 ++ arraySuffix, ArrayFile.encode m.2))

/-- A member of an archive, under its name without the ending. -/
def member? (m : String × Bytes) : Option (String × StoredArray) :=
  (ArrayFile.decode m.2).map fun a => ((m.1.dropSuffix arraySuffix).toString, a)

/-- Content that is in none of the formats. -/
def unreadable : FileContent := text "?"

def ofBytes (bs : Bytes) : FileContent :=
  if ArrayFile.mark.isPrefixOf bs then ((ArrayFile.decode bs).map array).getD unreadable
  else if Archive.localMark.isPrefixOf bs || Archive.endMark.isPrefixOf bs then
    (((Archive.decode bs).bind (·.mapM member?)).map archive).getD unreadable
  else ((String.fromUTF8? bs.toByteArray).map text).getD unreadable

end FileContent
end Hyperslab
