import Hyperslab.Json.Reader
import Hyperslab.Json.Writer
import Hyperslab.Operand

/-!
# Files of arrays

A file holds a text, one array, or an archive of named arrays.  Which of the three a file is read or
written as is decided by the end of its path, in any case; a path that is written gets the usual
ending when it lacks it.  An array is stored with its elements in row-major order or, if only that
has no gaps, in column-major order, and is read back in the same layout.
-/
namespace Hyperslab

structure StoredArray where
  literal : Literal
  columnMajor : Bool := false
  deriving DecidableEq, Repr

inductive FileContent where
  | text (s : String)
  | array (a : StoredArray)
  | archive (members : List (String × StoredArray))
  deriving DecidableEq, Repr

/-- Files by path. -/
abbrev Files := List (String × FileContent)

/-! ## Paths -/

/-- How a file is read or written. -/
inductive FileForm where
  | array
  | archive
  | json
  deriving DecidableEq, Repr

namespace Path

/-- A path with no empty parts and no parts that stay where they are. -/
def normalize (text : String) : String :=
  let cs := text.toList
  let root := match cs with
    | '/' :: '/' :: '/' :: _ => "/"
    | '/' :: '/' :: _ => "//"
    | '/' :: _ => "/"
    | _ => ""
  let parts := ((Text.splitAt '/' cs).map String.ofList).filter fun p => p != "" && p != "."
  let path := root ++ "/".intercalate parts
  if path = "" then "." else path

/-- Whether a path ends in `suffix`, in any case. -/
def hasSuffix (suffix : String) (path : String) : Bool :=
  (suffix.toList).isSuffixOf (Text.lower path.toList)

def form (path : String) : FileForm :=
  if hasSuffix ".npz" path then .archive else if hasSuffix ".json" path then .json else .array

/-- The path with an ending, unless it ends in exactly that. -/
def withSuffix (suffix : String) (path : String) : String :=
  if suffix.toList.isSuffixOf path.toList then path else path ++ suffix

/-- The directories that a path goes through, from the last one up. -/
def parents (path : String) : List String :=
  let parts := Text.splitAt '/' path.toList
  ((List.range (parts.length - 1)).map fun k =>
    "/".intercalate ((parts.take (k + 1)).map String.ofList)).reverse

end Path

namespace Files

def find? (fs : Files) (path : String) : Option FileContent := fs.lookup path

def isDirectory (fs : Files) (path : String) : Bool :=
  path == "." || fs.any fun f => (path ++ "/").toList.isPrefixOf f.1.toList

/-- Adds a file or replaces it. -/
def insert (fs : Files) (path : String) (c : FileContent) : Files :=
  if fs.any (·.1 == path) then fs.map fun f => if f.1 == path then (path, c) else f
  else fs ++ [(path, c)]

end Files

/-! ## Reading -/

namespace StoredArray

/-- A new host array in the stored layout. -/
def toView (a : StoredArray) : Memory View :=
  let l := a.literal
  let layout := if a.columnMajor then .columnMajor l.shape else .rowMajor l.shape
  View.create .host l.type layout l.codes

/-- The array as it is stored. -/
def ofView (v : View) (s : Store) : StoredArray :=
  let reversed : Layout := ⟨v.layout.offset, v.layout.dims.reverse⟩
  ⟨⟨v.type, v.shape, v.codes s⟩, !v.layout.isContiguous && reversed.isContiguous⟩

end StoredArray

namespace FileContent

/-- The content of a file with the ending of an archive: its first member. -/
def firstMember : FileContent → Except Fault StoredArray
  | archive [] => .error .elementIndex
  | archive (m :: _) => .ok m.2
  | array _ => .error .notAnArchive
  | text s => .error (if s = "" then .emptyFile else .notAnArrayFile)

/-- The content of a file as one array. -/
def single : FileContent → Except Fault StoredArray
  | array a => .ok a
  | archive _ => .error .notAnArrayFile
  | text s => .error (if s = "" then .emptyFile else .notAnArrayFile)

/-- The content of a file as a text of data. -/
def data : FileContent → Except Fault Literal
  | text s => do Literal.Host.ofValue none (← Json.read s)
  | _ => .error .notDataText

/-- The content of a file as an array, according to its path. -/
def load (path : String) (c : FileContent) : Except Fault StoredArray :=
  match Path.form path with
  | .archive => c.firstMember
  | .array => c.single
  | .json => do return ⟨← c.data, false⟩

end FileContent

namespace Files

/-- The array in a file, or nothing where there is no file. -/
def load (fs : Files) (path : String) : Except Fault (Option StoredArray) :=
  match fs.find? path with
  | some c => do return some (← c.load path)
  | none =>
    if fs.isDirectory path then .error .isDirectory
    else if (Path.parents path).any fun p => (fs.find? p).isSome then .error .insideFile
    else .ok none

end Files

/-! ## Writing -/

namespace Literal

/-- An element as a value. -/
def leaf (t : ElementType) (code : Int) : Value :=
  match t with
  | .boolean => .boolean (code != 0)
  | .float32 | .float64 => .float (t.convert .float64 code).toNat
  | .other => .null
  | _ => .whole code

/-- Elements as lists, nested according to a shape; the elements from the first on. -/
def nest (t : ElementType) : Shape → List Int → Value
  | [], codes => leaf t (codes.headD 0)
  | n :: rest, codes =>
    .list ((List.range n).map fun i => nest t rest (codes.drop (i * Shape.size rest)))

/-- The literal as nested lists. -/
def toValue (l : Literal) : Value := nest l.type l.shape l.codes

end Literal

namespace StoredArray

/-- The path and the content that an array is written with to a path. -/
def written (a : StoredArray) (path : String) : String × FileContent :=
  match Path.form path with
  | .archive => (Path.withSuffix ".npz" path, .archive [("arr_0", a)])
  | .array => (Path.withSuffix ".npy" path, .array a)
  | .json => (path, .text (Json.write a.literal.toValue))

end StoredArray

namespace Files

/-- Writes an array to a file; the directories on the way are made. -/
def save (fs : Files) (path : String) (a : StoredArray) : Except Fault Files := do
  match Path.parents path with
  | [] => pure ()
  | p :: more =>
    if (fs.find? p).isSome then throw .fileInTheWay
    if more.any fun q => (fs.find? q).isSome then throw .insideFile
  let (target, c) := a.written path
  if fs.isDirectory target then throw .isDirectory
  return fs.insert target c

end Files

end Hyperslab
