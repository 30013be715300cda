import Hyperslab.Shape
import Hyperslab.Text.Numeral

/-!
# What can go wrong, and how it is told

A fault is a cause; `message` is its wording, and `kind` sorts the causes by what the caller can do
about them.  A cause that cannot be put into words, because of a number in it that cannot be
written, is told as a refused value.
-/
namespace Hyperslab

/-- The fields of a bitmask specification, as messages name them. -/
inductive SpecField where
  | begins
  | ends
  | strides
  | beginMask
  | endMask
  | ellipsisMask
  | newAxisMask
  | shrinkMask
  deriving DecidableEq, Repr

namespace SpecField

def name : SpecField → String
  | begins => "begin"
  | ends => "end"
  | strides => "strides"
  | beginMask => "begin_mask"
  | endMask => "end_mask"
  | ellipsisMask => "ellipsis_mask"
  | newAxisMask => "new_axis_mask"
  | shrinkMask => "shrink_axis_mask"

end SpecField

/-- Where a text goes wrong; each part may be unknown. -/
structure Location where
  line : Option Int := none
  column : Option Int := none
  lineText : Option String := none
  deriving DecidableEq, Repr

namespace Location

/-- The line and column in parentheses, and the line itself with a caret under the column. -/
def text (l : Location) : String :=
  let parts := (l.line.map fun n => "line " ++ toString n).toList ++
    (l.column.map fun n => "col " ++ toString n).toList
  if parts.isEmpty then ""
  else
    let place := " (" ++ ", ".intercalate parts ++ ")"
    match l.lineText, l.column with
    | some line, some column =>
      if column < 1 then place
      else place ++ "\n  " ++ line ++ "\n  " ++
        String.ofList (List.replicate (column - 1).toNat ' ') ++ "^"
    | _, _ => place

end Location

inductive FaultKind where
  /-- An argument that no call accepts. -/
  | argument
  /-- A well-formed request outside the supported range. -/
  | unimplemented
  /-- A text that is not an index. -/
  | malformed
  /-- A back end or device that cannot serve the call. -/
  | backend
  /-- A configuration that is refused. -/
  | config
  | value
  | type
  | overflow
  | runtime
  | index
  /-- The number of an axis that there is not. -/
  | axis
  | division
  | attribute
  /-- A part of a well-formed text that cannot be read. -/
  | conversion
  /-- A text that is not in the data format. -/
  | dataText
  /-- A file that ends too early. -/
  | endOfFile
  /-- A directory where a file is expected. -/
  | directory
  /-- A file where a directory is expected. -/
  | notDirectory
  /-- A file that stands in the place of a new directory. -/
  | existingFile
  /-- A name that stands for nothing. -/
  | missingName
  /-- A shape on the command line that cannot be read. -/
  | shapeText
  /-- More memory than there is. -/
  | memory
  deriving DecidableEq, Repr

/-- A value that is told as it was given has no text if it has a number that cannot be written. -/
inductive Fault where
  | zeroStride (axis : Nat)
  | indexOutOfBounds (index : Int) (axis size : Nat)
  | tooManyEntries (rank : Nat)
  | unequalLengths (begins ends strides : Nat)
  | severalEllipses (mask : Nat)
  | negativeMask (field : SpecField) (value : Int)
  | notIntegers (field : SpecField) (given : Option String)
  | unsupportedEntry (given : Option String)
  | booleanIndex (value : Bool)
  | invalidIndex (given : Option String)
  | shapeNotIntegers (given : Option String)
  | negativeDims (dims : List Int)
  | shapeRank (shape : Shape)
  | shapeType (type : String)
  | gradientShape (given expected : Shape)
  | valueShape (given expected : Shape)
  | walkArity (rank : Int) (axes extents : Nat)
  | walkWithoutValues (mode : String)
  | unsupportedRank (rank cap : Int)
  | targetNotArray (expected given : String)
  | targetReadOnly
  | targetTracked
  | malformedIndex (message : String) (location : Location)
  | deviceOnHost (device : String)
  | tensorOnHost
  | unknownBackend (name : String)
  | noCuda
  | noMps
  | rowCopyOnTensor
  | configBackend (given : String)
  | configDevice (given : String)
  | configRank
  | shapeNumeral (quoted : String)
  /-- A value of a kind that has no whole reading. -/
  | noWholeReading
  | badNumeral
  /-- A number of a textual index with more digits than a numeral has. -/
  | longNumeral
  /-- A number with more digits than can be written. -/
  | longNumber
  /-- An infinity or a number too large for its place. -/
  | tooLarge
  | notText
  | zeroStep
  /-- An array that is neither true nor false, as it has not one element. -/
  | noTruth (onTensor : Bool)
  | severalElements
  | wordRange
  | raggedNesting
  | notNested
  | textNesting
  | bareText
  | sequenceElement
  | tooManyAxes
  | tooManyElements
  | noMemory
  | sizeRange
  | tensorSize
  | noElementType
  | noTensorType
  | noCommonType
  | noSum
  | cellRange
  | trackedReading
  | reversedLayout
  | unknownDevice
  | hostReshape
  | tensorReshape
  | hostStride
  | tensorStride
  | tensorBounds
  | sharedCells
  | cellsReadOnly
  | trackedCells
  | rowPair
  | rowIndex
  | rowLength
  | castRefused
  | noLeadAxis
  | elementIndex
  | viewStep
  | axisOrder (onTensor : Bool)
  | axisNumber (onTensor : Bool)
  | negativeExtent (onTensor : Bool)
  | unknownName
  | notAnArray
  | notAnArrayFile
  | notAnArchive
  | emptyFile
  | notDataText
  | isDirectory
  | insideFile
  | fileInTheWay
  deriving DecidableEq, Repr

namespace Fault

/-- The numbers in the wording of a cause.  Those that count things or number them are left out, as
they are never long. -/
def numbers : Fault → List Int
  | indexOutOfBounds index _ size => [index, size]
  | severalEllipses mask => [(mask : Int)]
  | negativeMask _ value => [value]
  | negativeDims dims => dims
  | shapeRank shape => shape.map Int.ofNat
  | gradientShape given expected | valueShape given expected => (given ++ expected).map Int.ofNat
  | walkArity rank _ _ => [rank]
  | unsupportedRank rank cap => [rank, cap]
  | malformedIndex _ l => l.line.toList ++ l.column.toList
  | _ => []

/-- Whether a cause can be put into words. -/
def isLegible : Fault → Bool
  | notIntegers _ given | unsupportedEntry given | invalidIndex given | shapeNotIntegers given =>
    given.isSome
  | f => f.numbers.all Text.legible

/-- What the causes are by themselves. -/
def sort : Fault → FaultKind
  | valueShape .. | unsupportedRank .. => .unimplemented
  | malformedIndex .. => .malformed
  | deviceOnHost _ | tensorOnHost | unknownBackend _ | noCuda | noMps | rowCopyOnTensor => .backend
  | configBackend _ | configDevice _ | configRank => .config
  | shapeNumeral _ => .shapeText
  | longNumeral => .conversion
  | notDataText => .dataText
  | emptyFile => .endOfFile
  | isDirectory => .directory
  | insideFile => .notDirectory
  | fileInTheWay => .existingFile
  | unknownName => .missingName
  | noMemory => .memory
  | noTruth onTensor | axisOrder onTensor | negativeExtent onTensor =>
    if onTensor then .runtime else .value
  | axisNumber onTensor => if onTensor then .index else .axis
  | noWholeReading | notAnArray | noTensorType | notNested | bareText | sizeRange | tensorStride
  | castRefused | notAnArchive => .type
  | badNumeral | longNumber | severalElements | wordRange | raggedNesting | textNesting
  | sequenceElement | tooManyAxes | tooManyElements | reversedLayout | hostReshape | cellsReadOnly
  | rowPair | rowLength | viewStep | notAnArrayFile => .value
  | tooLarge | hostStride => .overflow
  | notText => .attribute
  | zeroStep => .division
  | noElementType | noCommonType | noSum | cellRange | tensorSize | trackedReading | unknownDevice
  | tensorReshape | tensorBounds | sharedCells | trackedCells => .runtime
  | rowIndex | noLeadAxis | elementIndex => .index
  | zeroStride _ | indexOutOfBounds .. | tooManyEntries _ | unequalLengths .. | severalEllipses _
  | negativeMask .. | notIntegers .. | unsupportedEntry _ | booleanIndex _ | invalidIndex _
  | shapeNotIntegers _ | negativeDims _ | shapeRank _ | shapeType _ | gradientShape ..
  | walkArity .. | walkWithoutValues _ | targetNotArray .. | targetReadOnly | targetTracked =>
    .argument

def kind (f : Fault) : FaultKind := if f.isLegible then f.sort else .value

def message : Fault → String
  | zeroStride axis => s!"strides[{axis}] must be non-zero"
  | indexOutOfBounds index axis size =>
    s!"slice index {index} of dimension {axis} out of bounds (size {size})."
  | tooManyEntries rank =>
    s!"Index out of range using input dim {rank}; input has only {rank} dims"
  | unequalLengths b e s =>
    s!"Expected begin, end, and strides to be equal size, got {b}, {e}, and {s}"
  | severalEllipses mask =>
    s!"Multiple ellipses in slice spec not allowed (ellipsis_mask={mask})"
  | negativeMask field value => s!"{field.name} must be non-negative, got {value}"
  | notIntegers field given => s!"{field.name} must contain integers, got " ++ given.getD ""
  | unsupportedEntry given => "Unsupported axis spec: " ++ given.getD ""
  | booleanIndex value =>
    "Boolean index " ++ (if value then "True" else "False") ++ " is not supported"
  | invalidIndex given =>
    "Only integers, slices, ellipsis and newaxis are valid indices, got " ++ given.getD ""
  | shapeNotIntegers given => "Shape must be a sequence of integers, got " ++ given.getD ""
  | negativeDims dims =>
    "Shape dimensions must be non-negative, got " ++ tupleText (dims.map toString)
  | shapeRank shape => s!"shape must be 1-D, got shape.shape = {shape.text}"
  | shapeType type => s!"shape must have integer type, got {type}"
  | gradientShape given expected => s!"shape of dy was {given.text} instead of {expected.text}"
  | valueShape given expected =>
    s!"sliced l-value shape {expected.text} does not match r-value shape {given.text}. " ++
      "Automatic broadcasting not yet implemented."
  | walkArity rank axes extents =>
    s!"rank-{rank} walker given {axes} axes and shape of rank {extents}"
  | walkWithoutValues mode => s!"{mode} walk requires values"
  | unsupportedRank rank cap => s!"Unhandled input dimensions {rank} (supported: 1..{cap})"
  | targetNotArray expected given => s!"Assignment target must be a {expected}, got {given}"
  | targetReadOnly => "Assignment target is read-only"
  | targetTracked => "Assignment target is a leaf tensor that requires grad"
  | malformedIndex message location => message ++ location.text
  | deviceOnHost device => s!"NumPy backend only supports CPU execution, got device '{device}'"
  | tensorOnHost => "NumPy backend cannot operate on torch tensors; use backend='torch'"
  | unknownBackend name => s!"Unknown backend '{name}'"
  | noCuda => "Requested CUDA device but torch.cuda.is_available() is False"
  | noMps => "Requested MPS device but torch.backends.mps.is_available() is False"
  | rowCopyOnTensor => "Row copies are only available on the host backend"
  | configBackend given => s!"Unsupported backend: {given}"
  | configDevice given => s!"Unsupported device: {given}"
  | configRank => "max_rank must be positive"
  | shapeNumeral quoted => s!"Invalid shape: {quoted}"
  | noWholeReading => "a value of this kind is no whole number"
  | badNumeral => "a text or number that is no whole number"
  | longNumeral => "a number of too many digits"
  | longNumber => "a number of too many digits to write"
  | tooLarge => "a number too large for its place"
  | notText => "a value that is no text"
  | zeroStep => "a step of zero has no count"
  | noTruth _ => "an array that is neither true nor false"
  | severalElements => "an array where a number is expected"
  | wordRange => "a whole number that does not fit in 64 bits"
  | raggedNesting => "nested sequences of unequal lengths"
  | notNested => "a single value among sequences"
  | textNesting => "a text where numbers are nested"
  | bareText => "a text where an array is expected"
  | sequenceElement => "a sequence where an element is expected"
  | tooManyAxes => "more axes than an array can have"
  | tooManyElements => "more elements than an array can have"
  | noMemory => "more elements than there is memory for"
  | sizeRange => "an extent that does not fit in 64 bits"
  | tensorSize => "more elements than a tensor can have"
  | noElementType => "a value that no element type holds"
  | noTensorType => "elements that no tensor holds"
  | noCommonType => "element types that no element type unites"
  | noSum => "elements of a type that has no sums"
  | cellRange => "a number outside the range of the element type"
  | trackedReading => "a tracked tensor cannot be read as a plain array"
  | reversedLayout => "a tensor cannot step backwards"
  | unknownDevice => "a device string that names no device"
  | hostReshape | tensorReshape => "a shape with another number of elements"
  | hostStride | tensorStride => "a stride that does not fit in 64 bits"
  | tensorBounds => "a window outside the storage"
  | sharedCells => "several elements of the target have one cell"
  | cellsReadOnly => "the cells are read-only"
  | trackedCells => "the cells of a tracked leaf cannot be set"
  | rowPair => "row copies need two axes"
  | rowIndex => "a row outside the array"
  | rowLength => "rows of unequal lengths"
  | castRefused => "elements of another kind of number"
  | noLeadAxis => "no leading axis"
  | elementIndex => "an index outside the array"
  | viewStep => "a view with this step is refused"
  | axisOrder _ => "not an order of the axes"
  | axisNumber _ => "an axis that the array does not have"
  | negativeExtent _ => "an extent below zero"
  | notAnArray => "a value where an array is expected"
  | unknownName => "no variable of this name"
  | notAnArrayFile => "not an array file"
  | notAnArchive => "not an archive of arrays"
  | emptyFile => "an empty array file"
  | notDataText => "not a data text"
  | isDirectory => "a directory where a file is expected"
  | insideFile => "a file where a directory is expected"
  | fileInTheWay => "a file in the place of a new directory"

end Fault

end Hyperslab
