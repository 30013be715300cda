import Hyperslab.Encoding.Bytes

/-!
# Archives as bytes

Each member stands behind a record of its own; a directory at the end has a record for each of them
in order, with the place of the member, and a last record says where the directory is.  Members are
stored as they are.
-/
namespace Hyperslab
namespace Encoding
namespace Archive

/-- The members by name. -/
abbrev Members := List (String × Bytes)

def localMark : Bytes := [0x50, 0x4B, 3, 4]

def directoryMark : Bytes := [0x50, 0x4B, 1, 2]

def endMark : Bytes := [0x50, 0x4B, 5, 6]

def nameBytes (name : String) : Bytes := name.toUTF8.toList

/-- The fields that both records of a member have: versions, storage, date, checksum and sizes. -/
def fields (name bytes : Bytes) : Bytes :=
  little 2 20 ++ little 2 0 ++ little 2 0 ++ little 2 0 ++ little 2 0x21 ++
    little 4 (checksum bytes) ++ little 4 bytes.length ++ little 4 bytes.length ++
    little 2 name.length ++ little 2 0

def localRecord (name bytes : Bytes) : Bytes := localMark ++ fields name bytes ++ name ++ bytes

def directoryRecord (place : Nat) (name bytes : Bytes) : Bytes :=
  directoryMark ++ little 2 20 ++ fields name bytes ++ little 2 0 ++ little 2 0 ++ little 2 0 ++
    little 4 0 ++ little 4 place ++ name

/-- The records of members and of the directory, the first member at a given place. -/
def records (place : Nat) : Members → Bytes × Bytes
  | [] => ([], [])
  | (name, bytes) :: rest =>
    let here := localRecord (nameBytes name) bytes
    let (members, directory) := records (place + here.length) rest
    (here ++ members, directoryRecord place (nameBytes name) bytes ++ directory)

def encode (ms : Members) : Bytes :=
  let (members, directory) := records 0 ms
  members ++ directory ++ endMark ++ little 2 0 ++ little 2 0 ++ little 2 ms.length ++
    little 2 ms.length ++ little 4 directory.length ++ little 4 members.length ++ little 2 0

/-! ## Reading -/

/-- The first place of a mark, counted from a given place on. -/
def firstPlace? (mark : Bytes) (place : Nat) : Bytes → Option Nat
  | [] => none
  | b :: rest =>
    if mark.isPrefixOf (b :: rest) then some place else firstPlace? mark (place + 1) rest

/-- The last place of a mark. -/
def lastPlace? (mark bs : Bytes) : Option Nat :=
  (firstPlace? mark.reverse 0 bs.reverse).map fun p => bs.length - p - mark.length

/-- The bytes of a stored member whose record is at a place. -/
def member? (bs : Bytes) (place size : Nat) : Option Bytes :=
  let record := bs.drop place
  if localMark.isPrefixOf record && number record 8 2 == 0 then
    some ((record.drop (30 + number record 26 2 + number record 28 2)).take size)
  else none

/-- `count` members whose records in the directory start at the head of some bytes. -/
def members? (bs : Bytes) : Nat → Bytes → Option Members
  | 0, _ => some []
  | count + 1, directory => do
    if !directoryMark.isPrefixOf directory then none
    let nameSize := number directory 28 2
    let name ← String.fromUTF8? ((directory.drop 46).take nameSize).toByteArray
    let bytes ← member? bs (number directory 42 4) (number directory 20 4)
    let rest := directory.drop (46 + nameSize + number directory 30 2 + number directory 32 2)
    return (name, bytes) :: (← members? bs count rest)

def decode (bs : Bytes) : Option Members := do
  let finish := bs.drop (← lastPlace? endMark bs)
  members? bs (number finish 10 2) (bs.drop (number finish 16 4))

end Archive
end Encoding
end Hyperslab
