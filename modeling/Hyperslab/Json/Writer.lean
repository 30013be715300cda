import Hyperslab.Json.Token

/-!
# Writing JSON

Every item of a container stands on a line of its own, two blanks further in than the container; a
container without items is written in one piece.  Characters outside ASCII are written by number.
-/
namespace Hyperslab
namespace Json

def unitText (u : Nat) : List Char := '\\' :: 'u' :: Text.hex 4 u

def escape (c : Char) : List Char :=
  if c = '"' then ['\\', '"']
  else if c = '\\' then ['\\', '\\']
  else if c = '\n' then ['\\', 'n']
  else if c = '\r' then ['\\', 'r']
  else if c = '\t' then ['\\', 't']
  else if c = Char.ofNat 12 then ['\\', 'f']
  else if c = Char.ofNat 8 then ['\\', 'b']
  else if 32 ≤ c.toNat && c.toNat < 127 then [c]
  else if c.toNat < 0x10000 then unitText c.toNat
  else
    let n := c.toNat - 0x10000
    unitText (0xD800 + n / 1024) ++ unitText (0xDC00 + n % 1024)

def textForm (s : String) : List Char := '"' :: s.toList.flatMap escape ++ ['"']

/-- The start of a line at a depth. -/
def newLine (depth : Nat) : List Char := '\n' :: List.replicate (2 * depth) ' '

/-- The form of a value that is no container. -/
def atomForm : Value → List Char
  | .boolean true => "true".toList
  | .boolean false => "false".toList
  | .whole n => (toString n).toList
  | .float bits => (Number.data.write Number.binary64 bits).toList
  | .text s => textForm s
  | _ => "null".toList

mutual

/-- The form of a value whose container is at a depth. -/
def form (depth : Nat) : Value → List Char
  | .list [] | .tuple [] => ['[', ']']
  | .list (v :: rest) | .tuple (v :: rest) =>
    '[' :: newLine (depth + 1) ++ form (depth + 1) v ++ itemForms (depth + 1) rest ++
      newLine depth ++ [']']
  | .dict [] => ['\x7b', '\x7d']
  | .dict ((k, v) :: rest) =>
    '\x7b' :: newLine (depth + 1) ++ pairForm (depth + 1) (k, v) ++ pairForms (depth + 1) rest ++
      newLine depth ++ ['\x7d']
  | v => atomForm v

/-- Further items, each with a comma before it. -/
def itemForms (depth : Nat) : List Value → List Char
  | [] => []
  | v :: rest => ',' :: newLine depth ++ form depth v ++ itemForms depth rest

def pairForm (depth : Nat) : Value × Value → List Char
  | (k, v) => atomForm k ++ ':' :: ' ' :: form depth v

def pairForms (depth : Nat) : List (Value × Value) → List Char
  | [] => []
  | (k, v) :: rest => ',' :: newLine depth ++ pairForm depth (k, v) ++ pairForms depth rest

end

def write (v : Value) : String := String.ofList (form 0 v)

end Json
end Hyperslab
