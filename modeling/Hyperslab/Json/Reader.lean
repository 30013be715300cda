import Hyperslab.Json.Token

/-!
# Reading JSON

The tokens of a text are taken in one by one.  What is not finished yet is a stack of containers,
and the state says what may come next.
-/
namespace Hyperslab
namespace Json

/-- At most `count` tokens, which must be all tokens of the text. -/
def tokensUpTo : Nat → List Char → Option (List Token)
  | count, cs =>
    match cs.dropWhile isSpace, count with
    | [], _ => some []
    | _ :: _, 0 => none
    | c :: body, count + 1 =>
      match scan (c :: body) with
      | none => none
      | some (t, rest) => (tokensUpTo count rest).map (t :: ·)

/-- The tokens of a text.  Every token takes at least one character. -/
def tokens (cs : List Char) : Option (List Token) := tokensUpTo cs.length cs

/-- A container that is not closed yet, with its newest item first. -/
inductive Frame where
  | list (items : List Value)
  /-- The key waits for its value. -/
  | dict (pairs : List (Value × Value)) (key : String)

inductive State where
  /-- A value must follow. -/
  | value (stack : List Frame)
  /-- A value or the end of the list must follow. -/
  | items (stack : List Frame)
  /-- A key must follow, or the end of the dictionary if it is still empty. -/
  | key (pairs : List (Value × Value)) (stack : List Frame)
  /-- A colon must follow. -/
  | colon (pairs : List (Value × Value)) (key : String) (stack : List Frame)
  /-- A value is finished. -/
  | after (v : Value) (stack : List Frame)

/-- The pairs of a dictionary, oldest first; of two pairs with one key the later one counts, in the
place of the earlier one. -/
def distinct (pairs : List (Value × Value)) : List (Value × Value) :=
  pairs.foldr put []
where
  same : Value → Value → Bool
    | .text a, .text b => a == b
    | _, _ => false
  put (p : Value × Value) (ps : List (Value × Value)) : List (Value × Value) :=
    if ps.any (same ·.1 p.1) then ps.map fun q => if same q.1 p.1 then p else q
    else ps ++ [p]

namespace State

/-- A value starts. -/
def start (stack : List Frame) : Token → Option State
  | .openList => some (items stack)
  | .openDict => some (key [] stack)
  | .atom v => some (after v stack)
  | _ => none

def step : State → Token → Option State
  | value stack, t => start stack t
  | items stack, .closeList => some (after (.list []) stack)
  | items stack, t => start (.list [] :: stack) t
  | key pairs stack, .atom (.text k) => some (colon pairs k stack)
  | key [] stack, .closeDict => some (after (.dict []) stack)
  | colon pairs k stack, .colon => some (value (.dict pairs k :: stack))
  | after v (.list vs :: stack), .comma => some (value (.list (v :: vs) :: stack))
  | after v (.list vs :: stack), .closeList => some (after (.list (v :: vs).reverse) stack)
  | after v (.dict ps k :: stack), .comma => some (key ((.text k, v) :: ps) stack)
  | after v (.dict ps k :: stack), .closeDict =>
    some (after (.dict (distinct ((.text k, v) :: ps))) stack)
  | _, _ => none

/-- The value, if nothing is open any more. -/
def result? : State → Option Value
  | after v [] => some v
  | _ => none

end State

/-- The least number with more digits than a numeral has. -/
def leastLong : Nat := Number.tenTo Text.maxDigits

def isLong : Token → Bool
  | .atom (.whole n) => leastLong ≤ n.natAbs
  | _ => false

/-- The value that tokens stand for. -/
def ofTokens? (ts : List Token) : Option Value :=
  (ts.foldlM State.step (.value [])).bind State.result?

/-- The value that a text stands for. -/
def read (text : String) : Except Fault Value :=
  match tokens text.toList with
  | none => .error .notDataText
  | some ts => match ofTokens? ts with
    | none => .error .notDataText
    | some v => if ts.any isLong then .error .badNumeral else .ok v

end Json
end Hyperslab
