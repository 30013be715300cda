import Hyperslab.Number.Power
import Hyperslab.Text.Blank
import Hyperslab.Text.Digit

/-!
# Whole numbers in decimal

A numeral is a run of digits of any script, with an optional sign before it, blanks around it, and
single underscores between digits.  Leading zeros are allowed, but they count: a numeral has no more
than `maxDigits` digits, and a number that would take more cannot be written.
-/
namespace Hyperslab
namespace Text

/-- The rest of a numeral whose digits so far stand for `value`. -/
def digitsFrom? (value : Nat) : List Char → Option Nat
  | [] => some value
  | '_' :: c :: rest => (digit? c).bind fun d => digitsFrom? (10 * value + d) rest
  | c :: rest => (digit? c).bind fun d => digitsFrom? (10 * value + d) rest

/-- A run of at least one digit. -/
def digits? : List Char → Option Nat
  | [] => none
  | c :: rest => (digit? c).bind fun d => digitsFrom? d rest

/-- A numeral with nothing around it. -/
def signed? : List Char → Option Int
  | '-' :: rest => (digits? rest).map fun n => -(n : Int)
  | '+' :: rest => (digits? rest).map fun n => (n : Int)
  | cs => (digits? cs).map fun n => (n : Int)

/-- The most digits that a numeral has. -/
def maxDigits : Nat := 4300

/-- Whether a number can be written. -/
def legible (n : Int) : Bool := (Nat.toDigits 10 n.natAbs).length ≤ maxDigits

theorem legible_iff {n : Int} : legible n = true ↔ n.natAbs < Number.tenTo maxDigits := by
  have hpos : 0 < maxDigits := by decide
  rw [legible, decide_eq_true_iff]
  generalize maxDigits = digits at hpos ⊢
  exact Nat.length_toDigits_le_iff (by decide) hpos

/-- The number that a text stands for. -/
def numeral? (cs : List Char) : Option Int :=
  if maxDigits < cs.countP fun c => (digit? c).isSome then none
  else signed? (trimWhile isNumeralBlank cs)

end Text
end Hyperslab
