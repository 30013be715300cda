import Hyperslab.Number.Places

/-!
# Columns of numbers

The numbers of a column are written alike, so that their points stand one below the other.  Each has
the fewest digits that read back, but no more than eight places.  All have an exponent if one of
them is very large or very small, or if they are of very different sizes, and then they have as many
places as the longest of them.
-/
namespace Hyperslab
namespace Number

namespace Format

/-- The sizes of the numbers among patterns that are neither zero nor infinite, without their signs.
As patterns they are in the order of the sizes. -/
def sizes (f : Format) (codes : List Nat) : List Nat :=
  (codes.map (· % f.signBit)).filter fun c => c != 0 && c < f.infinity

/-- The pattern of a quotient of two sizes. -/
def ratio (f : Format) (most least : Nat) : Nat :=
  match f.read most, f.read least with
  | .finite _ m p, .finite _ n q =>
    f.roundQuotient (m * twoTo (p - q).toNat) (n * twoTo (q - p).toNat)
  | _, _ => 0

end Format

structure Column where
  format : Format
  /-- The places of each number and the least digits of its exponent, if they have exponents. -/
  scientific : Option (Nat × Nat) := none
  /-- Characters before the point. -/
  left : Nat := 0
  /-- Characters behind the point. -/
  right : Nat := 0
  deriving DecidableEq, Repr

namespace Column

def maxPlaces : Nat := 8

def dropZeros (cs : List Char) : List Char := (cs.reverse.dropWhile (· == '0')).reverse

/-- A size with its point, without zeros at the end. -/
def positional (f : Format) (m : Nat) (p : Int) : List Char :=
  if m = 0 then ['0', '.']
  else
    let d := shortest f m p
    let places := (-d.power).toNat
    if places ≤ maxPlaces then pointBefore places (d.digits * tenTo d.power.toNat)
    else dropZeros (fixed maxPlaces (m * twoTo p.toNat) (twoTo (-p).toNat))

/-- How many places a size needs behind its first digit, and the power of ten that this digit
counts. -/
def spread (f : Format) (m : Nat) (p : Int) : Nat × Int :=
  if m = 0 then (0, 0)
  else
    let d := shortest f m p
    let places := (digitText d.digits).length - 1
    if places ≤ maxPlaces then (places, d.power + places)
    else
      let (n, e) := leading maxPlaces (m * twoTo p.toNat) (twoTo (-p).toNat)
      ((dropZeros (digitText n)).length - 1, e)

/-- The sizes of the finite numbers among patterns, each with its sign. -/
def finite (f : Format) (codes : List Nat) : List (Bool × Nat × Int) :=
  codes.filterMap fun c => match f.read c with
    | .finite negative m p => some (negative, m, p)
    | _ => none

/-- The size from which on numbers have exponents: the greatest power of ten, up to the eighth,
whose numbers all have whole digits. -/
def large (f : Format) : Nat := tenTo (if f.fraction < 27 then 6 else 8)

/-- Whether numbers are written with exponents.  If small numbers are to be flattened, none of them
gives cause for it. -/
def needsExponent (f : Format) (flatten : Bool) (codes : List Nat) : Bool :=
  match f.sizes codes with
  | [] => false
  | c :: rest =>
    let most := rest.foldl max c
    let least := rest.foldl min c
    f.ofInt (large f) ≤ most || !flatten && (least < f.roundQuotient 1 (tenTo 4) ||
      f.ofInt 1000 < f.ratio most least)

/-- Room for the names of what is not finite. -/
def makeRoom (c : Column) (codes : List Nat) : Column :=
  let readings := codes.map c.format.read
  let isFinite (r : Reading) : Bool := match r with
    | .finite .. => true
    | _ => false
  if readings.all isFinite then c
  else
    let width := if readings.contains (.infinite true) then 4 else 3
    { c with left := max c.left (width - (c.right + 1)) }

/-- The column for the numbers with the given patterns. -/
def ofCodes (f : Format) (flatten : Bool) (codes : List Nat) : Column :=
  let numbers := finite f codes
  let most (g : Bool × Nat × Int → Nat) : Nat := (numbers.map g).foldl max 0
  let sign (negative : Bool) : Nat := if negative then 1 else 0
  let column : Column :=
    if needsExponent f flatten codes then
      let places := most fun (_, m, p) => (spread f m p).1
      let width := most fun (_, m, p) => max 2 (digitText (spread f m p).2.natAbs).length
      { format := f, scientific := some (places, width)
        left := most fun (negative, _, _) => 1 + sign negative, right := width + 2 + places }
    else
      let whole (cs : List Char) : Nat := (cs.takeWhile (· != '.')).length
      { format := f
        left := most fun (negative, m, p) => sign negative + whole (positional f m p)
        right := most fun (_, m, p) =>
          (positional f m p).length - whole (positional f m p) - 1 }
  column.makeRoom codes

/-- A number of the column. -/
def write (c : Column) (bits : Nat) : String :=
  let blanks (n : Nat) : List Char := List.replicate n ' '
  match c.format.read bits with
  | .finite negative m p =>
    let body := match c.scientific with
      | some (places, width) =>
        Number.scientific width places (m * twoTo p.toNat) (twoTo (-p).toNat)
      | none => positional c.format m p
    let cs := if negative then '-' :: body else body
    let whole := (cs.takeWhile (· != '.')).length
    let behind := cs.length - whole - 1
    String.ofList (blanks (c.left - whole) ++ cs ++ blanks (c.right - behind))
  | r =>
    let name := plain.write c.format (c.format.write r)
    String.ofList (blanks (c.left + c.right + 1 - name.length) ++ name.toList)

end Column
end Number
end Hyperslab
