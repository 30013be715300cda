/-!
# Powers of two and of ten

They are the sizes of fields of bits and the scales of decimal numbers.
-/
namespace Hyperslab
namespace Number

/-- The number of patterns of `n` bits. -/
def twoTo (n : Nat) : Nat := Nat.pow 2 n

/-- The number of rows of `n` decimal digits. -/
def tenTo (n : Nat) : Nat := Nat.pow 10 n

end Number
end Hyperslab
