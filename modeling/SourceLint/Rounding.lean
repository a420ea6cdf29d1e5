/-
Rounding to the nearest whole number, where a tie goes to the even neighbour, and the size at which
long numbers are compared: only their first 53 bits count, so that two of them may come out equal.
-/

namespace SourceLint.Rounding

/-- A power of two. -/
def powerOfTwo (exponent : Nat) : Nat := Nat.pow 2 exponent

/-- A quotient rounded to the nearest natural number, a tie to the even one. -/
def quotient (numerator denominator : Nat) : Nat :=
  let whole := numerator / denominator
  let doubled := 2 * (numerator % denominator)
  if doubled < denominator then whole
  else if denominator < doubled then whole + 1
  else whole + whole % 2

/-- A number rounded to its first 53 bits. From the 1024th power of two on all numbers are one. -/
def leadingBits (number : Nat) : Nat :=
  let step := powerOfTwo (number.log2 - 52)
  let rounded := quotient number step * step
  if rounded.log2 < 1024 then rounded else powerOfTwo 1024

end SourceLint.Rounding
