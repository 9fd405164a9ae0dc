/-!
# Double precision

Which natural number a natural number becomes in double precision, and which products are finite
there. A double has 53 significant bits; a number half way between two doubles becomes the one whose
last bit is zero.
-/

namespace DocPages

namespace Precision

/-- The number of significant bits. -/
def significantBits : Nat := 53

/-- The multiple of a unit that is nearest to a number, in units; of two the even one. -/
def nearestMultiple (value unit : Nat) : Nat :=
  let quotient := value / unit
  let rest := 2 * (value % unit)
  if rest < unit || (rest == unit && quotient % 2 == 0) then quotient else quotient + 1

/-- The double that is nearest to a number, for numbers in the range of doubles. -/
def round (value : Nat) : Nat :=
  let unit := Nat.pow 2 (value.log2 + 1 - significantBits)
  nearestMultiple value unit * unit

/-- The least magnitude that is rounded beyond the range of doubles. -/
def overflowMagnitude : Nat := Nat.pow 2 1024 - Nat.pow 2 970

/-- The product of a number and a power of ten, all three in double precision, is finite. -/
def isFiniteScaled (value exponent : Nat) : Bool :=
  exponent ≤ 308 && round value * round (Nat.pow 10 exponent) < overflowMagnitude

end Precision

end DocPages
