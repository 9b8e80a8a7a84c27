/-! Exact arithmetic on the values of floating-point numbers. A finite value is
a significand times a power of two, hence a quotient of natural numbers, and
rounding a quotient to a whole number sends a half to the even neighbour. -/
namespace HeadDriven.Decimal

structure Fraction where
  num : Nat
  den : Nat
  deriving Repr, DecidableEq

def fractionBound : Nat := 0x10000000000000

def isNegative (x : Float) : Bool := 2048 * fractionBound ≤ x.toBits.toNat

def exponentField (x : Float) : Nat := x.toBits.toNat / fractionBound % 2048

def fractionField (x : Float) : Nat := x.toBits.toNat % fractionBound

def magnitude (x : Float) : Fraction :=
  let field := exponentField x
  let significand := if field = 0 then fractionField x else fractionField x + fractionBound
  let exponent := max field 1
  if exponent < 1075 then ⟨significand, Nat.pow 2 (1075 - exponent)⟩
  else ⟨significand * Nat.pow 2 (exponent - 1075), 1⟩

def Fraction.isBelowHalf (q : Fraction) : Bool := 2 * (q.num % q.den) < q.den

/-- The whole number nearest to a quotient, the even one of two. -/
def Fraction.round (q : Fraction) : Nat :=
  let whole := q.num / q.den
  if q.isBelowHalf then whole
  else if q.den < 2 * (q.num % q.den) then whole + 1
  else whole + whole % 2

def special? (x : Float) : Option String :=
  if exponentField x < 2047 then none
  else if fractionField x ≠ 0 then some "NaN"
  else if isNegative x then some "-inf"
  else some "inf"

def signed (x : Float) (digits : List Char) : String :=
  String.ofList (if isNegative x then '-' :: digits else digits)

def paddedDigits (width n : Nat) : List Char :=
  let digits := Nat.toDigits 10 n
  List.replicate (width - digits.length) '0' ++ digits

end HeadDriven.Decimal
