import HeadDriven.Decimal.Fraction
import HeadDriven.Decimal.Reading

/-! Decimal texts. The text of a double with a fixed number of places is rounded
exactly. Its shortest text shows, of all decimal numbers that read back as the
double, one with the fewest digits and, among those, the nearest, of two equally
near the larger; it is written out in full, without a power of ten. -/
namespace HeadDriven.Decimal

/-- The text of `x` with `places` digits behind the point; a half in the last place goes to
the even digit, and a negative zero keeps its sign. -/
def fixed (places : Nat) (x : Float) : String :=
  match special? x with
  | some name => name
  | none =>
    let value := magnitude x
    let units := Fraction.round ⟨value.num * Nat.pow 10 places, value.den⟩
    let digits := paddedDigits (places + 1) units
    let whole := digits.length - places
    signed x (digits.take whole ++ '.' :: digits.drop whole)

/-- The power of ten at which a positive quotient has its point: the quotient is below it
and at least a tenth of it. -/
def pointPosition (q : Fraction) : Int :=
  if q.den ≤ q.num then ((Nat.toDigits 10 (q.num / q.den)).length : Int)
  else
    let zeros := (List.range 330).find? (fun k => q.den ≤ q.num * Nat.pow 10 (k + 1))
    Int.negOfNat (zeros.getD 330)

def Fraction.scaleDown (q : Fraction) (e : Int) : Fraction :=
  if 0 ≤ e then ⟨q.num, q.den * Nat.pow 10 e.toNat⟩
  else ⟨q.num * Nat.pow 10 (-e).toNat, q.den⟩

/-- The digits nearest to `q`, in units of ten to the `e`, that read back as `x`. Halfway
between two the larger is tried first. -/
def digitsAt? (x : Float) (q : Fraction) (e : Int) : Option Nat :=
  let scaled := q.scaleDown e
  let below := scaled.num / scaled.den
  let order := if scaled.isBelowHalf then [below, below + 1] else [below + 1, below]
  order.find? fun d => nearest d e == x

def withoutEndZero (digits : Nat) (e : Int) : Nat × Int :=
  if digits % 10 = 0 then (digits / 10, e + 1) else (digits, e)

/-- Digits and power of ten of the shortest number that reads back as the positive `x`. Only
a single digit can come out as ten units. -/
def shortest (x : Float) : Nat × Int :=
  let q := magnitude x
  let point := pointPosition q
  let found := (List.range 17).findSome? fun k =>
    let e := point - (k + 1 : Nat)
    (digitsAt? x q e).map (withoutEndZero · e)
  found.getD (0, 0)

def positional (digits : Nat) (e : Int) : List Char :=
  if 0 ≤ e then Nat.toDigits 10 digits ++ (if digits = 0 then [] else List.replicate e.toNat '0')
  else
    let places := (-e).toNat
    let padded := paddedDigits (places + 1) digits
    let whole := padded.length - places
    padded.take whole ++ '.' :: padded.drop whole

def plain (x : Float) : String :=
  match special? x with
  | some name => name
  | none =>
    let (digits, e) := if x == 0.0 then (0, 0) else shortest x.abs
    signed x (positional digits e)

end HeadDriven.Decimal
