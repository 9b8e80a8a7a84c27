/-! Reading decimal numbers. A number is an optional sign and either a name of
an infinite or undefined value or digits with an optional point and power of
ten; its value is the double nearest to the number as written. -/
namespace HeadDriven.Decimal

def isDigit (c : Char) : Bool := '0' ≤ c && c ≤ '9'

def digitsValue (digits : List Char) : Nat :=
  digits.foldl (fun n c => 10 * n + (c.toNat - '0'.toNat)) 0

/-- The double nearest to `significand` times ten to the `exponent`. Beyond the bounds below
every nonzero significand gives infinity or zero. -/
def nearest (significand : Nat) (exponent : Int) : Float :=
  let size := (Nat.toDigits 10 significand).length
  if significand = 0 then 0.0
  else if 310 < exponent + size then 1.0 / 0.0
  else if exponent + size < -330 then 0.0
  else Float.ofScientific significand (exponent < 0) exponent.natAbs

def negateIf (negative : Bool) (x : Float) : Float := if negative then -x else x

/-- Cuts off a sign; true stands for minus. -/
def splitSign : List Char → Bool × List Char
  | '-' :: rest => (true, rest)
  | '+' :: rest => (false, rest)
  | text => (false, text)

def exponent? : List Char → Option Int
  | [] => some 0
  | c :: rest =>
    let (negative, digits) := splitSign rest
    if (c = 'e' ∨ c = 'E') ∧ digits ≠ [] ∧ digits.all isDigit then
      let value : Int := digitsValue digits
      some (if negative then -value else value)
    else none

def splitPlaces : List Char → List Char × List Char
  | '.' :: rest => (rest.takeWhile isDigit, rest.dropWhile isDigit)
  | text => ([], text)

def unsigned? (text : List Char) : Option Float :=
  let whole := text.takeWhile isDigit
  let (places, rest) := splitPlaces (text.dropWhile isDigit)
  if whole = [] ∧ places = [] then none
  else (exponent? rest).map fun e => nearest (digitsValue (whole ++ places)) (e - places.length)

def named? (text : List Char) : Option Float :=
  let name := String.ofList (text.map Char.toLower)
  if name = "inf" ∨ name = "infinity" then some (1.0 / 0.0)
  else if name = "nan" then some (0.0 / 0.0)
  else none

def toFloat? (text : List Char) : Option Float :=
  let (negative, body) := splitSign text
  ((named? body).or (unsigned? body)).map (negateIf negative)

end HeadDriven.Decimal
