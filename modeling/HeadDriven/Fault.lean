/-! Broken contracts and a full arena. A `Fault` records why an operation could
not be carried out, on values that no caller may hand in or for want of a position
to give out; `Fault.message` is its only wording.
Outcomes that a caller may expect are ordinary results and never faults. -/
namespace HeadDriven

inductive Fault where
  | unknownSymbol
  | danglingLink
  | outsideChart (first last size : Nat)
  | spanMismatch (first last cellFirst cellLast : Nat)
  | headlessTop
  | wrongWindow
  | mixedPolicies
  | arenaOverflow
  deriving DecidableEq, Repr

def Fault.message : Fault → String
  | .unknownSymbol => "symbol not from this table"
  | .danglingLink => "Invalid ItemIdx"
  | .outsideChart first last size =>
    s!"chart cell ({first}, {last}) out of bounds for sentence of length {size}"
  | .spanMismatch first last cellFirst cellLast =>
    s!"item spanning ({first}, {last}) added to cell ({cellFirst}, {cellLast})"
  | .headlessTop => "top items have a head child"
  | .wrongWindow => "assertion `left == right` failed: history has wrong window size"
  | .mixedPolicies => "assertion `left == right` failed: " ++
      "compared item keys built under different equivalence policies"
  | .arenaOverflow => "item arena overflowed u32: TryFromIntError(())"

end HeadDriven
