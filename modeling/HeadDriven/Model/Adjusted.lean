import HeadDriven.Model

/-! Models whose attachments look further back. To the log probability of an
attachment event they add one weighted count for each of the used history slots,
the slots that repeat the modifier label, an intervening verb and the pending
requirements. -/
namespace HeadDriven.Model

structure Weights where
  used : Option Float
  same : Option Float
  verb : Option Float
  pending : Option Float

namespace Weights

def zero : Weights := ⟨none, none, none, none⟩

def term (weight : Option Float) (count : Nat) : Float :=
  match weight with
  | some w => w * Float.ofNat count
  | none => 0.0

def apply (w : Weights) (e : ModifierEvent) (base : Float) : Float :=
  base + term w.used (e.history.countP (· ≠ Symbol.start))
    + term w.same (e.history.count e.modLabel)
    + term w.verb (if e.verbIntervening then 1 else 0)
    + term w.pending e.frame.size

end Weights

def adjusted (base : Model) (modifier stop : Weights) : Model :=
  { base with
    modifier := fun e => modifier.apply e (base.modifier e)
    stop := fun e => stop.apply e (base.stop e) }

def withoutFutures (base : Model) : Model := { base with futurePossible := fun _ _ => false }

end HeadDriven.Model
