/-! Which items count as interchangeable. The standard equivalence compares
everything that later events condition on; the others compare less of it. -/
namespace HeadDriven

inductive Equivalence where
  | standard
  | baseNp
  | startCollapsed
  | canonicalMods
  deriving DecidableEq, Repr

namespace Equivalence

structure Error where
  name : String
  deriving DecidableEq, Repr

def Error.message (e : Error) : String := s!"unknown equivalence policy {e.name}"

def name : Equivalence → String
  | .standard => "default"
  | .baseNp => "base-np"
  | .startCollapsed => "start-collapsed"
  | .canonicalMods => "canonical-mods"

def ofName : String → Except Error Equivalence
  | "default" => .ok .standard
  | "base-np" => .ok .baseNp
  | "start-collapsed" => .ok .startCollapsed
  | "canonical-mods" => .ok .canonicalMods
  | name => .error ⟨name⟩

end Equivalence

end HeadDriven
