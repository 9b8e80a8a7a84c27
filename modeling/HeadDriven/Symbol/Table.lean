import HeadDriven.Fault
import HeadDriven.Symbol

/-! Symbol tables. A table lists each new name under the next free id and keeps the id of every
name in a map beside that list. Map and list grow together, so the names of a table and the ids
below its size correspond one to one and never change. -/
namespace HeadDriven

/-- A map that gives names the ids under which they are listed, and no other names. -/
def SymbolTable.Agree (names : Array String) (ids : List (String × Symbol)) : Prop :=
  ∀ name s, ids.lookup name = some s ↔ names[s.id]? = some name

structure SymbolTable where
  names : Array String
  ids : List (String × Symbol)
  agree : SymbolTable.Agree names ids
  deriving DecidableEq, Repr

namespace SymbolTable

def blank : SymbolTable := ⟨#[], [], fun _ _ => by simp⟩

def size (t : SymbolTable) : Nat := t.names.size

def isEmpty (t : SymbolTable) : Bool := t.size == 0

def get? (t : SymbolTable) (name : String) : Option Symbol := t.ids.lookup name

def name? (t : SymbolTable) (s : Symbol) : Option String := t.names[s.id]?

def name (t : SymbolTable) (s : Symbol) : Except Fault String :=
  match t.name? s with
  | some text => .ok text
  | none => .error .unknownSymbol

theorem agree_push {names : Array String} {ids : List (String × Symbol)} {name : String}
    (h : Agree names ids) (fresh : ids.lookup name = none) :
    Agree (names.push name) ((name, ⟨names.size⟩) :: ids) := by
  intro other s
  have unlisted : names[s.id]? ≠ some name := fun listed => by
    rw [(h name s).mpr listed] at fresh
    cases fresh
  rw [List.lookup_cons, Array.getElem?_push]
  by_cases same : other = name
  · subst same
    rw [beq_self_eq_true]
    obtain ⟨id⟩ := s
    by_cases last : id = names.size
    · simp [last]
    · simp [last, Ne.symm last, unlisted]
  · rw [beq_false_of_ne same]
    by_cases last : s.id = names.size
    · simp [last, h other s, Ne.symm same]
    · rw [if_neg last]
      exact h other s

def enter (t : SymbolTable) (name : String) (fresh : t.get? name = none) : SymbolTable :=
  ⟨t.names.push name, (name, ⟨t.size⟩) :: t.ids, agree_push t.agree fresh⟩

def intern (t : SymbolTable) (name : String) : SymbolTable × Symbol :=
  match fresh : t.get? name with
  | some s => (t, s)
  | none => (t.enter name fresh, ⟨t.size⟩)

variable {t : SymbolTable} {name : String} {s : Symbol}

theorem get?_iff_name? : t.get? name = some s ↔ t.name? s = some name := t.agree name s

theorem get?_enter (fresh : t.get? name = none) (other : String) :
    (t.enter name fresh).get? other = if other = name then some ⟨t.size⟩ else t.get? other := by
  show List.lookup other ((name, ⟨t.size⟩) :: t.ids) = _
  rw [List.lookup_cons]
  by_cases same : other = name
  · rw [if_pos same, same, beq_self_eq_true]
  · rw [if_neg same, beq_false_of_ne same]
    rfl

theorem intern_of_get? (h : t.get? name = some s) : t.intern name = (t, s) := by
  unfold intern
  split <;> simp_all

theorem intern_of_fresh (fresh : t.get? name = none) :
    t.intern name = (t.enter name fresh, ⟨t.size⟩) := by
  unfold intern
  split <;> simp_all

-- Proofs go by these laws; evaluating a look-up is left to the kernel.
attribute [irreducible] get?

def internAll (t : SymbolTable) : List String → SymbolTable × List Symbol
  | [] => (t, [])
  | name :: rest =>
    let (t, s) := t.intern name
    let (t, symbols) := t.internAll rest
    (t, s :: symbols)

def sentinels : List String := ["+START+", "+STOP+", "+TOP+", "+UNKNOWN+"]

def empty : SymbolTable := (blank.internAll sentinels).1

def toList (t : SymbolTable) : List (Symbol × String) :=
  t.names.toList.zipIdx.map fun (name, id) => (⟨id⟩, name)

end SymbolTable

end HeadDriven
