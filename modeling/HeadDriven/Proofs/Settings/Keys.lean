import HeadDriven.Proofs.Outcome
import HeadDriven.Settings.Reader

/-! The keys of settings. Each key has values of its own kind, reads them from text in its own way
and sets a field of its own; so settings are what they hold under their keys, and to assign a text
to the name of a key is to put the value read from it there. -/
namespace HeadDriven.Settings

inductive Key where
  | pruneFactor
  | maxCellSize
  | historyWindow
  | prevWordWindow
  | commaConstraint
  | futureCheck
  | equivalence
  | frames
  | maxSentenceLength
  | baseNpVerbBarrier
  deriving DecidableEq, Repr

namespace Key

def Value : Key → Type
  | pruneFactor => Float
  | maxCellSize | historyWindow | prevWordWindow | maxSentenceLength => Nat
  | commaConstraint | futureCheck | baseNpVerbBarrier => Bool
  | equivalence => Equivalence
  | frames => FrameKind

def name : Key → String
  | pruneFactor => "prune_factor"
  | maxCellSize => "max_cell_size"
  | historyWindow => "history_window"
  | prevWordWindow => "prev_word_window"
  | commaConstraint => "comma_constraint"
  | futureCheck => "future_check"
  | equivalence => "equivalence"
  | frames => "subcat"
  | maxSentenceLength => "max_sentence_length"
  | baseNpVerbBarrier => "base_np_verb_barrier"

def read? : (k : Key) → String → Option k.Value
  | pruneFactor, text => (number text).toOption
  | maxCellSize, text | historyWindow, text | prevWordWindow, text | maxSentenceLength, text =>
    (natural text).toOption
  | commaConstraint, text | futureCheck, text | baseNpVerbBarrier, text => (switch text).toOption
  | equivalence, text => (Equivalence.ofName text).toOption
  | frames, text => FrameKind.ofName? text

theorem name_injective : Function.Injective name := by
  intro k k' h
  cases k <;> cases k' <;> first | rfl | exact absurd h (by decide)

end Key

structure Setting where
  key : Key
  value : key.Value

variable {s t : Settings} {k : Key} {a : Assignment}

def get (s : Settings) : (k : Key) → k.Value
  | .pruneFactor => s.pruneFactor
  | .maxCellSize => s.maxCellSize
  | .historyWindow => s.historyWindow
  | .prevWordWindow => s.prevWordWindow
  | .commaConstraint => s.commaConstraint
  | .futureCheck => s.futureCheck
  | .equivalence => s.equivalence
  | .frames => s.frames
  | .maxSentenceLength => s.maxSentenceLength
  | .baseNpVerbBarrier => s.baseNpVerbBarrier

def put (s : Settings) : Setting → Settings
  | ⟨.pruneFactor, v⟩ => { s with pruneFactor := v }
  | ⟨.maxCellSize, v⟩ => { s with maxCellSize := v }
  | ⟨.historyWindow, v⟩ => { s with historyWindow := v }
  | ⟨.prevWordWindow, v⟩ => { s with prevWordWindow := v }
  | ⟨.commaConstraint, v⟩ => { s with commaConstraint := v }
  | ⟨.futureCheck, v⟩ => { s with futureCheck := v }
  | ⟨.equivalence, v⟩ => { s with equivalence := v }
  | ⟨.frames, v⟩ => { s with frames := v }
  | ⟨.maxSentenceLength, v⟩ => { s with maxSentenceLength := v }
  | ⟨.baseNpVerbBarrier, v⟩ => { s with baseNpVerbBarrier := v }

theorem eq_of_get (h : ∀ k, s.get k = t.get k) : s = t := by
  obtain ⟨⟩ := s
  obtain ⟨⟩ := t
  simp only [mk.injEq]
  exact ⟨h .pruneFactor, h .maxCellSize, h .historyWindow, h .prevWordWindow, h .commaConstraint,
    h .futureCheck, h .equivalence, h .frames, h .maxSentenceLength, h .baseNpVerbBarrier⟩

@[simp] theorem get_put (s : Settings) (k : Key) (v : k.Value) : (s.put ⟨k, v⟩).get k = v := by
  cases k <;> rfl

theorem get_put_of_ne {a : Setting} (h : a.key ≠ k) : (s.put a).get k = s.get k := by
  obtain ⟨key, v⟩ := a
  cases key <;> cases k <;> first | rfl | exact absurd rfl h

theorem put_put_of_eq {a b : Setting} (h : b.key = a.key) : (s.put a).put b = s.put b := by
  obtain ⟨k, v⟩ := a
  obtain ⟨k', w⟩ := b
  obtain rfl : k' = k := h
  cases k' <;> rfl

theorem put_comm {a b : Setting} (h : a.key ≠ b.key) : (s.put a).put b = (s.put b).put a := by
  obtain ⟨k, v⟩ := a
  obtain ⟨k', w⟩ := b
  refine eq_of_get fun other => ?_
  by_cases first : k = other
  · obtain rfl := first
    rw [get_put_of_ne (Ne.symm h), get_put, get_put]
  · by_cases second : k' = other
    · obtain rfl := second
      rw [get_put, get_put_of_ne h, get_put]
    · rw [get_put_of_ne second, get_put_of_ne first, get_put_of_ne first, get_put_of_ne second]

theorem assign_name (s : Settings) (k : Key) (text : String) :
    (s.assign ⟨k.name, text⟩).toOption = (k.read? text).map fun v => s.put ⟨k, v⟩ := by
  cases k with
  | frames =>
    simp only [assign, Key.name, Key.read?]
    cases FrameKind.ofName? text <;> rfl
  | _ => exact Outcome.toOption_map_mapError _ _ _

theorem exists_key (h : s.assign a = .ok t) : ∃ k : Key, k.name = a.key := by
  unfold assign at h
  split at h
  · exact ⟨.pruneFactor, Eq.symm ‹_›⟩
  · exact ⟨.maxCellSize, Eq.symm ‹_›⟩
  · exact ⟨.historyWindow, Eq.symm ‹_›⟩
  · exact ⟨.prevWordWindow, Eq.symm ‹_›⟩
  · exact ⟨.commaConstraint, Eq.symm ‹_›⟩
  · exact ⟨.futureCheck, Eq.symm ‹_›⟩
  · exact ⟨.equivalence, Eq.symm ‹_›⟩
  · exact ⟨.frames, Eq.symm ‹_›⟩
  · exact ⟨.maxSentenceLength, Eq.symm ‹_›⟩
  · exact ⟨.baseNpVerbBarrier, Eq.symm ‹_›⟩
  · cases h

theorem assign_eq_ok : s.assign a = .ok t ↔
    ∃ (k : Key) (v : k.Value), k.name = a.key ∧ k.read? a.value = some v ∧ s.put ⟨k, v⟩ = t := by
  have known (k : Key) (h : k.name = a.key) :
      s.assign a = .ok t ↔ ∃ v, k.read? a.value = some v ∧ s.put ⟨k, v⟩ = t := by
    rw [← Outcome.toOption_eq_some, ← Option.map_eq_some_iff, ← assign_name, h]
  constructor
  · intro h
    obtain ⟨k, name⟩ := exists_key h
    obtain ⟨v, reads, rfl⟩ := (known k name).mp h
    exact ⟨k, v, name, reads, rfl⟩
  · rintro ⟨k, v, name, h⟩
    exact (known k name).mpr ⟨v, h⟩

end HeadDriven.Settings
