import HeadDriven.Proofs.Search.Caching
import HeadDriven.Proofs.Model.Entering
import Mathlib.Data.Finset.Card
import Mathlib.Data.Finset.Dedup

/-! Caches of histories as their callers see them. Whatever a cache is asked, it hands out what
would be worked out without it: histories of full width, each shift the latest labels of the
history that is shifted. It has entered just the histories that it has handed out, each of them
once, and a request that it refuses leaves it as it was. -/
namespace HeadDriven.HistoryCache

open Model.Table (appendNew mem_appendNew nodup_appendNew)

inductive Request where
  | start
  | intern (labels : List Symbol)
  | shift (h : History) (label : Symbol)

/-- Only histories that were handed out are shifted. -/
def Request.Fair (handed : List History) : Request → Prop
  | .shift h _ => h ∈ handed
  | .start | .intern _ => True

/-- A cache that refuses a request stays as it was. -/
def settle (c : HistoryCache) :
    Except Fault (HistoryCache × History) → Except Fault History × HistoryCache
  | .ok (next, h) => (.ok h, next)
  | .error fault => (.error fault, c)

def ask (c : HistoryCache) : Request → Except Fault History × HistoryCache
  | .start => (.ok c.start, c)
  | .intern labels => c.settle (c.intern labels)
  | .shift h label => c.settle (c.shift h label)

/-- A cache for a window after some requests, with the histories that it has handed out. -/
inductive Runs (window : Nat) : HistoryCache → List History → Prop where
  | empty : Runs window (empty window) []
  | ask {c : HistoryCache} {handed : List History} {q : Request} (run : Runs window c handed)
      (fair : q.Fair handed) : Runs window (c.ask q).2 (handed ++ (c.ask q).1.toOption.toList)

abbrev InPlace := ExceptT Fault (StateM HistoryCache)

def InPlace.on {α : Type} (act : InPlace α) (c : HistoryCache) : Except Fault α × HistoryCache :=
  act.run.run c

def internInPlace (labels : List Symbol) : InPlace History := do
  let c ← get
  if labels.length ≠ c.window then throw .wrongWindow
  if c.known.contains labels then return labels
  set { c with known := c.known ++ [labels] }
  return labels

def shiftInPlace (h : History) (label : Symbol) : InPlace History := do
  let c ← get
  match c.shifts.lookup (h, label) with
  | some shifted => return shifted
  | none =>
    let shifted ← internInPlace (History.shift c.window h label)
    modify fun c => { c with shifts := ((h, label), shifted) :: c.shifts }
    return shifted

def Request.inPlace : Request → InPlace History
  | .start => return (← get).start
  | .intern labels => internInPlace labels
  | .shift h label => shiftInPlace h label

theorem InPlace.on_get_bind {α : Type} (f : HistoryCache → InPlace α) (c : HistoryCache) :
    (get >>= f : InPlace α).on c = (f c).on c := rfl

theorem on_internInPlace (c : HistoryCache) (labels : List Symbol) :
    (internInPlace labels).on c = c.settle (c.intern labels) := by
  rw [internInPlace, InPlace.on_get_bind, intern, enter]
  by_cases full : labels.length = c.window <;> by_cases known : labels ∈ c.known <;>
    simp only [full, List.contains_iff_mem, known, ne_eq, not_true, not_false_eq_true, if_true,
      if_false] <;> rfl

theorem on_shiftInPlace (c : HistoryCache) (h : History) (label : Symbol) :
    (shiftInPlace h label).on c = c.settle (c.shift h label) := by
  have interned := on_internInPlace c (History.shift c.window h label)
  rw [InPlace.on] at interned
  rw [shiftInPlace, InPlace.on_get_bind, shift]
  cases c.shifts.lookup (h, label) with
  | some shifted => rfl
  | none =>
    dsimp only
    rw [InPlace.on, ExceptT.run_bind, StateT.run_bind, interned]
    cases c.intern (History.shift c.window h label) <;> rfl

theorem on_inPlace (c : HistoryCache) (q : Request) : q.inPlace.on c = c.ask q := by
  cases q with
  | start => rfl
  | intern labels => exact on_internInPlace c labels
  | shift h label => exact on_shiftInPlace c h label

structure Serves (c : HistoryCache) (window : Nat) (handed : List History) : Prop where
  sound : c.Sound window
  kept : ∀ h label shifted, c.shifts.lookup (h, label) = some shifted → shifted ∈ c.known
  known_iff : ∀ h, h ∈ c.known ↔ h = History.start window ∨ h ∈ handed
  distinct : c.known.Nodup
  full : ∀ h ∈ c.known, h.length = window

variable {c : HistoryCache} {window : Nat} {handed : List History} {h : History}

theorem serves_empty (window : Nat) : (empty window).Serves window [] where
  sound := sound_empty window
  kept _ _ _ h := by simp [empty] at h
  known_iff h := by simp [empty]
  distinct := List.nodup_singleton _
  full h hh := by
    rw [List.mem_singleton.mp hh]
    exact List.length_replicate

theorem Serves.hand (serves : c.Serves window handed) (known : h ∈ c.known) :
    c.Serves window (handed ++ [h]) where
  __ := serves
  known_iff h' := by
    rw [List.mem_append, List.mem_singleton, ← or_assoc, ← serves.known_iff h']
    exact ⟨Or.inl, fun either => either.elim id fun same => same ▸ known⟩

theorem known_enter (c : HistoryCache) (h : History) : (c.enter h).known = appendNew c.known h := by
  unfold enter appendNew
  split <;> rfl

theorem mem_enter_iff {h' : History} : h' ∈ (c.enter h).known ↔ h' ∈ c.known ∨ h' = h := by
  rw [known_enter, mem_appendNew]

theorem Serves.enter (serves : c.Serves window handed) (full : h.length = window) :
    (c.enter h).Serves window (handed ++ [h]) where
  sound := by
    obtain ⟨width, shifts⟩ := c.enter_spec h
    exact ⟨width.trans serves.sound.width, shifts ▸ serves.sound.shifts⟩
  kept h' label shifted found := by
    rw [(c.enter_spec h).2] at found
    exact mem_enter_iff.mpr (Or.inl (serves.kept h' label shifted found))
  known_iff h' := by
    rw [mem_enter_iff, serves.known_iff, List.mem_append, List.mem_singleton, or_assoc]
  distinct := known_enter c h ▸ nodup_appendNew serves.distinct h
  full h' hh' := by
    rcases mem_enter_iff.mp hh' with known | rfl
    · exact serves.full h' known
    · exact full

theorem Serves.remember (serves : c.Serves window handed) (full : h.length = window)
    (label : Symbol) :
    let shifted := History.shift window h label
    Serves { c.enter shifted with shifts := ((h, label), shifted) :: c.shifts } window
      (handed ++ [shifted]) := by
  intro shifted
  have entered := serves.enter (length_shift full : shifted.length = window)
  refine { entered with sound := serves.sound.remember h label, kept := ?_ }
  intro h' label' other found
  rw [List.lookup_cons] at found
  split at found
  · rw [← Option.some.inj found]
    exact mem_enter_iff.mpr (Or.inr rfl)
  · exact mem_enter_iff.mpr (Or.inl (serves.kept h' label' other found))

theorem Serves.ask (serves : c.Serves window handed) {q : Request} (fair : q.Fair handed) :
    (c.ask q).2.Serves window (handed ++ (c.ask q).1.toOption.toList) := by
  obtain rfl := serves.sound.width
  cases q with
  | start => exact serves.hand ((serves.known_iff _).mpr (Or.inl rfl))
  | intern labels =>
    by_cases full : labels.length = c.window
    · rw [HistoryCache.ask, intern_of_full full]
      exact serves.enter full
    · rw [HistoryCache.ask, intern_of_not_full full]
      exact (List.append_nil handed).symm ▸ serves
  | shift h label =>
    have full := serves.full h ((serves.known_iff h).mpr (Or.inr fair))
    cases found : c.shifts.lookup (h, label) with
    | some shifted =>
      rw [HistoryCache.ask, shift_of_lookup found]
      exact serves.hand (serves.kept h label shifted found)
    | none =>
      rw [HistoryCache.ask, shift_of_fresh found full]
      exact serves.remember full label

theorem Runs.serves (run : Runs window c handed) : c.Serves window handed := by
  induction run with
  | empty => exact serves_empty window
  | ask _ fair ih => exact ih.ask fair

/-- Caches answer what would be worked out without them: all histories that are handed out have
full width, a shift gives the latest labels of what is shifted, and labels of full width are
handed out as they are. Labels of any other width are refused, and the cache stays as it was, also
if it is changed in place. Its size is the number of the histories it has handed out, the first
one always counted. -/
theorem answers_as_computed (run : Runs window c handed) :
    (∀ h ∈ handed, h.length = window) ∧
    c.ask .start = (.ok (List.replicate window Symbol.start), c) ∧
    (∀ h ∈ handed, ∀ label, ∃ next,
      c.ask (.shift h label) = (.ok ((label :: h).take window), next)) ∧
    (∀ labels, labels.length = window → ∃ next, c.ask (.intern labels) = (.ok labels, next)) ∧
    (∀ labels, labels.length ≠ window → c.ask (.intern labels) = (.error .wrongWindow, c)) ∧
    c.size = (insert (History.start window) handed.toFinset).card ∧
    ∀ q : Request, q.inPlace.on c = c.ask q := by
  have serves := run.serves
  obtain rfl := serves.sound.width
  have full (h) (hh : h ∈ handed) : h.length = c.window :=
    serves.full h ((serves.known_iff h).mpr (Or.inr hh))
  refine ⟨full, rfl, fun h hh label => ?_, fun labels width => ?_, fun labels width => ?_, ?_,
    on_inPlace c⟩
  · obtain ⟨next, answer, -⟩ := serves.sound.shift_eq (full h hh) label
    exact ⟨next, by rw [HistoryCache.ask, answer, History.shift_eq]; rfl⟩
  · exact ⟨c.enter labels, by rw [HistoryCache.ask, intern_of_full width]; rfl⟩
  · rw [HistoryCache.ask, intern_of_not_full width]
    rfl
  · have entered : c.known.toFinset = insert (History.start c.window) handed.toFinset := by
      ext h
      rw [List.mem_toFinset, Finset.mem_insert, List.mem_toFinset]
      exact serves.known_iff h
    rw [← entered, List.toFinset_card_of_nodup serves.distinct]
    rfl

/-- A shift that is asked for twice, between labels of another width and the same shift entered
by hand. -/
theorem sample_answers : ∃ c, Runs 2 c [[⟨0⟩, ⟨0⟩], [⟨10⟩, ⟨0⟩], [⟨10⟩, ⟨0⟩], [⟨10⟩, ⟨0⟩]] ∧
    c.size = 2 ∧ c.ask (.intern [⟨10⟩]) = (.error .wrongWindow, c) ∧
    ∃ next, c.ask (.shift [⟨10⟩, ⟨0⟩] ⟨11⟩) = (.ok [⟨11⟩, ⟨10⟩], next) := by
  have first : Runs 2 _ [[⟨0⟩, ⟨0⟩]] := Runs.empty.ask (q := .start) trivial
  have second : Runs 2 _ [[⟨0⟩, ⟨0⟩], [⟨10⟩, ⟨0⟩]] :=
    first.ask (q := .shift [⟨0⟩, ⟨0⟩] ⟨10⟩) (List.mem_singleton_self _)
  have refused : Runs 2 _ [[⟨0⟩, ⟨0⟩], [⟨10⟩, ⟨0⟩]] := second.ask (q := .intern [⟨10⟩]) trivial
  have third : Runs 2 _ [[⟨0⟩, ⟨0⟩], [⟨10⟩, ⟨0⟩], [⟨10⟩, ⟨0⟩]] :=
    refused.ask (q := .intern [⟨10⟩, ⟨0⟩]) trivial
  have last : Runs 2 _ [[⟨0⟩, ⟨0⟩], [⟨10⟩, ⟨0⟩], [⟨10⟩, ⟨0⟩], [⟨10⟩, ⟨0⟩]] :=
    third.ask (q := .shift [⟨0⟩, ⟨0⟩] ⟨10⟩) List.mem_cons_self
  obtain ⟨-, -, shifts, -, refuses, size, -⟩ := answers_as_computed last
  exact ⟨_, last, size.trans (by decide), refuses _ (by decide), shifts _ (by decide) _⟩

end HeadDriven.HistoryCache
