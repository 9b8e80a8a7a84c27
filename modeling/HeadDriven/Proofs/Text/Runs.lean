import Mathlib.Data.List.TakeWhile

/-! Runs of characters of one kind. A run that is followed by a character of another kind, or by
nothing, is all that is cut off there, so it tells where it ends. -/
namespace HeadDriven.Text

variable {p : Char → Bool} {run other rest more : List Char}

theorem takeWhile_run (all : ∀ c ∈ run, p c = true) (stop : ∀ c ∈ rest.head?, p c = false) :
    (run ++ rest).takeWhile p = run ∧ (run ++ rest).dropWhile p = rest := by
  rw [List.takeWhile_append_of_pos all, List.dropWhile_append_of_pos all]
  cases rest with
  | nil => simp
  | cons c rest =>
    have other := stop c rfl
    simp [other]

theorem takeWhile_next_run (all : ∀ c ∈ run, p c = true) (next : other ≠ [])
    (stop : ∀ c ∈ other, p c = false) : (run ++ (other ++ rest)).takeWhile p = run ∧
      (run ++ (other ++ rest)).dropWhile p = other ++ rest := by
  obtain ⟨c, others, rfl⟩ := List.exists_cons_of_ne_nil next
  refine takeWhile_run all ?_
  rintro _ ⟨⟩
  exact stop c List.mem_cons_self

theorem run_append_inj (all : ∀ c ∈ run, p c = true) (stop : ∀ c ∈ rest.head?, p c = false)
    (all' : ∀ c ∈ other, p c = true) (stop' : ∀ c ∈ more.head?, p c = false)
    (h : run ++ rest = other ++ more) : run = other ∧ rest = more := by
  obtain ⟨first, second⟩ := takeWhile_run all stop
  obtain ⟨first', second'⟩ := takeWhile_run all' stop'
  rw [h] at first second
  exact ⟨first.symm.trans first', second.symm.trans second'⟩

end HeadDriven.Text
