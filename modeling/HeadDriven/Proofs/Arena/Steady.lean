import HeadDriven.Proofs.Arena.Keys

/-! Answers that stay. What is remembered of the verbs of stored items may come from outside, so
it need not be sound; even so a question to a stored item gets the same answer for as long as its
arena lasts. Remembering an answer tells every item that was asked what it would have answered,
and storing another item asks none of those before it. -/
namespace HeadDriven.Arena

/-- What the item at a position answers when it is asked whether it dominates a verb. -/
def answer (a : Arena) (language : Language) (barrier : Bool) (index : Nat) : Except Fault Bool :=
  (a.askVerb language barrier index).map Prod.fst

def answerOf (a : Arena) (language : Language) (barrier : Bool) (item : Item)
    (known : Option Bool) : Except Fault Bool :=
  (a.verbOf language barrier item known).map Prod.fst

/-- An arena that extends another and answers all questions to its items alike. -/
structure Steady (language : Language) (barrier : Bool) (a b : Arena) : Prop
    extends a.Extends b where
  answers : ∀ index < a.size, b.answer language barrier index = a.answer language barrier index

variable {a b : Arena} {language : Language} {barrier verb : Bool} {index : Nat} {item : Item}
  {known : Option Bool} {asked : List Nat}

theorem Steady.refl (a : Arena) : Steady language barrier a a := ⟨.refl a, fun _ _ => rfl⟩

theorem Steady.trans {c : Arena} (h : Steady language barrier a b)
    (h' : Steady language barrier b c) : Steady language barrier a c where
  toExtends := h.toExtends.trans h'.toExtends
  answers index hi := by
    rw [h'.answers index (Nat.lt_of_lt_of_le hi h.size_le), h.answers index hi]

theorem answer_remembered (h : a.verbs.getD index none = some verb) :
    a.answer language barrier index = .ok verb := by
  rw [answer, askVerb, h]
  rfl

theorem answer_forgotten (h : a.verbs.getD index none = none)
    (stored : a.built? index = some item) : a.answer language barrier index =
      match item.verbClue language barrier with
      | .settled verb => .ok verb
      | .atHead child =>
        if child < index then a.answer language barrier child else .error .danglingLink := by
  obtain ⟨held, hheld, rfl⟩ := built?_eq_some_iff.mp stored
  rw [answer, askVerb, h, get_eq_ok_iff.mpr hheld, verbClue_copy, Outcome.ok_bind]
  cases held.verbClue language barrier with
  | settled verb => rfl
  | atHead child =>
    dsimp only
    split
    · rw [answer]
      cases a.askVerb language barrier child <;> rfl
    · rfl

theorem answer_of_asked (h : a.askVerb language barrier index = .ok (verb, asked)) :
    ∀ i ∈ asked, a.answer language barrier i = .ok verb := by
  induction index using Nat.strongRecOn generalizing asked with
  | ind index ih =>
    have first : a.answer language barrier index = .ok verb := by rw [answer, h]; rfl
    rw [askVerb] at h
    split at h
    · cases h
      simp
    · obtain ⟨item, -, h⟩ := Outcome.bind_eq_ok.mp h
      split at h
      · cases h
        simpa using first
      · rename_i child clue
        split at h
        · rename_i below
          obtain ⟨⟨verb', rest⟩, hask, h⟩ := Outcome.bind_eq_ok.mp h
          cases h
          exact List.forall_mem_cons.mpr ⟨first, ih child below hask⟩
        · cases h

theorem answer_of_asked_for (h : a.verbOf language barrier item known = .ok (verb, asked)) :
    ∀ i ∈ asked, a.answer language barrier i = .ok verb := by
  unfold verbOf at h
  split at h
  · cases h
    simp
  · split at h
    · cases h
      simp
    · exact answer_of_asked h

theorem Extends.steady (grows : a.Extends b) (remembered : ∀ i < a.size,
      b.verbs.getD i none = a.verbs.getD i none ∨
        ∃ verb, b.verbs.getD i none = some verb ∧ a.answer language barrier i = .ok verb) :
    Steady language barrier a b where
  toExtends := grows
  answers index hi := by
    induction index using Nat.strongRecOn with
    | ind index ih =>
      rcases remembered index hi with same | ⟨verb, told, answer⟩
      · obtain ⟨item, stored⟩ := exists_built? hi
        cases hverb : a.verbs.getD index none with
        | some verb =>
          rw [answer_remembered hverb, answer_remembered (same.trans hverb)]
        | none =>
          rw [answer_forgotten hverb stored,
            answer_forgotten (same.trans hverb) (grows.holds stored)]
          cases item.verbClue language barrier with
          | settled verb => rfl
          | atHead child =>
            dsimp only
            split
            · rename_i below
              exact ih child below (Nat.lt_trans below hi)
            · rfl
      · rw [answer_remembered told, answer]

theorem steady_remember (h : ∀ i ∈ asked, a.answer language barrier i = .ok verb) :
    Steady language barrier a (a.remember asked verb) := by
  obtain ⟨-, told⟩ := verbs_remember (a := a) asked verb
  refine (Extends.of_items (items_remember asked verb)).steady fun i _ => ?_
  exact (told i).imp_right fun ⟨hi, set⟩ => ⟨verb, set, h i hi⟩

theorem Steady.answerOf (h : Steady language barrier a b) (head : a.HasHead item)
    (known : Option Bool) :
    b.answerOf language barrier item known = a.answerOf language barrier item known := by
  unfold Arena.answerOf verbOf
  split
  · rfl
  · cases clue : item.verbClue language barrier with
    | settled verb => rfl
    | atHead child => exact h.answers child (head child (headChild_of_verbClue clue))

end HeadDriven.Arena
