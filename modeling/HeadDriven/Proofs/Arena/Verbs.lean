import HeadDriven.Proofs.Outcome
import HeadDriven.Proofs.Arena.Contents

/-! Whether an item dominates a verb. Without the remembered answers the question
is answered by walking down head children; the answers that an arena remembers
are sound when they are the answers of that walk. A question to a sound arena
gets the answer of the walk, and remembering it keeps the arena sound. -/
namespace HeadDriven.Arena

/-- Whether the item at a position dominates a verb, with nothing remembered. -/
def dominatesVerb (a : Arena) (language : Language) (barrier : Bool) (index : Nat) : Bool :=
  match a.built? index with
  | none => false
  | some item =>
    match item.verbClue language barrier with
    | .settled verb => verb
    | .atHead child => if child < index then a.dominatesVerb language barrier child else false
termination_by index

def itemVerb (a : Arena) (language : Language) (barrier : Bool) (item : Item) : Bool :=
  match item.verbClue language barrier with
  | .settled verb => verb
  | .atHead child => a.dominatesVerb language barrier child

/-- Every remembered answer is the answer of the walk down head children. -/
structure Remembers (a : Arena) (language : Language) (barrier : Bool) : Prop where
  size : a.verbs.size = a.items.size
  verb : ∀ index verb, a.verbs.getD index none = some verb →
    a.dominatesVerb language barrier index = verb

variable {a b : Arena} {language : Language} {barrier : Bool} {index : Nat} {item : Item}

theorem verbClue_copy (item : Item) :
    item.copy.verbClue language barrier = item.verbClue language barrier := rfl

theorem headChild_of_verbClue {child : Nat}
    (h : item.verbClue language barrier = .atHead child) : item.headChild = some child := by
  unfold Item.verbClue at h
  split at h
  · cases h
  · split at h
    · cases h
    · split at h
      · cases h
        assumption
      · cases h

theorem itemVerb_copy (item : Item) :
    a.itemVerb language barrier item.copy = a.itemVerb language barrier item := by
  unfold itemVerb
  rw [verbClue_copy]

theorem dominatesVerb_eq_itemVerb (linked : a.Linked) (h : a.built? index = some item) :
    a.dominatesVerb language barrier index = a.itemVerb language barrier item := by
  rw [dominatesVerb, h, itemVerb]
  simp only
  split
  · rfl
  · rename_i child clue
    rw [if_pos (linked index item child h (headChild_of_verbClue clue))]

theorem Extends.dominatesVerb (hab : a.Extends b) (h : index < a.size) :
    b.dominatesVerb language barrier index = a.dominatesVerb language barrier index := by
  induction index using Nat.strongRecOn with
  | ind index ih =>
    rw [Arena.dominatesVerb, Arena.dominatesVerb, hab.built? index h]
    obtain ⟨item, hitem⟩ := exists_built? h
    rw [hitem]
    simp only
    split
    · rfl
    · split
      · rename_i child _ below
        exact ih child below (Nat.lt_trans below h)
      · rfl

theorem Extends.itemVerb (hab : a.Extends b)
    (h : ∀ child, item.headChild = some child → child < a.size) :
    b.itemVerb language barrier item = a.itemVerb language barrier item := by
  unfold Arena.itemVerb
  split
  · rfl
  · rename_i child clue
    exact hab.dominatesVerb (h child (headChild_of_verbClue clue))

theorem askVerb_eq (sound : a.Remembers language barrier) (linked : a.Linked)
    (h : index < a.size) :
    ∃ asked, a.askVerb language barrier index =
        .ok (a.dominatesVerb language barrier index, asked) ∧
      ∀ i ∈ asked, a.dominatesVerb language barrier i =
        a.dominatesVerb language barrier index := by
  induction index using Nat.strongRecOn with
  | ind index ih =>
    rw [askVerb]
    split
    · rename_i verb remembered
      rw [sound.verb index verb remembered]
      exact ⟨[], rfl, by simp⟩
    · obtain ⟨item, hitem⟩ := exists_get h
      have hbuilt := built?_of_get hitem
      have heq : a.dominatesVerb language barrier index = a.itemVerb language barrier item := by
        rw [dominatesVerb_eq_itemVerb linked hbuilt, itemVerb_copy]
      rw [hitem, Outcome.ok_bind]
      split
      · rename_i verb clue
        have hv : a.dominatesVerb language barrier index = verb := by
          rw [heq, itemVerb, clue]
        exact ⟨[index], by rw [hv]; rfl, by simp⟩
      · rename_i child clue
        have below := linked index item.copy child hbuilt (headChild_of_verbClue clue)
        have hc : a.dominatesVerb language barrier index =
            a.dominatesVerb language barrier child := by
          rw [heq, itemVerb, clue]
        obtain ⟨asked, hask, same⟩ := ih child below (Nat.lt_trans below h)
        refine ⟨index :: asked, ?_, ?_⟩
        · rw [if_pos below, hask, hc]
          rfl
        · intro i hi
          rcases List.mem_cons.mp hi with rfl | hi
          · rfl
          · rw [same i hi, hc]

theorem verbOf_eq (sound : a.Remembers language barrier) (linked : a.Linked)
    (h : ∀ child, item.headChild = some child → child < a.size) :
    ∃ asked, a.verbOf language barrier item none =
        .ok (a.itemVerb language barrier item, asked) ∧
      ∀ i ∈ asked, a.dominatesVerb language barrier i = a.itemVerb language barrier item := by
  unfold verbOf itemVerb
  cases clue : item.verbClue language barrier with
  | settled verb => exact ⟨[], rfl, by simp⟩
  | atHead child => exact askVerb_eq sound linked (h child (headChild_of_verbClue clue))

@[simp] theorem items_remember (asked : List Nat) (verb : Bool) :
    (a.remember asked verb).items = a.items := rfl

theorem verbs_remember (asked : List Nat) (verb : Bool) :
    (a.remember asked verb).verbs.size = a.verbs.size ∧
      ∀ i, (a.remember asked verb).verbs.getD i none = a.verbs.getD i none ∨
        i ∈ asked ∧ (a.remember asked verb).verbs.getD i none = some verb := by
  suffices general : ∀ verbs : Array (Option Bool),
      (asked.foldl (fun verbs i => verbs.setIfInBounds i (some verb)) verbs).size = verbs.size ∧
        ∀ i, (asked.foldl (fun verbs i => verbs.setIfInBounds i (some verb)) verbs).getD i none =
            verbs.getD i none ∨
          i ∈ asked ∧ (asked.foldl (fun verbs i => verbs.setIfInBounds i (some verb)) verbs).getD
            i none = some verb from general a.verbs
  induction asked with
  | nil => simp
  | cons j asked ih =>
    intro verbs
    obtain ⟨hsize, hget⟩ := ih (verbs.setIfInBounds j (some verb))
    refine ⟨by simpa using hsize, fun i => ?_⟩
    rw [List.foldl_cons]
    rcases hget i with hkept | ⟨hi, hset⟩
    · by_cases hij : j = i ∧ i < verbs.size
      · obtain ⟨rfl, hlt⟩ := hij
        right
        rw [hkept]
        simp [Array.getD_eq_getD_getElem?, hlt]
      · left
        rw [hkept, Array.getD_eq_getD_getElem?, Array.getD_eq_getD_getElem?,
          Array.getElem?_setIfInBounds]
        split
        · rename_i hj
          have hge : verbs.size ≤ i := Nat.le_of_not_lt fun hlt => hij ⟨hj, hlt⟩
          simp [hj, Nat.not_lt.mpr hge]
        · rfl
    · exact Or.inr ⟨List.mem_cons_of_mem _ hi, hset⟩

theorem Remembers.remember (sound : a.Remembers language barrier) {asked : List Nat}
    {verb : Bool} (h : ∀ i ∈ asked, a.dominatesVerb language barrier i = verb) :
    (a.remember asked verb).Remembers language barrier := by
  obtain ⟨hsize, hget⟩ := verbs_remember (a := a) asked verb
  have same (i : Nat) : (a.remember asked verb).dominatesVerb language barrier i =
      a.dominatesVerb language barrier i := by
    by_cases hi : i < a.size
    · exact (Extends.of_items (items_remember asked verb)).dominatesVerb hi
    · have hnone : a.items[i]? = none := Array.getElem?_eq_none (Nat.le_of_not_lt hi)
      rw [dominatesVerb, dominatesVerb]
      simp [built?, hnone]
  refine ⟨by rw [hsize, sound.size, items_remember], fun i v hv => ?_⟩
  rw [same]
  rcases hget i with hkept | ⟨hi, hset⟩
  · exact sound.verb i v (hkept ▸ hv)
  · rw [hset, Option.some.injEq] at hv
    rw [h i hi, hv]

theorem Remembers.push_markAll (sound : a.Remembers language barrier) {known : Option Bool}
    (lost : List Nat)
    (h : ∀ child, item.headChild = some child → child < a.size)
    (hknown : ∀ verb, known = some verb → a.itemVerb language barrier item = verb) :
    (lost.foldl markGarbage (a.push item known)).Remembers language barrier := by
  have grows := extends_push_markAll (a := a) item known lost
  have hsize : (a.push item known).verbs.size = (a.push item known).items.size := by
    simp [push, sound.size]
  refine ⟨?_, fun i verb hv => ?_⟩
  · have hitems := size_markAll (a := a.push item known) lost
    rw [verbs_markAll, hsize]
    exact hitems.symm
  · rw [verbs_markAll] at hv
    have hlt : i < (a.push item known).verbs.size := by
      refine Nat.lt_of_not_le fun hge => ?_
      simp [Array.getD_eq_getD_getElem?, Array.getElem?_eq_none hge] at hv
    rcases Nat.lt_or_ge i a.size with hi | hi
    · rw [grows.dominatesVerb hi]
      have hne : i ≠ a.verbs.size := by
        rw [sound.size]
        exact Nat.ne_of_lt hi
      refine sound.verb i verb ?_
      simpa [push, Array.getD_eq_getD_getElem?, Array.getElem?_push, hne] using hv
    · have heq : i = a.size := by
        have grown : i < (a.push item known).size := Nat.lt_of_lt_of_eq hlt hsize
        rw [size_push] at grown
        omega
      subst heq
      have hlast : known = some verb := by
        have hsame : a.size = a.verbs.size := sound.size.symm
        rw [hsame] at hv
        simpa [push, Array.getD_eq_getD_getElem?] using hv
      rw [dominatesVerb, built?_markAll, built?_push_size]
      simp only [verbClue_copy]
      rw [← hknown verb hlast, itemVerb]
      split
      · rfl
      · rename_i child clue
        have below := h child (headChild_of_verbClue clue)
        rw [if_pos below, grows.dominatesVerb below]

end HeadDriven.Arena
