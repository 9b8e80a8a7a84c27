import HeadDriven.Proofs.LogProb.Order
import HeadDriven.Proofs.Model.Writing

/-! Reading model texts. Whatever can be read is a list of well-formed statements; in particular,
none of them gives an event a positive log probability. -/
namespace HeadDriven.Model

def Statement.logProb? : Statement → Option Float
  | .tags _ _ => none
  | .prior _ _ logProb => some logProb
  | .head _ _ _ _ logProb => some logProb
  | .modifier _ _ _ _ logProb => some logProb
  | .stop _ _ _ logProb => some logProb

def Statement.Discounts (s : Statement) : Prop := ∀ v ∈ s.logProb?, ¬0.0 < v

instance : DecidablePred Statement.Discounts := fun s =>
  inferInstanceAs (Decidable (∀ v ∈ s.logProb?, ¬0.0 < v))

variable {text : List Char} {s : Statement} {rest : NoLonger text} {name first second : String}
  {names : List String}

theorem isName_of_readName {rest : Shorter text} (solid : Solid text)
    (h : readName text = .ok (name, rest)) : IsName name := by
  unfold readName at h
  split at h
  · cases h
  · rename_i nonempty
    cases h
    refine ⟨fun empty => nonempty (String.ofList_eq_empty_iff.mp empty), fun c hc => ?_, ?_⟩
    · rw [String.toList_ofList] at hc
      exact isNameChar_iff.mp (List.mem_takeWhile_imp hc)
    · rw [String.toList_ofList]
      intro comment
      obtain ⟨tail, htext⟩ := comment.trans (List.takeWhile_prefix _)
      exact (solid '/' ('/' :: tail) htext.symm).2 ⟨rfl, rfl⟩

theorem isName_of_readSpacedName {rest : Shorter text}
    (h : readSpacedName text = .ok (name, rest)) : IsName name ∧ Solid rest.1 := by
  obtain ⟨⟨name, tail⟩, read, h⟩ := Outcome.bind_eq_ok.mp h
  cases h
  exact ⟨isName_of_readName (solid_skip text) read, solid_skip _⟩

theorem isName_of_readPair {rest : Shorter text} (h : readPair text = .ok (first, second, rest)) :
    IsName first ∧ IsName second ∧ Solid rest.1 := by
  obtain ⟨⟨first, middle⟩, read, h⟩ := Outcome.bind_eq_ok.mp h
  obtain ⟨⟨second, tail⟩, read', h⟩ := Outcome.bind_eq_ok.mp h
  cases h
  obtain ⟨isSecond, solid⟩ := isName_of_readSpacedName read'
  exact ⟨(isName_of_readSpacedName read).1, isSecond, solid⟩

theorem isName_of_readTags (solid : Solid text) (h : readTags text = .ok (names, rest)) :
    ∀ name ∈ names, IsName name := by
  fun_induction readTags text generalizing names with
  | case1 text closed =>
    cases h
    exact fun _ hname => absurd hname List.not_mem_nil
  | case2 text more ih =>
    obtain ⟨⟨name, middle⟩, read, h⟩ := Outcome.bind_eq_ok.mp h
    obtain ⟨⟨others, tail⟩, read', h⟩ := Outcome.bind_eq_ok.mp h
    cases h
    exact List.forall_mem_cons.mpr
      ⟨isName_of_readName solid read, ih _ middle.2 (solid_skip _) read'⟩

theorem isName_of_readFrameNames {rest : Shorter text}
    (h : readFrameNames text = .ok (names, rest)) : ∀ name ∈ names, IsName name := by
  fun_induction readFrameNames text generalizing names with
  | case1 text tail closed bound =>
    cases h
    exact fun _ hname => absurd hname List.not_mem_nil
  | case2 text more bound ih =>
    obtain ⟨⟨name, middle⟩, read, h⟩ := Outcome.bind_eq_ok.mp h
    obtain ⟨⟨others, tail⟩, read', h⟩ := Outcome.bind_eq_ok.mp h
    cases h
    exact List.forall_mem_cons.mpr
      ⟨isName_of_readName (solid_skip text) (Outcome.mapError_eq_ok.mp read), ih _ middle.2 read'⟩

theorem isName_of_readFrame {rest : Shorter text} (h : readFrame text = .ok (names, rest)) :
    ∀ name ∈ names, IsName name := by
  obtain ⟨inner, -, h⟩ := Outcome.bind_eq_ok.mp h
  obtain ⟨⟨names, tail⟩, read, h⟩ := Outcome.bind_eq_ok.mp h
  cases h
  exact isName_of_readFrameNames read

theorem isLogProb_of_readLogProb {v : Float} {rest : Shorter text}
    (h : readLogProb text = .ok (v, rest)) : IsLogProb v := by
  obtain ⟨tail, -, h⟩ := Outcome.bind_eq_ok.mp h
  dsimp only at h
  split at h
  · cases h
  · rename_i value hvalue
    split at h
    · cases h
    · rename_i hpositive
      cases h
      rcases Numeral.exists_literal (skip tail.1) with none | ⟨n, written⟩
      · rw [none] at hvalue
        cases hvalue
      · rw [written, n.toFloat?_text] at hvalue
        obtain rfl := Option.some.inj hvalue
        exact ⟨LogProb.le_zero_of_not n.number_value hpositive, n, rfl⟩

theorem wellFormed_of_readTagsBody (h : readTagsBody text = .ok (s, rest)) : s.WellFormed := by
  obtain ⟨⟨word, middle⟩, read, h⟩ := Outcome.bind_eq_ok.mp h
  obtain ⟨⟨tags, tail⟩, read', h⟩ := Outcome.bind_eq_ok.mp h
  obtain ⟨isWord, solid⟩ := isName_of_readSpacedName read
  dsimp only at h
  split at h
  · cases h
  · rename_i listed
    cases h
    exact ⟨isWord, listed, isName_of_readTags solid read'⟩

theorem wellFormed_of_readPriorBody (h : readPriorBody text = .ok (s, rest)) : s.WellFormed := by
  obtain ⟨⟨label, word, middle⟩, read, h⟩ := Outcome.bind_eq_ok.mp h
  obtain ⟨⟨logProb, tail⟩, read', h⟩ := Outcome.bind_eq_ok.mp h
  cases h
  obtain ⟨isLabel, isWord, -⟩ := isName_of_readPair read
  refine ⟨isLabel, fun w hw => ?_, isLogProb_of_readLogProb read'⟩
  unfold priorWord at hw
  split at hw
  · cases hw
  · rename_i own
    cases hw
    exact ⟨isWord, own⟩

theorem wellFormed_of_readHeadBody (h : readHeadBody text = .ok (s, rest)) : s.WellFormed := by
  obtain ⟨⟨parent, headLabel, middle⟩, read, h⟩ := Outcome.bind_eq_ok.mp h
  obtain ⟨⟨left, middle₁⟩, read₁, h⟩ := Outcome.bind_eq_ok.mp h
  obtain ⟨⟨right, middle₂⟩, read₂, h⟩ := Outcome.bind_eq_ok.mp h
  obtain ⟨⟨logProb, tail⟩, read₃, h⟩ := Outcome.bind_eq_ok.mp h
  cases h
  obtain ⟨isParent, isLabel, -⟩ := isName_of_readPair read
  exact ⟨isParent, isLabel, isName_of_readFrame read₁, isName_of_readFrame read₂,
    isLogProb_of_readLogProb read₃⟩

theorem wellFormed_of_readModifierBody (h : readModifierBody text = .ok (s, rest)) :
    s.WellFormed := by
  obtain ⟨⟨parent, headLabel, middle⟩, read, h⟩ := Outcome.bind_eq_ok.mp h
  obtain ⟨⟨side, middle₁⟩, -, h⟩ := Outcome.bind_eq_ok.mp h
  obtain ⟨⟨modLabel, middle₂⟩, read₂, h⟩ := Outcome.bind_eq_ok.mp h
  obtain ⟨⟨logProb, tail⟩, read₃, h⟩ := Outcome.bind_eq_ok.mp h
  cases h
  obtain ⟨isParent, isLabel, -⟩ := isName_of_readPair read
  exact ⟨isParent, isLabel, (isName_of_readSpacedName read₂).1, isLogProb_of_readLogProb read₃⟩

theorem wellFormed_of_readStopBody (h : readStopBody text = .ok (s, rest)) : s.WellFormed := by
  obtain ⟨⟨parent, headLabel, middle⟩, read, h⟩ := Outcome.bind_eq_ok.mp h
  obtain ⟨⟨side, middle₁⟩, -, h⟩ := Outcome.bind_eq_ok.mp h
  obtain ⟨⟨logProb, tail⟩, read₂, h⟩ := Outcome.bind_eq_ok.mp h
  cases h
  obtain ⟨isParent, isLabel, -⟩ := isName_of_readPair read
  exact ⟨isParent, isLabel, isLogProb_of_readLogProb read₂⟩

theorem wellFormed_of_readBody {keyword : String} (h : readBody keyword text = .ok (s, rest)) :
    s.WellFormed := by
  unfold readBody at h
  split at h
  · exact wellFormed_of_readTagsBody h
  · exact wellFormed_of_readPriorBody h
  · exact wellFormed_of_readHeadBody h
  · exact wellFormed_of_readModifierBody h
  · exact wellFormed_of_readStopBody h
  · cases h

theorem wellFormed_of_readStatement {rest : Shorter text}
    (h : readStatement text = .ok (s, rest)) : s.WellFormed := by
  obtain ⟨keyword, -, h⟩ := Outcome.bind_eq_ok.mp h
  obtain ⟨⟨statement, tail⟩, hbody, h⟩ := Outcome.bind_eq_ok.mp h
  obtain ⟨closed, -, h⟩ := Outcome.bind_eq_ok.mp h
  cases h
  exact wellFormed_of_readBody hbody

theorem wellFormed_of_readStatements {text : List Char} {all : List Statement}
    (h : readStatements text = .ok all) : ∀ s ∈ all, s.WellFormed := by
  fun_induction readStatements text generalizing all with
  | case1 text nothing =>
    cases h
    exact fun s hs => absurd hs List.not_mem_nil
  | case2 text more ih =>
    obtain ⟨⟨first, tail⟩, read, h⟩ := Outcome.bind_eq_ok.mp h
    obtain ⟨others, read', h⟩ := Outcome.bind_eq_ok.mp h
    cases h
    exact List.forall_mem_cons.mpr ⟨wellFormed_of_readStatement read, ih _ tail.2 read'⟩

theorem IsLogProb.not_positive {v : Float} (h : IsLogProb v) : ¬0.0 < v := by
  obtain ⟨number, zero⟩ := LogProb.numbers_of_le h.1
  exact fun positive => (LogProb.not_le_iff_lt number zero).mpr positive h.1

theorem Statement.WellFormed.discounts (h : s.WellFormed) : s.Discounts := by
  cases s with
  | tags => exact fun _ hv => nomatch hv
  | prior =>
    rintro v ⟨⟩
    exact h.2.2.not_positive
  | head =>
    rintro v ⟨⟩
    exact h.2.2.2.2.not_positive
  | modifier =>
    rintro v ⟨⟩
    exact h.2.2.2.not_positive
  | stop =>
    rintro v ⟨⟩
    exact h.2.2.not_positive

theorem discounts_of_readStatements {text : List Char} {all : List Statement}
    (h : readStatements text = .ok all) : ∀ s ∈ all, s.Discounts :=
  fun s hs => (wellFormed_of_readStatements h s hs).discounts

end HeadDriven.Model
