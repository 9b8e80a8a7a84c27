import HeadDriven.Proofs.Model.Reading

/-! Round trips of model texts. The lists that can be read are those of well-formed statements, and
each of them is read off all the texts that write it. -/
namespace HeadDriven.Model

instance : DecidablePred IsName := fun s =>
  decidable_of_iff (s ≠ "" ∧
      (s.toList.all fun c => !Text.isBlank c && !reserved.contains c) = true ∧
      ¬['/', '/'] <+: s.toList) <| by
    constructor
    · rintro ⟨nonempty, chars, noComment⟩
      exact ⟨nonempty, by simpa using chars, noComment⟩
    · rintro ⟨nonempty, chars, noComment⟩
      exact ⟨nonempty, by simpa using chars, noComment⟩

variable {s : Statement} {lexemes : List Lexeme}

theorem isName_side (side : Side) : IsName side.name := by
  cases side <;> decide +kernel

theorem valid_frameLexemes {names : List String} (all : ∀ name ∈ names, IsName name) :
    ∀ t ∈ frameLexemes names, t.Valid := by
  simp only [frameLexemes, List.forall_mem_cons, List.forall_mem_append, List.forall_mem_map]
  exact ⟨List.mem_cons_self, all, List.mem_cons_of_mem _ List.mem_cons_self, List.forall_mem_nil _⟩

theorem Statement.WellFormed.exists_spells (h : s.WellFormed) :
    ∃ lexemes, s.Spells lexemes ∧ ∀ t ∈ lexemes, t.Valid := by
  have equals : (Lexeme.mark '=').Valid := show '=' ∈ reserved by decide
  cases s with
  | tags word listed =>
    obtain ⟨isWord, -, all⟩ := h
    refine ⟨_, .tags word listed, ?_⟩
    simp only [List.forall_mem_cons, List.forall_mem_map]
    exact ⟨show IsName "tags" by decide +kernel, isWord, all⟩
  | prior label word logProb =>
    obtain ⟨isLabel, isWord, -, n, rfl⟩ := h
    have isAny : IsName (word.getD "*") := by
      cases word with
      | none => exact show IsName "*" by decide +kernel
      | some word => exact (isWord word rfl).1
    refine ⟨_, .prior label word n, ?_⟩
    simp only [List.forall_mem_cons]
    exact ⟨show IsName "prior" by decide +kernel, isLabel, isAny, equals, trivial,
      List.forall_mem_nil _⟩
  | head parent headLabel left right logProb =>
    obtain ⟨isParent, isLabel, ofLeft, ofRight, -, n, rfl⟩ := h
    refine ⟨_, .head parent headLabel left right n, ?_⟩
    simp only [List.forall_mem_append, List.forall_mem_cons]
    refine ⟨⟨⟨?_, valid_frameLexemes ofLeft⟩, valid_frameLexemes ofRight⟩, equals, trivial,
      List.forall_mem_nil _⟩
    exact ⟨show IsName "head" by decide +kernel, isParent, isLabel, List.forall_mem_nil _⟩
  | modifier parent headLabel side modLabel logProb =>
    obtain ⟨isParent, isLabel, isModifier, -, n, rfl⟩ := h
    refine ⟨_, .modifier parent headLabel side modLabel n, ?_⟩
    simp only [List.forall_mem_cons]
    exact ⟨show IsName "mod" by decide +kernel, isParent, isLabel, isName_side side, isModifier,
      equals, trivial, List.forall_mem_nil _⟩
  | stop parent headLabel side logProb =>
    obtain ⟨isParent, isLabel, -, n, rfl⟩ := h
    refine ⟨_, .stop parent headLabel side n, ?_⟩
    simp only [List.forall_mem_cons]
    exact ⟨show IsName "stop" by decide +kernel, isParent, isLabel, isName_side side, equals,
      trivial, List.forall_mem_nil _⟩

theorem exists_spell {statements : List Statement} (h : ∀ s ∈ statements, s.WellFormed) :
    ∃ lexemes, SpellsAll statements lexemes ∧ ∀ t ∈ lexemes, t.Valid := by
  induction statements with
  | nil => exact ⟨[], .nil, fun _ ht => absurd ht List.not_mem_nil⟩
  | cons s statements ih =>
    obtain ⟨first, spells, valid⟩ := (h s List.mem_cons_self).exists_spells
    obtain ⟨rest, spell, valid'⟩ := ih fun s hs => h s (List.mem_cons_of_mem _ hs)
    refine ⟨_, .cons spells spell, fun t ht => ?_⟩
    rcases List.mem_append.mp ht with ht | ht
    · exact valid t ht
    · rcases List.mem_cons.mp ht with rfl | ht
      · exact List.mem_cons_of_mem _ (List.mem_cons_of_mem _ List.mem_cons_self)
      · exact valid' t ht

section Laying

variable {name : String} {c : Char} {n : Numeral} {text : List Char}

theorem isBlank_space : Text.isBlank ' ' = true := by decide

theorem Laid.spaced (valid : IsName name) (h : Laid lexemes text) :
    Laid (.name name :: lexemes) (name.toList ++ ' ' :: text) :=
  .lexeme (t := .name name) valid ⟨_, _, rfl, Or.inl isBlank_space⟩ (.blank isBlank_space h)

theorem Laid.closed (valid : IsName name) (mark : c ∈ reserved) (h : Laid lexemes (c :: text)) :
    Laid (.name name :: lexemes) (name.toList ++ c :: text) :=
  .lexeme (t := .name name) valid ⟨_, _, rfl, Or.inr mark⟩ h

theorem Laid.mark (valid : c ∈ reserved) (h : Laid lexemes text) :
    Laid (.mark c :: lexemes) (c :: text) :=
  .lexeme (t := .mark c) valid trivial h

theorem Laid.number (n : Numeral) (h : Laid lexemes text) :
    Laid (.number n :: lexemes) (n.text ++ text) :=
  .lexeme (t := .number n) trivial trivial h

theorem exists_laid (valid : ∀ t ∈ lexemes, t.Valid) : ∃ text, Laid lexemes text := by
  induction lexemes with
  | nil => exact ⟨[], .done⟩
  | cons t lexemes ih =>
    obtain ⟨text, laid⟩ := ih fun t ht => valid t (List.mem_cons_of_mem _ ht)
    have first := valid t List.mem_cons_self
    cases t with
    | name s => exact ⟨_, laid.spaced first⟩
    | mark c => exact ⟨_, laid.mark first⟩
    | number n => exact ⟨_, laid.number n⟩

end Laying

/-- However well-formed statements are written, they are read; and no other statements are. -/
theorem model_text_round_trip :
    (∀ statements lexemes text, (∀ s ∈ statements, s.WellFormed) → SpellsAll statements lexemes →
      Laid lexemes text.toList → Model.statements text = .ok statements) ∧
    ∀ statements, (∃ text, Model.statements text = .ok statements) ↔
      ∀ s ∈ statements, s.WellFormed := by
  refine ⟨fun statements lexemes text ok spell laid => laid.readStatements spell ok, ?_⟩
  refine fun statements => ⟨fun ⟨text, read⟩ => wellFormed_of_readStatements read, fun ok => ?_⟩
  obtain ⟨lexemes, spell, valid⟩ := exists_spell ok
  obtain ⟨text, laid⟩ := exists_laid valid
  refine ⟨String.ofList text, ?_⟩
  rw [Model.statements, String.toList_ofList]
  exact laid.readStatements spell ok

namespace Sample

def tenths : Numeral :=
  ⟨true, .finite ⟨['1', '5'], none,
    some ⟨'e', some true, ['1'], by decide, List.all_eq_true.mp (by decide), by decide⟩,
    List.all_eq_true.mp (by decide), fun _ h => (nomatch h), by decide⟩⟩

def minusInfinity : Numeral := ⟨true, .infinite⟩

def laidText : String := "prior X // any\n*=-15e-1;head X A[B][]=-inf;"

def laidStatements : List Statement :=
  [.prior "X" none (-1.5), .head "X" "A" ["B"] [] (-1.0 / 0.0)]

end Sample

/-- A text with a comment, and with no blank where a reserved character or a number follows. -/
theorem sample_round_trip :
    (∀ s ∈ Sample.laidStatements, s.WellFormed) ∧
      Model.statements Sample.laidText = .ok Sample.laidStatements ∧
      ∃ lexemes, SpellsAll Sample.laidStatements lexemes ∧ Laid lexemes Sample.laidText.toList := by
  have ofTenths : Sample.tenths.value = -1.5 := by decide +kernel
  have ofInfinity : Sample.minusInfinity.value = -1.0 / 0.0 := by decide +kernel
  have isX : IsName "X" := by decide +kernel
  have isA : IsName "A" := by decide +kernel
  have isB : IsName "B" := by decide +kernel
  have ok : ∀ s ∈ Sample.laidStatements, s.WellFormed := by
    simp only [Sample.laidStatements, List.forall_mem_cons]
    refine ⟨⟨isX, fun _ h => (nomatch h), by decide +kernel, Sample.tenths, ofTenths⟩,
      ⟨isX, isA, ?_, List.forall_mem_nil _, by decide +kernel, Sample.minusInfinity, ofInfinity⟩,
      List.forall_mem_nil _⟩
    rintro label hlabel
    rwa [List.mem_singleton.mp hlabel]
  have spell := SpellsAll.cons (.prior "X" none Sample.tenths)
    (.cons (.head "X" "A" ["B"] [] Sample.minusInfinity) .nil)
  rw [ofTenths, ofInfinity] at spell
  have frames : Laid (.mark '[' :: .name "B" :: .mark ']' :: .mark '[' :: .mark ']' :: .mark '=' ::
      .number Sample.minusInfinity :: [.mark ';']) "[B][]=-inf;".toList :=
    .mark (by decide) (.closed isB (by decide) (.mark (by decide) (.mark (by decide)
      (.mark (by decide) (.mark (by decide) (.number _ (.mark (by decide) .done)))))))
  have behind : Laid (.name "*" :: .mark '=' :: .number Sample.tenths :: .mark ';' :: _) _ :=
    .closed (by decide +kernel) (by decide) (.mark (by decide) (.number _ (.mark (by decide)
      (.spaced (show IsName "head" by decide +kernel)
        (.spaced isX (.closed isA (by decide) frames))))))
  have laid := Laid.spaced (show IsName "prior" by decide +kernel)
    (.spaced isX (.comment (show '\n' ∉ " any".toList by decide) behind))
  have all : Laid _ Sample.laidText.toList := laid
  exact ⟨ok, model_text_round_trip.1 _ _ _ ok spell all, _, spell, all⟩

end HeadDriven.Model
