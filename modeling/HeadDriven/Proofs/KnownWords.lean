import HeadDriven.Language.Treebank
import HeadDriven.Proofs.Words

/-! Writing known words. A word of the vocabulary is written alone, or with a tag of the
vocabulary behind a slash. With a tag it is always read as it was meant, since the last slash is
then the one before the tag; alone it is, unless it has text on both sides of a last slash of its
own, which then cuts off a tag. -/
namespace HeadDriven

theorem Sentence.Cut.text_eq {raw text : List Char} (h : Cut raw text none) : text = raw := by
  cases h
  rfl

/-- A name of the vocabulary that can stand behind the last slash of a raw word. -/
structure TagName (symbols : SymbolTable) where
  name : String
  symbol : Symbol
  known : symbols.get? name = some symbol
  ne_empty : name ≠ ""
  slashless : '/' ∉ name.toList

/-- A word of the vocabulary, alone or with a tag. -/
structure KnownWord (symbols : SymbolTable) where
  name : String
  symbol : Symbol
  known : symbols.get? name = some symbol
  ne_empty : name ≠ ""
  tag : Option (TagName symbols)

namespace KnownWord

variable {symbols : SymbolTable} {language : Language}

def raw (w : KnownWord symbols) : String :=
  match w.tag with
  | none => w.name
  | some tag => w.name ++ "/" ++ tag.name

def token (w : KnownWord symbols) : Token := .known w.symbol (w.tag.map TagName.symbol).toList

/-- What a word is to be read as: its text and the text of its tag. -/
def Legible (w : KnownWord symbols) : Prop :=
  Sentence.Cut w.raw.toList w.name.toList (w.tag.map (·.name.toList))

theorem toList_ne_nil {name : String} (h : name ≠ "") : name.toList ≠ [] := by
  simpa using h

theorem legible_of_tag {w : KnownWord symbols} {tag : TagName symbols} (h : w.tag = some tag) :
    w.Legible := by
  have raw : w.raw.toList = w.name.toList ++ '/' :: tag.name.toList := by
    rw [KnownWord.raw, h]
    simp
  rw [Legible, raw, h]
  exact .tagged (toList_ne_nil w.ne_empty) (toList_ne_nil tag.ne_empty) tag.slashless

theorem legible_of_none {w : KnownWord symbols} (h : w.tag = none) :
    w.Legible ↔ Sentence.Cut w.name.toList w.name.toList none := by
  rw [Legible, KnownWord.raw, h]
  rfl

theorem tokenOf_legible {w : KnownWord symbols} (h : w.Legible) :
    Sentence.tokenOf symbols language w.raw = .ok w.token := by
  have cut := Sentence.cut_iff.mp h
  have text : w.name.toList.isEmpty = false := by
    simpa using toList_ne_nil w.ne_empty
  cases htag : w.tag with
  | none =>
    rw [htag] at cut
    simp only [Sentence.tokenOf, cut, text, Option.map_none, String.ofList_toList, w.known, token,
      htag]
    rfl
  | some tag =>
    rw [htag] at cut
    simp only [Sentence.tokenOf, cut, text, Option.map_some, String.ofList_toList, w.known,
      tag.known, token, htag]
    rfl

theorem legible_of_tokenOf {w : KnownWord symbols}
    (h : Sentence.tokenOf symbols language w.raw = .ok w.token) : w.Legible := by
  cases htag : w.tag with
  | some tag => exact legible_of_tag htag
  | none =>
    obtain ⟨text, tag, cut, reads⟩ := Sentence.reads_of_tokenOf h
    have untagged : tag = none := by
      have tags := reads.tags
      rw [token, htag] at tags
      cases tag with
      | none => rfl
      | some tag => cases tags
    subst untagged
    rw [cut.text_eq, KnownWord.raw, htag] at cut
    exact (legible_of_none htag).mpr cut

theorem tokenOf_eq_iff {w : KnownWord symbols} :
    Sentence.tokenOf symbols language w.raw = .ok w.token ↔ w.Legible :=
  ⟨legible_of_tokenOf, tokenOf_legible⟩

end KnownWord

/-- Known words are read back from their raw words, in their order, with the symbols of word and
tag, if no word that is written alone has text on both sides of its last slash; otherwise they are
not. -/
theorem known_words_read_back (symbols : SymbolTable) (language : Language)
    (words : List (KnownWord symbols)) :
    Sentence.ofWords symbols language (words.map KnownWord.raw) =
        .ok (words.map KnownWord.token) ↔
      ∀ w ∈ words, w.tag = none → Sentence.Cut w.name.toList w.name.toList none := by
  rw [Sentence.ofWords, Outcome.mapM_eq_ok, List.forall₂_map_left_iff, List.forall₂_map_right_iff,
    List.forall₂_same]
  refine forall₂_congr fun w _ => ?_
  rw [KnownWord.tokenOf_eq_iff]
  cases htag : w.tag with
  | none => simp [KnownWord.legible_of_none htag]
  | some tag => simp [KnownWord.legible_of_tag htag]

namespace Sample

/-- A vocabulary with words that have, begin with and end in slashes. -/
def slashes : SymbolTable := (SymbolTable.empty.internAll ["1/2", "/", "a/", "CD"]).1

def fraction : KnownWord slashes := ⟨"1/2", ⟨4⟩, by decide +kernel, by decide, none⟩

end Sample

example : Sentence.ofWords Sample.slashes Language.plain ["1/2/CD", "/", "a/", "//CD"] =
    .ok [.known ⟨4⟩ [⟨7⟩], .known ⟨5⟩ [], .known ⟨6⟩ [], .known ⟨5⟩ [⟨7⟩]] := by decide +kernel

/-- The word `1/2` is known, but written alone it is taken for `1` with the tag `2`. -/
theorem known_fraction_misread : Sample.fraction.raw = "1/2" ∧
    Sentence.ofWords Sample.slashes (Language.treebank Sample.slashes)
      [Sample.fraction.raw] = .error (.unknownTag "2" "1") ∧
    ¬∀ (symbols : SymbolTable) (language : Language) (words : List (KnownWord symbols)),
      Sentence.ofWords symbols language (words.map KnownWord.raw) =
        .ok (words.map KnownWord.token) := by
  have misread : Sentence.ofWords Sample.slashes (Language.treebank Sample.slashes)
      [Sample.fraction.raw] = .error (.unknownTag "2" "1") := by decide +kernel
  refine ⟨rfl, misread, fun all => ?_⟩
  have read := all Sample.slashes (Language.treebank Sample.slashes) [Sample.fraction]
  rw [List.map_singleton, misread] at read
  cases read

end HeadDriven
