import HeadDriven.Proofs.Model.Numeral
import HeadDriven.Proofs.Outcome

/-! Layout of model texts. A text writes lexemes in order: names, reserved characters and numbers,
with blanks and comments anywhere between them. Skipping leads from each lexeme to the next, and a
reader that is put to a lexeme takes just this lexeme off the text. -/
namespace HeadDriven.Model

def reserved : List Char := ['[', ']', ';', '=']

structure IsName (s : String) : Prop where
  nonempty : s ≠ ""
  chars : ∀ c ∈ s.toList, Text.isBlank c = false ∧ c ∉ reserved
  noComment : ¬['/', '/'] <+: s.toList

theorem IsName.toList_ne_nil {s : String} (h : IsName s) : s.toList ≠ [] :=
  fun none => h.nonempty (String.toList_eq_nil_iff.mp none)

inductive Lexeme where
  | name (s : String)
  | mark (c : Char)
  | number (n : Numeral)

namespace Lexeme

def text : Lexeme → List Char
  | name s => s.toList
  | mark c => [c]
  | number n => n.text

def Valid : Lexeme → Prop
  | name s => IsName s
  | mark c => c ∈ reserved
  | number _ => True

def Apart (t : Lexeme) (rest : List Char) : Prop :=
  match t with
  | name _ => ∃ c tail, rest = c :: tail ∧ (Text.isBlank c = true ∨ c ∈ reserved)
  | mark _ | number _ => True

end Lexeme

/-- The texts that write lexemes in order, with blanks and comments before, between and after
them. A comment ends with its line. -/
inductive Laid : List Lexeme → List Char → Prop where
  | done : Laid [] []
  | blank {c : Char} {lexemes : List Lexeme} {text : List Char} (isBlank : Text.isBlank c = true)
      (h : Laid lexemes text) : Laid lexemes (c :: text)
  | comment {line : List Char} {lexemes : List Lexeme} {text : List Char} (oneLine : '\n' ∉ line)
      (h : Laid lexemes text) : Laid lexemes ('/' :: '/' :: (line ++ '\n' :: text))
  | lexeme {t : Lexeme} {lexemes : List Lexeme} {text : List Char} (valid : t.Valid)
      (apart : t.Apart text) (h : Laid lexemes text) : Laid (t :: lexemes) (t.text ++ text)

inductive Front : List Lexeme → List Char → Prop where
  | done : Front [] []
  | lexeme {t : Lexeme} {lexemes : List Lexeme} {text : List Char} (valid : t.Valid)
      (apart : t.Apart text) (h : Laid lexemes text) : Front (t :: lexemes) (t.text ++ text)

variable {s : String} {n : Numeral} {c : Char} {lexemes : List Lexeme} {text rest : List Char}

theorem Front.laid (h : Front lexemes text) : Laid lexemes text := by
  cases h with
  | done => exact .done
  | lexeme valid apart h => exact .lexeme valid apart h

theorem Front.eq_nil (h : Front [] text) : text = [] := by
  cases h with
  | done => rfl

theorem isNameChar_iff : isNameChar c = true ↔ Text.isBlank c = false ∧ c ∉ reserved := by
  simp [isNameChar, reserved, and_assoc]

def Solid (text : List Char) : Prop :=
  ∀ c rest, text = c :: rest → Text.isBlank c = false ∧ ¬(c = '/' ∧ rest.head? = some '/')

theorem solid_nil : Solid [] := fun _ _ h => nomatch h

theorem skip_blank (h : Text.isBlank c = true) : skip (c :: rest) = skip rest := by
  rw [skip, skipFrom, if_pos h, skip]

theorem skipFrom_line (line : List Char) (oneLine : '\n' ∉ line) :
    skipFrom true (line ++ '\n' :: rest) = skip rest := by
  induction line with
  | nil => rfl
  | cons c line ih =>
    have goesOn : c ≠ '\n' := fun h => oneLine (h ▸ List.mem_cons_self)
    rw [List.cons_append, skipFrom, decide_eq_true goesOn,
      ih fun h => oneLine (List.mem_cons_of_mem _ h)]

theorem skip_comment {line : List Char} (oneLine : '\n' ∉ line) :
    skip ('/' :: '/' :: (line ++ '\n' :: rest)) = skip rest := by
  rw [skip, skipFrom, if_neg (by decide), if_pos ⟨rfl, rfl⟩]
  exact skipFrom_line ('/' :: line) (by simp [oneLine])

theorem Solid.skip (h : Solid text) : skip text = text := by
  cases text with
  | nil => rfl
  | cons c rest =>
    obtain ⟨visible, code⟩ := h c rest rfl
    rw [Model.skip, skipFrom, visible, if_neg (by decide), if_neg code]

theorem solid_skipFrom (inComment : Bool) (text : List Char) : Solid (skipFrom inComment text) := by
  fun_induction skipFrom inComment text with
  | case1 => exact solid_nil
  | case2 c rest ih => exact ih
  | case3 c rest blank ih => exact ih
  | case4 c rest visible comment ih => exact ih
  | case5 c rest visible code =>
    rintro _ _ ⟨⟩
    exact ⟨by simpa using visible, code⟩

theorem solid_skip (text : List Char) : Solid (skip text) := solid_skipFrom false text

theorem not_isBlank_of_isDigit (h : Decimal.isDigit c = true) : Text.isBlank c = false := by
  have visible : ['0', '1', '2', '3', '4', '5', '6', '7', '8', '9'].all
      (fun c => !Text.isBlank c) = true := by decide
  simpa using List.all_eq_true.mp visible c (mem_of_isDigit h)

theorem Numeral.exists_text (n : Numeral) :
    ∃ c rest, n.text = c :: rest ∧ Text.isBlank c = false ∧ c ≠ '/' := by
  obtain ⟨negative, amount⟩ := n
  cases negative with
  | true => exact ⟨_, _, rfl, by decide, by decide⟩
  | false =>
    cases amount with
    | infinite => exact ⟨_, _, rfl, by decide, by decide⟩
    | finite s =>
      obtain ⟨d, rest, first, digit⟩ := s.exists_text
      exact ⟨d, rest, first, not_isBlank_of_isDigit digit, ne_of_isDigit digit (by decide)⟩

theorem Lexeme.solid {t : Lexeme} (valid : t.Valid) (apart : t.Apart rest) :
    Solid (t.text ++ rest) := by
  cases t with
  | name s =>
    obtain ⟨c, cs, first⟩ := List.exists_cons_of_ne_nil valid.toList_ne_nil
    obtain ⟨next, tail, rfl, parts⟩ := apart
    have noComment := valid.noComment
    rintro _ _ h
    rw [text, first, List.cons_append] at h
    obtain ⟨rfl, rfl⟩ := List.cons.inj h
    refine ⟨(valid.chars c (by simp [first])).1, ?_⟩
    rintro ⟨rfl, slash⟩
    rw [first] at noComment
    cases cs with
    | nil =>
      obtain rfl : next = '/' := Option.some.inj slash
      exact absurd parts (by decide +kernel)
    | cons d cs =>
      obtain rfl : d = '/' := Option.some.inj slash
      exact noComment ⟨cs, rfl⟩
  | mark m =>
    rintro c tail ⟨⟩
    have plain : reserved.all (fun c => !Text.isBlank c && c != '/') = true := by decide
    have := List.all_eq_true.mp plain m valid
    simp only [Bool.and_eq_true, Bool.not_eq_true', bne_iff_ne] at this
    exact ⟨this.1, fun slash => this.2 slash.1⟩
  | number n =>
    obtain ⟨d, tail, first, visible, noSlash⟩ := n.exists_text
    intro c rest h
    rw [text, first] at h
    cases h
    exact ⟨visible, fun slash => noSlash slash.1⟩

theorem Laid.front (h : Laid lexemes text) : Front lexemes (skip text) := by
  induction h with
  | done => exact .done
  | blank isBlank h ih => rwa [skip_blank isBlank]
  | comment oneLine h ih => rwa [skip_comment oneLine]
  | lexeme valid apart h =>
    rw [(Lexeme.solid valid apart).skip]
    exact .lexeme valid apart h

/-- A reader that succeeds with a value and leaves the given rest. -/
def Takes {α : Type} {P : List Char → Prop} (outcome : Except Error (α × { rest // P rest }))
    (a : α) (rest : List Char) : Prop :=
  outcome.map (fun r => (r.1, r.2.val)) = .ok (a, rest)

theorem Takes.exists_eq {α : Type} {P : List Char → Prop}
    {outcome : Except Error (α × { rest // P rest })} {a : α} (h : Takes outcome a rest) :
    ∃ bound, outcome = .ok (a, ⟨rest, bound⟩) := by
  obtain ⟨⟨b, tail, bound⟩, rfl, same⟩ := Outcome.map_eq_ok.mp h
  cases same
  exact ⟨bound, rfl⟩

theorem Front.exists_rest {t : Lexeme} (h : Front (t :: lexemes) text) :
    t.Valid ∧ ∃ rest, text = t.text ++ rest ∧ t.Apart rest ∧ Laid lexemes rest := by
  cases h with
  | lexeme valid apart laid => exact ⟨valid, _, rfl, apart, laid⟩

theorem Front.head_ne (h : Front (.name s :: lexemes) text) (mark : c ∈ reserved) :
    text.head? ≠ some c := by
  obtain ⟨valid, rest, rfl, -⟩ := h.exists_rest
  obtain ⟨d, ds, first⟩ := List.exists_cons_of_ne_nil valid.toList_ne_nil
  rw [Lexeme.text, first]
  rintro ⟨⟩
  exact (valid.chars c (by simp [first])).2 mark

theorem Front.readName (h : Front (.name s :: lexemes) text) :
    ∃ rest, Takes (readName text) s rest ∧ Laid lexemes rest := by
  obtain ⟨valid, rest, rfl, ⟨c, tail, rfl, parts⟩, laid⟩ := h.exists_rest
  have nonempty : s.toList ≠ [] := valid.toList_ne_nil
  have ends : isNameChar c = false := by
    rw [Bool.eq_false_iff, ne_eq, isNameChar_iff]
    rintro ⟨visible, free⟩
    rcases parts with blank | mark
    · rw [visible] at blank
      cases blank
    · exact free mark
  have stop : ∀ d ∈ (c :: tail).head?, isNameChar d = false := by
    rintro _ ⟨⟩
    exact ends
  obtain ⟨run, stop⟩ := Text.takeWhile_run (fun c hc => isNameChar_iff.mpr (valid.chars c hc)) stop
  refine ⟨c :: tail, ?_, laid⟩
  simp only [Takes, Model.readName, Lexeme.text, run, stop, nonempty, dite_false,
    String.ofList_toList, Outcome.map_ok]

theorem Front.readChar (h : Front (.mark c :: lexemes) text) :
    ∃ rest bound, readChar c text = .ok ⟨rest, bound⟩ ∧ Laid lexemes rest := by
  obtain ⟨valid, rest, rfl, -, laid⟩ := h.exists_rest
  exact ⟨rest, Nat.lt_succ_self _, by simp [Lexeme.text, Model.readChar], laid⟩

theorem Laid.readSpacedName (h : Laid (.name s :: lexemes) text) :
    ∃ rest, Takes (readSpacedName text) s rest ∧ Front lexemes rest := by
  obtain ⟨rest, takes, laid⟩ := h.front.readName
  obtain ⟨bound, read⟩ := takes.exists_eq
  refine ⟨skip rest, ?_, laid.front⟩
  rw [Takes, Model.readSpacedName, read]
  rfl

theorem Laid.ends (h : Laid (.mark ';' :: lexemes) text) : Ends text := by
  cases h with
  | @blank c _ _ isBlank h =>
    rintro _ ⟨⟩
    have other (d : Char) (visible : Text.isBlank d = false) : c ≠ d := by
      rintro rfl
      rw [visible] at isBlank
      cases isBlank
    refine ⟨Bool.eq_false_iff.mpr fun digit => ?_, other '.' (by decide), other 'e' (by decide),
      other 'E' (by decide)⟩
    exact other c (not_isBlank_of_isDigit digit) rfl
  | comment oneLine h =>
    rintro c ⟨⟩
    decide
  | lexeme valid apart h =>
    rintro c ⟨⟩
    decide

variable {first second : String} {names : List String}

theorem Laid.readPair (h : Laid (.name first :: .name second :: lexemes) text) :
    ∃ rest bound, readPair text = .ok (first, second, ⟨rest, bound⟩) ∧ Front lexemes rest := by
  obtain ⟨middle, takes, front⟩ := h.readSpacedName
  obtain ⟨bound, read⟩ := takes.exists_eq
  obtain ⟨rest, takes', front'⟩ := front.laid.readSpacedName
  obtain ⟨bound', read'⟩ := takes'.exists_eq
  refine ⟨rest, Nat.lt_trans bound' bound, ?_, front'⟩
  simp only [Model.readPair, read, read', Outcome.ok_bind]
  rfl

theorem Front.readTags (h : Front (names.map .name ++ .mark ';' :: lexemes) text) :
    ∃ rest, Takes (readTags text) names rest ∧ Front (.mark ';' :: lexemes) rest := by
  induction names generalizing text with
  | nil =>
    refine ⟨text, ?_, h⟩
    obtain ⟨-, rest, rfl, -⟩ := h.exists_rest
    rw [Takes, Model.readTags]
    rfl
  | cons name names ih =>
    obtain ⟨valid, -⟩ := h.exists_rest
    obtain ⟨middle, takes, laid⟩ := h.readName
    obtain ⟨bound, read⟩ := takes.exists_eq
    obtain ⟨rest, takes', front⟩ := ih laid.front
    obtain ⟨bound', read'⟩ := takes'.exists_eq
    refine ⟨rest, ?_, front⟩
    rw [Takes, Model.readTags, if_neg (h.head_ne (by decide)), read]
    simp only [read', Outcome.ok_bind]
    rfl

theorem Laid.readFrameNames (h : Laid (names.map .name ++ .mark ']' :: lexemes) text) :
    ∃ rest, Takes (readFrameNames text) names rest ∧ Laid lexemes rest := by
  induction names generalizing text with
  | nil =>
    obtain ⟨-, rest, skipped, -, laid⟩ := h.front.exists_rest
    refine ⟨rest, ?_, laid⟩
    rw [Takes, Model.readFrameNames]
    split
    · rename_i closed
      cases skipped.symm.trans closed
      rfl
    · rename_i other
      exact absurd skipped (other rest)
  | cons name names ih =>
    have front := h.front
    obtain ⟨middle, takes, laid⟩ := front.readName
    obtain ⟨bound, read⟩ := takes.exists_eq
    obtain ⟨rest, takes', laid'⟩ := ih laid
    obtain ⟨bound', read'⟩ := takes'.exists_eq
    refine ⟨rest, ?_, laid'⟩
    rw [Takes, Model.readFrameNames]
    split
    · rename_i closed
      exact absurd (by rw [closed]; rfl) (front.head_ne (c := ']') (by decide))
    · simp only [read, read', Outcome.ok_bind, Except.mapError]
      rfl

theorem Front.readFrame
    (h : Front (.mark '[' :: (names.map .name ++ .mark ']' :: lexemes)) text) :
    ∃ rest, Takes (readFrame text) names rest ∧ Laid lexemes rest := by
  obtain ⟨inner, bound, read, laid⟩ := h.readChar
  obtain ⟨rest, takes, laid'⟩ := laid.readFrameNames
  obtain ⟨bound', read'⟩ := takes.exists_eq
  refine ⟨rest, ?_, laid'⟩
  simp only [Takes, Model.readFrame, read, read', Outcome.ok_bind]
  rfl

theorem Front.readSide {side : Side} (h : Front (.name side.name :: lexemes) text) :
    ∃ rest, Takes (readSide text) side rest ∧ Laid lexemes rest := by
  obtain ⟨rest, takes, laid⟩ := h.readName
  obtain ⟨bound, read⟩ := takes.exists_eq
  refine ⟨rest, ?_, laid⟩
  simp only [Takes, Model.readSide, read, Outcome.ok_bind]
  cases side <;> rfl

theorem Front.readLogProb (h : Front (.mark '=' :: .number n :: .mark ';' :: lexemes) text)
    (discounts : n.value ≤ 0.0) :
    ∃ rest, Takes (readLogProb text) n.value rest ∧ Laid (.mark ';' :: lexemes) rest := by
  obtain ⟨inner, bound, read, laid⟩ := h.readChar
  obtain ⟨-, rest, skipped, -, laid'⟩ := laid.front.exists_rest
  have found : literal (skip inner) = n.text := by
    rw [skipped]
    exact n.literal_text laid'.ends
  have left : (skip inner).drop n.text.length = rest := by
    rw [skipped]
    exact List.drop_left
  obtain ⟨number, zero⟩ := LogProb.numbers_of_le discounts
  have negative : ¬0.0 < n.value := fun positive =>
    (LogProb.not_le_iff_lt number zero).mpr positive discounts
  refine ⟨rest, ?_, laid'⟩
  simp only [Takes, Model.readLogProb, read, Outcome.ok_bind, found, n.toFloat?_text, left,
    if_neg negative]
  rfl

end HeadDriven.Model
