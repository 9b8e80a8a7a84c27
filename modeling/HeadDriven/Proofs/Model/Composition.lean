import HeadDriven.Proofs.Model.Reading

/-! Model texts one behind the other. A line feed ends names, numbers and comments and is skipped
like any blank, so what a reader takes off a text it takes off the text with further lines as well,
and it leaves these lines behind what else it leaves. Statements that can be read thus come first
in any text that goes on after their last line, and the further lines are read, or fail, as they do
by themselves. -/
namespace HeadDriven.Model

variable {text rest more : List Char} {name first second : String} {names : List String}

theorem run_append {p : Char → Bool} (other : p '\n' = false) (text more : List Char) :
    (text ++ '\n' :: more).takeWhile p = text.takeWhile p ∧
      (text ++ '\n' :: more).dropWhile p = text.dropWhile p ++ '\n' :: more := by
  induction text with
  | nil => simp [other]
  | cons c text ih =>
    cases h : p c with
    | true => simp [h, ih]
    | false => simp [h]

theorem head?_append_iff {c : Char} (other : c ≠ '\n') (text more : List Char) :
    (text ++ '\n' :: more).head? = some c ↔ text.head? = some c := by
  cases text with
  | nil => simp [other.symm]
  | cons d text => rfl

/-- Skipping stops where it did, or goes on into the further lines if it came to the end. -/
theorem skipFrom_append (inComment : Bool) (text more : List Char) :
    skipFrom inComment (text ++ '\n' :: more) =
      if skipFrom inComment text = [] then skip more
      else skipFrom inComment text ++ '\n' :: more := by
  fun_induction skipFrom inComment text with
  | case1 inComment =>
    cases inComment with
    | true => rfl
    | false => exact skip_blank (by decide)
  | case2 c rest ih => exact ih
  | case3 c rest blank ih => rwa [List.cons_append, skipFrom, if_pos blank]
  | case4 c rest visible comment ih =>
    rwa [List.cons_append, skipFrom, if_neg visible,
      if_pos ⟨comment.1, (head?_append_iff (by decide) rest more).mpr comment.2⟩]
  | case5 c rest visible code =>
    have code' : ¬(c = '/' ∧ (rest ++ '\n' :: more).head? = some '/') := fun h =>
      code (h.imp_right (head?_append_iff (by decide) rest more).mp)
    rw [List.cons_append, skipFrom, if_neg visible, if_neg code', if_neg (List.cons_ne_nil _ _)]

theorem skip_append_of_eq_nil (h : skip text = []) : skip (text ++ '\n' :: more) = skip more :=
  (skipFrom_append false text more).trans (if_pos h)

theorem skip_append (h : skip text ≠ []) (more : List Char) :
    skip (text ++ '\n' :: more) = skip text ++ '\n' :: more :=
  (skipFrom_append false text more).trans (if_neg h)

theorem sign_append {p : Option Char → Prop} [DecidablePred p] (nothing : ¬p none)
    (other : ¬p (some '\n')) (text more : List Char) :
    let sign := text.take (if p text.head? then 1 else 0)
    (text ++ '\n' :: more).take (if p (text ++ '\n' :: more).head? then 1 else 0) = sign ∧
      (text ++ '\n' :: more).drop sign.length = text.drop sign.length ++ '\n' :: more := by
  refine ⟨?_, List.drop_append_of_le_length (List.length_take_le' _ _)⟩
  cases text with
  | nil => simp [nothing, other]
  | cons c text =>
    by_cases signed : p (some c) <;> simp [signed]

theorem digits_append (text more : List Char) :
    (text ++ '\n' :: more).takeWhile Decimal.isDigit = text.takeWhile Decimal.isDigit ∧
      (text ++ '\n' :: more).dropWhile Decimal.isDigit =
        text.dropWhile Decimal.isDigit ++ '\n' :: more :=
  run_append (by decide) text more

theorem splitPoint_append (text more : List Char) :
    splitPoint (text ++ '\n' :: more) =
      ((splitPoint text).1, (splitPoint text).2 ++ '\n' :: more) := by
  cases text with
  | nil => rfl
  | cons c text =>
    obtain ⟨digits, left⟩ := digits_append text more
    by_cases point : c = '.'
    · subst point
      exact Prod.ext (congrArg ('.' :: ·) digits) left
    · simp [splitPoint, point]

theorem splitPower_append (text more : List Char) :
    splitPower (text ++ '\n' :: more) =
      ((splitPower text).1, (splitPower text).2 ++ '\n' :: more) := by
  cases text with
  | nil => rfl
  | cons c text =>
    obtain ⟨sign, tail⟩ := sign_append (p := fun c => c = some '-' ∨ c = some '+') (by decide)
      (by decide) text more
    simp only [List.cons_append, splitPower, sign, tail, digits_append]
    generalize text.take (if text.head? = some '-' ∨ text.head? = some '+' then 1 else 0) = sign
    split <;> rfl

theorem inf_isPrefixOf_append (text more : List Char) :
    ['i', 'n', 'f'].isPrefixOf (text ++ '\n' :: more) = ['i', 'n', 'f'].isPrefixOf text := by
  match text with
  | [] | [_] | [_, _] | _ :: _ :: _ :: _ => simp [List.isPrefixOf]

theorem literal_append (text more : List Char) : literal (text ++ '\n' :: more) = literal text := by
  obtain ⟨sign, body⟩ := sign_append (p := (· = some '-')) (by decide) (by decide) text more
  simp only [literal, sign, body, inf_isPrefixOf_append, digits_append, splitPoint_append,
    splitPower_append]

theorem splitPoint_parts (text : List Char) :
    (splitPoint text).1 ++ (splitPoint text).2 = text := by
  fun_cases splitPoint text with
  | case1 rest => exact congrArg ('.' :: ·) List.takeWhile_append_dropWhile
  | case2 text other => rfl

theorem splitPower_parts (text : List Char) :
    (splitPower text).1 ++ (splitPower text).2 = text := by
  fun_cases splitPower text with
  | case1 => rfl
  | case2 c rest sign tail digits power =>
    rw [List.append_assoc, List.takeWhile_append_dropWhile, List.cons_append]
    exact congrArg (c :: ·) (List.prefix_append_drop (List.take_prefix _ _)).symm
  | case3 c rest => rfl

theorem literal_isFront (text : List Char) : literal text <+: text := by
  have parts := List.prefix_append_drop
    (List.take_prefix (if text.head? = some '-' then 1 else 0) text)
  dsimp only [literal]
  generalize text.take (if text.head? = some '-' then 1 else 0) = sign at parts ⊢
  generalize text.drop sign.length = body at parts ⊢
  rw [parts]
  split
  · rename_i infinite
    exact (List.prefix_append_right_inj sign).mpr (List.isPrefixOf_iff_prefix.mp infinite)
  · split
    · exact List.nil_prefix
    · refine ⟨(splitPower (splitPoint (body.dropWhile Decimal.isDigit)).2).2, ?_⟩
      simp only [List.append_assoc, splitPower_parts, splitPoint_parts,
        List.takeWhile_append_dropWhile]

/-- What the reader takes off a text it takes off the text with further lines as well. -/
def Keeps {α : Type} {P : List Char → List Char → Prop}
    (read : (text : List Char) → Except Error (α × { rest // P text rest })) : Prop :=
  ∀ ⦃text a rest⦄, read text = .ok (a, rest) →
    ∀ more, Takes (read (text ++ '\n' :: more)) a (rest.1 ++ '\n' :: more)

/-- Blanks in front make no difference, unless nothing follows them. -/
theorem Keeps.skipping {α : Type} {P : List Char → List Char → Prop}
    {read : (text : List Char) → Except Error (α × { rest // P text rest })} (keeps : Keeps read)
    {a : α} {rest : { rest // P (skip text) rest }} (h : read (skip text) = .ok (a, rest))
    (something : skip text ≠ []) (more : List Char) :
    Takes (read (skip (text ++ '\n' :: more))) a (rest.1 ++ '\n' :: more) := by
  rw [skip_append something]
  exact keeps h more

theorem readName_keeps : Keeps readName := by
  intro text name rest h more
  obtain ⟨run, left⟩ := run_append (p := isNameChar) (by decide) text more
  unfold readName at h
  split at h
  · cases h
  · rename_i nonempty
    cases h
    simp only [Takes, readName, run, left, nonempty, dite_false, Outcome.map_ok]

theorem eq_cons_of_readChar {c : Char} {rest : Shorter text} (h : readChar c text = .ok rest) :
    text = c :: rest.1 := by
  cases text with
  | nil => cases h
  | cons d tail =>
    rw [readChar] at h
    split at h
    · rename_i same
      cases h
      rw [same]
    · cases h

theorem readChar_keeps {c : Char} {rest : Shorter text} (h : readChar c text = .ok rest)
    (more : List Char) :
    ∃ bound, readChar c (text ++ '\n' :: more) = .ok ⟨rest.1 ++ '\n' :: more, bound⟩ := by
  obtain ⟨tail, bound⟩ := rest
  obtain rfl : text = c :: tail := eq_cons_of_readChar h
  exact ⟨Nat.lt_succ_self _, if_pos rfl⟩

theorem ne_nil_of_shorter (rest : Shorter text) : text ≠ [] := by
  rintro rfl
  exact absurd rest.2 (Nat.not_lt_zero _)

theorem readSpacedName_keeps {rest : Shorter text} (h : readSpacedName text = .ok (name, rest))
    (goesOn : rest.1 ≠ []) (more : List Char) :
    Takes (readSpacedName (text ++ '\n' :: more)) name (rest.1 ++ '\n' :: more) := by
  obtain ⟨⟨name, tail⟩, read, h⟩ := Outcome.bind_eq_ok.mp h
  cases h
  have takes := readName_keeps read more
  rw [← skip_append (ne_nil_of_shorter tail)] at takes
  obtain ⟨bound, read'⟩ := takes.exists_eq
  rw [Takes, readSpacedName, read']
  exact congrArg (fun rest => Except.ok (name, rest)) (skip_append goesOn more)

theorem readPair_keeps {rest : Shorter text} (h : readPair text = .ok (first, second, rest))
    (goesOn : rest.1 ≠ []) (more : List Char) :
    ∃ bound, readPair (text ++ '\n' :: more) =
      .ok (first, second, ⟨rest.1 ++ '\n' :: more, bound⟩) := by
  obtain ⟨⟨first, middle⟩, read₁, h⟩ := Outcome.bind_eq_ok.mp h
  obtain ⟨⟨second, tail⟩, read₂, h⟩ := Outcome.bind_eq_ok.mp h
  cases h
  obtain ⟨bound₁, read₁⟩ := (readSpacedName_keeps read₁ (ne_nil_of_shorter tail) more).exists_eq
  obtain ⟨bound₂, read₂⟩ := (readSpacedName_keeps read₂ goesOn more).exists_eq
  refine ⟨Nat.lt_trans bound₂ bound₁, ?_⟩
  simp only [readPair, read₁, read₂, Outcome.ok_bind]
  rfl

theorem ne_nil_of_readTags {tags : List String} {rest : NoLonger text}
    (h : readTags text = .ok (tags, rest)) : text ≠ [] := by
  rintro rfl
  rw [readTags] at h
  cases h

theorem readTags_keeps : Keeps readTags := by
  intro text tags rest h more
  fun_induction readTags text generalizing tags with
  | case1 text closed =>
    cases h
    rw [Takes, readTags, if_pos ((head?_append_iff (by decide) text more).mpr closed)]
    rfl
  | case2 text other ih =>
    obtain ⟨⟨tag, middle⟩, read₁, h⟩ := Outcome.bind_eq_ok.mp h
    obtain ⟨⟨tags, tail⟩, read₂, h⟩ := Outcome.bind_eq_ok.mp h
    cases h
    obtain ⟨bound₁, read₁⟩ := (readName_keeps read₁ more).exists_eq
    have takes := ih _ middle.2 read₂
    rw [← skip_append (ne_nil_of_readTags read₂)] at takes
    obtain ⟨bound₂, read₂⟩ := takes.exists_eq
    rw [Takes, readTags, if_neg (mt (head?_append_iff (by decide) text more).mp other), read₁]
    simp only [read₂, Outcome.ok_bind]
    rfl

theorem readFrameNames_keeps : Keeps readFrameNames := by
  intro text names rest h more
  fun_induction readFrameNames text generalizing names with
  | case1 text tail closed bound =>
    cases h
    have closed' : skip (text ++ '\n' :: more) = ']' :: (tail ++ '\n' :: more) := by
      rw [skip_append (by simp [closed]) more, closed, List.cons_append]
    rw [Takes, readFrameNames]
    split
    · rename_i rest shut
      cases closed'.symm.trans shut
      rfl
    · rename_i other
      exact absurd closed' (other _)
  | case2 text other bound ih =>
    obtain ⟨⟨name, middle⟩, read₁, h⟩ := Outcome.bind_eq_ok.mp h
    obtain ⟨⟨names, tail⟩, read₂, h⟩ := Outcome.bind_eq_ok.mp h
    cases h
    have takes := readName_keeps (Outcome.mapError_eq_ok.mp read₁) more
    have spaced := skip_append (ne_nil_of_shorter middle) more
    rw [← spaced] at takes
    obtain ⟨bound₁, read₁⟩ := takes.exists_eq
    obtain ⟨bound₂, read₂⟩ := (ih _ middle.2 read₂).exists_eq
    rw [Takes, readFrameNames]
    split
    · rename_i rest shut
      -- Where names are left the text still opens with what it did, which is no bracket.
      obtain ⟨c, cs, front⟩ := List.exists_cons_of_ne_nil (ne_nil_of_shorter middle)
      rw [spaced, front] at shut
      obtain ⟨rfl, -⟩ := List.cons.inj shut
      exact absurd front (other _)
    · simp only [read₁, read₂, Outcome.ok_bind, Except.mapError]
      rfl

theorem readFrame_keeps : Keeps readFrame := by
  intro text names rest h more
  obtain ⟨inner, opened, h⟩ := Outcome.bind_eq_ok.mp h
  obtain ⟨⟨names, tail⟩, read, h⟩ := Outcome.bind_eq_ok.mp h
  cases h
  obtain ⟨bound₁, opened⟩ := readChar_keeps opened more
  obtain ⟨bound₂, read⟩ := (readFrameNames_keeps read more).exists_eq
  simp only [Takes, readFrame, opened, read, Outcome.ok_bind]
  rfl

theorem readSide_keeps : Keeps readSide := by
  intro text side rest h more
  obtain ⟨⟨name, tail⟩, read, h⟩ := Outcome.bind_eq_ok.mp h
  obtain ⟨bound, read⟩ := (readName_keeps read more).exists_eq
  dsimp only at h
  split at h
  · rename_i named
    cases h
    simp only [Takes, readSide, read, Outcome.ok_bind, named]
    rfl
  · cases h

theorem readLogProb_keeps : Keeps readLogProb := by
  intro text v rest h more
  obtain ⟨inner, opened, h⟩ := Outcome.bind_eq_ok.mp h
  obtain ⟨bound, opened⟩ := readChar_keeps opened more
  dsimp only at h
  split at h
  · cases h
  · rename_i value number
    split at h
    · cases h
    · rename_i positive
      cases h
      have something : skip inner.1 ≠ [] := by
        intro nothing
        rw [nothing] at number
        cases number
      have whole := (literal_isFront (skip inner.1)).length_le
      simp only [Takes, readLogProb, opened, Outcome.ok_bind, skip_append something,
        literal_append, number, if_neg positive, List.drop_append_of_le_length whole]
      rfl

theorem readTagsBody_keeps : Keeps readTagsBody := by
  intro text s rest h more
  obtain ⟨⟨word, middle⟩, read₁, h⟩ := Outcome.bind_eq_ok.mp h
  obtain ⟨⟨tags, tail⟩, read₂, h⟩ := Outcome.bind_eq_ok.mp h
  obtain ⟨bound₁, read₁⟩ := (readSpacedName_keeps read₁ (ne_nil_of_readTags read₂) more).exists_eq
  obtain ⟨bound₂, read₂⟩ := (readTags_keeps read₂ more).exists_eq
  dsimp only at h
  split at h
  · cases h
  · rename_i listed
    cases h
    simp only [Takes, readTagsBody, read₁, read₂, Outcome.ok_bind, if_neg listed]
    rfl

theorem readPriorBody_keeps : Keeps readPriorBody := by
  intro text s rest h more
  obtain ⟨⟨label, word, middle⟩, read₁, h⟩ := Outcome.bind_eq_ok.mp h
  obtain ⟨⟨logProb, tail⟩, read₂, h⟩ := Outcome.bind_eq_ok.mp h
  cases h
  obtain ⟨bound₁, read₁⟩ := readPair_keeps read₁ (ne_nil_of_shorter tail) more
  obtain ⟨bound₂, read₂⟩ := (readLogProb_keeps read₂ more).exists_eq
  simp only [Takes, readPriorBody, read₁, read₂, Outcome.ok_bind]
  rfl

theorem readHeadBody_keeps : Keeps readHeadBody := by
  intro text s rest h more
  obtain ⟨⟨parent, headLabel, middle⟩, read₁, h⟩ := Outcome.bind_eq_ok.mp h
  obtain ⟨⟨left, middle₁⟩, read₂, h⟩ := Outcome.bind_eq_ok.mp h
  obtain ⟨⟨right, middle₂⟩, read₃, h⟩ := Outcome.bind_eq_ok.mp h
  obtain ⟨⟨logProb, tail⟩, read₄, h⟩ := Outcome.bind_eq_ok.mp h
  cases h
  obtain ⟨bound₁, read₁⟩ := readPair_keeps read₁ (ne_nil_of_shorter middle₁) more
  obtain ⟨bound₂, read₂⟩ := (readFrame_keeps read₂ more).exists_eq
  obtain ⟨bound₃, read₃⟩ :=
    (readFrame_keeps.skipping read₃ (ne_nil_of_shorter middle₂) more).exists_eq
  obtain ⟨bound₄, read₄⟩ :=
    (readLogProb_keeps.skipping read₄ (ne_nil_of_shorter tail) more).exists_eq
  simp only [Takes, readHeadBody, read₁, read₂, read₃, read₄, Outcome.ok_bind]
  rfl

theorem readModifierBody_keeps : Keeps readModifierBody := by
  intro text s rest h more
  obtain ⟨⟨parent, headLabel, middle⟩, read₁, h⟩ := Outcome.bind_eq_ok.mp h
  obtain ⟨⟨side, middle₁⟩, read₂, h⟩ := Outcome.bind_eq_ok.mp h
  obtain ⟨⟨modLabel, middle₂⟩, read₃, h⟩ := Outcome.bind_eq_ok.mp h
  obtain ⟨⟨logProb, tail⟩, read₄, h⟩ := Outcome.bind_eq_ok.mp h
  cases h
  obtain ⟨bound₁, read₁⟩ := readPair_keeps read₁ (ne_nil_of_shorter middle₁) more
  obtain ⟨bound₂, read₂⟩ := (readSide_keeps read₂ more).exists_eq
  obtain ⟨bound₃, read₃⟩ := (readSpacedName_keeps read₃ (ne_nil_of_shorter tail) more).exists_eq
  obtain ⟨bound₄, read₄⟩ := (readLogProb_keeps read₄ more).exists_eq
  simp only [Takes, readModifierBody, read₁, read₂, read₃, read₄, Outcome.ok_bind]
  rfl

theorem readStopBody_keeps : Keeps readStopBody := by
  intro text s rest h more
  obtain ⟨⟨parent, headLabel, middle⟩, read₁, h⟩ := Outcome.bind_eq_ok.mp h
  obtain ⟨⟨side, middle₁⟩, read₂, h⟩ := Outcome.bind_eq_ok.mp h
  obtain ⟨⟨logProb, tail⟩, read₃, h⟩ := Outcome.bind_eq_ok.mp h
  cases h
  obtain ⟨bound₁, read₁⟩ := readPair_keeps read₁ (ne_nil_of_shorter middle₁) more
  obtain ⟨bound₂, read₂⟩ := (readSide_keeps read₂ more).exists_eq
  obtain ⟨bound₃, read₃⟩ :=
    (readLogProb_keeps.skipping read₃ (ne_nil_of_shorter tail) more).exists_eq
  simp only [Takes, readStopBody, read₁, read₂, read₃, Outcome.ok_bind]
  rfl

theorem readBody_keeps (keyword : String) : Keeps (readBody keyword) := by
  intro text s rest h more
  unfold readBody at h ⊢
  split at h
  · exact readTagsBody_keeps h more
  · exact readPriorBody_keeps h more
  · exact readHeadBody_keeps h more
  · exact readModifierBody_keeps h more
  · exact readStopBody_keeps h more
  · cases h

theorem readStatement_keeps : Keeps readStatement := by
  intro text s rest h more
  obtain ⟨⟨keyword, middle⟩, read₁, h⟩ := Outcome.bind_eq_ok.mp h
  obtain ⟨⟨statement, middle₁⟩, read₂, h⟩ := Outcome.bind_eq_ok.mp h
  obtain ⟨tail, read₃, h⟩ := Outcome.bind_eq_ok.mp h
  cases h
  obtain ⟨bound₁, read₁⟩ := (readName_keeps read₁ more).exists_eq
  have something : skip middle.1 ≠ [] :=
    ne_nil_of_shorter ⟨tail.1, (tail.2.trans_le (skip_length_le _)).trans_le middle₁.2⟩
  obtain ⟨bound₂, read₂⟩ := ((readBody_keeps keyword).skipping read₂ something more).exists_eq
  have closed := readChar_keeps (Outcome.mapError_eq_ok.mp read₃) more
  rw [← skip_append (ne_nil_of_shorter tail)] at closed
  obtain ⟨bound₃, read₃⟩ := closed
  simp only [Takes, readStatement, read₁, read₂, read₃, Outcome.ok_bind, Except.mapError]
  rfl

theorem readStatements_of_skip_eq_nil (h : skip text = []) : readStatements text = .ok [] := by
  rw [readStatements]
  split
  · rfl
  · rename_i more
    exact absurd h more

theorem readStatements_of_skip_ne_nil (h : skip text ≠ []) :
    readStatements text = readStatement (skip text) >>= fun r =>
      (readStatements r.2.1).map (r.1 :: ·) := by
  rw [readStatements]
  split
  · rename_i nothing
    exact absurd nothing h
  · exact congrArg _ (funext fun r => Outcome.bind_ok _ _)

theorem readStatements_congr {other : List Char} (h : skip text = skip other) :
    readStatements text = readStatements other := by
  by_cases nothing : skip other = []
  · rw [readStatements_of_skip_eq_nil nothing, readStatements_of_skip_eq_nil (h.trans nothing)]
  · rw [readStatements_of_skip_ne_nil nothing, readStatements_of_skip_ne_nil (h ▸ nothing), h]

theorem readStatements_append {all : List Statement} (h : readStatements text = .ok all)
    (more : List Char) :
    readStatements (text ++ '\n' :: more) = (readStatements more).map (all ++ ·) := by
  fun_induction readStatements text generalizing all with
  | case1 text nothing =>
    cases h
    rw [readStatements_congr (skip_append_of_eq_nil nothing)]
    cases readStatements more <;> rfl
  | case2 text other ih =>
    obtain ⟨⟨first, tail⟩, read, h⟩ := Outcome.bind_eq_ok.mp h
    obtain ⟨others, read', h⟩ := Outcome.bind_eq_ok.mp h
    cases h
    obtain ⟨bound, read⟩ := (readStatement_keeps.skipping read other more).exists_eq
    rw [readStatements_of_skip_ne_nil (ne_nil_of_shorter ⟨_, bound⟩), read, Outcome.ok_bind,
      ih _ tail.2 read']
    cases readStatements more <;> rfl

/-- A model text and a second one on the lines behind it give the statements of the first and then
those of the second. If the second cannot be read, neither can both, for the same error. -/
theorem statements_append {first : List Statement} {text : String}
    (h : statements text = .ok first) (more : String) :
    (∀ second, statements more = .ok second →
      statements (text ++ "\n" ++ more) = .ok (first ++ second)) ∧
    ∀ error, statements more = .error error →
      statements (text ++ "\n" ++ more) = .error error := by
  have both := readStatements_append h more.toList
  have lines : (text ++ "\n" ++ more).toList = text.toList ++ '\n' :: more.toList := by
    simp
  unfold statements
  rw [lines, both]
  constructor
  · intro second h
    rw [h]
    rfl
  · intro error h
    rw [h]
    rfl

/-- A comment that nothing ends in its own text ends before the second text. -/
theorem commented_text_goes_on :
    statements "prior X * = -1.5; // off" = .ok [.prior "X" none (-1.5)] ∧
      statements ("prior X * = -1.5; // off" ++ "\n" ++ "tags w A;") =
        .ok [.prior "X" none (-1.5), .tags "w" ["A"]] ∧
      statements ("prior X * = -1.5; // off" ++ "\n" ++ "tags w A") = .error (.noName []) := by
  have first : statements "prior X * = -1.5; // off" = .ok [.prior "X" none (-1.5)] := by
    decide +kernel
  exact ⟨first, (statements_append first _).1 [.tags "w" ["A"]] (by decide +kernel),
    (statements_append first _).2 _ (by decide +kernel)⟩

end HeadDriven.Model
