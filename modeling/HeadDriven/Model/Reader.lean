import HeadDriven.Decimal.Reading
import HeadDriven.Event
import HeadDriven.Text.Blank

/-! Reading model texts. The names of a statement are not yet entered into a
symbol table; a prior without a word holds for every word that has none of its own.
A statement is written as a keyword, its names, frames and log probability, and a
semicolon; blanks and comments, which run from two slashes to the end of the line,
may stand between any two of its parts. Every reader returns what follows the piece
it has read, with a bound on its length. -/
namespace HeadDriven.Model

inductive Statement where
  | tags (word : String) (tags : List String)
  | prior (label : String) (word : Option String) (logProb : Float)
  | head (parent headLabel : String) (left right : List String) (logProb : Float)
  | modifier (parent headLabel : String) (side : Side) (modLabel : String) (logProb : Float)
  | stop (parent headLabel : String) (side : Side) (logProb : Float)
  deriving DecidableEq, Repr

inductive Error where
  | noName (rest : List Char)
  | noFrameName (rest : List Char)
  | noLogProb (rest : List Char)
  | missing (c : Char) (rest : List Char)
  | unclosed (keyword : String) (rest : List Char)
  | positive (literal : String)
  | noSide (name : String)
  | noTags (word : String)
  | unknownStatement (keyword : String)
  deriving DecidableEq, Repr

namespace Error

def nameForm : String := "^[^\\s\\[\\];=]+"

def numberForm : String := "^-?(inf|[0-9]+(\\.[0-9]*)?([eE][-+]?[0-9]+)?)"

def unmatched (form : String) (rest : List Char) : String :=
  s!"couldn't match {form} at {String.ofList (rest.take 30)}"

def message : Error → String
  | .noName rest => s!"name: {unmatched nameForm rest}"
  | .noFrameName rest => s!"subcat: name: {unmatched nameForm rest}"
  | .noLogProb rest => s!"log prob: {unmatched numberForm rest}"
  | .missing c rest => unmatched (String.singleton c) rest
  | .unclosed keyword rest => keyword ++ ": " ++ unmatched ";" rest
  | .positive literal => s!"log prob {literal} is positive"
  | .noSide name => s!"expected left or right, got {name}"
  | .noTags word => s!"tags for {word} lists no tags"
  | .unknownStatement keyword => s!"unknown statement {keyword}"

end Error

abbrev Shorter (text : List Char) := { rest : List Char // rest.length < text.length }

abbrev NoLonger (text : List Char) := { rest : List Char // rest.length ≤ text.length }

/-- Skips blanks and comments; `inComment` tells that a comment has begun. -/
def skipFrom : (inComment : Bool) → List Char → List Char
  | _, [] => []
  | true, c :: rest => skipFrom (c ≠ '\n') rest
  | false, c :: rest =>
    if Text.isBlank c then skipFrom false rest
    else if c = '/' ∧ rest.head? = some '/' then skipFrom true rest
    else c :: rest

def skip (text : List Char) : List Char := skipFrom false text

theorem skipFrom_length_le (inComment : Bool) (text : List Char) :
    (skipFrom inComment text).length ≤ text.length := by
  induction text generalizing inComment with
  | nil => cases inComment <;> simp [skipFrom]
  | cons c rest ih =>
    have shorter (b : Bool) := Nat.le_succ_of_le (ih b)
    cases inComment with
    | true => simpa [skipFrom] using shorter (c ≠ '\n')
    | false =>
      simp only [skipFrom]
      split
      · simpa using shorter false
      · split
        · simpa using shorter true
        · exact Nat.le_refl _

theorem skip_length_le (text : List Char) : (skip text).length ≤ text.length :=
  skipFrom_length_le false text

theorem takeWhile_dropWhile_length (p : Char → Bool) (text : List Char) :
    (text.takeWhile p).length + (text.dropWhile p).length = text.length := by
  rw [← List.length_append, List.takeWhile_append_dropWhile]

def isNameChar (c : Char) : Bool :=
  !Text.isBlank c && c != '[' && c != ']' && c != ';' && c != '='

/-- A label, tag or word: everything up to a blank or a reserved character. -/
def readName (text : List Char) : Except Error (String × Shorter text) :=
  if h : text.takeWhile isNameChar = [] then .error (.noName text)
  else .ok (String.ofList (text.takeWhile isNameChar), ⟨text.dropWhile isNameChar, by
    have parts := takeWhile_dropWhile_length isNameChar text
    have := List.length_pos_iff.mpr h
    omega⟩)

def readChar (c : Char) : (text : List Char) → Except Error (Shorter text)
  | [] => .error (.missing c [])
  | d :: rest => if d = c then .ok ⟨rest, by simp⟩ else .error (.missing c (d :: rest))

def readSpacedName (text : List Char) : Except Error (String × Shorter text) := do
  let (name, ⟨rest, _⟩) ← readName (skip text)
  return (name, ⟨skip rest, by
    have := skip_length_le text
    have := skip_length_le rest
    omega⟩)

def readPair (text : List Char) : Except Error (String × String × Shorter text) := do
  let (first, ⟨rest, _⟩) ← readSpacedName text
  let (second, ⟨rest, _⟩) ← readSpacedName rest
  return (first, second, ⟨rest, by omega⟩)

/-- Tags up to a semicolon, which is left in place. -/
def readTags (text : List Char) : Except Error (List String × NoLonger text) :=
  if text.head? = some ';' then .ok ([], ⟨text, Nat.le_refl _⟩)
  else do
    let (tag, ⟨rest, _⟩) ← readName text
    have := skip_length_le rest
    let (tags, ⟨rest, _⟩) ← readTags (skip rest)
    return (tag :: tags, ⟨rest, by omega⟩)
termination_by text.length

def readFrameNames (text : List Char) : Except Error (List String × Shorter text) :=
  match h : skip text with
  | ']' :: rest =>
    have bound : (']' :: rest).length ≤ text.length := h ▸ skip_length_le text
    .ok ([], ⟨rest, bound⟩)
  | spaced => do
    have bound : spaced.length ≤ text.length := h ▸ skip_length_le text
    let (name, ⟨rest, ofName⟩) ← (readName spaced).mapError fun _ => .noFrameName spaced
    have shorter : rest.length < text.length := Nat.lt_of_lt_of_le ofName bound
    let (names, ⟨rest, ofNames⟩) ← readFrameNames rest
    return (name :: names, ⟨rest, Nat.lt_trans ofNames shorter⟩)
termination_by text.length

def readFrame (text : List Char) : Except Error (List String × Shorter text) := do
  let ⟨rest, _⟩ ← readChar '[' text
  let (names, ⟨rest, _⟩) ← readFrameNames rest
  return (names, ⟨rest, by omega⟩)

def readSide (text : List Char) : Except Error (Side × Shorter text) := do
  let (name, rest) ← readName text
  match Side.ofName? name with
  | some side => return (side, rest)
  | none => throw (.noSide name)

def splitPower : List Char → List Char × List Char
  | [] => ([], [])
  | c :: rest =>
    let sign := rest.take (if rest.head? = some '-' ∨ rest.head? = some '+' then 1 else 0)
    let tail := rest.drop sign.length
    let digits := tail.takeWhile Decimal.isDigit
    if (c = 'e' ∨ c = 'E') ∧ digits ≠ [] then
      (c :: sign ++ digits, tail.dropWhile Decimal.isDigit)
    else ([], c :: rest)

def splitPoint : List Char → List Char × List Char
  | '.' :: rest => ('.' :: rest.takeWhile Decimal.isDigit, rest.dropWhile Decimal.isDigit)
  | text => ([], text)

/-- The longest literal of a number at the front of a text, or nothing. -/
def literal (text : List Char) : List Char :=
  let sign := text.take (if text.head? = some '-' then 1 else 0)
  let body := text.drop sign.length
  if ['i', 'n', 'f'].isPrefixOf body then sign ++ ['i', 'n', 'f']
  else
    let digits := body.takeWhile Decimal.isDigit
    if digits = [] then []
    else
      let (places, rest) := splitPoint (body.dropWhile Decimal.isDigit)
      sign ++ digits ++ places ++ (splitPower rest).1

/-- An equals sign and a log probability, which must not be positive. -/
def readLogProb (text : List Char) : Except Error (Float × Shorter text) := do
  let ⟨rest, _⟩ ← readChar '=' text
  let spaced := skip rest
  let digits := literal spaced
  match Decimal.toFloat? digits with
  | none => throw (.noLogProb spaced)
  | some value =>
    if 0.0 < value then throw (.positive (String.ofList digits))
    return (value, ⟨spaced.drop digits.length, by
      have : spaced.length ≤ rest.length := skip_length_le rest
      have : (spaced.drop digits.length).length = spaced.length - digits.length :=
        List.length_drop
      omega⟩)

def readTagsBody (text : List Char) : Except Error (Statement × NoLonger text) := do
  let (word, ⟨rest, _⟩) ← readSpacedName text
  let (tags, ⟨rest, _⟩) ← readTags rest
  if tags = [] then throw (.noTags word)
  return (.tags word tags, ⟨rest, by omega⟩)

/-- The word of a prior; an asterisk stands for every word. -/
def priorWord (word : String) : Option String := if word = "*" then none else some word

def readPriorBody (text : List Char) : Except Error (Statement × NoLonger text) := do
  let (label, word, ⟨rest, _⟩) ← readPair text
  let (logProb, ⟨rest, _⟩) ← readLogProb rest
  return (.prior label (priorWord word) logProb, ⟨rest, by omega⟩)

def readHeadBody (text : List Char) : Except Error (Statement × NoLonger text) := do
  let (parent, headLabel, ⟨rest, _⟩) ← readPair text
  let (left, ⟨rest, _⟩) ← readFrame rest
  have := skip_length_le rest
  let (right, ⟨rest, _⟩) ← readFrame (skip rest)
  have := skip_length_le rest
  let (logProb, ⟨rest, _⟩) ← readLogProb (skip rest)
  return (.head parent headLabel left right logProb, ⟨rest, by omega⟩)

def readModifierBody (text : List Char) : Except Error (Statement × NoLonger text) := do
  let (parent, headLabel, ⟨rest, _⟩) ← readPair text
  let (side, ⟨rest, _⟩) ← readSide rest
  let (modLabel, ⟨rest, _⟩) ← readSpacedName rest
  let (logProb, ⟨rest, _⟩) ← readLogProb rest
  return (.modifier parent headLabel side modLabel logProb, ⟨rest, by omega⟩)

def readStopBody (text : List Char) : Except Error (Statement × NoLonger text) := do
  let (parent, headLabel, ⟨rest, _⟩) ← readPair text
  let (side, ⟨rest, _⟩) ← readSide rest
  have := skip_length_le rest
  let (logProb, ⟨rest, _⟩) ← readLogProb (skip rest)
  return (.stop parent headLabel side logProb, ⟨rest, by omega⟩)

def readBody (keyword : String) (text : List Char) :
    Except Error (Statement × NoLonger text) :=
  match keyword with
  | "tags" => readTagsBody text
  | "prior" => readPriorBody text
  | "head" => readHeadBody text
  | "mod" => readModifierBody text
  | "stop" => readStopBody text
  | _ => .error (.unknownStatement keyword)

def readStatement (text : List Char) : Except Error (Statement × Shorter text) := do
  let (keyword, ⟨rest, _⟩) ← readName text
  have := skip_length_le rest
  let (statement, ⟨rest, _⟩) ← readBody keyword (skip rest)
  have := skip_length_le rest
  let ⟨rest, _⟩ ← (readChar ';' (skip rest)).mapError fun _ => .unclosed keyword (skip rest)
  return (statement, ⟨rest, by omega⟩)

def readStatements (text : List Char) : Except Error (List Statement) :=
  match h : skip text with
  | [] => .ok []
  | spaced => do
    let (statement, ⟨rest, _⟩) ← readStatement spaced
    have : spaced.length ≤ text.length := h ▸ skip_length_le text
    have : rest.length < text.length := by omega
    let statements ← readStatements rest
    return statement :: statements
termination_by text.length

def statements (text : String) : Except Error (List Statement) := readStatements text.toList

end HeadDriven.Model
