import HeadDriven.Settings
import HeadDriven.Decimal.Printing
import HeadDriven.Text.Blank
import HeadDriven.Text.Quoted

/-! Reading settings from text: one `key = value` a line, comments from `#` to
the end of the line, blank lines allowed. A later line overrides an earlier one;
only the settings that result are held to their ranges. -/
namespace HeadDriven.Settings

inductive BadValue where
  | number
  | digit
  | tooLarge
  | switch
  deriving DecidableEq, Repr

def BadValue.message : BadValue → String
  | .number => "invalid float literal"
  | .digit => "invalid digit found in string"
  | .tooLarge => "number too large to fit in target type"
  | .switch => "provided string was not `true` or `false`"

inductive Rejection where
  | unknownKey (key : String)
  | badValue (key value : String) (reason : BadValue)
  | badFrames (value : String)
  | badEquivalence (cause : Equivalence.Error)
  deriving DecidableEq, Repr

def Rejection.message : Rejection → String
  | .unknownKey key => s!"unknown setting {key}"
  | .badValue key value reason => s!"{key}: bad value {Text.quoted value}: {reason.message}"
  | .badFrames value => s!"subcat: expected bag or list, got {value}"
  | .badEquivalence cause => cause.message

/-- What is wrong with a settings text. Lines count from one. -/
inductive Error where
  | malformed (line : Nat) (text : String)
  | rejected (line : Nat) (cause : Rejection)
  | negativePruneFactor (value : Float)
  | zeroCellSize
  deriving DecidableEq, Repr

def Error.message : Error → String
  | .malformed line text => s!"line {line}: expected key = value, got {Text.quoted text}"
  | .rejected line cause => s!"line {line}: {cause.message}"
  | .negativePruneFactor value =>
    s!"prune_factor must be non-negative, got {Decimal.plain value}"
  | .zeroCellSize => "max_cell_size must be at least 1"

structure Assignment where
  key : String
  value : String
  deriving DecidableEq, Repr

def isKeyChar (c : Char) : Bool := ('a' ≤ c && c ≤ 'z') || c == '_'

/-- The assignment on a line: a key, an equals sign and a value without blanks. -/
def Assignment.ofLine? (line : List Char) : Option Assignment :=
  let body := Text.dropBlanks line
  let key := body.takeWhile isKeyChar
  match Text.dropBlanks (body.dropWhile isKeyChar) with
  | '=' :: rest =>
    let rest := Text.dropBlanks rest
    let value := rest.takeWhile (!Text.isBlank ·)
    if key ≠ [] ∧ value ≠ [] ∧ (rest.dropWhile (!Text.isBlank ·)).all Text.isBlank then
      some ⟨String.ofList key, String.ofList value⟩
    else none
  | _ => none

def naturalBound : Nat := 0x10000000000000000

def addDigit (n : Nat) (c : Char) : Except BadValue Nat :=
  let next := 10 * n + (c.toNat - '0'.toNat)
  if !c.isDigit then .error .digit
  else if naturalBound ≤ next then .error .tooLarge
  else .ok next

def natural (text : String) : Except BadValue Nat :=
  let digits := match text.toList with
    | '+' :: rest => rest
    | all => all
  if digits.isEmpty then .error .digit else digits.foldlM addDigit 0

def number (text : String) : Except BadValue Float :=
  match Decimal.toFloat? text.toList with
  | some x => .ok x
  | none => .error .number

def switch : String → Except BadValue Bool
  | "true" => .ok true
  | "false" => .ok false
  | _ => .error .switch

def assign (s : Settings) (a : Assignment) : Except Rejection Settings :=
  let read {α : Type} (reader : String → Except BadValue α) : Except Rejection α :=
    (reader a.value).mapError (.badValue a.key a.value)
  match a.key with
  | "prune_factor" => return { s with pruneFactor := ← read number }
  | "max_cell_size" => return { s with maxCellSize := ← read natural }
  | "history_window" => return { s with historyWindow := ← read natural }
  | "prev_word_window" => return { s with prevWordWindow := ← read natural }
  | "comma_constraint" => return { s with commaConstraint := ← read switch }
  | "future_check" => return { s with futureCheck := ← read switch }
  | "equivalence" =>
    return { s with equivalence := ← (Equivalence.ofName a.value).mapError .badEquivalence }
  | "subcat" =>
    match FrameKind.ofName? a.value with
    | some kind => return { s with frames := kind }
    | none => throw (.badFrames a.value)
  | "max_sentence_length" => return { s with maxSentenceLength := ← read natural }
  | "base_np_verb_barrier" => return { s with baseNpVerbBarrier := ← read switch }
  | key => throw (.unknownKey key)

def readLine (s : Settings) (number : Nat) (line : List Char) : Except Error Settings :=
  let body := line.takeWhile (· ≠ '#')
  if body.all Text.isBlank then .ok s
  else match Assignment.ofLine? body with
    | none => .error (.malformed number (String.ofList body))
    | some a => (s.assign a).mapError (.rejected number)

def readLines (s : Settings) (number : Nat) : List (List Char) → Except Error Settings
  | [] => .ok s
  | line :: rest => do (← s.readLine number line).readLines (number + 1) rest

def validate (s : Settings) : Except Error Settings :=
  if !(0.0 ≤ s.pruneFactor : Bool) then .error (.negativePruneFactor s.pruneFactor)
  else if s.maxCellSize = 0 then .error .zeroCellSize
  else .ok s

def ofText (text : String) : Except Error Settings := do
  (← default.readLines 1 (Text.lines text.toList)).validate

end HeadDriven.Settings
