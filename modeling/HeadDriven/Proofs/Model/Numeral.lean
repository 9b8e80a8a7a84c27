import HeadDriven.Model.Reader
import HeadDriven.Proofs.LogProb.Sign
import HeadDriven.Proofs.Text.Runs

/-! Numbers as model texts write them: a minus or none, and the name of infinity, or digits with or
without a point and places and with or without a power of ten. The reader finds just the number at
the front of a text, unless what follows goes on with it, and gives it the value it was written
for. -/
namespace HeadDriven.Model

open Decimal (isDigit)

theorem mem_of_isDigit {c : Char} (h : isDigit c = true) :
    c ∈ ['0', '1', '2', '3', '4', '5', '6', '7', '8', '9'] := by
  simp only [isDigit, Bool.and_eq_true, decide_eq_true_eq, Char.le_def] at h
  have lower : 48 ≤ c.toNat := h.1
  have upper : c.toNat ≤ 57 := h.2
  have codes : ∀ n ∈ List.range' 48 10,
      Char.ofNat n ∈ ['0', '1', '2', '3', '4', '5', '6', '7', '8', '9'] := by decide
  have code := codes c.toNat (List.mem_range'_1.mpr ⟨lower, Nat.lt_succ_of_le upper⟩)
  rwa [Char.ofNat_toNat] at code

theorem toLower_of_isDigit {c : Char} (h : isDigit c = true) : c.toLower = c := by
  simp only [isDigit, Bool.and_eq_true, decide_eq_true_eq, Char.le_def] at h
  rw [Char.toLower, dif_neg]
  intro upper
  exact absurd (UInt32.le_trans upper.1 h.2) (by decide)

structure Power where
  mark : Char
  sign : Option Bool
  digits : List Char
  isMark : mark = 'e' ∨ mark = 'E'
  isDigits : ∀ c ∈ digits, isDigit c = true
  nonempty : digits ≠ []

/-- Digits before a point, those behind it if there is one, and the power if there is one. -/
structure Scientific where
  whole : List Char
  places : Option (List Char)
  power : Option Power
  isWhole : ∀ c ∈ whole, isDigit c = true
  isPlaces : ∀ digits ∈ places, ∀ c ∈ digits, isDigit c = true
  nonempty : whole ≠ []

inductive Amount where
  | infinite
  | finite (s : Scientific)

structure Numeral where
  negative : Bool
  amount : Amount

def minusText : Bool → List Char
  | true => ['-']
  | false => []

namespace Power

def signText : Option Bool → List Char
  | none => []
  | some true => ['-']
  | some false => ['+']

def text (p : Power) : List Char := p.mark :: (signText p.sign ++ p.digits)

def value (p : Power) : Int :=
  if p.sign = some true then -(Decimal.digitsValue p.digits : Int) else Decimal.digitsValue p.digits

end Power

namespace Scientific

def pointText : Option (List Char) → List Char
  | none => []
  | some places => '.' :: places

def powerText : Option Power → List Char
  | none => []
  | some p => p.text

def powerValue : Option Power → Int
  | none => 0
  | some p => p.value

def text (s : Scientific) : List Char := s.whole ++ (pointText s.places ++ powerText s.power)

def value (s : Scientific) : Float :=
  Decimal.nearest (Decimal.digitsValue (s.whole ++ s.places.getD []))
    (powerValue s.power - (s.places.getD []).length)

end Scientific

namespace Amount

def text : Amount → List Char
  | infinite => ['i', 'n', 'f']
  | finite s => s.text

def value : Amount → Float
  | infinite => 1.0 / 0.0
  | finite s => s.value

end Amount

namespace Numeral

def text (n : Numeral) : List Char := minusText n.negative ++ n.amount.text

def value (n : Numeral) : Float := Decimal.negateIf n.negative n.amount.value

end Numeral

/-- A text that does not go on with a number in front of it. -/
def Ends (rest : List Char) : Prop :=
  ∀ c ∈ rest.head?, isDigit c = false ∧ c ≠ '.' ∧ c ≠ 'e' ∧ c ≠ 'E'

variable {rest text : List Char}

theorem ends_nil : Ends [] := fun _ h => nomatch h

theorem Ends.noDigit (h : Ends rest) : ∀ c ∈ rest.head?, isDigit c = false :=
  fun c hc => (h c hc).1

theorem head_powerText (power : Option Power) (h : Ends rest) :
    ∀ c ∈ (Scientific.powerText power ++ rest).head?, isDigit c = false ∧ c ≠ '.' := by
  cases power with
  | none => exact fun c hc => ⟨(h c hc).1, (h c hc).2.1⟩
  | some p =>
    rintro c ⟨⟩
    rcases p.isMark with mark | mark <;> rw [mark] <;> decide

theorem head_pointText (places : Option (List Char)) (power : Option Power) (h : Ends rest) :
    ∀ c ∈ (Scientific.pointText places ++ (Scientific.powerText power ++ rest)).head?,
      isDigit c = false := by
  cases places with
  | none => exact fun c hc => (head_powerText power h c hc).1
  | some digits =>
    rintro c ⟨⟩
    decide

theorem exists_digit {digits : List Char} (all : ∀ c ∈ digits, isDigit c = true)
    (nonempty : digits ≠ []) : ∃ d ds, digits = d :: ds ∧ isDigit d = true := by
  obtain ⟨d, ds, rfl⟩ := List.exists_cons_of_ne_nil nonempty
  exact ⟨d, ds, rfl, all d List.mem_cons_self⟩

theorem ne_of_isDigit {c d : Char} (h : isDigit c = true) (other : isDigit d = false) : c ≠ d := by
  rintro rfl
  exact absurd h (by simp [other])

namespace Power

theorem exists_digits_eq (p : Power) : ∃ d ds, p.digits = d :: ds ∧ d ≠ '-' ∧ d ≠ '+' := by
  obtain ⟨d, ds, digits, first⟩ := exists_digit p.isDigits p.nonempty
  exact ⟨d, ds, digits, ne_of_isDigit first (by decide), ne_of_isDigit first (by decide)⟩

theorem take_sign (p : Power) (rest : List Char) :
    (signText p.sign ++ (p.digits ++ rest)).take
      (if (signText p.sign ++ (p.digits ++ rest)).head? = some '-' ∨
        (signText p.sign ++ (p.digits ++ rest)).head? = some '+' then 1 else 0) =
      signText p.sign := by
  obtain ⟨d, ds, digits, minus, plus⟩ := p.exists_digits_eq
  match p.sign with
  | none => simp [signText, digits, minus, plus]
  | some true | some false => rfl

theorem exists_signText (text : List Char) :
    ∃ sign, text.take (if text.head? = some '-' ∨ text.head? = some '+' then 1 else 0) =
      signText sign := by
  by_cases minus : text.head? = some '-'
  · obtain ⟨tail, rfl⟩ := List.head?_eq_some_iff.mp minus
    exact ⟨some true, rfl⟩
  · by_cases plus : text.head? = some '+'
    · obtain ⟨tail, rfl⟩ := List.head?_eq_some_iff.mp plus
      exact ⟨some false, rfl⟩
    · exact ⟨none, by simp [minus, plus, signText]⟩

end Power

theorem splitPower_powerText (power : Option Power) (h : Ends rest) :
    splitPower (Scientific.powerText power ++ rest) = (Scientific.powerText power, rest) := by
  cases power with
  | none =>
    cases rest with
    | nil => rfl
    | cons c rest =>
      obtain ⟨-, -, lower, upper⟩ := h c rfl
      simp [Scientific.powerText, splitPower, lower, upper]
  | some p =>
    obtain ⟨run, stop⟩ := Text.takeWhile_run p.isDigits h.noDigit
    simp only [Scientific.powerText, Power.text, List.cons_append, List.append_assoc, splitPower,
      p.take_sign, List.drop_left, run, stop, p.isMark, p.nonempty, ne_eq, not_false_eq_true,
      and_self, if_true]

theorem splitPoint_pointText {places : Option (List Char)}
    (all : ∀ digits ∈ places, ∀ c ∈ digits, isDigit c = true)
    (stop : ∀ c ∈ rest.head?, isDigit c = false ∧ c ≠ '.') :
    splitPoint (Scientific.pointText places ++ rest) = (Scientific.pointText places, rest) := by
  cases places with
  | none =>
    unfold splitPoint Scientific.pointText
    split
    · rename_i point
      exact absurd rfl (stop '.' (by rw [← List.nil_append rest, point]; rfl)).2
    · rfl
  | some digits =>
    obtain ⟨run, rest⟩ := Text.takeWhile_run (all digits rfl) fun c hc => (stop c hc).1
    simp only [Scientific.pointText, List.cons_append, splitPoint, run, rest]

theorem splitPlaces_eq (text : List Char) :
    Decimal.splitPlaces text = ((splitPoint text).1.tail, (splitPoint text).2) := by
  fun_cases splitPoint text with
  | case1 rest => rfl
  | case2 text none =>
    unfold Decimal.splitPlaces
    split
    · rename_i rest
      exact (none rest rfl).elim
    · rfl

namespace Power

theorem splitSign_text (p : Power) :
    Decimal.splitSign (signText p.sign ++ p.digits) = (p.sign == some true, p.digits) := by
  obtain ⟨d, ds, digits, minus, plus⟩ := p.exists_digits_eq
  match p.sign with
  | none => simp [signText, Decimal.splitSign, digits, minus, plus]
  | some true | some false => rfl

end Power

theorem exponent?_powerText (power : Option Power) :
    Decimal.exponent? (Scientific.powerText power) = some (Scientific.powerValue power) := by
  cases power with
  | none => rfl
  | some p =>
    have all : p.digits.all isDigit = true := List.all_eq_true.mpr p.isDigits
    simp only [Scientific.powerText, Power.text, Decimal.exponent?, p.splitSign_text, p.isMark,
      p.nonempty, all, ne_eq, not_false_eq_true, and_self, if_true, Scientific.powerValue,
      Power.value, beq_iff_eq]

namespace Scientific

variable (s : Scientific)

/-- What is read of a number as written, in the order in which it is cut. -/
theorem cut (h : Ends rest) :
    (s.text ++ rest).takeWhile isDigit = s.whole ∧
      splitPoint ((s.text ++ rest).dropWhile isDigit) =
        (pointText s.places, powerText s.power ++ rest) ∧
      splitPower (powerText s.power ++ rest) = (powerText s.power, rest) := by
  obtain ⟨run, stop⟩ := Text.takeWhile_run s.isWhole (head_pointText s.places s.power h)
  rw [text, List.append_assoc, List.append_assoc, run, stop]
  exact ⟨rfl, splitPoint_pointText s.isPlaces (head_powerText s.power h),
    splitPower_powerText s.power h⟩

theorem unsigned?_text : Decimal.unsigned? s.text = some s.value := by
  obtain ⟨run, point, -⟩ := s.cut ends_nil
  rw [List.append_nil] at run point
  have places : (pointText s.places).tail = s.places.getD [] := by cases s.places <;> rfl
  simp only [Decimal.unsigned?, run, splitPlaces_eq, point, places, List.append_nil, s.nonempty,
    false_and, if_false, exponent?_powerText, Option.map_some, value]

theorem exists_text : ∃ d rest, s.text = d :: rest ∧ isDigit d = true := by
  obtain ⟨d, ds, digits, first⟩ := exists_digit s.isWhole s.nonempty
  exact ⟨d, _, by rw [text, digits, List.cons_append], first⟩

theorem named?_text : Decimal.named? s.text = none := by
  obtain ⟨d, rest, first, digit⟩ := s.exists_text
  have other (name : Char) (tail : List Char) (letter : isDigit name = false) :
      String.ofList (s.text.map Char.toLower) ≠ String.ofList (name :: tail) := by
    rw [first, List.map_cons, toLower_of_isDigit digit]
    intro same
    exact ne_of_isDigit digit letter (List.cons.inj (String.ofList_injective same)).1
  have inf := other 'i' ['n', 'f'] (by decide)
  have infinity := other 'i' ['n', 'f', 'i', 'n', 'i', 't', 'y'] (by decide)
  have nan := other 'n' ['a', 'n'] (by decide)
  simp only [Decimal.named?]
  rw [if_neg, if_neg]
  · exact nan
  · rintro (h | h)
    · exact inf h
    · exact infinity h

end Scientific

theorem Amount.head_text (a : Amount) : ∃ c rest, a.text = c :: rest ∧ c ≠ '-' ∧ c ≠ '+' := by
  cases a with
  | infinite => exact ⟨_, _, rfl, by decide, by decide⟩
  | finite s =>
    obtain ⟨d, rest, first, digit⟩ := s.exists_text
    exact ⟨d, rest, first, ne_of_isDigit digit (by decide), ne_of_isDigit digit (by decide)⟩

theorem isDigit_of_mem_takeWhile {text : List Char} :
    ∀ c ∈ text.takeWhile isDigit, isDigit c = true :=
  fun _ => List.mem_takeWhile_imp

theorem exists_pointText (text : List Char) :
    ∃ places : Option (List Char), (splitPoint text).1 = Scientific.pointText places ∧
      ∀ digits ∈ places, ∀ c ∈ digits, isDigit c = true := by
  fun_cases splitPoint text with
  | case1 rest =>
    refine ⟨some _, rfl, ?_⟩
    rintro digits ⟨⟩
    exact isDigit_of_mem_takeWhile
  | case2 => exact ⟨none, rfl, fun _ h => nomatch h⟩

theorem exists_powerText (text : List Char) :
    ∃ power, (splitPower text).1 = Scientific.powerText power := by
  fun_cases splitPower text with
  | case1 => exact ⟨none, rfl⟩
  | case2 c rest sign tail digits written =>
    obtain ⟨plusMinus, hsign⟩ := Power.exists_signText rest
    refine ⟨some ⟨c, plusMinus, digits, written.1, isDigit_of_mem_takeWhile, written.2⟩, ?_⟩
    rw [Scientific.powerText, Power.text, ← hsign]
    rfl
  | case3 => exact ⟨none, rfl⟩

namespace Numeral

variable (n : Numeral)

theorem splitSign_text : Decimal.splitSign n.text = (n.negative, n.amount.text) := by
  obtain ⟨negative, amount⟩ := n
  cases negative with
  | true => rfl
  | false =>
    obtain ⟨c, rest, first, minus, plus⟩ := amount.head_text
    simp [text, minusText, first, Decimal.splitSign, minus, plus]

theorem toFloat?_text : Decimal.toFloat? n.text = some n.value := by
  rw [Decimal.toFloat?, splitSign_text]
  cases h : n.amount with
  | infinite =>
    rw [value, h]
    rfl
  | finite s =>
    simp only [Amount.text, s.named?_text, s.unsigned?_text, Option.none_or, Option.map_some,
      value, h, Amount.value]

theorem take_minus (negative : Bool) {body : List Char} (plain : body.head? ≠ some '-') :
    (minusText negative ++ body).take
      (if (minusText negative ++ body).head? = some '-' then 1 else 0) = minusText negative := by
  cases negative with
  | true => rfl
  | false => simp [minusText, plain]

theorem literal_text (h : Ends rest) : literal (n.text ++ rest) = n.text := by
  obtain ⟨negative, amount⟩ := n
  obtain ⟨c, tail, first, minus, -⟩ := amount.head_text
  have plain : (amount.text ++ rest).head? ≠ some '-' := by simp [first, minus]
  simp only [literal, text, List.append_assoc, take_minus negative plain, List.drop_left]
  cases amount with
  | infinite => rfl
  | finite s =>
    obtain ⟨run, point, power⟩ := s.cut h
    obtain ⟨d, _, begins, digit⟩ := s.exists_text
    have letter := (ne_of_isDigit digit (d := 'i') (by decide)).symm
    have named : ['i', 'n', 'f'].isPrefixOf (s.text ++ rest) = false := by
      rw [begins, List.cons_append, List.isPrefixOf_cons_cons, beq_false_of_ne letter,
        Bool.false_and]
    simp only [Amount.text, named, run, point, power, s.nonempty, Bool.false_eq_true, if_false]
    rw [Scientific.text]

theorem exists_minusText (text : List Char) :
    ∃ negative, text.take (if text.head? = some '-' then 1 else 0) = minusText negative := by
  by_cases minus : text.head? = some '-'
  · obtain ⟨tail, rfl⟩ := List.head?_eq_some_iff.mp minus
    exact ⟨true, rfl⟩
  · exact ⟨false, by simp [minus, minusText]⟩

theorem exists_literal (text : List Char) :
    literal text = [] ∨ ∃ n : Numeral, literal text = n.text := by
  obtain ⟨negative, hminus⟩ := exists_minusText text
  simp only [literal, hminus]
  generalize text.drop (minusText negative).length = body
  split
  · exact Or.inr ⟨⟨negative, .infinite⟩, rfl⟩
  · split
    · exact Or.inl rfl
    · rename_i nonempty
      obtain ⟨places, hplaces, all⟩ := exists_pointText (body.dropWhile isDigit)
      obtain ⟨power, hpower⟩ := exists_powerText (splitPoint (body.dropWhile isDigit)).2
      rw [hplaces, hpower, List.append_assoc, List.append_assoc]
      exact Or.inr
        ⟨⟨negative, .finite ⟨_, places, power, isDigit_of_mem_takeWhile, all, nonempty⟩⟩, rfl⟩

theorem number_value : n.value.isNaN = false := by
  have nonneg : 0.0 ≤ n.amount.value := by
    cases n.amount with
    | infinite => decide +kernel
    | finite s => exact LogProb.nearest_nonneg _ _
  have number := (LogProb.numbers_of_le nonneg).2
  unfold value Decimal.negateIf
  split
  · exact LogProb.number_neg number
  · exact number

end Numeral

end HeadDriven.Model
