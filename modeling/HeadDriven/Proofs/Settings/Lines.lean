import HeadDriven.Proofs.Settings.Keys
import HeadDriven.Proofs.Text.Runs
import Mathlib.Data.List.DropRight

/-! What a line of a settings text says. Up to its first `#` a line is blank, and then it leaves the
settings as they are, or it is a key, an equals sign and a value with blanks as one likes, and then
it puts that value under that key. The reader takes these lines and no others, and names a line
that it does not take. -/
namespace HeadDriven.Settings

def uncommented (line : List Char) : List Char :=
  (line.takeWhile (· ≠ '#')).rdropWhile Text.isBlank

def Assigns (text key value : List Char) : Prop :=
  (key ≠ [] ∧ ∀ c ∈ key, isKeyChar c = true) ∧
  (value ≠ [] ∧ ∀ c ∈ value, Text.isBlank c = false) ∧
  ∃ before behind ahead after : List Char,
    (∀ c ∈ before ++ behind ++ ahead ++ after, Text.isBlank c = true) ∧
    text = before ++ key ++ behind ++ ['='] ++ ahead ++ value ++ after

theorem not_isBlank_of_isKeyChar {c : Char} (h : isKeyChar c = true) : Text.isBlank c = false := by
  simp only [isKeyChar, Bool.or_eq_true, Bool.and_eq_true, decide_eq_true_eq, beq_iff_eq] at h
  rcases h with letter | rfl
  · have apart : ∀ run ∈ Text.blanks, run.last < 'a'.toNat ∨ 'z'.toNat < run.first := by decide
    refine List.any_eq_false.mpr fun run hrun holds => ?_
    simp only [Text.CodeRun.holds, Bool.and_eq_true, decide_eq_true_eq] at holds
    have code : 'a'.toNat ≤ c.toNat ∧ c.toNat ≤ 'z'.toNat := letter
    have := apart run hrun
    omega
  · decide

theorem assigns_of_ofLine? {text : List Char} {a : Assignment}
    (h : Assignment.ofLine? text = some a) : Assigns text a.key.toList a.value.toList := by
  simp only [Assignment.ofLine?, Text.dropBlanks] at h
  split at h
  · rename_i rest hrest
    obtain ⟨⟨hkey, hvalue, hafter⟩, h⟩ := Option.ite_none_right_eq_some.mp h
    obtain rfl := Option.some.inj h
    rw [String.toList_ofList, String.toList_ofList]
    refine ⟨⟨hkey, fun c => List.mem_takeWhile_imp⟩,
      ⟨hvalue, fun c hc => by simpa using List.mem_takeWhile_imp hc⟩,
      text.takeWhile Text.isBlank,
      ((text.dropWhile Text.isBlank).dropWhile isKeyChar).takeWhile Text.isBlank,
      rest.takeWhile Text.isBlank,
      (rest.dropWhile Text.isBlank).dropWhile (!Text.isBlank ·), ?_, ?_⟩
    · simp only [List.forall_mem_append]
      exact ⟨⟨⟨fun c => List.mem_takeWhile_imp, fun c => List.mem_takeWhile_imp⟩,
        fun c => List.mem_takeWhile_imp⟩, List.all_eq_true.mp hafter⟩
    · simp only [List.append_assoc, List.cons_append, List.nil_append,
        List.takeWhile_append_dropWhile, ← hrest]
  · cases h

theorem ofLine?_of_assigns {text key value : List Char} (h : Assigns text key value) :
    Assignment.ofLine? text = some ⟨String.ofList key, String.ofList value⟩ := by
  obtain ⟨⟨hkey, keyChars⟩, ⟨hvalue, visible⟩, before, behind, ahead, after, blanks, rfl⟩ := h
  simp only [List.forall_mem_append] at blanks
  obtain ⟨⟨⟨hbefore, hbehind⟩, hahead⟩, hafter⟩ := blanks
  let rest := ahead ++ (value ++ after)
  -- The line is cut from the front: blanks, key, blanks, sign, blanks, value, blanks.
  have cutBefore : (before ++ (key ++ (behind ++ '=' :: rest))).dropWhile Text.isBlank =
      key ++ (behind ++ '=' :: rest) :=
    (Text.takeWhile_next_run hbefore hkey fun c hc => not_isBlank_of_isKeyChar (keyChars c hc)).2
  have cutKey : (key ++ (behind ++ '=' :: rest)).takeWhile isKeyChar = key ∧
      (key ++ (behind ++ '=' :: rest)).dropWhile isKeyChar = behind ++ '=' :: rest := by
    have noKey : ∀ c ∈ behind ++ ['='], isKeyChar c = false := by
      refine List.forall_mem_append.mpr ⟨fun c hc => ?_, List.forall_mem_singleton.mpr (by decide)⟩
      exact Bool.eq_false_iff.mpr fun isKey =>
        Bool.eq_false_iff.mp (not_isBlank_of_isKeyChar isKey) (hbehind c hc)
    have gap : behind ++ '=' :: rest = behind ++ ['='] ++ rest := by simp
    rw [gap]
    exact Text.takeWhile_next_run keyChars (by simp) noKey
  have cutBehind : (behind ++ '=' :: rest).dropWhile Text.isBlank = '=' :: rest :=
    (Text.takeWhile_run hbehind (by rintro c ⟨⟩; decide)).2
  have cutAhead : rest.dropWhile Text.isBlank = value ++ after :=
    (Text.takeWhile_next_run hahead hvalue visible).2
  have cutValue : (value ++ after).takeWhile (!Text.isBlank ·) = value ∧
      (value ++ after).dropWhile (!Text.isBlank ·) = after :=
    Text.takeWhile_run (fun c hc => by rw [visible c hc]; rfl)
      (fun c hc => by rw [hafter c (List.mem_of_mem_head? hc)]; rfl)
  have whole : before ++ key ++ behind ++ ['='] ++ ahead ++ value ++ after =
      before ++ (key ++ (behind ++ '=' :: rest)) := by
    simp only [List.append_assoc, List.cons_append, List.nil_append, rest]
  simp only [whole, Assignment.ofLine?, Text.dropBlanks, cutBefore, cutKey, cutBehind, cutAhead,
    cutValue]
  rw [if_pos ⟨hkey, hvalue, List.all_eq_true.mpr hafter⟩]

theorem ofLine?_eq_some {text : List Char} {a : Assignment} :
    Assignment.ofLine? text = some a ↔ Assigns text a.key.toList a.value.toList := by
  refine ⟨assigns_of_ofLine?, fun h => ?_⟩
  have found := ofLine?_of_assigns h
  rwa [String.ofList_toList, String.ofList_toList] at found

theorem assigns_rdropWhile_iff {text key value : List Char} :
    Assigns (text.rdropWhile Text.isBlank) key value ↔ Assigns text key value := by
  constructor
  · rintro ⟨hkey, hvalue, before, behind, ahead, after, blanks, shape⟩
    refine ⟨hkey, hvalue, before, behind, ahead, after ++ text.rtakeWhile Text.isBlank, ?_, ?_⟩
    · rw [← List.append_assoc, List.forall_mem_append]
      exact ⟨blanks, fun c => List.mem_rtakeWhile_imp⟩
    · rw [← List.append_assoc, ← shape, List.rdropWhile_append_rtakeWhile]
  · rintro ⟨hkey, ⟨hvalue, visible⟩, before, behind, ahead, after, blanks, rfl⟩
    rw [List.forall_mem_append] at blanks
    refine ⟨hkey, ⟨hvalue, visible⟩, before, behind, ahead, [], by simpa using blanks.1, ?_⟩
    let front := before ++ key ++ behind ++ ['='] ++ ahead
    have cut : (after.reverse ++ (value.reverse ++ front.reverse)).dropWhile Text.isBlank =
        value.reverse ++ front.reverse :=
      (Text.takeWhile_next_run (by simpa using blanks.2) (by simpa using hvalue)
        (by simpa using visible)).2
    rw [List.rdropWhile, List.reverse_append, List.reverse_append, cut]
    simp [front]

theorem ofLine?_rdropWhile (text : List Char) :
    Assignment.ofLine? (text.rdropWhile Text.isBlank) = Assignment.ofLine? text :=
  Option.ext fun a => by rw [ofLine?_eq_some, ofLine?_eq_some, assigns_rdropWhile_iff]

/-- A text without a comment assigns a value to a key that can read it. -/
def Tells (text : List Char) (a : Setting) : Prop :=
  ∃ value, Assigns text a.key.name.toList value ∧
    a.key.read? (String.ofList value) = some a.value

theorem tells_iff {text : List Char} {a : Setting} : Tells text a ↔
    ∃ x, Assignment.ofLine? text = some x ∧ a.key.name = x.key ∧
      a.key.read? x.value = some a.value := by
  constructor
  · rintro ⟨value, assigns, reads⟩
    exact ⟨_, ofLine?_of_assigns assigns, String.ofList_toList.symm, reads⟩
  · rintro ⟨x, found, name, reads⟩
    refine ⟨x.value.toList, name ▸ ofLine?_eq_some.mp found, ?_⟩
    rwa [String.ofList_toList]

theorem Tells.ne_nil {text : List Char} {a : Setting} (h : Tells text a) : text ≠ [] := by
  rintro rfl
  obtain ⟨x, found, -⟩ := tells_iff.mp h
  cases found

theorem Tells.unique {text : List Char} {a b : Setting} (ha : Tells text a) (hb : Tells text b) :
    a = b := by
  obtain ⟨x, found, name, reads⟩ := tells_iff.mp ha
  obtain ⟨y, found', name', reads'⟩ := tells_iff.mp hb
  obtain rfl := Option.some.inj (found.symm.trans found')
  obtain ⟨k, v⟩ := a
  obtain ⟨k', w⟩ := b
  obtain rfl : k = k' := Key.name_injective (name.trans name'.symm)
  exact congrArg (Setting.mk k) (Option.some.inj (reads.symm.trans reads'))

def Error.Names (e : Error) (number : Nat) : Prop :=
  ∃ rest : String, e.message = s!"line {number}: {rest}"

theorem names_malformed (number : Nat) (text : String) :
    (Error.malformed number text).Names number := by
  refine ⟨"expected key = value, got " ++ Text.quoted text, ?_⟩
  have colon : ": expected key = value, got " = ": " ++ "expected key = value, got " := by decide
  change s!"line {number}: expected key = value, got {Text.quoted text}" = _
  simp only [toString, colon, String.append_assoc]

variable {s t : Settings} {number : Nat} {line : List Char}

theorem readLine_eq : s.readLine number line =
    if uncommented line = [] then .ok s
    else match Assignment.ofLine? (uncommented line) with
      | none => .error (.malformed number (String.ofList (line.takeWhile (· ≠ '#'))))
      | some a => (s.assign a).mapError (.rejected number) := by
  rw [uncommented, ofLine?_rdropWhile]
  refine ite_congr ?_ (fun _ => rfl) fun _ => rfl
  rw [List.rdropWhile_eq_nil_iff, List.all_eq_true]

theorem readLine_blank (h : uncommented line = []) : s.readLine number line = .ok s := by
  rw [readLine_eq, if_pos h]

theorem readLine_eq_ok (h : uncommented line ≠ []) :
    s.readLine number line = .ok t ↔ ∃ a, Tells (uncommented line) a ∧ s.put a = t := by
  rw [readLine_eq, if_neg h]
  simp only [tells_iff]
  cases Assignment.ofLine? (uncommented line) with
  | none =>
    refine ⟨nofun, ?_⟩
    rintro ⟨a, ⟨x, found, -⟩, -⟩
    cases found
  | some x =>
    rw [Outcome.mapError_eq_ok, assign_eq_ok]
    constructor
    · rintro ⟨k, v, name, reads, put⟩
      exact ⟨⟨k, v⟩, ⟨x, rfl, name, reads⟩, put⟩
    · rintro ⟨⟨k, v⟩, ⟨_, found, name, reads⟩, put⟩
      obtain rfl := Option.some.inj found
      exact ⟨k, v, name, reads, put⟩

theorem names_of_readLine {e : Error} (h : s.readLine number line = .error e) :
    e.Names number := by
  rw [readLine_eq] at h
  split at h
  · cases h
  · split at h
    · cases h
      exact names_malformed number _
    · rename_i a _
      cases assigned : s.assign a with
      | ok => rw [assigned] at h; cases h
      | error cause =>
        rw [assigned] at h
        cases h
        exact ⟨cause.message, rfl⟩

end HeadDriven.Settings
