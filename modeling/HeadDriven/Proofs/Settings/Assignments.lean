import HeadDriven.Proofs.Beam
import HeadDriven.Proofs.Settings.Lines

/-! Settings texts as their last assignments. Line by line a text puts values under keys, so what
it leaves under a key is the value put there last, whatever stands between; and the first line that
cannot be read is the one that is named, as nothing is validated before all lines are read. -/
namespace HeadDriven

namespace Settings

/-- What some lines say apart from comments and blank lines. -/
def told (lines : List (List Char)) : List (List Char) :=
  (lines.map uncommented).filter (· ≠ [])

/-- A line that is blank or an assignment up to its first `#`. -/
def Readable (line : List Char) : Prop :=
  uncommented line = [] ∨ ∃ a, Tells (uncommented line) a

/-- The value under a key after assignments: the last to this key, or else what was there before. -/
def Stands (s : Settings) (assigned : List Setting) (k : Key) (v : k.Value) : Prop :=
  (∃ before after, assigned = before ++ ⟨k, v⟩ :: after ∧ ∀ a ∈ after, a.key ≠ k) ∨
  (∀ a ∈ assigned, a.key ≠ k) ∧ v = s.get k

variable {s t : Settings} {k : Key} {a b : Setting} {assigned : List Setting}
  {line line' : List Char} {before after lines : List (List Char)} {number : Nat}

theorem get_foldl_put (h : ∀ a ∈ assigned, a.key ≠ k) : (assigned.foldl put s).get k = s.get k := by
  induction assigned generalizing s with
  | nil => rfl
  | cons a rest ih =>
    rw [List.forall_mem_cons] at h
    rw [List.foldl_cons, ih h.2, get_put_of_ne h.1]

theorem stands_get_foldl_put (s : Settings) (assigned : List Setting) (k : Key) :
    s.Stands assigned k ((assigned.foldl put s).get k) := by
  induction assigned using List.reverseRecOn with
  | nil => exact Or.inr ⟨nofun, rfl⟩
  | append_singleton assigned a ih =>
    rw [List.foldl_append, List.foldl_cons, List.foldl_nil]
    by_cases own : a.key = k
    · obtain ⟨key, v⟩ := a
      obtain rfl : key = k := own
      exact Or.inl ⟨assigned, [], by rw [get_put], nofun⟩
    · have behind {others : List Setting} (h : ∀ b ∈ others, b.key ≠ k) :
          ∀ b ∈ others ++ [a], b.key ≠ k :=
        List.forall_mem_append.mpr ⟨h, List.forall_mem_singleton.mpr own⟩
      rw [get_put_of_ne own]
      rcases ih with ⟨before, after, split, others⟩ | ⟨others, same⟩
      · refine Or.inl ⟨before, after ++ [a], ?_, behind others⟩
        rw [← List.cons_append, ← List.append_assoc, ← split]
      · exact Or.inr ⟨behind others, same⟩

/-- What stands under the keys is all there is to know of settings. -/
theorem foldl_put_eq_iff :
    assigned.foldl put s = t ↔ ∀ k, s.Stands assigned k (t.get k) := by
  constructor
  · rintro rfl k
    exact stands_get_foldl_put s assigned k
  · refine fun h => eq_of_get fun k => ?_
    rcases h k with ⟨before, after, rfl, others⟩ | ⟨others, same⟩
    · rw [List.foldl_append, List.foldl_cons, get_foldl_put others, get_put]
    · rw [get_foldl_put others, same]

theorem foldl_put_overridden (h : ∃ b ∈ assigned, b.key = a.key) :
    assigned.foldl put (s.put a) = assigned.foldl put s := by
  induction assigned generalizing s with
  | nil =>
    obtain ⟨b, hb, -⟩ := h
    cases hb
  | cons b rest ih =>
    rw [List.foldl_cons, List.foldl_cons]
    by_cases same : b.key = a.key
    · rw [put_put_of_eq same]
    · rw [put_comm (Ne.symm same)]
      refine ih ?_
      simpa [same] using h

theorem told_of_blank (h : uncommented line = []) : told (line :: lines) = told lines := by
  simp [told, h]

theorem told_of_not_blank (h : uncommented line ≠ []) :
    told (line :: lines) = uncommented line :: told lines := by
  simp [told, h]

theorem readLines_eq_ok : s.readLines number lines = .ok t ↔
    ∃ assigned, List.Forall₂ Tells (told lines) assigned ∧ assigned.foldl put s = t := by
  induction lines generalizing s number with
  | nil => simp [readLines, told]
  | cons line rest ih =>
    rw [readLines]
    by_cases blank : uncommented line = []
    · rw [told_of_blank blank, readLine_blank blank]
      exact ih
    · rw [told_of_not_blank blank, Outcome.bind_eq_ok]
      simp only [readLine_eq_ok blank, ih, List.forall₂_cons_left_iff]
      constructor
      · rintro ⟨_, ⟨a, tells, rfl⟩, assigned, row, rfl⟩
        exact ⟨a :: assigned, ⟨a, assigned, tells, row, rfl⟩, rfl⟩
      · rintro ⟨_, ⟨a, assigned, tells, row, rfl⟩, rfl⟩
        exact ⟨s.put a, ⟨a, tells, rfl⟩, assigned, row, rfl⟩

theorem readLine_tells (h : Tells (uncommented line) a) : s.readLine number line = .ok (s.put a) :=
  (readLine_eq_ok h.ne_nil).mpr ⟨a, h, rfl⟩

theorem exists_readLine (s : Settings) (number : Nat) (h : Readable line) :
    ∃ t, s.readLine number line = .ok t := by
  rcases h with blank | ⟨a, tells⟩
  · exact ⟨s, readLine_blank blank⟩
  · exact ⟨s.put a, readLine_tells tells⟩

theorem readable_of_readLine (h : s.readLine number line = .ok t) : Readable line := by
  by_cases blank : uncommented line = []
  · exact Or.inl blank
  · obtain ⟨a, tells, -⟩ := (readLine_eq_ok blank).mp h
    exact Or.inr ⟨a, tells⟩

theorem readLines_swap (ha : Tells (uncommented line) a) (hb : Tells (uncommented line') b)
    (apart : a.key ≠ b.key) : s.readLines number (before ++ line :: line' :: after) =
      s.readLines number (before ++ line' :: line :: after) := by
  induction before generalizing s number with
  | nil =>
    simp only [List.nil_append, readLines, readLine_tells ha, readLine_tells hb, Outcome.ok_bind,
      put_comm apart]
  | cons first rest ih =>
    simp only [List.cons_append, readLines]
    exact bind_congr fun t => ih

theorem readLine_renumbered {number' : Nat} :
    s.readLine number line = .ok t ↔ s.readLine number' line = .ok t := by
  by_cases blank : uncommented line = []
  · rw [readLine_blank blank, readLine_blank blank]
  · rw [readLine_eq_ok blank, readLine_eq_ok blank]

theorem mem_told (hline : line ∈ lines) (h : uncommented line ≠ []) :
    uncommented line ∈ told lines :=
  List.mem_filter.mpr ⟨List.mem_map_of_mem hline, decide_eq_true h⟩

theorem readLines_dropped {number' : Nat} (ha : Tells (uncommented line) a)
    (hlater : line' ∈ after) (hb : Tells (uncommented line') b) (same : b.key = a.key) :
    s.readLines number (before ++ line :: after) = .ok t ↔
      s.readLines number' (before ++ after) = .ok t := by
  induction before generalizing s number number' with
  | nil =>
    rw [List.nil_append, List.nil_append, readLines, readLine_tells ha, Outcome.ok_bind,
      readLines_eq_ok, readLines_eq_ok]
    refine exists_congr fun assigned => and_congr_right fun row => ?_
    have overridden : ∃ c ∈ assigned, c.key = a.key := by
      obtain ⟨c, hc, tells⟩ := Outcome.exists_mem_of_row row (mem_told hlater hb.ne_nil)
      exact ⟨c, hc, tells.unique hb ▸ same⟩
    rw [foldl_put_overridden overridden]
  | cons first rest ih =>
    simp only [List.cons_append, readLines, Outcome.bind_eq_ok]
    exact exists_congr fun u => and_congr readLine_renumbered ih

theorem names_of_not_readable (s : Settings) (number : Nat) (after : List (List Char))
    (readable : ∀ line ∈ before, Readable line) (bad : ¬Readable line) :
    ∃ e, s.readLines number (before ++ line :: after) = .error e ∧
      e.Names (number + before.length) := by
  induction before generalizing s number with
  | nil =>
    cases read : s.readLine number line with
    | error e =>
      refine ⟨e, ?_, names_of_readLine read⟩
      rw [List.nil_append, readLines, read]
      rfl
    | ok t => exact absurd (readable_of_readLine read) bad
  | cons first rest ih =>
    rw [List.forall_mem_cons] at readable
    obtain ⟨t, read⟩ := exists_readLine s number readable.1
    obtain ⟨e, fails, names⟩ := ih t (number + 1) readable.2
    refine ⟨e, ?_, ?_⟩
    · rw [List.cons_append, readLines, read]
      exact fails
    · rwa [List.length_cons, Nat.add_comm rest.length 1, ← Nat.add_assoc]

theorem ofText_eq_ok {text : String} : ofText text = .ok s ↔
    default.readLines 1 (Text.lines text.toList) = .ok s ∧ s.Valid := by
  rw [ofText, Outcome.bind_eq_ok]
  simp only [validate_eq_ok]
  constructor
  · rintro ⟨_, read, valid, rfl⟩
    exact ⟨read, valid⟩
  · rintro ⟨read, valid⟩
    exact ⟨s, read, valid, rfl⟩

theorem toOption_ofText_congr {text text' : String}
    (h : ∀ s, default.readLines 1 (Text.lines text.toList) = .ok s ↔
      default.readLines 1 (Text.lines text'.toList) = .ok s) :
    (ofText text).toOption = (ofText text').toOption := by
  refine Option.ext fun s => ?_
  rw [Outcome.toOption_eq_some, Outcome.toOption_eq_some, ofText_eq_ok, ofText_eq_ok, h]

/-- A text is read if and only if each of its lines is blank or an assignment up to its first `#`
and what was last assigned to each key, or its default, makes settings within their ranges; those
are read. So lines that assign to different keys may trade places, comments and blank lines come
and go, and assignments that are overridden be left out; and where a line cannot be read, the first
such line is named, in range or not. -/
theorem text_is_last_assignments :
    (∀ text s, ofText text = .ok s ↔
      ∃ assigned, List.Forall₂ Tells (told (Text.lines text.toList)) assigned ∧
        (∀ k, default.Stands assigned k (s.get k)) ∧ s.Valid) ∧
    (∀ text text' before after line line' a b,
      Text.lines text.toList = before ++ line :: line' :: after →
      Text.lines text'.toList = before ++ line' :: line :: after →
      Tells (uncommented line) a → Tells (uncommented line') b → a.key ≠ b.key →
      ofText text = ofText text') ∧
    (∀ text text', told (Text.lines text.toList) = told (Text.lines text'.toList) →
      (ofText text).toOption = (ofText text').toOption) ∧
    (∀ text text' before after line line' a b,
      Text.lines text.toList = before ++ line :: after →
      Text.lines text'.toList = before ++ after →
      Tells (uncommented line) a → line' ∈ after → Tells (uncommented line') b → b.key = a.key →
      (ofText text).toOption = (ofText text').toOption) ∧
    ∀ text before after line, Text.lines text.toList = before ++ line :: after →
      (∀ earlier ∈ before, Readable earlier) → ¬Readable line →
      ∃ e, ofText text = .error e ∧ e.Names (before.length + 1) := by
  refine ⟨fun text s => ?_,
    fun text text' before after line line' a b lines lines' ha hb apart => ?_,
    fun text text' same => toOption_ofText_congr fun s => ?_,
    fun text text' before after line line' a b lines lines' ha later hb same =>
      toOption_ofText_congr fun s => ?_,
    fun text before after line lines readable bad => ?_⟩
  · rw [ofText_eq_ok, readLines_eq_ok]
    simp only [foldl_put_eq_iff, ← exists_and_right, and_assoc]
  · rw [ofText, ofText, lines, lines', readLines_swap ha hb apart]
  · rw [readLines_eq_ok, readLines_eq_ok, same]
  · rw [lines, lines', readLines_dropped ha later hb same]
  · obtain ⟨e, fails, names⟩ := names_of_not_readable default 1 after readable bad
    refine ⟨e, ?_, Nat.add_comm 1 before.length ▸ names⟩
    rw [ofText, lines, fails]
    rfl

end Settings

namespace Sample

def sizes : String := "max_cell_size = 7 # few\nhistory_window = 1\nmax_cell_size = 9\n"

end Sample

namespace Settings

/-- The first size of the sample may come second, lose its comment or be left out, as it is not the
size that is read; and a line that cannot be read is named though a size before it is too small. -/
theorem sample_sizes :
    (∃ assigned, List.Forall₂ Tells (told (Text.lines Sample.sizes.toList)) assigned ∧
      default.Stands assigned .maxCellSize (9 : Nat)) ∧
    ofText Sample.sizes =
      ofText "history_window = 1\nmax_cell_size = 7 # few\nmax_cell_size = 9\n" ∧
    (ofText Sample.sizes).toOption =
      (ofText "# sizes\nmax_cell_size = 7\n\nhistory_window = 1\nmax_cell_size = 9").toOption ∧
    (ofText Sample.sizes).toOption = (ofText "history_window = 1\nmax_cell_size = 9\n").toOption ∧
    ∃ e, ofText "max_cell_size = 0\nnonsense\n" = .error e ∧ e.Names 2 := by
  obtain ⟨read, swapped, bare, dropped, named⟩ := text_is_last_assignments
  have seven : Tells (uncommented "max_cell_size = 7 # few".toList) ⟨.maxCellSize, (7 : Nat)⟩ :=
    tells_iff.mpr ⟨⟨"max_cell_size", "7"⟩, by decide, rfl, rfl⟩
  have one : Tells (uncommented "history_window = 1".toList) ⟨.historyWindow, (1 : Nat)⟩ :=
    tells_iff.mpr ⟨⟨"history_window", "1"⟩, by decide, rfl, rfl⟩
  have nine : Tells (uncommented "max_cell_size = 9".toList) ⟨.maxCellSize, (9 : Nat)⟩ :=
    tells_iff.mpr ⟨⟨"max_cell_size", "9"⟩, by decide, rfl, rfl⟩
  have zero : Tells (uncommented "max_cell_size = 0".toList) ⟨.maxCellSize, (0 : Nat)⟩ :=
    tells_iff.mpr ⟨⟨"max_cell_size", "0"⟩, by decide, rfl, rfl⟩
  refine ⟨?_, swapped _ _ [] ["max_cell_size = 9".toList] _ _ _ _ (by decide) (by decide) seven one
      (by decide),
    bare _ _ (by decide),
    dropped _ _ [] ["history_window = 1".toList, "max_cell_size = 9".toList] _ _ _ _ (by decide)
      (by decide) seven (by decide) nine rfl,
    named _ ["max_cell_size = 0".toList] [] "nonsense".toList (by decide) ?_ ?_⟩
  · obtain ⟨assigned, tells, stands, -⟩ := (read Sample.sizes
      { default with historyWindow := 1, maxCellSize := 9 }).mp
      (Outcome.eq_ok_of_toOption (by decide +kernel))
    exact ⟨assigned, tells, stands .maxCellSize⟩
  · exact List.forall_mem_singleton.mpr (Or.inr ⟨_, zero⟩)
  · rintro (blank | ⟨a, tells⟩)
    · exact absurd blank (by decide)
    · have unshaped : Assignment.ofLine? (uncommented "nonsense".toList) = none := by decide
      obtain ⟨x, found, -⟩ := tells_iff.mp tells
      rw [unshaped] at found
      cases found

end Settings

end HeadDriven
