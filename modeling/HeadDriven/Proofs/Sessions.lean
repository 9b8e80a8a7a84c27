import HeadDriven.Proofs.Answering
import HeadDriven.Proofs.Display
import HeadDriven.Proofs.Reuse
import HeadDriven.Session

/-! Sessions line by line. The reply to a line that is decoded, or that cannot be read, is that of
a new session. A sentence that is skipped leaves the chart alone, so a session that shows charts
shows the one of the last line before it that was decoded. Only a single word that may be tagged
with the top label can end a session. -/
namespace HeadDriven

/-- The whole output: a prompt before each reply, and one more unless a fault ended the session. -/
def Reply.joined : List Reply → Reply
  | [] => ⟨Session.prompt, "", none⟩
  | reply :: rest =>
    let prompted : Reply := ⟨Session.prompt ++ reply.out, reply.err, reply.fault⟩
    if reply.fault.isSome then prompted else prompted.append (joined rest)

namespace Session

def read (s : Session) (line : List Char) : Except Sentence.Error Sentence :=
  Sentence.ofWords s.symbols s.decoder.grammar.language ((Text.words line).map String.ofList)

def decodes (s : Session) (line : List Char) : Bool :=
  (s.read line).toOption.any fun sentence => !Decoder.skips s.decoder.grammar sentence

def skips (s : Session) (line : List Char) : Bool :=
  (s.read line).toOption.any (Decoder.skips s.decoder.grammar)

/-- Whether a line is read as a single word that may be tagged with the top label. -/
def MayEnd (s : Session) (line : List Char) : Prop :=
  ∃ token, s.read line = .ok [token] ∧
    s.decoder.grammar.Seeds token s.decoder.grammar.language.topLabel

def after (s : Session) (lines : List (List Char)) : Session :=
  lines.foldl (fun s line => (s.answer line).1) s

/-- The replies to lines, up to one that ends the session. -/
def replies (s : Session) : List (List Char) → List Reply
  | [] => []
  | line :: rest =>
    (s.answer line).2 ::
      if (s.answer line).2.fault.isSome then [] else (s.answer line).1.replies rest

/-- One of the first `i` lines is a single word that may be tagged with the top label, and for
want of its head child the session has ended there. -/
def EndedBefore (s : Session) (lines : List (List Char)) (i : Nat) : Prop :=
  ∃ j < i, ∃ earlier reply, lines[j]? = some earlier ∧ s.MayEnd earlier ∧
    (s.replies lines)[j]? = some reply ∧ reply.fault = some .headlessTop

variable {s s' : Session} {line : List Char} {sentence : Sentence}

theorem transcript_eq (s : Session) (lines : List (List Char)) :
    s.transcript lines = Reply.joined (s.replies lines) := by
  induction lines generalizing s with
  | nil => rfl
  | cons line rest ih =>
    rw [transcript, replies, Reply.joined]
    by_cases fault : (s.answer line).2.fault.isSome = true
    · simp only [fault, if_true]
    · simp only [fault, Bool.false_eq_true, if_false, ih]

theorem answer_of_error {cause : Sentence.Error} (h : s.read line = .error cause) :
    s.answer line = (s, ⟨"", s!"error: {cause.message}\n", none⟩) := by
  rw [read] at h
  simp only [answer, h]

theorem decodes_of_read (h : s.read line = .ok sentence) :
    s.decodes line = !Decoder.skips s.decoder.grammar sentence := by
  simp [decodes, h, Except.toOption]

theorem skips_of_read (h : s.read line = .ok sentence) :
    s.skips line = Decoder.skips s.decoder.grammar sentence := by
  simp [skips, h, Except.toOption]

theorem exists_read (decoded : s.decodes line = true) : ∃ sentence, s.read line = .ok sentence := by
  cases h : s.read line with
  | error cause => simp [decodes, h, Except.toOption] at decoded
  | ok sentence => exact ⟨sentence, rfl⟩

def replyTo (s : Session) (decoded : Except Fault Decoded) : Reply :=
  match s.sentenceText decoded with
  | .ok text => ⟨text, "", none⟩
  | .error fault => ⟨"", fault.message ++ "\n", some fault⟩

def advance (s : Session) (sentence : Sentence) : Session :=
  { s with decoder := (s.decoder.decode sentence).1 }

theorem answer_of_read (h : s.read line = .ok sentence) : s.answer line =
    (s.advance sentence, (s.advance sentence).replyTo (s.decoder.decode sentence).2) := by
  rw [read] at h
  simp only [answer, h, replyTo, advance]
  split <;> simp only [*]

/-- Sessions with the same names, options and grammar, and decoders in order. -/
structure Alike (s s' : Session) : Prop where
  symbols : s.symbols = s'.symbols
  showChart : s.showChart = s'.showChart
  grammar : s.decoder.grammar = s'.decoder.grammar
  coherent : s.decoder.Coherent
  coherent' : s'.decoder.Coherent

theorem Alike.read (h : Alike s s') (line : List Char) : s.read line = s'.read line := by
  rw [Session.read, Session.read, h.symbols, h.grammar]

theorem Alike.mayEnd (h : Alike s s') : s.MayEnd line ↔ s'.MayEnd line := by
  rw [MayEnd, MayEnd, h.read, h.grammar]

theorem Alike.decodes (h : Alike s s') : s.decodes = s'.decodes := by
  funext line
  rw [Session.decodes, Session.decodes, h.read, h.grammar]

/-- A reply depends on the decoder only through its chart, and only if the session shows it. -/
theorem Alike.replyTo (h : Alike s s')
    (same : s.showChart = false ∨ s.decoder.chart = s'.decoder.chart) :
    s.replyTo = s'.replyTo := by
  have chartText : s.chartText = s'.chartText := by
    rcases same with hidden | same
    · have hidden' : s'.showChart = false := h.showChart ▸ hidden
      simp only [Session.chartText, hidden, hidden', Bool.false_eq_true, if_false]
    · simp only [Session.chartText, h.showChart, h.symbols, same]
  funext decoded
  simp only [Session.replyTo, sentenceText, chartText, h.symbols]

theorem Alike.advance (h : Alike s s') (sentence : Sentence) :
    Alike (s.advance sentence) (s'.advance sentence) := by
  obtain ⟨hg, coherent⟩ := Decoder.decode_keeps h.coherent sentence
  obtain ⟨hg', coherent'⟩ := Decoder.decode_keeps h.coherent' sentence
  exact ⟨h.symbols, h.showChart, hg.trans (h.grammar.trans hg'.symm), coherent, coherent'⟩

theorem answer_keeps (coherent : s.decoder.Coherent) (line : List Char) :
    Alike s (s.answer line).1 := by
  cases hread : s.read line with
  | error cause =>
    rw [answer_of_error hread]
    exact ⟨rfl, rfl, rfl, coherent, coherent⟩
  | ok sentence =>
    obtain ⟨hg, coherent'⟩ := Decoder.decode_keeps coherent sentence
    rw [answer_of_read hread]
    exact ⟨rfl, rfl, hg.symm, coherent, coherent'⟩

theorem after_keeps (coherent : s.decoder.Coherent) (lines : List (List Char)) :
    Alike s (s.after lines) := by
  induction lines using List.reverseRecOn with
  | nil => exact ⟨rfl, rfl, rfl, coherent, coherent⟩
  | append_singleton lines line ih =>
    have next := answer_keeps ih.coherent' line
    rw [after, List.foldl_append]
    exact ⟨ih.symbols.trans next.symbols, ih.showChart.trans next.showChart,
      ih.grammar.trans next.grammar, coherent, next.coherent'⟩

theorem answer_decoded (h : Alike s s') (decoded : s.decodes line = true) :
    (s.answer line).2 = (s'.answer line).2 ∧
      (s.answer line).1.decoder.chart = (s'.answer line).1.decoder.chart := by
  obtain ⟨sentence, hread⟩ := exists_read decoded
  rw [decodes_of_read hread, Bool.not_eq_true'] at decoded
  obtain ⟨histories, same⟩ := Decoder.decode_congr h.coherent h.coherent' h.grammar decoded
  have chart : (s.advance sentence).decoder.chart = (s'.advance sentence).decoder.chart := by
    rw [advance, same, advance]
  rw [answer_of_read hread, answer_of_read (h.read line ▸ hread)]
  refine ⟨?_, chart⟩
  rw [(h.advance sentence).replyTo (Or.inr chart), same]

theorem chart_undecoded (undecoded : s.decodes line = false) :
    (s.answer line).1.decoder.chart = s.decoder.chart := by
  cases hread : s.read line with
  | error cause => rw [answer_of_error hread]
  | ok sentence =>
    rw [decodes_of_read hread, Bool.not_eq_false'] at undecoded
    rw [answer_of_read hread, advance, Decoder.decode_skipped undecoded]

theorem answer_undecoded (h : Alike s s') (undecoded : s.decodes line = false)
    (same : s.showChart = false ∨ s.skips line = false ∨ s.decoder.chart = s'.decoder.chart) :
    (s.answer line).2 = (s'.answer line).2 := by
  cases hread : s.read line with
  | error cause => rw [answer_of_error hread, answer_of_error (h.read line ▸ hread)]
  | ok sentence =>
    rw [decodes_of_read hread, Bool.not_eq_false'] at undecoded
    have skipped := Decoder.decode_skipped undecoded
    have skipped' := Decoder.decode_skipped (h.grammar ▸ undecoded)
    have seen : (s.advance sentence).showChart = false ∨
        (s.advance sentence).decoder.chart = (s'.advance sentence).decoder.chart := by
      rcases same with hidden | unskipped | same
      · exact Or.inl hidden
      · rw [skips_of_read hread, undecoded] at unskipped
        cases unskipped
      · rw [advance, advance, skipped, skipped']
        exact Or.inr same
    rw [answer_of_read hread, answer_of_read (h.read line ▸ hread),
      (h.advance sentence).replyTo seen, skipped, skipped']

def lastDecoded (s : Session) (lines : List (List Char)) : List (List Char) :=
  (lines.filter s.decodes).getLast?.toList

/-- The chart that is left is that of the last line that was decoded. -/
theorem chart_after (coherent : s.decoder.Coherent) (lines : List (List Char)) :
    (s.after lines).decoder.chart = (s.after (s.lastDecoded lines)).decoder.chart := by
  -- From the end, since a decoded line makes all before it count for nothing.
  induction lines using List.reverseRecOn with
  | nil => rfl
  | append_singleton lines line ih =>
    have alike := after_keeps coherent lines
    have hafter : s.after (lines ++ [line]) = ((s.after lines).answer line).1 := by
      rw [after, List.foldl_append]
      rfl
    rw [hafter, lastDecoded, List.filter_append]
    cases decoded : s.decodes line with
    | true =>
      have last : (lines.filter s.decodes ++ [line].filter s.decodes).getLast?.toList =
          [line] := by simp [decoded]
      rw [last]
      exact (answer_decoded alike decoded).2.symm
    | false =>
      rw [chart_undecoded (alike.decodes ▸ decoded), ih]
      simp [lastDecoded, decoded]

/-- A session that was started and has answered some lines: its model discounts, its labels have
names, and its chart can be shown in names. -/
structure Ready (s : Session) : Prop where
  coherent : s.decoder.Coherent
  discounts : s.decoder.grammar.model.Discounts
  valid : s.decoder.grammar.settings.Valid
  sentinels : SymbolTable.empty.size ≤ s.symbols.size
  names : s.decoder.grammar.Named s.symbols
  displays : ∃ text, s.decoder.chart.display s.symbols = .ok text

theorem ready_of_start {model : File} {settings : Option File} {showChart : Bool}
    (started : start model settings showChart = .ok s) : s.Ready ∧ s.showChart = showChart := by
  have withSettings (settings : Settings) (valid : settings.Valid) (h : (do
      let table ← (Model.Table.ofText settings.frames (← model.read)).mapError .model
      return ⟨table.symbols, Decoder.ofGrammar
        ⟨table.model, Language.treebank table.symbols, settings⟩, showChart⟩ :
      Except Error Session) = .ok s) : s.Ready ∧ s.showChart = showChart := by
    obtain ⟨text, -, h⟩ := Outcome.bind_eq_ok.mp h
    obtain ⟨table, readModel, h⟩ := Outcome.bind_eq_ok.mp h
    obtain rfl := Except.ok.inj h
    obtain ⟨statements, read, rfl⟩ := Outcome.map_eq_ok.mp (Outcome.mapError_eq_ok.mp readModel)
    have discounting : (Model.Table.ofStatements settings.frames statements).Discounting :=
      Model.Table.discounting_ofStatements (Model.discounts_of_readStatements read)
    have names := Model.Table.named_ofStatements settings.frames statements
    exact ⟨⟨Decoder.coherent_ofGrammar _, discounting.model, valid, names.sentinels,
      names.treebank settings, _, rfl⟩, rfl⟩
  unfold start at started
  cases settings with
  | none => exact withSettings Settings.default ⟨by decide +kernel, by decide⟩ started
  | some file =>
    obtain ⟨text, -, h⟩ := Outcome.bind_eq_ok.mp started
    obtain ⟨settings, readSettings, h⟩ := Outcome.bind_eq_ok.mp h
    exact withSettings settings
      (Settings.valid_of_ofText (Outcome.mapError_eq_ok.mp readSettings)) h

theorem Ready.chartText (ready : s.Ready) : ∃ text, s.chartText = .ok text := by
  obtain ⟨text, shown⟩ := ready.displays
  rw [Session.chartText, shown]
  split
  · exact ⟨_, rfl⟩
  · exact ⟨_, rfl⟩

theorem Ready.advance (ready : s.Ready)
    (named : ∀ token ∈ sentence, Sentence.Named s.symbols token) : (s.advance sentence).Ready := by
  obtain ⟨hg, coherent⟩ := Decoder.decode_keeps ready.coherent sentence
  have displays : ∃ text, (s.decoder.decode sentence).1.chart.display s.symbols = .ok text := by
    cases hskips : Decoder.skips s.decoder.grammar sentence with
    | true =>
      rw [Decoder.decode_skipped hskips]
      exact ready.displays
    | false =>
      obtain ⟨sound, -⟩ := Decoder.decode_sound ready.coherent ready.discounts ready.valid hskips
      exact sound.display_succeeds ready.names named
  exact ⟨coherent, hg ▸ ready.discounts, hg ▸ ready.valid, ready.sentinels, hg ▸ ready.names,
    displays⟩

/-- The one fault of a reply is that of a single word that may be tagged with the top label. -/
theorem Ready.fault_replyTo (ready : s.Ready) {g : Grammar} {chart : Chart}
    {decoded : Except Fault Decoded}
    (replies : Decoder.Replies g s.symbols sentence chart decoded) :
    (s.replyTo decoded).fault = none ∨ (s.replyTo decoded).fault = some .headlessTop ∧
      ∃ token, sentence = [token] ∧ g.Seeds token g.language.topLabel := by
  obtain ⟨chart, hchart⟩ := ready.chartText
  rw [replyTo, sentenceText, hchart]
  cases decoded with
  | error fault =>
    obtain ⟨-, rfl, single⟩ := replies
    exact Or.inr ⟨rfl, single⟩
  | ok decoded =>
    cases decoded with
    | noParse => exact Or.inl rfl
    | parse found =>
      obtain ⟨-, -, -, tree, shown⟩ := replies
      rw [Outcome.ok_bind, Outcome.ok_bind, resultText, shown]
      exact Or.inl rfl

theorem Ready.answer (ready : s.Ready) (line : List Char) : (s.answer line).1.Ready ∧
    ((s.answer line).2.fault = none ∨
      (s.answer line).2.fault = some .headlessTop ∧ s.MayEnd line) := by
  cases hread : s.read line with
  | error cause =>
    rw [answer_of_error hread]
    exact ⟨ready, Or.inl rfl⟩
  | ok sentence =>
    have named := Sentence.named_of_ofWords ready.sentinels hread
    have next := ready.advance named
    have replies := Decoder.decode_replies ready.coherent ready.discounts ready.valid ready.names
      named
    rw [answer_of_read hread]
    refine ⟨next, (next.fault_replyTo replies).imp_right fun ends => ?_⟩
    obtain ⟨fault, token, rfl, seeds⟩ := ends
    exact ⟨fault, token, hread, seeds⟩

theorem Ready.replies_getElem? (ready : s.Ready) {lines : List (List Char)} {i : Nat}
    (h : lines[i]? = some line) : s.EndedBefore lines i ∨
      (s.replies lines)[i]? = some ((s.after (lines.take i)).answer line).2 := by
  induction lines generalizing s i with
  | nil => cases h
  | cons first rest ih =>
    cases i with
    | zero =>
      obtain rfl : first = line := Option.some.inj h
      exact Or.inr rfl
    | succ i =>
      obtain ⟨next, continues | ⟨ends, mayEnd⟩⟩ := ready.answer first
      · have replies : s.replies (first :: rest) =
            (s.answer first).2 :: (s.answer first).1.replies rest := by
          rw [Session.replies, continues]
          rfl
        refine (ih next h).imp (fun ended => ?_) fun answered => ?_
        · obtain ⟨j, hj, earlier, reply, given, mayEnd, answered, fault⟩ := ended
          have alike := answer_keeps ready.coherent first
          exact ⟨j + 1, Nat.succ_lt_succ hj, earlier, reply, given, alike.mayEnd.mpr mayEnd,
            by rw [replies]; exact answered, fault⟩
        · rw [replies]
          exact answered
      · exact Or.inl ⟨0, Nat.succ_pos i, first, _, rfl, mayEnd, rfl, ends⟩

/-- The replies of a session, unless it has ended before: a line gets the reply of a new session
that is given this line alone, unless charts are shown and its sentence is skipped; in any case it
gets the reply of a new session that was given only the last decoded line before it. -/
theorem replies_by_line (model : File) (settings : Option File) (showChart : Bool) (s : Session)
    (lines : List (List Char)) (i : Nat) (line : List Char)
    (started : start model settings showChart = .ok s) (given : lines[i]? = some line) :
    s.transcript lines = Reply.joined (s.replies lines) ∧
    (s.EndedBefore lines i ∨ ∃ reply, (s.replies lines)[i]? = some reply ∧
      (showChart = false ∨ s.skips line = false → s.replies [line] = [reply]) ∧
      reply = ((s.after (s.lastDecoded (lines.take i))).answer line).2) := by
  obtain ⟨ready, hshow⟩ := ready_of_start started
  have coherent := ready.coherent
  have alone : s.replies [line] = [(s.answer line).2] := by simp [replies]
  have alike := after_keeps coherent (lines.take i)
  have alike' := after_keeps coherent (s.lastDecoded (lines.take i))
  have both : Alike (s.after (lines.take i)) (s.after (s.lastDecoded (lines.take i))) :=
    ⟨alike.symbols.symm.trans alike'.symbols, alike.showChart.symm.trans alike'.showChart,
      alike.grammar.symm.trans alike'.grammar, alike.coherent', alike'.coherent'⟩
  refine ⟨transcript_eq s lines, (ready.replies_getElem? given).imp_right fun answered =>
    ⟨_, answered, fun same => ?_, ?_⟩⟩
  · rw [alone]
    cases decoded : s.decodes line with
    | true => rw [(answer_decoded alike decoded).1]
    | false =>
      rw [answer_undecoded alike decoded (same.imp hshow.trans Or.inl)]
  · cases decoded : s.decodes line with
    | true => exact (answer_decoded both (alike.decodes ▸ decoded)).1
    | false =>
      exact answer_undecoded both (alike.decodes ▸ decoded)
        (Or.inr (Or.inr (chart_after coherent (lines.take i))))

end Session

namespace Sample

def tagsText : String := "tags a A;"

def tagsTable : Model.Table := Model.Table.ofStatements .bag [.tags "a" ["A"]]

def session : Session := ⟨tagsTable.symbols, Decoder.ofGrammar
  ⟨tagsTable.model, Language.treebank tagsTable.symbols, Settings.default⟩, true⟩

theorem start_session : Session.start ⟨"model", .ok tagsText⟩ none true = .ok session := by
  have read : Model.statements tagsText = .ok [.tags "a" ["A"]] :=
    Outcome.eq_ok_of_toOption (by decide +kernel)
  have table : Model.Table.ofText Settings.default.frames tagsText = .ok tagsTable := by
    rw [Model.Table.ofText, read]
    rfl
  show ((Model.Table.ofText Settings.default.frames tagsText).mapError _ >>= _) = _
  rw [table]
  rfl

end Sample

namespace Session

/-- A word behind a decoded line and a line that cannot be read. -/
theorem sample_replies_by_line :
    let s := Sample.session
    let lines := [['a', '\n'], ['a', '/', 'Q', '\n'], ['b', ' ', 'a', '\n']]
    start ⟨"model", .ok Sample.tagsText⟩ none true = .ok s ∧
    (∀ reply ∈ (s.replies lines).take 2, reply.fault = none) ∧
    s.skips ['b', ' ', 'a', '\n'] = false ∧
    ∃ reply, (s.replies lines)[2]? = some reply ∧ s.replies [['b', ' ', 'a', '\n']] = [reply] := by
  intro s lines
  have going : ∀ reply ∈ (s.replies lines).take 2, reply.fault = none := by decide +kernel
  have unskipped : s.skips ['b', ' ', 'a', '\n'] = false := by decide +kernel
  obtain ⟨-, ended | ⟨reply, hreply, alone, -⟩⟩ := replies_by_line ⟨"model", .ok Sample.tagsText⟩
    none true s lines 2 ['b', ' ', 'a', '\n'] Sample.start_session rfl
  · obtain ⟨j, hj, -, reply, -, -, hreply, fault⟩ := ended
    have earlier : reply ∈ (s.replies lines).take 2 :=
      List.mem_of_getElem? (by rw [List.getElem?_take_of_lt hj, hreply])
    cases (going reply earlier).symm.trans fault
  · exact ⟨Sample.start_session, going, unskipped, reply, hreply, alone (Or.inr unskipped)⟩

/-- Charts are shown: behind the word `a` an empty line gets the chart of this word, and alone the
empty chart. -/
theorem skipped_line_shows_stale_chart :
    let s := Sample.session
    start ⟨"model", .ok Sample.tagsText⟩ none true = .ok s ∧
    (s.replies [['a', '\n'], ['\n']]).map Reply.out =
      ["chart:\nCell 0..0:\n  A [a/A] stop 0.0000\n\nno parse\n\n",
        "chart:\nCell 0..0:\n  A [a/A] stop 0.0000\n\nno parse\n\n"] ∧
    (s.replies [['\n']]).map Reply.out = ["chart:\n\nno parse\n\n"] :=
  ⟨Sample.start_session, by decide +kernel, by decide +kernel⟩

end Session

end HeadDriven
