import HeadDriven.Decoder
import HeadDriven.Language.Treebank
import HeadDriven.Model.Table
import HeadDriven.Settings.Reader

/-! Sessions of the command line program: one decoder answers line after line.
Everything a session prints is computed here. -/
namespace HeadDriven

structure Session where
  symbols : SymbolTable
  decoder : Decoder
  showChart : Bool

structure Reply where
  out : String
  err : String
  fault : Option Fault

def Reply.append (a b : Reply) : Reply := ⟨a.out ++ b.out, a.err ++ b.err, b.fault⟩

namespace Session

inductive Error where
  | unreadable (path cause : String)
  | settings (cause : Settings.Error)
  | model (cause : Model.Error)

def Error.message : Error → String
  | .unreadable path cause => s!"reading {path}: {cause}"
  | .settings cause => cause.message
  | .model cause => cause.message

def Error.report (e : Error) : String := s!"Error: {Text.quoted e.message}\n"

structure File where
  path : String
  text : Except String String

def File.read (f : File) : Except Error String := f.text.mapError (.unreadable f.path)

def start (model : File) (settings : Option File) (showChart : Bool) :
    Except Error Session := do
  let settings ← match settings with
    | none => pure Settings.default
    | some file => (Settings.ofText (← file.read)).mapError .settings
  let table ← (Model.Table.ofText settings.frames (← model.read)).mapError .model
  let grammar : Grammar := ⟨table.model, Language.treebank table.symbols, settings⟩
  return ⟨table.symbols, Decoder.ofGrammar grammar, showChart⟩

def prompt : String := "> "

def resultText (symbols : SymbolTable) : Decoded → Except Fault String
  | .noParse _ => .ok "no parse\n"
  | .parse d => do
    let tree ← d.resolve symbols
    return tree.bracketed ++ "\nscore: " ++ Decimal.fixed 4 d.score ++ "\n"

def chartText (s : Session) : Except Fault String := do
  if s.showChart then return "chart:\n" ++ (← s.decoder.chart.display s.symbols) ++ "\n"
  else return ""

def sentenceText (s : Session) (decoded : Except Fault Decoded) : Except Fault String := do
  let decoded ← decoded
  let chart ← s.chartText
  return chart ++ (← resultText s.symbols decoded) ++ "\n"

def answer (s : Session) (line : List Char) : Session × Reply :=
  let words := (Text.words line).map String.ofList
  match Sentence.ofWords s.symbols s.decoder.grammar.language words with
  | .error cause => (s, ⟨"", s!"error: {cause.message}\n", none⟩)
  | .ok sentence =>
    let (decoder, decoded) := s.decoder.decode sentence
    let s := { s with decoder }
    match s.sentenceText decoded with
    | .ok text => (s, ⟨text, "", none⟩)
    | .error fault => (s, ⟨"", fault.message ++ "\n", some fault⟩)

/-- All that a session prints for its lines of input. Before each line, and once more at the
end of the input, it prompts. -/
def transcript (s : Session) : List (List Char) → Reply
  | [] => ⟨prompt, "", none⟩
  | line :: rest =>
    let (s, reply) := s.answer line
    let prompted : Reply := ⟨prompt ++ reply.out, reply.err, reply.fault⟩
    if reply.fault.isSome then prompted else prompted.append (s.transcript rest)

end Session

end HeadDriven
