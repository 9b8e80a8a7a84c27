/-! The arguments of the command line program. -/
namespace HeadDriven.CommandLine

structure Options where
  model : String
  settings : Option String
  showChart : Bool
  deriving DecidableEq, Repr

inductive Request where
  | help
  | run (options : Options)
  deriving DecidableEq, Repr

inductive Error where
  | noArguments
  | noSettingsFile
  | surplus
  | noModelFile
  deriving DecidableEq, Repr

def Error.message : Error → String
  | .noArguments => "not enough arguments"
  | .noSettingsFile => "missing settings file"
  | .surplus => "invalid arguments"
  | .noModelFile => "missing model file"

def usage (program : String) : String :=
  s!"Usage: {program} MODEL [options]

Reads one sentence per line from stdin. Words may carry a tag as word/TAG.

Options:
  -h, --help               Print this message
  -s, --settings FILE      Decoder settings (defaults to built-in settings)
  -c, --chart              Print the chart after each sentence (defaults to not printing)"

def complaint (program : String) (e : Error) : String :=
  s!"argument error: {e.message}.\n\n{usage program}"

def parseFrom (model settings : Option String) (showChart : Bool) :
    List String → Except Error Request
  | [] =>
    match model with
    | some model => .ok (.run ⟨model, settings, showChart⟩)
    | none => .error .noModelFile
  | arg :: rest =>
    if arg = "-h" ∨ arg = "--help" then .ok .help
    else if arg = "-c" ∨ arg = "--chart" then parseFrom model settings true rest
    else if arg = "-s" ∨ arg = "--settings" then
      match rest with
      | file :: rest => parseFrom model (some file) showChart rest
      | [] => .error .noSettingsFile
    else if model.isNone then parseFrom (some arg) settings showChart rest
    else .error .surplus

def parse (args : List String) : Except Error Request :=
  if args.isEmpty then .error .noArguments else parseFrom none none false args

end HeadDriven.CommandLine
