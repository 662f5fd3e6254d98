import CrateAtlas.CommandLine.Arguments
import CrateAtlas.Record.Encoding

/-!
What the commands do: `analyze` writes an atlas to a file, `show` prints views of such a file. Printing
never fails, and of writing a file nothing but the making of it and a path that is no text can.
-/

namespace CrateAtlas

inductive LoadError where
  | unreadable (cause : FileError)
  | malformed (cause : Json.DecodeError)
  deriving DecidableEq, Repr

namespace LoadError

def message : LoadError → String
  | unreadable cause => cause.message
  | malformed _ => elided

end LoadError

inductive SaveError where
  | uncreated (cause : FileError)
  | pathNotText
  deriving DecidableEq, Repr

namespace SaveError

def message : SaveError → String
  | uncreated cause => cause.message
  | pathNotText => "path contains invalid UTF-8 characters"

end SaveError

namespace Atlas

/-- What is written to a file for an atlas, and the fault that cuts it short. -/
def fileText (atlas : Atlas) : String × Option SaveError :=
  match atlas.write with
  | .ok text => (text ++ "\n", none)
  | .error part => (part, some .pathNotText)

/-- The files after an atlas is written to one of them, and the fault if there is one. The file is
emptied before anything is written to it. -/
def save (atlas : Atlas) (files : FileSystem) (path : Path) : FileSystem × Option SaveError :=
  match files.write path atlas.fileText.1 with
  | .ok written => (written, atlas.fileText.2)
  | .error cause => (files, some (.uncreated cause))

/-- The atlas in a file. A file that is not text holds no JSON, either. -/
def load (files : FileSystem) (path : Path) : Except LoadError Atlas :=
  match files.read path with
  | .ok text => (Atlas.read text).mapError .malformed
  | .error .notText => .error (.malformed .malformed)
  | .error cause => .error (.unreadable cause)

end Atlas

namespace CommandLine

structure Outcome where
  exitCode : Nat
  output : String
  messages : List String
  files : FileSystem

def errorLine (message : String) : String :=
  "Error: " ++ message

def analyze (files : FileSystem) (tools : Tools) (command : AnalyzeCommand) : Outcome :=
  let started := ["Analyzing project at '" ++ command.path.display ++ "'..."]
  match (AnalysisRun.perform files tools command.path command.options).outcome with
  | .error error => ⟨1, "", started ++ [errorLine error.message], files⟩
  | .ok atlas =>
    let complete := "Analysis complete: " ++ toString atlas.fileCount ++ " files, " ++
      toString atlas.cycleCount ++ " cycle(s)"
    let warned :=
      if atlas.warnings.isEmpty then []
      else [toString atlas.warnings.length ++ " warning(s); see the warnings list in the result"]
    let messages := started ++ [complete] ++ warned
    match atlas.save files command.output with
    | (left, some error) => ⟨1, "", messages ++ [errorLine error.message], left⟩
    | (saved, none) =>
      let messages := messages ++ ["Result written to: " ++ command.output.display]
      if command.summary then ⟨0, Report.view atlas .summary, messages ++ [""], saved⟩
      else ⟨0, "", messages, saved⟩

def display (files : FileSystem) (command : ShowCommand) : Outcome :=
  match Atlas.load files command.data with
  | .error error => ⟨1, "", [errorLine error.message], files⟩
  | .ok atlas => ⟨0, Report.view atlas command.view, [], files⟩

def usage : List String :=
  ["Usage: importgraph analyze [OPTIONS] [PATH]",
   "       importgraph show <VIEW> [--data FILE]"]

def run (files : FileSystem) (tools : Tools) (arguments : List Bytes) : Outcome :=
  match Command.ofArguments arguments with
  | .ok (.analyze command) => analyze files tools command
  | .ok (.display command) => display files command
  | .error .usage => ⟨2, "", usage, files⟩
  | .error .help => ⟨0, "\n".intercalate usage ++ "\n", [], files⟩

end CommandLine

end CrateAtlas
