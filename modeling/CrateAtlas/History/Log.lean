import CrateAtlas.FileTree
import CrateAtlas.History.Basic
import CrateAtlas.Regex.Reader

/-!
Commit counts from the log of the version control program, which is asked once for each file.
-/

namespace CrateAtlas

structure LogRequest where
  dir : Path
  arguments : List Bytes
  deriving DecidableEq, Repr, Inhabited

structure LogAnswer where
  exitCode : Nat
  output : String
  errors : String
  deriving DecidableEq, Repr, Inhabited

/-- The version control program, if it is installed. -/
abbrev LogService := Option (LogRequest → LogAnswer)

structure HistoryQuery where
  bugPattern : Regex
  months : Option Nat
  deriving Inhabited

namespace CommitHistory

def ofLog (bugPattern : Regex) (log : String) : CommitHistory :=
  let commits := (Text.lines log.toList).filter fun line => !line.all Text.isBlank
  ⟨commits.length, (commits.filter bugPattern.isMatch).length⟩

end CommitHistory

namespace HistoryQuery

/-- The query for a pattern. No months at all are no limit. -/
def compile (bugPattern : String) (months : Option Nat) : Except HistoryError HistoryQuery :=
  match Regex.compile? bugPattern with
  | some bugPattern => .ok ⟨bugPattern, months.filter (0 < ·)⟩
  | none => .error .badPattern

def dirOf (path : Path) : Path :=
  match path.parent? with
  | some parent => if parent.bytes.isEmpty then "." else parent
  | none => "."

/-- The run that asks for the log of a file, unless its directory cannot be entered. -/
def request (query : HistoryQuery) (files : FileSystem) (path : Path) : Except FileError LogRequest := do
  let way ← files.enter (dirOf path)
  let since := query.months.toList.map fun months => "--since=" ++ toString months ++ " months ago"
  let options := ["log", "--follow", "--oneline"] ++ since ++ ["--"]
  return ⟨FileSystem.absolute way, options.map Bytes.ofText ++ [path.fileName?.getD path.bytes]⟩

def interpret (query : HistoryQuery) (path : Path) (answer : LogAnswer) :
    Except HistoryError CommitHistory :=
  if answer.exitCode = 0 then .ok (.ofLog query.bugPattern answer.output)
  else .error (.failed path (String.ofList (Text.trim answer.errors.toList)))

def history (query : HistoryQuery) (files : FileSystem) (service : LogService) (path : Path) :
    Except HistoryError CommitHistory :=
  match query.request files path, service with
  | .error cause, _ => .error (.notStarted cause.message)
  | .ok _, none => .error (.notStarted FileError.notFound.message)
  | .ok request, some run => query.interpret path (run request)

def run? (query : HistoryQuery) (files : FileSystem) (service : LogService) (path : Path) :
    Option LogRequest :=
  if service.isSome then (query.request files path).toOption else none

end HistoryQuery

end CrateAtlas
