import CrateAtlas.Coverage.Basic
import CrateAtlas.FileTree
import CrateAtlas.Json.Decode
import CrateAtlas.Text.Basic

/-!
Coverage reports. Two layouts of JSON are understood: an export with the line coverage of each file,
and a summary with the statement coverage of each file.
-/

namespace CrateAtlas

namespace Json.Value

/-- The fields of a record, from an object or from the list of its fields in order. A field may
occur only once. -/
def record? (fields : List String) : Value → Option (String → Option Value)
  | object members =>
    if fields.all fun field => (members.filter (·.1 == field)).length ≤ 1 then
      some fun field => members.lookup field
    else none
  | array items =>
    if items.length ≤ fields.length then some fun field => (fields.zip items).lookup field else none
  | _ => none

def only? (field : String) (value : Value) : Option Value := do
  (← value.record? [field]) field

def items? : Value → Option (List Value)
  | array items => some items
  | _ => none

def text? : Value → Option String
  | string value => some value
  | _ => none

def double? : Value → Option Double
  | number value => some value.toDouble
  | _ => none

end Json.Value

inductive CoverageReport where
  | lines (files : List (String × Double))
  /-- The statement coverage of files, each of which occurs once. It may be unknown. -/
  | statements (files : List (String × Option Double))
  deriving DecidableEq, Repr, Inhabited

inductive CoverageError where
  | unreadable (path : Path) (cause : FileError)
  | unrecognized (cause : Json.DecodeError)
  deriving DecidableEq, Repr

namespace CoverageError

def message : CoverageError → String
  | unreadable path cause => "Failed to read coverage report " ++ path.display ++ ": " ++ cause.message
  | unrecognized _ => "Unrecognized coverage report: " ++ elided

end CoverageError

namespace CoverageReport

def exportedFile? (file : Json.Value) : Option (String × Double) := do
  let field ← file.record? ["filename", "summary"]
  let name ← (← field "filename").text?
  let counts ← (← field "summary").only? "lines"
  return (name, ← (← counts.only? "percent").double?)

/-- The files in a part of an export. A part may have none. -/
def exportedPart? (part : Json.Value) : Option (List (String × Double)) := do
  match (← part.record? ["files"]) "files" with
  | some files => (← files.items?).mapM exportedFile?
  | none => return []

def export? (report : Json.Value) : Option CoverageReport := do
  let parts ← (← (← report.only? "data").items?).mapM exportedPart?
  return .lines parts.flatten

def setEntry (entries : List (String × Option Double)) (name : String) (percent : Option Double) :
    List (String × Option Double) :=
  if entries.any (·.1 == name) then
    entries.map fun entry => if entry.1 = name then (name, percent) else entry
  else entries ++ [(name, percent)]

def summarizedFile? (file : Json.Value) : Option (Option Double) := do
  let counts ← file.only? "statements"
  return (← counts.only? "pct").double?

def summary? : Json.Value → Option CoverageReport
  | .object members => do
    let entries ← members.mapM fun (name, file) => do return (name, ← summarizedFile? file)
    return .statements (entries.foldl (fun entries (name, percent) => setEntry entries name percent) [])
  | _ => none

def ofJson (value : Json.Node) : Json.Decode CoverageReport := do
  let value ← value.strict Json.maxDepth
  match export? value <|> summary? value with
  | some report => return report
  | none => throw .mismatched

def ofText (text : String) : Except CoverageError CoverageReport :=
  (Json.decode ofJson text).mapError .unrecognized

/-- The entry of a summary that is about no file but about all of them. -/
def totalName : String := "total"

def percentages : CoverageReport → List (String × Double)
  | lines files => files
  | statements files =>
    (files.filter (·.1 != totalName)).filterMap fun (name, percent) => percent.map (name, ·)

def toMap (files : FileSystem) (dir : Path) (report : CoverageReport) : CoverageMap :=
  .ofList (report.percentages.map fun (name, percent) => (files.canonical (dir.join name), percent))

end CoverageReport

namespace CoverageMap

def ofText (files : FileSystem) (dir : Path) (text : String) : Except CoverageError CoverageMap := do
  return (← CoverageReport.ofText text).toMap files dir

def ofFile (files : FileSystem) (dir path : Path) : Except CoverageError CoverageMap :=
  match files.read path with
  | .ok text => ofText files dir text
  | .error cause => .error (.unreadable path cause)

end CoverageMap

end CrateAtlas
