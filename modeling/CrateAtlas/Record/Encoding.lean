import CrateAtlas.Json.Decode
import CrateAtlas.Record.Atlas

/-!
The JSON form of a result. Absent values are left out when writing; when reading, they may also be
`null`. A record may be given as the list of its fields. A path that is no text cannot be written.
-/

namespace CrateAtlas

open Json (Decode Node Value)

def member? (key : String) (value : Option Value) : List (String × Value) :=
  (value.map fun value => (key, value)).toList

namespace CommitHistory

def toJson (history : CommitHistory) : Value :=
  .object [("commits", .natural history.commits), ("bug_commits", .natural history.bugCommits)]

structure Draft where
  commits : Option Nat := none
  bugCommits : Option Nat := none

def Draft.note (draft : Draft) (key : String) (value : Node) : Decode Draft :=
  match key with
  | "commits" => do return { draft with commits := ← Node.once draft.commits value.natural }
  | "bug_commits" => do
    return { draft with bugCommits := ← Node.once draft.bugCommits value.natural }
  | _ => do
    value.skip
    return draft

def Draft.complete? (draft : Draft) : Option CommitHistory := do
  return ⟨← draft.commits, ← draft.bugCommits⟩

def ofJson : Node → Decode CommitHistory :=
  Node.struct ["commits", "bug_commits"] Draft.note {} Draft.complete?

end CommitHistory

namespace Path

def toJson (path : Path) : Value :=
  match path.text? with
  | some text => .string text
  | none => .unwritable

def ofJson (value : Node) : Decode Path :=
  Path.ofText <$> value.text

end Path

namespace FileRecord

def toJson (file : FileRecord) : Value :=
  .object <|
    [("name", .string file.name), ("path", file.path.toJson)] ++
      member? "line_count" (file.lineCount.map .natural) ++
      [("imports", .list .natural file.imports),
       ("imports_external", .list .string file.importsExternal),
       ("imports_direct", .natural file.importsDirect),
       ("imports_depth", .natural file.importsDepth)] ++
      member? "complexity" (file.complexity.map .natural) ++
      member? "max_depth" (file.maxDepth.map .natural) ++
      member? "coverage" (file.coverage.map fun percent => .number (.double percent)) ++
      member? "history" (file.history.map CommitHistory.toJson)

structure Draft where
  name : Option String := none
  path : Option Path := none
  lineCount : Option (Option Nat) := none
  imports : Option (List Nat) := none
  importsExternal : Option (List String) := none
  importsDirect : Option Nat := none
  importsDepth : Option Nat := none
  complexity : Option (Option Nat) := none
  maxDepth : Option (Option Nat) := none
  coverage : Option (Option Double) := none
  history : Option (Option CommitHistory) := none

def Draft.note (draft : Draft) (key : String) (value : Node) : Decode Draft := do
  match key with
  | "name" => return { draft with name := ← Node.once draft.name value.text }
  | "path" => return { draft with path := ← Node.once draft.path (Path.ofJson value) }
  | "line_count" =>
    return { draft with lineCount := ← Node.once draft.lineCount (value.orNull Node.natural) }
  | "imports" => return { draft with imports := ← Node.once draft.imports (value.list Node.natural) }
  | "imports_external" =>
    return { draft with
      importsExternal := ← Node.once draft.importsExternal (value.list Node.text) }
  | "imports_direct" =>
    return { draft with importsDirect := ← Node.once draft.importsDirect value.natural }
  | "imports_depth" =>
    return { draft with importsDepth := ← Node.once draft.importsDepth value.natural }
  | "complexity" =>
    return { draft with complexity := ← Node.once draft.complexity (value.orNull Node.natural) }
  | "max_depth" =>
    return { draft with maxDepth := ← Node.once draft.maxDepth (value.orNull Node.natural) }
  | "coverage" =>
    return { draft with coverage := ← Node.once draft.coverage (value.orNull Node.double) }
  | "history" =>
    return { draft with
      history := ← Node.once draft.history (value.orNull CommitHistory.ofJson) }
  | _ =>
    value.skip
    return draft

def Draft.complete? (draft : Draft) : Option FileRecord := do
  return {
    name := ← draft.name
    path := ← draft.path
    lineCount := draft.lineCount.join
    imports := ← draft.imports
    importsExternal := ← draft.importsExternal
    importsDirect := ← draft.importsDirect
    importsDepth := ← draft.importsDepth
    complexity := draft.complexity.join
    maxDepth := draft.maxDepth.join
    coverage := draft.coverage.join
    history := draft.history.join }

def fields : List String :=
  ["name", "path", "line_count", "imports", "imports_external", "imports_direct", "imports_depth",
   "complexity", "max_depth", "coverage", "history"]

def ofJson : Node → Decode FileRecord :=
  Node.struct fields Draft.note {} Draft.complete?

end FileRecord

namespace ExternalMetric

/-- A measure is given by its name, or by an object with the name as its only key. -/
def ofJson? : Value → Option ExternalMetric
  | .string name => ofName? name
  | .object [(name, .null)] => ofName? name
  | .object [(name, .object [])] => ofName? name
  | _ => none

end ExternalMetric

namespace Warning

def toJson : Warning → Value
  | parseError path message =>
    .object [("kind", .string "parse_error"), ("path", path.toJson), ("message", .string message)]
  | resolutionFailure path specifier =>
    .object [("kind", .string "resolution_failure"), ("path", path.toJson),
      ("specifier", .string specifier)]
  | metricUnavailable path metric message =>
    .object <|
      [("kind", .string "external_metric_unavailable")] ++ member? "path" (path.map Path.toJson) ++
        [("metric", .string metric.name), ("message", .string message)]

inductive Tag where
  | parseError
  | resolutionFailure
  | metricUnavailable
  deriving DecidableEq, Repr

def Tag.ofName? : String → Option Tag
  | "parse_error" => some parseError
  | "resolution_failure" => some resolutionFailure
  | "external_metric_unavailable" => some metricUnavailable
  | _ => none

def Tag.fields : Tag → List String
  | parseError => ["path", "message"]
  | resolutionFailure => ["path", "specifier"]
  | metricUnavailable => ["path", "metric", "message"]

def valueDepth : Nat := Json.maxDepth - 3

def tagOfJson (value : Node) : Decode Tag := do
  match Tag.ofName? (← value.text) with
  | some tag => return tag
  | none => throw .mismatched

/-- Goes through a warning. The kind may stand at any place. -/
def noteMember (draft : Option Tag × List (String × Value)) (key : String) (value : Node) :
    Decode (Option Tag × List (String × Value)) := do
  let (tag, members) := draft
  if key = "kind" then return (← Node.once tag (tagOfJson value), members)
  return (tag, members ++ [(key, ← value.strict valueDepth)])

/-- The value of a field; nothing if it is given more than once. -/
def field? (members : List (String × Value)) (key : String) : Option (Option Value) :=
  match members.filter fun member => member.1 == key with
  | [] => some none
  | [(_, value)] => some (some value)
  | _ => none

def text? (members : List (String × Value)) (key : String) : Option String := do
  match ← field? members key with
  | some (.string text) => some text
  | _ => none

def optionalPath? (members : List (String × Value)) : Option (Option Path) := do
  match ← field? members "path" with
  | none | some .null => some none
  | some (.string text) => some (some (.ofText text))
  | _ => none

def ofMembers? (members : List (String × Value)) : Tag → Option Warning
  | .parseError => do return .parseError (.ofText (← text? members "path")) (← text? members "message")
  | .resolutionFailure => do
    return .resolutionFailure (.ofText (← text? members "path")) (← text? members "specifier")
  | .metricUnavailable => do
    let path ← optionalPath? members
    match ← field? members "metric" with
    | some metric =>
      return .metricUnavailable path (← ExternalMetric.ofJson? metric) (← text? members "message")
    | none => none

def completed (warning : Option Warning) : Decode Warning :=
  match warning with
  | some warning => return warning
  | none => throw .mismatched

def ofJson : Node → Decode Warning
  | .object members whole => do
    let (tag, members) ← Node.foldMembers noteMember (none, []) members
    if !whole then throw .malformed
    completed (tag.bind (ofMembers? members))
  | .array [] whole => throw (if whole then .mismatched else .malformed)
  | .array (first :: items) whole => do
    let tag ← tagOfJson first
    let values ← Node.strictItems valueDepth items
    if !whole then throw .malformed
    if values.length ≤ tag.fields.length then completed (ofMembers? (tag.fields.zip values) tag)
    else throw .mismatched
  | other => other.reject

end Warning

namespace Atlas

def toJson (atlas : Atlas) : Value :=
  .object <|
    [("files", .list FileRecord.toJson atlas.files)] ++
      member? "cycles" (atlas.cycles.map (.list (.list .natural))) ++
      member? "unreached" (atlas.unreached.map (.list Path.toJson)) ++
      (if atlas.warnings.isEmpty then [] else [("warnings", .list Warning.toJson atlas.warnings)])

/-- The text of a result, or what is written before the first path that is no text. -/
def write (atlas : Atlas) : Except String String :=
  atlas.toJson.write

structure Draft where
  files : Option (List FileRecord) := none
  cycles : Option (Option (List (List Nat))) := none
  unreached : Option (Option (List Path)) := none
  warnings : Option (List Warning) := none

def Draft.note (draft : Draft) (key : String) (value : Node) : Decode Draft := do
  match key with
  | "files" => return { draft with files := ← Node.once draft.files (value.list FileRecord.ofJson) }
  | "cycles" =>
    return { draft with
      cycles := ← Node.once draft.cycles (value.orNull (Node.list (Node.list Node.natural))) }
  | "unreached" =>
    return { draft with
      unreached := ← Node.once draft.unreached (value.orNull (Node.list Path.ofJson)) }
  | "warnings" =>
    return { draft with warnings := ← Node.once draft.warnings (value.list Warning.ofJson) }
  | _ =>
    value.skip
    return draft

def Draft.complete? (draft : Draft) : Option Atlas := do
  return ⟨← draft.files, draft.cycles.join, draft.unreached.join, draft.warnings.getD []⟩

def ofJson : Node → Decode Atlas :=
  Node.struct ["files", "cycles", "unreached", "warnings"] Draft.note {} Draft.complete?

def read (text : String) : Decode Atlas :=
  Json.decode ofJson text

end Atlas

end CrateAtlas
