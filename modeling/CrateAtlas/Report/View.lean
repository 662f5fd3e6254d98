import CrateAtlas.Decimal.Shortest
import CrateAtlas.Report.Statistics

/-!
Text views of a result.
-/

namespace CrateAtlas

inductive View where
  | summary | files | cycles | tests
  deriving DecidableEq, Repr, Inhabited

namespace View

def ofName? : String → Option View
  | "summary" => some summary
  | "files" => some files
  | "cycles" => some cycles
  | "tests" => some tests
  | _ => none

end View

namespace Report

def lines (texts : List String) : String :=
  String.join (texts.map (· ++ "\n"))

def left (width : Nat) (text : String) : String :=
  text ++ String.ofList (List.replicate (width - text.length) ' ')

def right (width : Nat) (text : String) : String :=
  String.ofList (List.replicate (width - text.length) ' ') ++ text

/-- The end of a text that is too long for a column, behind dots. -/
def shorten (width : Nat) (text : String) : String :=
  let length := text.length
  if length ≤ width then text
  else "..." ++ String.ofList (text.toList.drop (length + 3 - width))

def nameWidth : Nat := 40

def topRows : Nat := 10

def row (name lineCount complexity direct depth : String) : String :=
  " ".intercalate [left nameWidth name, right 8 lineCount, right 10 complexity, right 6 direct,
    right 6 depth]

def fileRow (file : FileRecord) : String :=
  row (shorten nameWidth file.name) (toString (file.lineCount.getD 0))
    (toString (file.complexity.getD 0)) (toString file.importsDirect) (toString file.importsDepth)

/-- Whether a file comes before another in the table, or they are equal: the more complex one
first, and of equally complex ones by name. -/
def ranksBefore (a b : FileRecord) : Bool :=
  let x := a.complexity.getD 0
  let y := b.complexity.getD 0
  decide (y < x) || (x == y && decide (a.name ≤ b.name))

def ranked (atlas : Atlas) (limit : Nat) : List FileRecord :=
  ((atlas.files.filter FileRecord.isAnalyzed).mergeSort ranksBefore).take limit

def topComplexity (atlas : Atlas) (limit : Nat) : String :=
  lines (row "File" "Lines" "Complexity" "In" "Depth" :: (ranked atlas limit).map fileRow)

def fileCounts (atlas : Atlas) : String :=
  let failed := atlas.files.countP fun file => !file.isAnalyzed
  lines <|
    [toString atlas.fileCount ++ " files",
     "Lines: " ++ toString atlas.totalLines ++ " | Complexity: " ++ toString atlas.totalComplexity ++
       " | Edges: " ++ toString atlas.edgeCount] ++
      (if 0 < failed then ["Not analyzed: " ++ toString failed] else []) ++
      (atlas.unreached.map fun paths => "Unreached from entry: " ++ toString paths.length).toList

def files (atlas : Atlas) : String :=
  fileCounts atlas ++ lines [""] ++ topComplexity atlas topRows ++
    match atlas.unreached with
    | none => ""
    | some paths => lines ("" :: "Unreached files:" :: paths.map fun path => "  " ++ path.display)

def cycles (atlas : Atlas) : String :=
  match atlas.cycles with
  | none => lines ["No cycles found"]
  | some walks =>
    lines ((toString walks.length ++ " cycle(s) found") :: walks.map atlas.describeCycle)

def tests (atlas : Atlas) : String :=
  match CoverageStatistics.ofAtlas? atlas with
  | none => lines ["No coverage data"]
  | some stats =>
    lines <|
      ["Average: " ++ stats.average.oneDecimal ++ "%",
       "Max/min: " ++ stats.max.oneDecimal ++ "% / " ++ stats.min.oneDecimal ++ "%",
       "Files w/o tests: " ++ toString stats.uncovered] ++
        (if 0 < stats.withoutData then ["Files w/o data: " ++ toString stats.withoutData] else [])

def warnings (atlas : Atlas) : String :=
  lines ((toString atlas.warnings.length ++ " warning(s)") ::
    atlas.warnings.map fun warning => "  " ++ warning.describe)

def rule : String :=
  String.ofList (List.replicate 44 '━')

def overview (atlas : Atlas) : String :=
  let entry := (atlas.files.head?.map (·.name)).getD "?"
  lines ["Import Graph Analysis: " ++ entry, rule, "", "[Files]"] ++ fileCounts atlas ++
    (if atlas.hasCycles then lines ["", "[Cycles]"] ++ cycles atlas else "") ++
    lines ["", "[Tests]"] ++ tests atlas

def summary (atlas : Atlas) : String :=
  overview atlas ++
    if atlas.warnings.isEmpty then "" else lines ["", "[Warnings]"] ++ warnings atlas

def view (atlas : Atlas) : View → String
  | .summary => summary atlas
  | .files => files atlas
  | .cycles => cycles atlas
  | .tests => tests atlas

end Report

end CrateAtlas
