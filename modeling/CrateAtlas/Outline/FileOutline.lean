import CrateAtlas.FileTree
import CrateAtlas.Outline.Lower
import CrateAtlas.Source.Grammar.File
import CrateAtlas.Text.Basic

/-!
The outline of a source file, read from text or from a file.
-/

namespace CrateAtlas

structure FileOutline where
  root : Outline
  lineCount : Nat
  /-- Whether the file only declares foreign functions; its imports are not followed then. -/
  declarationOnly : Bool
  deriving Repr, Inhabited

inductive SourceError where
  | unreadable (path : Path) (reason : String)
  | malformed (path : Path) (reason : String)
  deriving DecidableEq, Repr

namespace SourceError

def path : SourceError → Path
  | unreadable path _ | malformed path _ => path

def isUnreadable : SourceError → Bool
  | unreadable _ _ => true
  | malformed _ _ => false

def message : SourceError → String
  | unreadable path reason => "Failed to read " ++ path.display ++ ": " ++ reason
  | malformed path reason => "Failed to parse " ++ path.display ++ ": " ++ reason

end SourceError

namespace FileOutline

def ofText (excludeTests : Bool) (path : Path) (text : String) : Except SourceError FileOutline :=
  match Source.SourceFile.parse? text with
  | none => .error (.malformed path elided)
  | some file =>
    .ok ⟨file.outline excludeTests, Text.lineCount text, file.isDeclarationOnly⟩

def ofFile (files : FileSystem) (excludeTests : Bool) (path : Path) :
    Except SourceError FileOutline :=
  match files.read path with
  | .ok text => ofText excludeTests path text
  | .error .notText => .error (.malformed path elided)
  | .error error => .error (.unreadable path error.message)

end FileOutline

end CrateAtlas
