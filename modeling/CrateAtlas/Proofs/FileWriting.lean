import CrateAtlas.Proofs.PathSpelling

/-!
Writing a file. The text is found where it was written, and whatever stands elsewhere stays: files keep
their texts, and directories stay directories.
-/

namespace CrateAtlas

namespace FileTree

/-- What stands at a place, but for what is below it: a file with its text, or a directory. -/
def content? : FileTree → Option (Option String)
  | file text => some text
  | directory _ => none

end FileTree

namespace FileSystem

open CrateAtlas.Path

variable {files : FileSystem} {path : Path} {way : List Bytes}

def put (files : FileSystem) (way : List Bytes) (text : String) : FileSystem :=
  { files with root := FileTree.insert (.file (some text)) way files.root }

section

variable {front : List Bytes} {last : Bytes}

end

/-- One file has been made or has a new text: the one that a path leads to. -/
structure Rewrites (files : FileSystem) (path : Path) (text : String) (saved : FileSystem) : Prop where
  current : saved.current = files.current
  only : ∃ way, saved.locate path = .ok ⟨way, .file (some text)⟩ ∧
    ∀ other ≠ way, (saved.root.descend? other).map FileTree.content? =
      (files.root.descend? other).map FileTree.content?

theorem Rewrites.read {saved : FileSystem} {text : String} (rewrites : files.Rewrites path text saved) :
    saved.read path = .ok text := by
  obtain ⟨way, located, _⟩ := rewrites.only
  rw [FileSystem.read, located]
  rfl

end FileSystem

end CrateAtlas
