import CrateAtlas.CommandLine.Run

/-!
The program itself. It takes a picture of the files that the command may need, performs the command
on it, and writes and prints what comes out. It starts no other programs, so histories are not
available and the entry file has to be given.
-/

namespace CrateAtlas.Program

def maxDepth : Nat := 64

/-- What is at a path. Directories in which no source files are looked for stay empty. -/
def treeAt : Nat → String → IO FileTree
  | 0, _ => return .empty
  | depth + 1, path => do
    let here ← IO.FS.realPath path
    if ← here.isDir then
      let children ← (← here.readDir).toList.mapM fun entry => do
        let inner := path ++ "/" ++ entry.fileName
        let name := Bytes.ofText entry.fileName
        if Unreached.isSkipped name && (← entry.path.isDir) then return (name, FileTree.empty)
        return (name, ← treeAt depth inner)
      return .directory children
    else return .file (String.fromUTF8? (← IO.FS.readBinFile path))

def wayOf (path : String) : List Bytes :=
  ((path.splitOn "/").filter (· != "")).map Bytes.ofText

def addAt (tree : FileTree) (path : String) : IO FileTree := do
  try
    let real := (← IO.FS.realPath path).toString
    return .insert (← treeAt maxDepth real) (wayOf real) tree
  catch _ => return tree

/-- The current directory, the paths among the arguments, and the files with settings above these. -/
def snapshot (arguments : List String) : IO FileSystem := do
  let current := (← IO.currentDir).toString
  let places := current :: arguments.filter fun argument =>
    argument.startsWith "/" || argument.startsWith ".."
  let settings := places.flatMap fun place =>
    (Path.ancestors (.ofText place)).flatMap fun dir =>
      Config.fileNames.map fun name => (dir.join (.ofText name)).display
  let tree ← (settings ++ places).foldlM addAt .empty
  return ⟨tree, wayOf current⟩

end CrateAtlas.Program

def main (arguments : List String) : IO UInt32 := do
  let files ← CrateAtlas.Program.snapshot arguments
  let bytes := arguments.map CrateAtlas.Bytes.ofText
  let outcome := CrateAtlas.CommandLine.run files ⟨none, fun _ => none⟩ bytes
  match CrateAtlas.CommandLine.Command.ofArguments bytes with
  | .ok (.analyze command) =>
    if let .ok text := outcome.files.read command.output then
      if (files.read command.output).toOption != some text then
        IO.FS.writeFile command.output.display text
  | _ => pure ()
  outcome.messages.forM fun line => IO.eprintln line
  IO.print outcome.output
  return outcome.exitCode.toUInt32
