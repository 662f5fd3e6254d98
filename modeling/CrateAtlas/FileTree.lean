import CrateAtlas.Path

/-!
A tree of files and directories, and what paths denote in it. Paths are followed name by name from
the root or the current directory; `..` leads to the directory that was come from.

There are no links, nothing is refused for lack of permission or space, names may be of any length, and
nobody else changes the files while a program runs. A file that is written is first emptied or made, and
what is written to it then arrives in full.
-/

namespace CrateAtlas

inductive FileTree where
  /-- A file with its text; nothing if its bytes are no text. -/
  | file (content : Option String)
  | directory (children : List (Bytes × FileTree))
  deriving Inhabited

inductive FileError where
  | notFound
  | notDirectory
  | isDirectory
  | notText
  deriving DecidableEq, Repr, Inhabited

namespace FileError

def message : FileError → String
  | notFound => "No such file or directory (os error 2)"
  | notDirectory => "Not a directory (os error 20)"
  | isDirectory => "Is a directory (os error 21)"
  | notText => "stream did not contain valid UTF-8"

end FileError

namespace FileTree

def empty : FileTree :=
  directory []

def child? (name : Bytes) : FileTree → Option FileTree
  | directory children => children.lookup name
  | file _ => none

def isFile : FileTree → Bool
  | file _ => true
  | directory _ => false

def isDirectory (tree : FileTree) : Bool :=
  !tree.isFile

def setChild (name : Bytes) (tree : FileTree) :
    List (Bytes × FileTree) → List (Bytes × FileTree)
  | [] => [(name, tree)]
  | (other, old) :: rest =>
    if other = name then (name, tree) :: rest else (other, old) :: setChild name tree rest

/-- Puts a tree at the end of a way of names. Directories on the way are made as needed. -/
def insert (tree : FileTree) : List Bytes → FileTree → FileTree
  | [], _ => tree
  | name :: rest, here =>
    let children :=
      match here with
      | directory children => children
      | file _ => []
    let inner := (children.lookup name).getD empty
    directory (setChild name (insert tree rest inner) children)

def descend? : List Bytes → FileTree → Option FileTree
  | [], tree => some tree
  | name :: rest, tree => (tree.child? name).bind (descend? rest)

mutual

def ways : FileTree → List (List Bytes)
  | file _ => [[]]
  | directory children => [] :: waysAll children

def waysAll : List (Bytes × FileTree) → List (List Bytes)
  | [] => []
  | (name, tree) :: rest => tree.ways.map (name :: ·) ++ waysAll rest

end

end FileTree

structure FileSystem where
  root : FileTree
  current : List Bytes
  deriving Inhabited

structure Place where
  way : List Bytes
  tree : FileTree
  deriving Inhabited

namespace FileSystem

def absolute (way : List Bytes) : Path :=
  ⟨Path.slash :: [Path.slash].intercalate way⟩

def step (files : FileSystem) (way : List Bytes) (part : Bytes) : Except FileError (List Bytes) :=
  match files.root.descend? way with
  | none => .error .notFound
  | some (.file _) => .error .notDirectory
  | some (.directory children) =>
    if part = [Path.dot] then .ok way
    else if part = [Path.dot, Path.dot] then .ok way.dropLast
    else if (children.lookup part).isSome then .ok (way ++ [part])
    else .error .notFound

/-- The parts of a path that are followed. A separator at the end asks for a directory. -/
def parts (path : Path) : List Bytes :=
  let parts := Path.splitParts path.bytes
  let names := parts.filter (· != [])
  if parts.getLast? = some [] then names ++ [[Path.dot]] else names

def locate (files : FileSystem) (path : Path) : Except FileError Place := do
  if path.bytes.isEmpty then throw .notFound
  let start := if path.isAbsolute then [] else files.current
  let way ← (parts path).foldlM files.step start
  match files.root.descend? way with
  | some tree => return ⟨way, tree⟩
  | none => throw .notFound

def fileExists (files : FileSystem) (path : Path) : Bool :=
  (files.locate path).isOk

def isFile (files : FileSystem) (path : Path) : Bool :=
  match files.locate path with
  | .ok place => place.tree.isFile
  | .error _ => false

def isDirectory (files : FileSystem) (path : Path) : Bool :=
  match files.locate path with
  | .ok place => place.tree.isDirectory
  | .error _ => false

def read (files : FileSystem) (path : Path) : Except FileError String := do
  match (← files.locate path).tree with
  | .file (some text) => return text
  | .file none => throw .notText
  | .directory _ => throw .isDirectory

/-- The only absolute path of what a path denotes that has no `.` or `..`. -/
def canonical? (files : FileSystem) (path : Path) : Option Path :=
  match files.locate path with
  | .ok place => some (absolute place.way)
  | .error _ => none

def canonical (files : FileSystem) (path : Path) : Path :=
  (files.canonical? path).getD path

def enter (files : FileSystem) (path : Path) : Except FileError (List Bytes) := do
  let place ← files.locate path
  if place.tree.isDirectory then return place.way else throw .notDirectory

/-- The way to the file that writing to a path makes or replaces. -/
def target (files : FileSystem) (path : Path) : Except FileError (List Bytes) := do
  if path.bytes.isEmpty then throw .notFound
  let start := if path.isAbsolute then [] else files.current
  let asksDirectory := path.bytes.getLast? == some Path.slash
  let names := (Path.splitParts path.bytes).filter (· != [])
  match names.reverse with
  | [] => throw .isDirectory
  | last :: before =>
    let way ← before.reverse.foldlM files.step start
    match files.root.descend? way with
    | some (.directory children) =>
      if asksDirectory || last = [Path.dot] || last = [Path.dot, Path.dot] then throw .isDirectory
      match children.lookup last with
      | some (.directory _) => throw .isDirectory
      | _ => return way ++ [last]
    | _ => throw .notDirectory

def write (files : FileSystem) (path : Path) (text : String) : Except FileError FileSystem := do
  let way ← files.target path
  return { files with root := FileTree.insert (.file (some text)) way files.root }

end FileSystem

end CrateAtlas
