import CrateAtlas.FileTree
import CrateAtlas.Resolver
import CrateAtlas.Text.Basic

/-!
Packages of a workspace, and what an analysis needs to know of the one that holds a path.
-/

namespace CrateAtlas

structure BuildTarget where
  name : String
  kinds : List String
  source : Path
  deriving DecidableEq, Repr, Inhabited

structure Dependency where
  name : String
  rename : Option String
  deriving DecidableEq, Repr, Inhabited

structure Package where
  name : String
  manifest : Path
  dependencies : List Dependency
  targets : List BuildTarget
  deriving DecidableEq, Repr, Inhabited

structure Workspace where
  root : Path
  packages : List (Package × Bool)
  deriving DecidableEq, Repr, Inhabited

structure MetadataRequest where
  dir : Path
  arguments : List Bytes
  deriving DecidableEq, Repr, Inhabited

/-- The package manager. It gives nothing if it fails. -/
abbrev MetadataService := MetadataRequest → Option Workspace

structure Layout where
  package : String
  /-- The file that the package's library starts with, else its first program. -/
  entry : Path
  projectDir : Path
  externCrates : List String
  deriving DecidableEq, Repr, Inhabited

inductive LayoutError where
  | noMetadata
  | noPackage (path : Path)
  | noTarget (package : String)
  deriving DecidableEq, Repr

namespace LayoutError

def message : LayoutError → String
  | noMetadata => "Failed to run cargo metadata: " ++ elided
  | noPackage path => "No package found for " ++ path.display
  | noTarget package => "Package `" ++ package ++ "` has no library or binary target"

end LayoutError

namespace BuildTarget

/-- Only the kind `lib` counts: a library of the kind `rlib`, `dylib`, `cdylib` or `staticlib` alone
is not one here. -/
def isLibrary (target : BuildTarget) : Bool :=
  target.kinds.contains "lib"

def isProcMacro (target : BuildTarget) : Bool :=
  target.kinds.contains "proc-macro"

def isProgram (target : BuildTarget) : Bool :=
  target.kinds.contains "bin"

end BuildTarget

namespace Dependency

def crateName (dependency : Dependency) : String :=
  Resolver.crateName (dependency.rename.getD dependency.name)

end Dependency

namespace Package

def holds (package : Package) (path : Path) : Bool :=
  package.manifest.parent?.any path.startsWith

def depth (package : Package) : Nat :=
  package.manifest.components.length

def mainTarget? (package : Package) : Option BuildTarget :=
  package.targets.find? (fun target => target.isLibrary || target.isProcMacro) <|>
    package.targets.find? BuildTarget.isProgram

/-- The crates that paths in the package may name. Its programs use its own library by name. -/
def externCrates (package : Package) : List String :=
  package.dependencies.map Dependency.crateName ++
    ((package.targets.find? BuildTarget.isLibrary).map fun library =>
      Resolver.crateName library.name).toList

def layout (package : Package) : Except LayoutError Layout :=
  match package.mainTarget? with
  | some target =>
    .ok ⟨package.name, target.source, package.manifest.parent?.getD "", package.externCrates⟩
  | none => .error (.noTarget package.name)

end Package

namespace Workspace

/-- The deepest of some packages, the last of those that are equally deep. -/
def deepest? (packages : List Package) : Option Package :=
  packages.foldl
    (fun best package =>
      match best with
      | some other => if other.depth ≤ package.depth then some package else some other
      | none => some package)
    none

def members (workspace : Workspace) : List Package :=
  (workspace.packages.filter (·.2)).map (·.1)

def rootPackage? (workspace : Workspace) : Option Package :=
  (workspace.packages.map (·.1)).find? fun package =>
    package.manifest.same (workspace.root.join "Cargo.toml")

/-- The member closest to a path, else the package in the workspace's directory, else the first
package. -/
def packageFor? (workspace : Workspace) (path : Path) : Option Package :=
  deepest? (workspace.members.filter (·.holds path)) <|> workspace.rootPackage? <|>
    (workspace.packages.head?.map (·.1))

end Workspace

namespace Layout

/-- The run that asks for the packages around a path, unless its directory cannot be entered. -/
def request (files : FileSystem) (path : Path) (manifest : Option Path) :
    Except FileError MetadataRequest := do
  let arguments : List Bytes := ["metadata", "--format-version", "1", "--no-deps"]
  match manifest with
  | some manifest =>
    return ⟨FileSystem.absolute files.current, arguments ++ [Bytes.ofText "--manifest-path", manifest.bytes]⟩
  | none =>
    let dir := if files.isFile path then path.parent?.getD path else path
    return ⟨FileSystem.absolute (← files.enter dir), arguments⟩

def discover (files : FileSystem) (service : MetadataService) (path : Path) (manifest : Option Path) :
    Except LayoutError Layout :=
  match (request files path manifest).toOption.bind service with
  | none => .error .noMetadata
  | some workspace =>
    match workspace.packageFor? (files.canonical path) with
    | some package => package.layout
    | none => .error (.noPackage path)

end Layout

end CrateAtlas
