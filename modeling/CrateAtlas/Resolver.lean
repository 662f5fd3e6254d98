import CrateAtlas.FileTree
import CrateAtlas.Glob
import CrateAtlas.Graph.Discovery
import CrateAtlas.Text.Basic

/-!
What module specifiers lead to. The module `a::b` is the file `a/b.rs` or `a/b/mod.rs` below the
directory of the crate's root file.
-/

namespace CrateAtlas

structure Resolver where
  rootFile : Path
  sourceDir : Path
  /-- The directory that patterns for files to leave out are relative to. -/
  projectDir : Path
  /-- The other crates that a manifest lists, if there is a manifest. -/
  externCrates : Option (List String)
  exclude : List Glob
  deriving DecidableEq, Repr

namespace Resolver

def builtinCrates : List String :=
  ["std", "core", "alloc", "proc_macro", "test"]

def crateName (package : String) : String :=
  Text.swapChar '-' '_' package

def ofRootFile (rootFile : Path) : Resolver :=
  let sourceDir := rootFile.parent?.getD ""
  let projectDir :=
    if sourceDir.fileName? = some (.ofText "src") then sourceDir.parent?.getD "" else sourceDir
  ⟨rootFile, sourceDir, projectDir, none, []⟩

def withExternCrates (resolver : Resolver) (crates : List String) : Resolver :=
  { resolver with externCrates := some (crates.map crateName) }

def withProjectDir (resolver : Resolver) (dir : Path) : Resolver :=
  { resolver with projectDir := dir }

def withExclude (resolver : Resolver) (exclude : List Glob) : Resolver :=
  { resolver with exclude }

/-- The names of the module that a file holds; nothing for a file outside the crate. -/
def modulePath? (resolver : Resolver) (file : Path) : Option (List String) :=
  if file.same resolver.rootFile then some []
  else do
    let relative ← file.below? resolver.sourceDir
    let names := relative.components.map fun component => component.bytes.display
    let last ← names.getLast?
    let stem ← Text.dropEnd? last ".rs"
    return if stem = "mod" then names.dropLast else names.dropLast ++ [stem]

def moduleFile? (files : FileSystem) (resolver : Resolver) (names : List String) : Option Path :=
  match names.getLast? with
  | none => some resolver.rootFile
  | some last =>
    let dir := names.dropLast.foldl (fun dir name => dir.join name) resolver.sourceDir
    let flat := dir.join (last ++ ".rs" : String)
    let nested := (dir.join last).join "mod.rs"
    if files.isFile flat then some flat
    else if files.isFile nested then some nested
    else none

/-- The file of the longest of the first `count` names or fewer that has one; the root file if none
has. -/
def deepestFile (files : FileSystem) (resolver : Resolver) (names : List String) : Nat → Path
  | 0 => resolver.rootFile
  | count + 1 =>
    match resolver.moduleFile? files (names.take (count + 1)) with
    | some file => file
    | none => resolver.deepestFile files names count

def isExternCrate (resolver : Resolver) (name : String) : Bool :=
  builtinCrates.contains name || (resolver.externCrates.getD []).contains name

def isExcluded (resolver : Resolver) (path : Path) : Bool :=
  let relative := Text.swapChar '\\' '/' ((path.below? resolver.projectDir).getD path).display
  resolver.exclude.any fun glob => glob.fits relative

def segments (specifier : String) : List String :=
  ((Text.splitColons specifier.toList).map String.ofList).filter (· != "")

inductive Target where
  | module (names : List String)
  | external
  | unknown
  deriving DecidableEq, Repr

/-- Expands `crate`, `self`, `super` and names of submodules. -/
def target (files : FileSystem) (resolver : Resolver) (here : List String) (first : String)
    (rest : List String) : Target :=
  if first = "crate" then .module rest
  else if first = "self" then .module (here ++ rest)
  else if first = "super" then
    let ups := 1 + (rest.takeWhile (· == "super")).length
    if here.length < ups then .unknown
    else .module (here.take (here.length - ups) ++ rest.drop (ups - 1))
  else if (resolver.moduleFile? files (here ++ [first])).isSome then .module (here ++ first :: rest)
  else if resolver.isExternCrate first || resolver.externCrates.isNone then .external
  else .unknown

def resolve (files : FileSystem) (resolver : Resolver) (specifier : String) (importer : Path) :
    Resolution :=
  match segments specifier, resolver.modulePath? importer with
  | first :: rest, some here =>
    match resolver.target files here first rest with
    | .module names =>
      let file := resolver.deepestFile files names names.length
      if resolver.isExcluded file then .excluded file else .internal file
    | .external => .external specifier
    | .unknown => .unresolved
  | _, _ => .unresolved

end Resolver

end CrateAtlas
