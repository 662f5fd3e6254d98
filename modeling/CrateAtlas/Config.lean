import CrateAtlas.FileTree
import CrateAtlas.Glob
import CrateAtlas.Outline.Score
import CrateAtlas.Text.Basic
import CrateAtlas.Toml.Reader

/-!
Settings of a project. They stand in a file in the analysed directory or above it; a path in the
file is relative to the file's directory.
-/

namespace CrateAtlas

structure HistoryConfig where
  enabled : Bool := true
  /-- How many months back commits count; zero is the whole history. -/
  months : Nat := 0
  bugPattern : String := "(?i)bug"
  deriving DecidableEq, Repr, Inhabited

structure Config where
  entry : Option Path := none
  exclude : List String := []
  excludeTests : Bool := false
  depthMode : DepthMode := .flat
  history : HistoryConfig := {}
  report : Option Path := none
  deriving DecidableEq, Repr, Inhabited

/-- Settings with compiled patterns and with paths that the file's directory is joined to. -/
structure Settings where
  entry : Option Path := none
  exclude : List Glob := []
  excludeTests : Bool := false
  depthMode : DepthMode := .flat
  history : HistoryConfig := {}
  report : Option Path := none
  deriving DecidableEq, Repr, Inhabited

inductive ConfigError where
  | unreadable (cause : FileError)
  | malformed
  | badPattern (pattern : String) (cause : GlobError)
  deriving DecidableEq, Repr

namespace ConfigError

def message : ConfigError → String
  | unreadable cause => "Failed to read config file: " ++ cause.message
  | malformed => "Failed to parse config file: " ++ elided
  | badPattern pattern cause => "Invalid glob pattern: " ++ pattern ++ ": " ++ cause.message

end ConfigError

namespace Toml.Value

/-- The value of a field, by its name in a table or by its place in a list. A date or time counts as
a table without fields. -/
def field? (name : String) (place : Nat) : Toml.Value → Option (Option Toml.Value)
  | table _ entries => some (entries.lookup name)
  | list items => some items[place]?
  | moment => some none
  | _ => none

def text? : Toml.Value → Option String
  | text value => some value
  | _ => none

def boolean? : Toml.Value → Option Bool
  | boolean value => some value
  | _ => none

def natural? : Toml.Value → Option Nat
  | integer (.ofNat value) => some value
  | _ => none

def texts? : Toml.Value → Option (List String)
  | list items => items.mapM text?
  | _ => none

/-- A depth mode is a name, or a table with that name for its only key and nothing in it. -/
def depthMode? : Toml.Value → Option DepthMode
  | text name => DepthMode.ofName? name
  | table _ [(name, list [])] => DepthMode.ofName? name
  | table _ [(name, table _ [])] => DepthMode.ofName? name
  | _ => none

end Toml.Value

namespace Config

def fieldOr {α : Type} (section? : Option Toml.Value) (name : String) (place : Nat)
    (read : Toml.Value → Option α) (missing : α) : Option α := do
  match section? with
  | none => return missing
  | some values =>
    match ← values.field? name place with
    | none => return missing
    | some value => read value

def ofEntries? (entries : Toml.Entries) : Option Config := do
  let path := fun (value : Toml.Value) => value.text?.map fun text => some (Path.ofText text)
  let analysis := entries.lookup "analysis"
  let history := entries.lookup "history"
  let coverage := entries.lookup "coverage"
  let default : HistoryConfig := {}
  return {
    entry := ← fieldOr analysis "entry" 0 path none
    exclude := ← fieldOr analysis "exclude" 1 Toml.Value.texts? []
    excludeTests := ← fieldOr analysis "exclude_tests" 2 Toml.Value.boolean? false
    depthMode := ← fieldOr analysis "depth_mode" 3 Toml.Value.depthMode? .flat
    history := {
      enabled := ← fieldOr history "enabled" 0 Toml.Value.boolean? default.enabled
      months := ← fieldOr history "months" 1 Toml.Value.natural? default.months
      bugPattern := ← fieldOr history "bug_pattern" 2 Toml.Value.text? default.bugPattern }
    report := ← fieldOr coverage "report" 0 path none }

def ofText (text : String) : Except ConfigError Config :=
  match (Toml.read? text).bind ofEntries? with
  | some config => .ok config
  | none => .error .malformed

def ofFile (files : FileSystem) (path : Path) : Except ConfigError Config := do
  match files.read path with
  | .ok text => ofText text
  | .error cause => throw (.unreadable cause)

/-- The names of a file with settings. The first is preferred. -/
def fileNames : List String :=
  [".importgraph.toml", "importgraph.toml"]

def fileIn? (files : FileSystem) (dir : Path) : Option Path :=
  (fileNames.map fun (name : String) => dir.join name).find? files.isFile

/-- The file with settings that is closest to a path: next to a file or in a directory, else in the
directories above. -/
def find? (files : FileSystem) (start : Path) : Option Path := do
  let dir ← if files.isFile start then start.parent? else some start
  dir.ancestors.findSome? (fileIn? files)

def load (files : FileSystem) (start : Path) : Except ConfigError Config :=
  match find? files start with
  | some path => ofFile files path
  | none => .ok {}

end Config

namespace Settings

def patterns (texts : List String) : Except ConfigError (List Glob) :=
  texts.mapM fun text => (Glob.compile text).mapError (ConfigError.badPattern text)

def ofConfig (config : Config) (dir : Path) : Except ConfigError Settings := do
  return {
    entry := config.entry.map dir.join
    exclude := ← patterns config.exclude
    excludeTests := config.excludeTests
    depthMode := config.depthMode
    history := config.history
    report := config.report.map dir.join }

def ofFile (files : FileSystem) (path : Path) : Except ConfigError Settings := do
  ofConfig (← Config.ofFile files path) (path.parent?.getD ".")

/-- The settings in a given file, else those in the file that is found for a path, else those by
default. -/
def load (files : FileSystem) (start : Path) (file : Option Path) : Except ConfigError Settings :=
  match file <|> Config.find? files start with
  | some path => ofFile files path
  | none => .ok {}

end Settings

end CrateAtlas
